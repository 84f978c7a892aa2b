import FactFold.Proofs.Machine.Altering
import FactFold.Proofs.Machine.Oblivious

/-!
# Vectors in fields

What the statements on a vector field come to when they succeed: writing puts a copy into the field,
and every method of a vector keeps its length. So the length of the vector in a field is decided by
the first one that is written there (`accumulate_ok`), whatever comes later.

`World.extent` is that length, and `World.Grown` says that a buffer has a vector of a given length
and is otherwise as it was. Both are about the first field; the second one counts rows.
-/

namespace FactFold

/-! ## Lengths -/

theorem Vector.zipOnto_length (f : Float → Float → Float) :
    ∀ xs ys, (Vector.zipOnto f xs ys).length = xs.length
  | _ :: xs, _ :: ys => by
    rw [zipOnto, List.length_cons, List.length_cons, zipOnto_length f xs ys]
  | _ :: _, [] | [], [] | [], _ :: _ => by simp [zipOnto]

namespace Machine

open Run (Preserves Spares)

variable {natives : Natives} {env : Env} {w w' u : World} {id : Nat}

theorem vectorChange?_length {method : String} {change : List Float → List Float → List Float}
    (h : vectorChange? method = some change) (xs ys : List Float) :
    (change xs ys).length = xs.length := by
  unfold vectorChange? at h
  split at h
  case h_5 => cases h
  all_goals
    obtain rfl := Option.some.inj h
    exact Vector.zipOnto_length _ xs ys

theorem World.Survives.trans {v : World} (h : w.Survives u) (h' : u.Survives v) : w.Survives v :=
  ⟨h'.buffers.trans h.buffers, h.cells.trans h'.cells⟩

theorem World.Survives.alike {v : World} (h : w.Survives u) (halike : v.Alike u) : w.Survives v :=
  ⟨halike.buffers.trans h.buffers, halike.heap ▸ h.cells⟩

/-- No vector has another length in the later world. -/
structure World.KeepsLengths (w w' : World) : Prop where
  length_le : w.heap.cells.length ≤ w'.heap.cells.length
  lengths : ∀ ref, ref < w.heap.cells.length → (w'.heap.get ref).length = (w.heap.get ref).length

namespace World.KeepsLengths

theorem of_survives (h : w.Survives w') : w.KeepsLengths w' :=
  ⟨h.length_le, fun _ href => by rw [h.get_heap href]⟩

theorem trans (h : w.KeepsLengths u) (h' : u.KeepsLengths w') : w.KeepsLengths w' :=
  ⟨h.length_le.trans h'.length_le, fun ref href =>
    (h'.lengths ref (lt_of_lt_of_le href h.length_le)).trans (h.lengths ref href)⟩

theorem set (w : World) (ref : Nat) {items : List Float}
    (hitems : items.length = (w.heap.get ref).length) :
    w.KeepsLengths { w with heap := w.heap.set ref items } := by
  refine ⟨by simp [Heap.set], fun r hr => ?_⟩
  by_cases heq : ref = r
  · subst heq
    rw [← hitems]
    simp [Heap.set, Heap.get, hr]
  · simp [Heap.set, Heap.get, List.getElem?_set_ne heq]

end World.KeepsLengths

/-- A step that spares every world changes no length. -/
theorem Run.Preserves.keepsLengths {α : Type} {x : Run α} {w₀ : World} (hx : ∀ w, Spares w x) :
    Preserves w₀.KeepsLengths x :=
  fun w hw => hw.trans (.of_survives (hx w w (.refl w)))

/-- A method of a vector changes items, but no length. -/
theorem vectorMethod_keepsLengths {w₀ : World} (ref : Option Nat) (method : String)
    (args : List Value) : Preserves w₀.KeepsLengths (vectorMethod ref method args) := by
  have hupdate : ∀ f : List Float → List Float, (∀ xs, (f xs).length = xs.length) →
      Preserves w₀.KeepsLengths (updateIfPresent ref f >>= fun _ => pure Value.null) := by
    intro f hf
    cases ref with
    | none => exact .pure _
    | some ref => exact .bind (fun w hw => hw.trans (.set w ref (hf _))) fun _ => .pure _
  unfold vectorMethod
  split
  · split
    · exact .keepsLengths fun _ => .bind (.vectorAt _) fun _ => .bind (.alloc _) fun _ => .pure _
    · exact .pure _
  · split
    · split
      · exact .bind (.converted _) fun factor => hupdate _ fun xs => List.length_map ..
      · refine .bind (.keepsLengths fun _ => .toVector _) fun other => ?_
        split
        · exact .throw _
        · split
          · exact .throw _
          · rename_i change hchange
            exact .bind (.keepsLengths fun _ => .vectorAt _) fun items =>
              hupdate _ fun xs => vectorChange?_length hchange xs items
    · exact .throw _

/-! ## The vector in the first field -/

/-- The length of the vector in the first field of a buffer, if there is one. -/
def World.extent (w : World) (id : Nat) : Option Nat :=
  ((w.buffer id).vectorAt 0).map fun ref => (w.heap.get ref).length

theorem World.Alike.extent (h : w.Alike u) (id : Nat) : w.extent id = u.extent id := by
  rw [World.extent, World.extent, h.buffer, h.heap]

theorem World.Agrees.extent (h : w.Agrees id w') : w'.extent id = w.extent id := by
  unfold World.extent
  rw [h.fields]
  cases href : (w.buffer id).vectorAt 0 with
  | none => rfl
  | some ref => rw [Option.map_some, Option.map_some, h.items 0 ref href]

/-- A field with a vector is set. -/
theorem World.isNull_of_extent {k : Nat} (h : w.extent id = some k) :
    ((w.buffer id).valueAt 0).isNull = false := by
  unfold World.extent Memory.vectorAt at h
  cases hvalue : (w.buffer id).valueAt 0 with
  | null => simp [hvalue] at h
  | _ => rfl

/-- The buffer has a vector of the length in its first field. All other fields and all other buffers
are as they were. -/
structure World.Grown (id length : Nat) (w w' : World) : Prop where
  extent : w'.extent id = some length
  second : (w'.buffer id).valueAt 1 = (w.buffer id).valueAt 1
  layout : (w'.buffer id).layout = (w.buffer id).layout
  fields : (w'.buffer id).fields.length = (w.buffer id).fields.length
  others : ∀ j, j ≠ id → w'.buffer j = w.buffer j

/-- Only the buffers matter at the start. -/
theorem World.Grown.of_buffers {k : Nat} (h : u.Grown id k w') (hbuffers : u.buffers = w.buffers) :
    w.Grown id k w' := by
  have hsame : ∀ j, u.buffer j = w.buffer j := fun j => by rw [World.buffer, World.buffer, hbuffers]
  exact ⟨h.extent, by rw [h.second, hsame], by rw [h.layout, hsame], by rw [h.fields, hsame],
    fun j hj => by rw [h.others j hj, hsame]⟩

/-- From a world like this one the step yields a vector of the length, and spares the world. -/
def YieldsVector (w : World) (x : Run Value) (length : Nat) : Prop :=
  ∀ ⦃u : World⦄, u.Alike w → ∀ ⦃v : Value⦄ ⦃u' : World⦄, x.runIn u = (.ok v, u') →
    ∃ ref, v = .vector (some ref) ∧ (u'.heap.get ref).length = length ∧ u'.buffers = u.buffers

/-- A buffer with a field can be replaced. -/
theorem World.buffer_setBuffer_of_range (hrange : 0 < (w.buffer id).layout.length) (m : Memory) :
    (w.setBuffer id m).buffer id = m := by
  by_cases h : id < w.buffers.length
  · simp [World.buffer, World.setBuffer, h]
  · simp [World.buffer, List.getElem?_eq_none (not_lt.1 h)] at hrange

/-- Writing a vector copies it into a new place. -/
theorem bufferWrite_grows {ref : Nat} {n : Numeric} {r : Value}
    (ht : (w.buffer id).typeAt 0 = .array n) (hfields : 0 < (w.buffer id).fields.length)
    (hrange : 0 < (w.buffer id).layout.length)
    (h : (bufferWrite id 0 (.vector (some ref))).runIn w = (.ok r, w')) :
    w.Grown id (w.heap.get ref).length w' := by
  have hwrite : (w.buffer id).writeAt w.heap 0 (.vector (some ref)) =
      .ok ((w.buffer id).setAt 0 (.vector (some w.heap.cells.length)),
        (w.heap.alloc (w.heap.get ref)).2) := by
    unfold Memory.writeAt
    simp only [ht]
    rfl
  simp only [bufferWrite, Run.runIn_bind, Run.runIn_get, ht, DataType.isArray, if_true,
    Run.toVector, Value.asVector?, map_pure, Run.runIn_pure, hwrite, Run.runIn_set,
    Prod.mk.injEq] at h
  obtain ⟨-, rfl⟩ := h
  set copied := (w.buffer id).setAt 0 (.vector (some w.heap.cells.length)) with hcopied
  have hbuffer : ∀ heap : Heap, ({ w with heap := heap }.setBuffer id copied).buffer id = copied :=
    fun heap => World.buffer_setBuffer_of_range (w := { w with heap := heap }) hrange copied
  have hfirst : copied.vectorAt 0 = some w.heap.cells.length := by
    simp [hcopied, Memory.vectorAt, Memory.valueAt, Memory.setAt, hfields]
  constructor
  case extent =>
    rw [World.extent, hbuffer, hfirst]
    simp [World.setBuffer, Heap.alloc, Heap.get]
  case second =>
    rw [hbuffer]
    simp [hcopied, Memory.valueAt, Memory.setAt]
  case layout => rw [hbuffer, hcopied, Memory.setAt]
  case fields =>
    rw [hbuffer]
    exact List.length_set ..
  case others =>
    intro j hj
    exact World.buffer_setBuffer_ne hj copied

/-- Reading a vector yields the one in the field, or null. -/
theorem bufferMethod_vector_ok {i : Nat} (hi : i ≤ 1) {method : String} {v : Value}
    (hm : method = "readVector" ∨ method = "readWritableVector")
    (h : (bufferMethod id method [fieldValue i]).runIn w = (.ok v, w')) :
    v = Run.boxed ((w.buffer id).vectorAt i) ∧ w' = w := by
  have hrange := bufferMethod_range hi h
  simp only [bufferMethod, fieldValue_index hi, Run.converted_ok, pure_bind, Run.runIn_bind,
    Run.runIn_get] at h
  rw [if_neg (by omega)] at h
  rcases hm with rfl | rfl
  all_goals
    obtain ⟨hv, rfl⟩ := Prod.mk.inj h
    exact ⟨(Except.ok.inj hv).symm, rfl⟩

/-- The term that reads the vector in a field. -/
theorem Holds.readVector {b : BufferRef} (hb : Holds env b id) (i : Nat) :
    RunsAs natives env (b.readVector i) .any (bufferMethod id "readVector" [fieldValue i]) := by
  have h := hb.method "readVector" i (show AllRunAs natives env [] _ from .nil)
  rw [pure_bind] at h
  exact h

/-- A condition that only looks at the world tells the branch that runs, in the same world but for
what is remembered. -/
theorem cond_looks {c : Term} {t : Static} {x : Run Value} {yes no : List Stmt} {f : Flow}
    (hc : RunsAs natives env c t x) {P : Bool → Prop}
    (hlook : ∀ ⦃u v u'⦄, u.Alike w → x.runIn u = (.ok v, u') → u' = u ∧ ∃ c, v = .bool c ∧ P c)
    (h : (execStmt natives env (.cond c yes no)).runIn w = (.ok f, w')) :
    ∃ c u, P c ∧ u.Alike w ∧ (exec natives env (if c then yes else no)).runIn u = (.ok f, w') := by
  obtain ⟨v, c, u, heval, hbool, hexec⟩ := cond_ok h
  obtain ⟨s, hrun⟩ := evaluate_ok hc heval
  have halike := World.Alike.remember w s
  obtain ⟨rfl, c', rfl, hP⟩ := hlook halike hrun
  obtain rfl : c' = c := Except.ok.inj hbool
  exact ⟨c', _, hP, halike, hexec⟩

/-- Whether a field is unset, in a world like another. -/
theorem isNull_looks {v : Value} {u' : World} (halike : u.Alike w)
    (h : (bufferMethod id "isNull" [fieldValue 0]).runIn u = (.ok v, u')) :
    u' = u ∧ v = .bool ((w.buffer id).valueAt 0).isNull ∧ 0 < (w.buffer id).layout.length := by
  have hrange := bufferMethod_range (i := 0) (by omega) h
  obtain ⟨rfl, rfl⟩ := bufferMethod_isNull_ok (by omega) h
  rw [halike.buffer] at hrange ⊢
  exact ⟨rfl, rfl, hrange⟩

section Statements

variable {b : BufferRef} (hb : Holds env b id)

include hb

theorem write_vector_ok {n : Numeric} (ht : (w.buffer id).typeAt 0 = .array n)
    (hfields : 0 < (w.buffer id).fields.length) {value : Term} {t : Static} {x : Run Value}
    (hvalue : RunsAs natives env value t x) {k : Nat} (hx : YieldsVector w x k) {f : Flow}
    (h : (execStmt natives env (b.write 0 value)).runIn w = (.ok f, w')) :
    f = .next env ∧ w.Grown id k w' := by
  obtain ⟨rfl, _, v, u, r, halike, hv, hwrite⟩ := hb.run_method_ok hvalue h
  refine ⟨rfl, ?_⟩
  obtain ⟨ref, rfl, rfl, hbuffers⟩ := hx halike hv
  have hsame : u.buffers = w.buffers := hbuffers.trans halike.buffers
  have hbuffer : u.buffer id = w.buffer id := by rw [World.buffer, World.buffer, hsame]
  have hrange := bufferMethod_range (i := 0) (by omega) hwrite
  rw [bufferMethod_write (by omega) hrange] at hwrite
  rw [← hbuffer] at ht hfields
  exact (bufferWrite_grows ht hfields hrange hwrite).of_buffers hsame

/-- A method of the vector in the field keeps the length of the vector. -/
theorem vector_ok {value : Term} {ref : Nat} (href : (w.buffer id).vectorAt 0 = some ref)
    (hplaced : ref < w.heap.cells.length) (hvalue : Sparing natives env value) {method : String}
    {f : Flow} (h : (execStmt natives env (b.vector 0 method [value])).runIn w = (.ok f, w')) :
    f = .next env ∧ w.Grown id (w.heap.get ref).length w' := by
  obtain ⟨rfl, r, heval⟩ := run_ok h
  refine ⟨rfl, ?_⟩
  obtain ⟨t, x, hruns, hspares⟩ := hvalue
  have hread := hb.method "readWritableVector" 0 (show AllRunAs natives env [] _ from .nil)
  obtain ⟨s, hs⟩ := evaluate_ok (.invoke method hread (.single hruns)) heval
  simp only [bind_assoc, pure_bind] at hs
  obtain ⟨v, u, hv, hs⟩ := Run.runIn_bind_ok_iff.1 hs
  obtain ⟨arg, u', harg, hmethod⟩ := Run.runIn_bind_ok_iff.1 hs
  have halike := World.Alike.remember w s
  obtain ⟨rfl, rfl⟩ := bufferMethod_vector_ok (by omega) (.inr rfl) hv
  rw [halike.buffer, href] at hmethod
  -- the argument is computed first, and spares the world
  have hargument : (w.remember s).Survives u' := by
    have := hspares (w.remember s) (w.remember s) (.refl _)
    rwa [harg] at this
  have hsurvives : w.Survives u' := ((World.Survives.refl w).alike halike).trans hargument
  have hmethod : (vectorMethod (some ref) method [arg]).runIn u' = (.ok r, w') := hmethod
  have hbuffers : w'.buffers = w.buffers := by
    have := (quiet_vectorMethod (some ref) method [arg]).buffers u'
    rw [hmethod] at this
    exact this.trans hsurvives.buffers
  have hlengths : w.KeepsLengths w' := by
    have := vectorMethod_keepsLengths (some ref) method [arg] u' (.of_survives hsurvives)
    rwa [hmethod] at this
  have hsame : ∀ j, w'.buffer j = w.buffer j := by
    intro j
    rw [World.buffer, World.buffer, hbuffers]
  refine ⟨?_, by rw [hsame], by rw [hsame], by rw [hsame], fun j _ => hsame j⟩
  -- the field still has the vector at its old place, which the method has filled anew
  rw [World.extent, hsame, href, Option.map_some, hlengths.lengths ref hplaced]

theorem isNull_cond_ok {yes no : List Stmt} {f : Flow}
    (h : (execStmt natives env (.cond (b.isNull 0) yes no)).runIn w = (.ok f, w')) :
    0 < (w.buffer id).layout.length ∧ ∃ u, u.Alike w ∧
      (exec natives env (if ((w.buffer id).valueAt 0).isNull then yes else no)).runIn u =
        (.ok f, w') := by
  obtain ⟨_, u, ⟨hrange, rfl⟩, halike, hexec⟩ := cond_looks (hb.isNull 0)
    (P := fun c => 0 < (w.buffer id).layout.length ∧ c = ((w.buffer id).valueAt 0).isNull)
    (fun u v u' halike hrun => by
      obtain ⟨rfl, rfl, hrange⟩ := isNull_looks halike hrun
      exact ⟨rfl, _, rfl, hrange, rfl⟩) h
  exact ⟨hrange, u, halike, hexec⟩

theorem isSet_cond_ok {yes no : List Stmt} {f : Flow}
    (h : (execStmt natives env (.cond (b.isSet 0) yes no)).runIn w = (.ok f, w')) :
    0 < (w.buffer id).layout.length ∧ ∃ u, u.Alike w ∧
      (exec natives env (if ((w.buffer id).valueAt 0).isNull then no else yes)).runIn u =
        (.ok f, w') := by
  obtain ⟨_, u, ⟨hrange, rfl⟩, halike, hexec⟩ := cond_looks (hb.isNull 0).not
    (P := fun c => 0 < (w.buffer id).layout.length ∧ c = !((w.buffer id).valueAt 0).isNull)
    (fun u v u' halike hrun => by
      obtain ⟨r, u₁, hr, hnot⟩ := Run.runIn_bind_ok_iff.1 hrun
      obtain ⟨rfl, rfl, hrange⟩ := isNull_looks halike hr
      obtain ⟨hv, rfl⟩ := Prod.mk.inj hnot
      exact ⟨rfl, _, (Except.ok.inj hv).symm, hrange, rfl⟩) h
  refine ⟨hrange, u, halike, ?_⟩
  cases hnull : ((w.buffer id).valueAt 0).isNull with
  | true => simpa [hnull] using hexec
  | false => simpa [hnull] using hexec

/-- **The first vector decides the length.** Into an unset field a vector is written, and its length
is that of the vector; the vector in a field that is set changes, and keeps its length. -/
theorem accumulate_ok {n : Numeric} (ht : (w.buffer id).typeAt 0 = .array n)
    (hfields : 0 < (w.buffer id).fields.length)
    (hclean : ((w.buffer id).valueAt 0).isNull = (w.extent id).isNone)
    (hplaced : ∀ ref, (w.buffer id).vectorAt 0 = some ref → ref < w.heap.cells.length)
    {first value : Term} {t : Static} {x : Run Value} (hfirst : RunsAs natives env first t x)
    {k : Nat} (hx : YieldsVector w x k) (hvalue : Sparing natives env value) {method : String}
    {f : Flow}
    (h : (execStmt natives env
      (.cond (b.isNull 0) [b.write 0 first] [b.vector 0 method [value]])).runIn w = (.ok f, w')) :
    f = .next env ∧ 0 < (w.buffer id).layout.length ∧ w.Grown id ((w.extent id).getD k) w' := by
  obtain ⟨hrange, u, halike, hexec⟩ := isNull_cond_ok hb h
  have hbuffer := halike.buffer id
  cases hextent : w.extent id with
  | none =>
    -- unset: the vector is written
    rw [hclean, hextent, Option.isNone_none, if_pos rfl, exec_single] at hexec
    have hx' : YieldsVector u x k := fun u' hu' => hx (hu'.trans halike)
    obtain ⟨hf, hgrown⟩ := write_vector_ok hb (by rw [hbuffer]; exact ht)
      (by rw [hbuffer]; exact hfields) hfirst hx' hexec
    exact ⟨hf, hrange, hgrown.of_buffers halike.buffers⟩
  | some k' =>
    -- set: the vector that is there takes the other in
    rw [hclean, hextent, Option.isNone_some, if_neg (by decide), exec_single] at hexec
    obtain ⟨ref, href, hlength⟩ := Option.map_eq_some_iff.1 hextent
    obtain ⟨hf, hgrown⟩ := vector_ok hb (by rw [hbuffer]; exact href)
      (by rw [halike.heap]; exact hplaced ref href) hvalue hexec
    rw [halike.heap, hlength] at hgrown
    exact ⟨hf, hrange, hgrown.of_buffers halike.buffers⟩

end Statements

end Machine

end FactFold
