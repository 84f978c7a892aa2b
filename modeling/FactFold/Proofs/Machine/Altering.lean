import FactFold.Proofs.Lowering.Sparing
import FactFold.Proofs.Machine.Statements

/-!
# Changing one buffer, or nothing

A routine changes one buffer. `Run.Alters w id x` says how far a step `x` may go when the buffer `id`
is its to change: where it fails, all of `w` is still there; where it succeeds, all of it is but that
buffer and the vectors in its fields (`World.SurvivesBut`). A step that alters a buffer may follow
steps that spare the world, and may only be followed by steps that cannot fail.

Buffers keep their vectors to themselves. `World.Separate` says so, and it outlasts all of this, since
a vector that comes into a field is always a new one.
-/

namespace FactFold

/-! ## Fields -/

/-- The fields of the layout are for numbers and vectors. -/
def Layout.HoldsNumbers (l : Layout) : Prop := ∀ t ∈ l, t.isNumeric = true ∨ t.isArray = true

namespace Memory

/-- A vector in a changed buffer was there before or is the value that was set. -/
theorem vectorAt_setAt {m : Memory} {i j ref : Nat} {v : Value}
    (h : (m.setAt i v).vectorAt j = some ref) :
    m.vectorAt j = some ref ∨ v = .vector (some ref) := by
  -- only the place that is set reads differently
  by_cases hj : j = i ∧ i < m.fields.length
  · obtain ⟨rfl, hlt⟩ := hj
    right
    simp only [vectorAt, valueAt, setAt, List.getD_eq_getElem?_getD,
      List.getElem?_set_self hlt, Option.getD_some] at h
    split at h
    · rw [h]
    · cases h
  · left
    have hsame : (m.setAt i v).valueAt j = m.valueAt j := by
      simp only [valueAt, setAt, List.getD_eq_getElem?_getD, List.getElem?_set]
      split_ifs with heq hlt
      · exact (hj ⟨heq.symm, hlt⟩).elim
      · rw [← heq, List.getElem?_eq_none (not_lt.1 hlt)]
      · rfl
    rwa [vectorAt, hsame] at h

/-- Adding puts a number into the field. -/
theorem addAt_ok {m m' : Memory} {i : Nat} {delta : Value} (h : m.addAt i delta = .ok m') :
    ∃ s, m' = m.setAt i (.scalar s) := by
  unfold addAt at h
  repeat' split at h
  all_goals
    cases h
    try exact ⟨_, rfl⟩

/-- Writing to a field for numbers or vectors makes the vector it puts there. -/
theorem writeAt_ok {m m' : Memory} {heap heap' : Heap} {i : Nat} {v : Value}
    (ht : (m.typeAt i).isNumeric = true ∨ (m.typeAt i).isArray = true)
    (h : m.writeAt heap i v = .ok (m', heap')) :
    ∃ x, m' = m.setAt i x ∧ heap.cells <+: heap'.cells ∧
      ∀ ref, x = .vector (some ref) → heap.cells.length ≤ ref ∧ ref < heap'.cells.length := by
  -- one case per kind of field: a null value, a vector, a number; nothing else can be written
  unfold writeAt at h
  split at h
  · cases h
    exact ⟨.null, rfl, List.prefix_refl _, by simp⟩
  · split at h
    · split at h <;> cases h
      · exact ⟨.null, rfl, List.prefix_refl _, by simp⟩
      · refine ⟨_, rfl, List.prefix_append _ _, fun ref href => ?_⟩
        obtain rfl : heap.cells.length = ref := by simpa [Heap.alloc] using href
        simp
    · split at h <;> split at h <;> cases h
      all_goals exact ⟨_, rfl, List.prefix_refl _, by simp⟩
    · rename_i harray hscalar
      cases hm : m.typeAt i with
      | array n => exact (harray n hm).elim
      | scalar n => exact (hscalar n hm).elim
      | _ => simp [hm, DataType.isNumeric, DataType.isArray] at ht

end Memory

namespace Machine

open Run (Preserves Spares Succeeds Yields)

variable {natives : Natives} {env : Env} {w₀ w : World} {id : Nat}

/-! ## All but one buffer -/

theorem World.buffer_setBuffer_ne {j : Nat} (h : j ≠ id) (m : Memory) :
    (w.setBuffer id m).buffer j = w.buffer j := by
  simp [World.buffer, World.setBuffer, List.getElem?_set_ne (Ne.symm h)]

/-- The buffer that has been replaced is the new one, if there is a buffer of the number. -/
theorem World.buffer_setBuffer_self (m : Memory) :
    (w.setBuffer id m).buffer id = m ∨ (w.setBuffer id m).buffer id = w.buffer id := by
  by_cases h : id < w.buffers.length
  · left
    simp [World.buffer, World.setBuffer, h]
  · right
    simp [World.buffer, World.setBuffer, List.set_eq_of_length_le (not_lt.1 h)]

/-- Everything in a world but one buffer and its vectors is still there in a later one. The buffer has
kept its layout, and every vector that has come into it is new. -/
structure World.SurvivesBut (id : Nat) (w w' : World) : Prop where
  layouts : ∀ j, (w'.buffer j).layout = (w.buffer j).layout
  others : ∀ j, j ≠ id → w'.buffer j = w.buffer j
  length_le : w.heap.cells.length ≤ w'.heap.cells.length
  cells : ∀ ref, ref < w.heap.cells.length → (∀ i, (w.buffer id).vectorAt i ≠ some ref) →
    w'.heap.get ref = w.heap.get ref
  fields : ∀ i ref, (w'.buffer id).vectorAt i = some ref →
    (w.buffer id).vectorAt i = some ref ∨ w.heap.cells.length ≤ ref ∧ ref < w'.heap.cells.length

theorem World.Survives.but (h : w₀.Survives w) (id : Nat) : w₀.SurvivesBut id w where
  layouts j := by rw [h.buffer]
  others j _ := h.buffer j
  length_le := h.length_le
  cells ref href _ := h.get_heap href
  fields i ref href := .inl (by rwa [← h.buffer])

namespace World.SurvivesBut

/-- A field of the buffer may be set, to a new vector or to anything that is none. -/
theorem setField (h : w₀.SurvivesBut id w) {heap : Heap} {i : Nat} {x : Value}
    (hcells : w.heap.cells <+: heap.cells)
    (hx : ∀ ref, x = .vector (some ref) → w.heap.cells.length ≤ ref ∧ ref < heap.cells.length) :
    w₀.SurvivesBut id ({ w with heap := heap }.setBuffer id ((w.buffer id).setAt i x)) := by
  set u : World := { w with heap := heap } with hu
  have hbuffer : ∀ j, u.buffer j = w.buffer j := fun j => rfl
  have hsurvives : w.Survives u := ⟨rfl, hcells⟩
  constructor
  case layouts =>
    intro j
    by_cases hj : j = id
    · subst hj
      -- a buffer that does not exist is not replaced
      rcases World.buffer_setBuffer_self (w := u) ((w.buffer j).setAt i x) with hself | hself
      · rw [hself]
        exact h.layouts j
      · rw [hself]
        exact h.layouts j
    · rw [World.buffer_setBuffer_ne hj]
      exact h.layouts j
  case others =>
    intro j hj
    rw [World.buffer_setBuffer_ne hj]
    exact h.others j hj
  case length_le => exact h.length_le.trans hcells.length_le
  case cells =>
    intro ref href hother
    have hkept := h.cells ref href hother
    rw [← hkept]
    exact hsurvives.get_heap (lt_of_lt_of_le href h.length_le)
  case fields =>
    intro k ref href
    -- the new value is the only vector that can have come into the buffer
    have hold : (w.buffer id).vectorAt k = some ref ∨ x = .vector (some ref) := by
      rcases World.buffer_setBuffer_self (w := u) ((w.buffer id).setAt i x) with hself | hself
      · rw [hself] at href
        exact Memory.vectorAt_setAt href
      · rw [hself] at href
        exact .inl href
    have hlen : w.heap.cells.length ≤ heap.cells.length := hcells.length_le
    rcases hold with hold | hnew
    · rcases h.fields k ref hold with hfirst | ⟨hlow, hhigh⟩
      · exact .inl hfirst
      · exact .inr ⟨hlow, lt_of_lt_of_le hhigh hlen⟩
    · obtain ⟨hlow, hhigh⟩ := hx ref hnew
      exact .inr ⟨h.length_le.trans hlow, hhigh⟩

theorem remember (h : w₀.SurvivesBut id w) (s : String) : w₀.SurvivesBut id (w.remember s) := by
  unfold World.remember
  split
  · exact h
  · exact ⟨h.layouts, h.others, h.length_le, h.cells, h.fields⟩

end World.SurvivesBut

/-- A vector of the buffer may change in place. -/
theorem World.Survives.setVector (h : w₀.Survives w) {i ref : Nat}
    (href : (w₀.buffer id).vectorAt i = some ref) (items : List Float) :
    w₀.SurvivesBut id { w with heap := w.heap.set ref items } where
  layouts j := congrArg Memory.layout (h.buffer j)
  others j _ := h.buffer j
  length_le := by simpa [Heap.set] using h.length_le
  cells r hr hother := by
    -- no other place of the heap is touched
    have hne : ref ≠ r := fun heq => hother i (heq ▸ href)
    have hsame : (w.heap.set ref items).get r = w.heap.get r := by
      simp [Heap.set, Heap.get, List.getElem?_set_ne hne]
    exact hsame.trans (h.get_heap hr)
  fields k r hr := by
    left
    rw [← h.buffer]
    exact hr

/-! ## Buffers that share no vector -/

/-- Every vector in a field is in the heap, and no two buffers have one in common. -/
structure World.Separate (w : World) : Prop where
  placed : ∀ id i ref, (w.buffer id).vectorAt i = some ref → ref < w.heap.cells.length
  apart : ∀ j k i l ref, j ≠ k → (w.buffer j).vectorAt i = some ref →
    (w.buffer k).vectorAt l ≠ some ref

/-- Changing one buffer keeps the buffers separate. -/
theorem World.SurvivesBut.separate {w' : World} (h : w.SurvivesBut id w') (hw : w.Separate) :
    w'.Separate := by
  -- a vector of a buffer was in the buffer before, or it has a place that no buffer used
  have hold : ∀ j i ref, (w'.buffer j).vectorAt i = some ref →
      (w.buffer j).vectorAt i = some ref ∨
        j = id ∧ w.heap.cells.length ≤ ref ∧ ref < w'.heap.cells.length := by
    intro j i ref href
    by_cases hj : j = id
    · subst hj
      rcases h.fields i ref href with hfirst | hnew
      · exact .inl hfirst
      · exact .inr ⟨rfl, hnew⟩
    · rw [h.others j hj] at href
      exact .inl href
  constructor
  case placed =>
    intro j i ref href
    rcases hold j i ref href with hfirst | ⟨-, -, hlt⟩
    · exact lt_of_lt_of_le (hw.placed j i ref hfirst) h.length_le
    · exact hlt
  case apart =>
    intro j k i l ref hjk hj hk
    rcases hold j i ref hj with hj | ⟨rfl, hlow, -⟩ <;>
      rcases hold k l ref hk with hk | ⟨rfl, hlow', -⟩
    · -- of two new vectors both would be the changed buffer's, and a new one is no older buffer's
      exact hw.apart j k i l ref hjk hj hk
    · exact absurd (hw.placed j i ref hj) (not_lt.2 hlow')
    · exact absurd (hw.placed k l ref hk) (not_lt.2 hlow)
    · exact hjk rfl

/-- A buffer has the same fields in both worlds, and its vectors have the same items. -/
structure World.Agrees (w : World) (id : Nat) (w' : World) : Prop where
  fields : w'.buffer id = w.buffer id
  items : ∀ i ref, (w.buffer id).vectorAt i = some ref → w'.heap.get ref = w.heap.get ref

theorem World.Survives.agrees {w' : World} (h : w.Survives w') (hw : w.Separate) (j : Nat) :
    w.Agrees j w' :=
  ⟨h.buffer j, fun i ref href => h.get_heap (hw.placed j i ref href)⟩

theorem World.SurvivesBut.agrees {w' : World} (h : w.SurvivesBut id w') (hw : w.Separate) {j : Nat}
    (hj : j ≠ id) : w.Agrees j w' := by
  refine ⟨h.others j hj, fun i ref href => ?_⟩
  exact h.cells ref (hw.placed j i ref href) fun l => hw.apart j id i l ref hj href

/-! ## Steps that alter one buffer -/

namespace Run

variable {α β : Type} {x : Run α}

/-- From a world in which all of `w₀` is left, the step leads to one in which all but one buffer is,
and to one in which all is if it fails. -/
def Alters (w₀ : World) (id : Nat) (x : Run α) : Prop :=
  ∀ w, w₀.Survives w → w₀.SurvivesBut id (x.runIn w).2 ∧
    ∀ e, (x.runIn w).1 = .error e → w₀.Survives (x.runIn w).2

theorem Preserves.alters (hx : Spares w₀ x) : Alters w₀ id x :=
  fun w hw => ⟨(hx w hw).but id, fun _ _ => hx w hw⟩

namespace Alters

/-- What comes before the change must spare the world. -/
theorem after {k : α → Run β} (hx : Spares w₀ x)
    (hk : ∀ w a w', w₀.Survives w → x.runIn w = (.ok a, w') → Alters w₀ id (k a)) :
    Alters w₀ id (x >>= k) := by
  intro w hw
  rw [runIn_bind]
  have hx := hx w hw
  rcases h : x.runIn w with ⟨e | a, v⟩
  · rw [h] at hx
    exact ⟨hx.but id, fun _ _ => hx⟩
  · rw [h] at hx
    exact hk w a v hw h v hx

theorem bind {k : α → Run β} (hx : Spares w₀ x) (hk : ∀ a, Alters w₀ id (k a)) :
    Alters w₀ id (x >>= k) := after hx fun _ a _ _ _ => hk a

/-- What comes after the change must succeed. -/
theorem before {k : α → Run β} {P : α → Prop} {Q : β → Prop} (hx : Alters w₀ id x)
    (hy : Yields x P) (hk : ∀ a, P a → Succeeds (w₀.SurvivesBut id) (k a) Q) :
    Alters w₀ id (x >>= k) := by
  intro w hw
  rw [runIn_bind]
  obtain ⟨hbut, herror⟩ := hx w hw
  rcases h : x.runIn w with ⟨e | a, v⟩
  · rw [h] at hbut herror
    exact ⟨hbut, fun _ _ => herror e rfl⟩
  · rw [h] at hbut
    -- the second step succeeds, so that no failure follows the change
    obtain ⟨b, w', hrun, hw', -⟩ := hk a (hy w a v h) v hbut
    have hrun : (k a).runIn v = (.ok b, w') := hrun
    simp only [hrun]
    exact ⟨hw', fun e he => by cases he⟩

/-- The result of the change may be put into another form. -/
theorem then_pure {f : α → β} (hx : Alters w₀ id x) : Alters w₀ id (x >>= fun a => Pure.pure (f a)) :=
  hx.before (P := fun _ => True) (Q := fun _ => True) (fun _ _ _ _ => trivial)
    fun _ _ => Succeeds.pure trivial

end Alters

end Run

open Run (Alters)

/-! ## Methods that alter -/

theorem alters_bufferAdd (i : Nat) (delta : Value) : Alters w₀ id (bufferAdd id i delta) := by
  intro w hw
  unfold bufferAdd
  rw [Run.runIn_bind, Run.runIn_get]
  dsimp only
  cases hadd : (w.buffer id).addAt i delta with
  | error e => exact ⟨hw.but id, fun _ _ => hw⟩
  -- a number is put into the field, which is no vector
  | ok m =>
    obtain ⟨s, rfl⟩ := Memory.addAt_ok hadd
    exact ⟨(hw.but id).setField (List.prefix_refl _) (by simp), fun e he => by cases he⟩

theorem alters_bufferWrite {i : Nat} (value : Value)
    (ht : ((w₀.buffer id).typeAt i).isNumeric = true ∨ ((w₀.buffer id).typeAt i).isArray = true) :
    Alters w₀ id (bufferWrite id i value) := by
  unfold bufferWrite
  refine .bind .get fun u => ?_
  dsimp only
  -- whatever is written, a vector's copy or the value itself
  split
  on_goal 1 => refine .bind (Preserves.toVector value).map fun v => ?_
  on_goal 2 => refine .bind (.pure value) fun v => ?_
  all_goals
    intro w hw
    rw [Run.runIn_bind, Run.runIn_get]
    dsimp only
    cases hwrite : (w.buffer id).writeAt w.heap i v with
    | error e => exact ⟨hw.but id, fun _ _ => hw⟩
    | ok r =>
      obtain ⟨m, heap⟩ := r
      obtain ⟨x, rfl, hcells, hx⟩ := Memory.writeAt_ok (by rwa [hw.buffer]) hwrite
      exact ⟨(hw.but id).setField hcells hx, fun e he => by cases he⟩

/-- Every method of a buffer alters that buffer at most. -/
theorem alters_bufferMethod (hlayout : (w₀.buffer id).layout.HoldsNumbers) (method : String)
    (args : List Value) : Alters w₀ id (bufferMethod id method args) := by
  unfold bufferMethod
  cases args with
  | nil => exact Preserves.alters (.throw _)
  | cons place rest =>
    refine .bind (.converted _) fun field => .after .get fun w u w' hw hget => ?_
    obtain rfl : w = u := by
      simp only [Run.runIn_get, Prod.mk.injEq, Except.ok.injEq] at hget
      exact hget.1
    dsimp only
    -- the type of a field that exists is one of the layout's
    by_cases hrange : field < 0 ∨ ((w.buffer id).layout.length : Int) ≤ field
    · rw [if_pos hrange]
      exact Preserves.alters fun _ h => h
    rw [if_neg hrange]
    have htype : ((w₀.buffer id).typeAt field.toNat).isNumeric = true ∨
        ((w₀.buffer id).typeAt field.toNat).isArray = true := by
      have hlt : field.toNat < (w₀.buffer id).layout.length := by
        rw [← hw.buffer]
        omega
      rw [Memory.typeAt, List.getD_eq_getElem?_getD, List.getElem?_eq_getElem hlt, Option.getD_some]
      exact hlayout _ (List.getElem_mem hlt)
    split
    -- two methods change the buffer, and the others read it or fail
    case h_8 => exact alters_bufferWrite _ htype
    case h_9 =>
      split
      · exact alters_bufferAdd _ _
      · exact Preserves.alters (.throw _)
    all_goals exact Preserves.alters (by first | exact .pure _ | exact .throw _)

/-- Every method of a vector in a field alters the buffer at most. -/
theorem alters_vectorMethod {i ref : Nat} (href : (w₀.buffer id).vectorAt i = some ref)
    (method : String) (args : List Value) : Alters w₀ id (vectorMethod (some ref) method args) := by
  -- a change in place is the last thing a method does
  have hupdate : ∀ f, Alters w₀ id (updateIfPresent (some ref) f >>= fun _ => pure Value.null) := by
    intro f
    refine Alters.then_pure fun w hw => ⟨hw.setVector href _, fun e he => by cases he⟩
  unfold vectorMethod
  split
  · exact Preserves.alters (.bind (.vectorAt _) fun _ => .bind (.alloc _) fun _ => .pure _)
  · split
    · split
      · exact .bind (.converted _) fun _ => hupdate _
      · refine .bind (.toVector _) fun other => ?_
        split
        · exact Preserves.alters (.throw _)
        · split
          · exact Preserves.alters (.throw _)
          · exact .bind (.vectorAt _) fun _ => hupdate _
    · exact Preserves.alters (.throw _)

/-! ## Statements -/

theorem alters_evaluate {code : Term} {t : Static} {x : Run Value}
    (h : RunsAs natives env code t x) (hx : Alters w₀ id x) :
    Alters w₀ id (evaluate natives env code) := by
  intro w hw
  obtain ⟨e, he⟩ | ⟨s, hs⟩ := evaluate_cases h w
  · rw [he]
    exact ⟨hw.but id, fun _ _ => hw⟩
  · rw [hs]
    exact hx _ (hw.remember s)

theorem alters_run {code : Term} {t : Static} {x : Run Value} (h : RunsAs natives env code t x)
    (hx : Alters w₀ id x) : Alters w₀ id (execStmt natives env (.run code)) := by
  rw [execStmt]
  exact (alters_evaluate h hx).then_pure

theorem yields_run (x : Term) : Yields (execStmt natives env (.run x)) (· = .next env) :=
  fun _ _ _ h => (run_ok h).1

theorem alters_nil : Alters w₀ id (exec natives env []) := by
  rw [exec]
  exact Preserves.alters (.pure _)

theorem spares_rethrow {x : Run Value} (hx : Spares w₀ x) (g : Fault → Fault) :
    Spares w₀ (tryCatch x fun e => throw (g e)) := by
  intro w hw
  have hx := hx w hw
  rw [runIn_rethrow]
  rcases h : x.runIn w with ⟨e | a, u⟩ <;> rwa [h] at hx

theorem alters_decl {type name : String} {code : Term} {rest : List Stmt}
    (hcode : Sparing natives env code)
    (hrest : ∀ v, Alters w₀ id (exec natives ((name, v) :: env) rest)) :
    Alters w₀ id (exec natives env (.decl type name code :: rest)) := by
  rw [exec_decl]
  exact .bind (hcode.evaluate w₀) fun v =>
    .bind (spares_rethrow (spares_convert type v) _) fun a => hrest a

theorem alters_cond {c : Term} {yes no : List Stmt} (hc : Sparing natives env c)
    (hyes : Alters w₀ id (exec natives env yes)) (hno : Alters w₀ id (exec natives env no)) :
    Alters w₀ id (execStmt natives env (.cond c yes no)) := by
  rw [execStmt]
  refine .bind (hc.evaluate w₀) fun v => .bind (.converted _) fun b => ?_
  cases b with
  | true => exact hyes
  | false => exact hno

theorem yields_cond {c : Term} {yes no : List Stmt}
    (hyes : Yields (exec natives env yes) (· = .next env))
    (hno : Yields (exec natives env no) (· = .next env)) :
    Yields (execStmt natives env (.cond c yes no)) (· = .next env) := by
  intro w f w' h
  obtain ⟨v, b, u, -, -, hexec⟩ := cond_ok h
  cases b with
  | true => exact hyes _ _ _ hexec
  | false => exact hno _ _ _ hexec

/-- Statements that cannot fail may follow the one that alters the buffer. -/
theorem alters_then {s : Stmt} {rest : List Stmt} (hs : Alters w₀ id (execStmt natives env s))
    (hy : Yields (execStmt natives env s) (· = .next env))
    (hrest : Succeeds (w₀.SurvivesBut id) (exec natives env rest) fun _ => True) :
    Alters w₀ id (exec natives env (s :: rest)) := by
  rw [exec]
  refine Alters.before (Q := fun _ => True) hs hy ?_
  rintro _ rfl
  exact hrest

/-! ## Statements on buffers -/

variable {b : BufferRef} {i : Nat}

theorem alters_method (hb : Holds env b id) (hlayout : (w₀.buffer id).layout.HoldsNumbers)
    (name : String) {args : List Term} (hargs : AllSparing natives env args) :
    Alters w₀ id (execStmt natives env (.run (b.method name i args))) := by
  obtain ⟨xs, hxs, sxs⟩ := hargs
  exact alters_run (hb.method name i hxs)
    (.bind (sxs w₀) fun vs => alters_bufferMethod hlayout name _)

/-- What is read as a vector is one of the buffer's, or null. -/
theorem bufferVector_ok {method : String} (hm : method = "readVector" ∨ method = "readWritableVector")
    {args : List Value} {v : Value} {w' : World}
    (h : (bufferMethod id method args).runIn w = (.ok v, w')) :
    ∃ k, v = Run.boxed ((w.buffer id).vectorAt k) := by
  unfold bufferMethod at h
  cases args with
  | nil => simp at h
  | cons place rest =>
    obtain ⟨field, u, hfield, hread⟩ := Run.runIn_bind_ok_iff.1 h
    -- converting the field number leaves the world
    obtain rfl : u = w := by
      cases hplace : place.operand.toIndex <;> simp_all
    rw [Run.runIn_bind, Run.runIn_get] at hread
    dsimp only at hread
    by_cases hrange : field < 0 ∨ ((u.buffer id).layout.length : Int) ≤ field
    · rw [if_pos hrange] at hread
      cases hread
    · rw [if_neg hrange] at hread
      rcases hm with rfl | rfl <;>
        simp only [Run.runIn_pure, Prod.mk.injEq, Except.ok.injEq] at hread <;>
        exact ⟨_, hread.1.symm⟩

theorem alters_vector (hb : Holds env b id) (method : String) {args : List Term}
    (hargs : AllSparing natives env args) :
    Alters w₀ id (execStmt natives env (b.vector i method args)) := by
  obtain ⟨xs, hxs, sxs⟩ := hargs
  have hread := hb.method "readWritableVector" i (show AllRunAs natives env [] _ from .nil)
  refine alters_run (.invoke method hread hxs) ?_
  rw [pure_bind]
  refine .after (spares_bufferMethod (by decide) _ _) fun w v w' hw hrun => ?_
  refine .bind (sxs w₀) fun vs => ?_
  obtain ⟨k, rfl⟩ := bufferVector_ok (.inr rfl) hrun
  -- what has been read is a vector of the buffer, as it was in the first world
  rw [hw.buffer]
  cases href : (w₀.buffer id).vectorAt k with
  | none => exact Preserves.alters (.throw _)
  | some ref => exact alters_vectorMethod href method vs

end Machine

end FactFold
