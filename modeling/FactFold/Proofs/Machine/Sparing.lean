import FactFold.Proofs.Machine.Terms

/-!
# What a step leaves in place

A step may fail half way, and the world keeps what it has done until then. `Run.Preserves I x` says
that a property of the world outlasts the step `x`, whether `x` succeeds or fails, and
`Run.Succeeds I x P` that `x` does succeed where the property holds. The property that matters for
expressions is that a given world survives: its buffers are the same, and its vectors are
where they were (`World.Survives`). New vectors may be made, and those may change.

All primitives of expressions spare the world in this sense. The methods that do not are the ones
that write to buffers, add to them or change vectors in place; `isReading` leaves out exactly these.
-/

namespace FactFold.Machine

/-! ## Steps that preserve a property of the world -/

namespace Run

variable {α β : Type} {I : World → Prop} {x : Run α}

/-- The property of the world holds after the step if it holds before, also when the step fails. -/
def Preserves (I : World → Prop) (x : Run α) : Prop := ∀ w, I w → I (x.runIn w).2

namespace Preserves

theorem pure (a : α) : Preserves I (pure a) := fun _ h => h

theorem throw (e : Fault) : Preserves I (throw e : Run α) := fun _ h => h

theorem lift (x : Except Fault α) : Preserves I (liftM x : Run α) := fun _ h => h

theorem get : Preserves I (get : Run World) := fun _ h => h

/-- What follows a step only matters on the results the step can have. -/
theorem after {k : α → Run β} (hx : Preserves I x)
    (hk : ∀ w a w', I w → x.runIn w = (.ok a, w') → Preserves I (k a)) : Preserves I (x >>= k) := by
  intro w hw
  rw [runIn_bind]
  have hx := hx w hw
  rcases h : x.runIn w with ⟨e | a, v⟩
  · -- the first step has failed, and what it leaves is the end
    rwa [h] at hx
  · rw [h] at hx
    exact hk w a v hw h v hx

theorem bind {k : α → Run β} (hx : Preserves I x) (hk : ∀ a, Preserves I (k a)) :
    Preserves I (x >>= k) := hx.after fun _ a _ _ _ => hk a

theorem map {f : α → β} (hx : Preserves I x) : Preserves I (f <$> x) := by
  rw [map_eq_pure_bind]
  exact hx.bind fun a => .pure (f a)

theorem converted (x : Except ConversionError α) : Preserves I (converted x) := by
  cases x with
  | ok a => exact .pure a
  | error e => exact .throw _

/-- A step that looks at the world and then may only fail. -/
theorem look {f : World → Except Fault α} :
    Preserves I (MonadState.get >>= fun w => (liftM (f w) : Run α)) :=
  .bind .get fun _ => .lift _

end Preserves

/-- From every world with the property the step succeeds, in a world with the property, and with a
result that satisfies `P`. -/
def Succeeds (I : World → Prop) (x : Run α) (P : α → Prop) : Prop :=
  ∀ w, I w → ∃ a w', x.runIn w = (.ok a, w') ∧ I w' ∧ P a

namespace Succeeds

variable {P Q : α → Prop} {R : β → Prop}

theorem pure {a : α} (h : P a) : Succeeds I (pure a) P := fun w hw => ⟨a, w, rfl, hw, h⟩

theorem mono (hx : Succeeds I x P) (h : ∀ a, P a → Q a) : Succeeds I x Q := by
  intro w hw
  obtain ⟨a, w', hrun, hw', ha⟩ := hx w hw
  exact ⟨a, w', hrun, hw', h a ha⟩

theorem bind {k : α → Run β} (hx : Succeeds I x P) (hk : ∀ a, P a → Succeeds I (k a) R) :
    Succeeds I (x >>= k) R := by
  intro w hw
  obtain ⟨a, v, hrun, hv, ha⟩ := hx w hw
  obtain ⟨b, w', hrun', hw', hb⟩ := hk a ha v hv
  exact ⟨b, w', runIn_bind_ok_iff.2 ⟨a, v, hrun, hrun'⟩, hw', hb⟩

end Succeeds

end Run

open Run (Preserves)

/-! ## Worlds that survive -/

/-- Everything in a world is still there in a later one: the buffers are the same, and every vector
has its place and its items. -/
structure World.Survives (w w' : World) : Prop where
  buffers : w'.buffers = w.buffers
  cells : w.heap.cells <+: w'.heap.cells

namespace World.Survives

variable {w u : World}

theorem refl (w : World) : w.Survives w := ⟨rfl, List.prefix_refl _⟩

theorem buffer (h : w.Survives u) (id : Nat) : u.buffer id = w.buffer id := by
  rw [World.buffer, World.buffer, h.buffers]

/-- Vectors that were there are not touched. -/
theorem get_heap (h : w.Survives u) {ref : Nat} (href : ref < w.heap.cells.length) :
    u.heap.get ref = w.heap.get ref := by
  obtain ⟨more, hmore⟩ := h.cells
  rw [Heap.get, Heap.get, ← hmore, List.getD_eq_getElem?_getD, List.getD_eq_getElem?_getD,
    List.getElem?_append_left href]

theorem length_le (h : w.Survives u) : w.heap.cells.length ≤ u.heap.cells.length :=
  h.cells.length_le

/-- The vectors of the later world may be changed where they are newer than the first. -/
theorem set_heap (h : w.Survives u) {ref : Nat} (href : w.heap.cells.length ≤ ref)
    (items : List Float) : w.Survives { u with heap := u.heap.set ref items } := by
  obtain ⟨more, hmore⟩ := h.cells
  refine ⟨h.buffers, more.set (ref - w.heap.cells.length) items, ?_⟩
  -- the place is behind all that the first world has
  show _ = u.heap.cells.set ref items
  rw [← hmore, List.set_append_right _ _ href]

theorem with_heap (h : w.Survives u) {heap : Heap} (hcells : u.heap.cells <+: heap.cells) :
    w.Survives { u with heap := heap } :=
  ⟨h.buffers, h.cells.trans hcells⟩

theorem remember (h : w.Survives u) (s : String) : w.Survives (u.remember s) := by
  unfold World.remember
  split
  · exact h
  · exact ⟨h.buffers, h.cells⟩

end World.Survives

/-! ## Bringing data into memory -/

mutual

theorem ofDatum_cells : ∀ (d : Datum) (h : Heap), h.cells <+: (Value.ofDatum d h).2.cells
  | .null, _ | .scalar _, _ | .ints .., _ | .texts _, _ | .vector none, _
  | .floats .single _, _ => by
    -- these have no vector, or one that stays a plain list
    simp only [Value.ofDatum]
    exact List.prefix_refl _
  | .floats .double _, h | .vector (some _), h => by
    simp only [Value.ofDatum]
    exact List.prefix_append _ _
  | .seq items, h => by
    simp only [Value.ofDatum]
    exact ofData_cells items h

theorem ofData_cells : ∀ (ds : List Datum) (h : Heap), h.cells <+: (Value.ofData ds h).2.cells
  | [], h => by
    simp only [Value.ofData]
    exact List.prefix_refl _
  | d :: rest, h => by
    simp only [Value.ofData]
    exact (ofDatum_cells d h).trans (ofData_cells rest _)

end

/-! ## Primitives spare the world -/

namespace Run

variable {α β : Type} {w₀ : World}

/-- From a world in which all of `w₀` is left, the step leads to one in which all of it is. -/
abbrev Spares (w₀ : World) (x : Run α) : Prop := Preserves w₀.Survives x

namespace Preserves

theorem load (d : Datum) : Spares w₀ (load d) :=
  fun w h => h.with_heap (ofDatum_cells d w.heap)

theorem list (items : List Value) : Spares w₀ (list items) :=
  fun _ h => h.with_heap (List.prefix_refl _)

theorem alloc (v : List Float) : Spares w₀ (alloc v) :=
  fun _ h => h.with_heap (List.prefix_append _ _)

/-- What follows the making of a vector may use that the vector is new. -/
theorem alloc_bind {v : List Float} {k : Nat → Run β}
    (hk : ∀ ref, w₀.heap.cells.length ≤ ref → Spares w₀ (k ref)) : Spares w₀ (Run.alloc v >>= k) := by
  intro w h
  rw [runIn_bind]
  -- the place of the new vector is the length of the heap so far
  exact hk w.heap.cells.length h.length_le _ (alloc v w h)

theorem vectorAt (ref : Nat) : Spares w₀ (vectorAt ref) := .bind .get fun _ => .pure _

/-- A new vector may be changed. -/
theorem update {ref : Nat} (href : w₀.heap.cells.length ≤ ref) (f : List Float → List Float) :
    Spares w₀ (update ref f) :=
  fun _ h => h.set_heap href _

theorem toVector (v : Value) : Spares w₀ (toVector v) := by
  unfold Run.toVector
  split
  · exact .throw _
  · exact .throw _
  · exact .pure _
  · exact .pure _
  · exact (alloc _).map

end Preserves

end Run

open Run (Spares)

variable {w₀ : World}

theorem spares_convert (type : String) (v : Value) : Spares w₀ (convert type v) := by
  unfold convert
  split
  all_goals first
    | exact (Preserves.converted _).map
    | exact (Preserves.toVector _).map
    | exact .pure _
    | (split <;> first | exact .pure _ | exact .throw _)

theorem spares_factMethod (fields : List Value) (method : String) (args : List Value) :
    Spares w₀ (factMethod fields method args) := by
  unfold factMethod
  split
  · refine .bind (.lift _) fun v => ?_
    split
    all_goals first
      | exact (Preserves.converted _).map
      | exact (Preserves.toVector _).map
      | exact .pure _
      | exact .throw _
  · exact .throw _

/-- The name of a method that neither writes to a buffer nor changes a vector. -/
def isReading (method : String) : Bool :=
  method ≠ "write" && !isAddMethod method && method ≠ "scale" && (vectorChange? method).isNone

section Reading

variable {method : String} (hread : isReading method = true)

include hread

theorem spares_bufferMethod (id : Nat) (args : List Value) :
    Spares w₀ (bufferMethod id method args) := by
  simp only [isReading, Bool.and_eq_true, decide_eq_true_eq, Bool.not_eq_true'] at hread
  obtain ⟨⟨⟨hwrite, hadd⟩, -⟩, -⟩ := hread
  unfold bufferMethod
  cases args with
  | nil => exact .throw _
  | cons place rest =>
    refine .bind (.converted _) fun field => .bind .get fun w => ?_
    dsimp only
    by_cases hrange : field < 0 ∨ ((w.buffer id).layout.length : Int) ≤ field
    · rw [if_pos hrange]
      exact fun _ h => h
    rw [if_neg hrange]
    split
    -- writing and adding are the methods that do not read
    case h_8 => exact (hwrite rfl).elim
    case h_9 =>
      rw [if_neg (by rw [hadd]; decide)]
      exact .throw _
    all_goals first | exact .pure _ | exact .throw _

theorem spares_vectorMethod (ref : Option Nat) (args : List Value) :
    Spares w₀ (vectorMethod ref method args) := by
  simp only [isReading, Bool.and_eq_true, decide_eq_true_eq, Option.isNone_iff_eq_none] at hread
  obtain ⟨⟨-, hscale⟩, hchange⟩ := hread
  unfold vectorMethod
  split
  · split
    · exact .bind (.vectorAt _) fun _ => .bind (.alloc _) fun _ => .pure _
    · exact .pure _
  · split
    · refine .bind (.toVector _) fun other => ?_
      -- no other method takes a second vector
      rw [hchange]
      cases other with
      | none => exact .throw _
      | some other => exact .throw _
    · exact .throw _

/-- A reading method spares the world, whatever it is called on. -/
theorem spares_invoke (receiver : Value) (args : List Value) :
    Spares w₀ (invoke receiver method args) := by
  unfold invoke
  split
  · exact .throw _
  · exact spares_factMethod _ _ _
  · exact spares_bufferMethod hread _ _
  · exact spares_vectorMethod hread _ _
  · exact .look

end Reading

/-- A static method on vectors changes no vector but the copy it has made. -/
theorem spares_vectorStatic (name : String) (args : List Value) :
    Spares w₀ (vectorStatic name args) := by
  unfold vectorStatic
  split
  · refine .bind (.toVector _) fun ref => ?_
    split
    · exact .throw _
    · refine .bind (.vectorAt _) fun items => .alloc_bind fun copy hcopy => ?_
      split
      · -- what is changed is the copy
        exact .bind (.converted _) fun _ => .bind (.update hcopy _) fun _ => .pure _
      · refine .bind (.toVector _) fun other => ?_
        split
        · exact .pure _
        · exact .bind (.vectorAt _) fun _ => .bind (.update hcopy _) fun _ => .pure _
  · exact .throw _

theorem spares_static (natives : Natives) (name : String) (args : List Value) :
    Spares w₀ (static natives name args) := by
  unfold static
  split
  · refine .bind (.lift _) fun answer => ?_
    split
    · exact .pure _
    · exact .load _
  · split
    all_goals first
      | exact .lift _
      | exact spares_vectorStatic _ _

theorem spares_staticOf (natives : Natives) (args : List Value) :
    Spares w₀ (staticOf natives args) := by
  unfold staticOf
  split
  · exact .throw _
  · exact spares_static _ _ _

/-- Evaluating a term spares the world if the step it runs as does: what is remembered is neither
buffer nor vector. -/
theorem spares_evaluate {natives : Natives} {env : Env} {code : Term} {t : Static} {x : Run Value}
    (h : RunsAs natives env code t x) (hx : Spares w₀ x) : Spares w₀ (evaluate natives env code) := by
  intro w hw
  obtain ⟨e, he⟩ | ⟨s, hs⟩ := evaluate_cases h w
  · rw [he]
    exact hw
  · rw [hs]
    exact hx _ (hw.remember s)

theorem spares_newOf (args : List Value) : Spares w₀ (newOf args) := by
  unfold newOf
  split
  · refine .bind (.toVector _) fun v => ?_
    split
    · split
      · exact .throw _
      · exact .bind (.vectorAt _) fun _ => .bind (.alloc _) fun _ => .pure _
    all_goals first | exact .pure _ | exact .throw _
  · exact .throw _

end FactFold.Machine
