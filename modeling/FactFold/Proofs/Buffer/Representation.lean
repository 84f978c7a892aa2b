import FactFold.Proofs.Kind.Effects

/-!
# What the fields of a buffer hold

Every way of changing a buffer converts what it is given by the type of the field, so that what is
read later has the form its type promises: `DataType.Holds` says which form that is. It holds of an
unset buffer and after any number of acts (`Conforms.after`), whatever values are written or added,
and however vectors are changed in place between the calls.

A call fails exactly when the type of the field does not take the value (`DataType.Takes`,
`DataType.Adds`). A call that fails leaves everything as it was, and one that succeeds touches no
field but its own and no vector that was there before (`Store.Touches`).
-/

namespace FactFold

/-! ## Values and the types of fields -/

/-- What a field of a type may hold: nothing, or a 64-bit integer, a double or a vector that is there.
A field of a type that is not about numbers may hold anything. -/
def DataType.Holds (h : Heap) : DataType → Value → Prop
  | .scalar n, v =>
    v = .null ∨
      if n.isIntegral then ∃ k, v = .long k ∧ -(2 ^ 63) ≤ k ∧ k < 2 ^ 63 else ∃ x, v = .double x
  | .array _, v => v = .null ∨ ∃ ref, v = .vector (some ref) ∧ ref < h.cells.length
  | _, _ => True

/-- The values that can be added to a field of a type. -/
def DataType.Adds : DataType → Value → Prop
  | .scalar n, v =>
    if n.isIntegral then ∃ k, v.operand.toLong = .ok k else ∃ x, v.operand.toDouble = .ok x
  | _, _ => False

/-- The values that can be written into a field of a type. -/
def DataType.Takes (t : DataType) (v : Value) : Prop :=
  v = .null ∨
    match t with
    | .array _ => ∃ ref, v = .vector ref
    | .scalar n => (DataType.scalar n).Adds v
    | _ => True

namespace DataType

variable {h h' : Heap} {t : DataType} {n : Numeric} {v : Value}

theorem holds_null (h : Heap) (t : DataType) : t.Holds h .null := by
  cases t with
  | scalar | array => exact .inl rfl
  | _ => trivial

theorem holds_long (hn : n.isIntegral = true) {k : Int} (hk : -(2 ^ 63) ≤ k ∧ k < 2 ^ 63) :
    (DataType.scalar n).Holds h (.long k) := by
  right
  rw [if_pos hn]
  exact ⟨k, rfl, hk⟩

theorem holds_double (hn : ¬ n.isIntegral = true) (x : Float) :
    (DataType.scalar n).Holds h (.double x) := by
  right
  rw [if_neg hn]
  exact ⟨x, rfl⟩

theorem adds_integral (hn : n.isIntegral = true) :
    (DataType.scalar n).Adds v ↔ ∃ k, v.operand.toLong = .ok k := by
  show ite _ _ _ ↔ _
  rw [if_pos hn]

theorem adds_double (hn : ¬ n.isIntegral = true) :
    (DataType.scalar n).Adds v ↔ ∃ x, v.operand.toDouble = .ok x := by
  show ite _ _ _ ↔ _
  rw [if_neg hn]

/-- What is held stays held while no vector leaves the heap. -/
theorem Holds.mono (hv : t.Holds h v) (hle : h.cells.length ≤ h'.cells.length) : t.Holds h' v := by
  cases t with
  | array n =>
    rcases hv with hnull | ⟨ref, hvector, href⟩
    · exact .inl hnull
    · exact .inr ⟨ref, hvector, by omega⟩
  | _ => exact hv

end DataType

/-! ## Writing and adding at a place

Either the type takes the value, and the place gets a value that the type may hold, or there is an
error. Vectors are only ever added to the heap. -/

namespace Memory

theorem addAt_cases (m : Memory) (h : Heap) (i : Nat) (v : Value) :
    ((m.typeAt i).Adds v ∧ ∃ x, m.addAt i v = .ok (m.setAt i x) ∧ (m.typeAt i).Holds h x) ∨
      (¬ (m.typeAt i).Adds v ∧ ∃ e, m.addAt i v = .error e) := by
  unfold addAt
  split
  case h_1 n ht =>
    rw [ht]
    by_cases hn : n.isIntegral = true
    · rw [if_pos hn, DataType.adds_integral hn]
      split
      case h_1 d hd =>
        exact .inl ⟨⟨d, hd⟩, _, rfl, DataType.holds_long hn (Number.wrap64_range _)⟩
      case h_2 e he => exact .inr ⟨by simp [he], _, rfl⟩
    · rw [if_neg hn, DataType.adds_double hn]
      split
      case h_1 d hd => exact .inl ⟨⟨d, hd⟩, _, rfl, DataType.holds_double hn _⟩
      case h_2 e he => exact .inr ⟨by simp [he], _, rfl⟩
  case h_2 hnot =>
    right
    refine ⟨?_, _, rfl⟩
    cases ht : m.typeAt i with
    | scalar n => exact absurd ht (hnot n)
    | _ => exact id

theorem writeAt_cases (m : Memory) (h : Heap) (i : Nat) (v : Value) :
    ((m.typeAt i).Takes v ∧ ∃ x h', m.writeAt h i v = .ok (m.setAt i x, h') ∧
        (m.typeAt i).Holds h' x ∧ h.cells <+: h'.cells) ∨
      (¬ (m.typeAt i).Takes v ∧ ∃ e, m.writeAt h i v = .error e) := by
  unfold writeAt
  split
  case h_1 =>
    exact .inl ⟨.inl rfl, .null, h, rfl, DataType.holds_null h _, List.prefix_refl _⟩
  case h_2 hnull =>
    have hnull : v ≠ .null := hnull
    split
    case h_1 n ht =>
      rw [ht]
      split
      case h_1 =>
        exact .inl ⟨.inr ⟨none, rfl⟩, .null, h, rfl, .inl rfl, List.prefix_refl _⟩
      case h_2 ref _ =>
        -- the field gets a copy, which is the last vector of the new heap
        refine .inl ⟨.inr ⟨some ref, rfl⟩, _, _, rfl, .inr ⟨_, rfl, ?_⟩, List.prefix_append _ _⟩
        simp
      case h_3 hnone hsome =>
        refine .inr ⟨?_, _, rfl⟩
        rintro (hv | ⟨ref, hv⟩)
        · exact hnull hv
        · cases ref with
          | none => exact hnone hv
          | some ref => exact hsome ref hv
    case h_2 n ht =>
      rw [ht]
      have htakes : (DataType.scalar n).Takes v ↔ (DataType.scalar n).Adds v :=
        ⟨fun hv => hv.resolve_left hnull, .inr⟩
      rw [htakes]
      by_cases hn : n.isIntegral = true
      · rw [if_pos hn, DataType.adds_integral hn]
        split
        case h_1 k hk =>
          exact .inl ⟨⟨k, hk⟩, _, h, rfl, DataType.holds_long hn (Number.range_of_toLong hk),
            List.prefix_refl _⟩
        case h_2 e he => exact .inr ⟨by simp [he], _, rfl⟩
      · rw [if_neg hn, DataType.adds_double hn]
        split
        case h_1 x hx =>
          exact .inl ⟨⟨x, hx⟩, _, h, rfl, DataType.holds_double hn x, List.prefix_refl _⟩
        case h_2 e he => exact .inr ⟨by simp [he], _, rfl⟩
    case h_3 harray hscalar =>
      left
      cases ht : m.typeAt i with
      | array n => exact absurd ht (harray n)
      | scalar n => exact absurd ht (hscalar n)
      | _ => exact ⟨.inr trivial, v, h, rfl, trivial, List.prefix_refl _⟩

theorem index_of_lt {m : Memory} {i : Nat} (hi : i < m.fields.length) : m.index i = .ok i := by
  rw [index, if_pos (by omega)]
  rfl

end Memory

/-! ## Acts

A buffer lives together with the heap its vectors are in. Besides the two calls that change fields, a
vector may be changed in place at any time, through a field or through anything else that refers to
it, and new vectors may come up. -/

/-- A buffer and the heap. -/
structure Store where
  memory : Memory
  heap : Heap

namespace Store

inductive Act where
  | write (field : Int) (v : Value)
  | add (field : Int) (delta : Value)
  /-- Changes the vector at a place of the heap. -/
  | revise (ref : Nat) (change : List Float → List Float)
  /-- Puts a vector in a new place of the heap. -/
  | make (v : List Float)

/-- Does an act. There is an error when it is a call that fails, and the store after it in any case. -/
def perform (s : Store) : Act → Option MemoryError × Store
  | .write field v =>
    match s.memory.write s.heap field v with
    | .ok (m, h) => (none, ⟨m, h⟩)
    | .error e => (some e, s)
  | .add field delta =>
    match s.memory.add field delta with
    | .ok m => (none, ⟨m, s.heap⟩)
    | .error e => (some e, s)
  | .revise ref change => (none, ⟨s.memory, s.heap.set ref (change (s.heap.get ref))⟩)
  | .make v => (none, ⟨s.memory, (s.heap.alloc v).2⟩)

/-- The store after acts, one after the other. -/
def after (s : Store) (acts : List Act) : Store := acts.foldl (fun s a => (s.perform a).2) s

/-- The layout is kept, and every field holds what its type may hold. -/
structure Conforms (layout : Layout) (s : Store) : Prop where
  layout_eq : s.memory.layout = layout
  length_eq : s.memory.fields.length = layout.length
  holds : ∀ i, (s.memory.typeAt i).Holds s.heap (s.memory.valueAt i)

/-- The later store is as the earlier one was, but for one field. -/
structure Touches (i : Nat) (s s' : Store) : Prop where
  layout : s'.memory.layout = s.memory.layout
  others : ∀ j, j ≠ i → s'.memory.valueAt j = s.memory.valueAt j
  vectors : ∀ ref, ref < s.heap.cells.length → s'.heap.get ref = s.heap.get ref

variable {layout : Layout} {s : Store} {i : Nat}

theorem perform_write (hi : i < s.memory.fields.length) (v : Value) :
    ((s.memory.typeAt i).Takes v ∧ ∃ x h', s.perform (.write i v) = (none, ⟨s.memory.setAt i x, h'⟩) ∧
        (s.memory.typeAt i).Holds h' x ∧ s.heap.cells <+: h'.cells) ∨
      (¬ (s.memory.typeAt i).Takes v ∧ ∃ e, s.perform (.write i v) = (some e, s)) := by
  have hwrite : s.memory.write s.heap i v = s.memory.writeAt s.heap i v := by
    rw [Memory.write, Memory.index_of_lt hi]
    rfl
  obtain ⟨htakes, x, h', hok, hx⟩ | ⟨hnot, e, he⟩ := s.memory.writeAt_cases s.heap i v
  · exact .inl ⟨htakes, x, h', by simp only [perform, hwrite, hok], hx⟩
  · exact .inr ⟨hnot, e, by simp only [perform, hwrite, he]⟩

theorem perform_add (hi : i < s.memory.fields.length) (v : Value) :
    ((s.memory.typeAt i).Adds v ∧ ∃ x, s.perform (.add i v) = (none, ⟨s.memory.setAt i x, s.heap⟩) ∧
        (s.memory.typeAt i).Holds s.heap x) ∨
      (¬ (s.memory.typeAt i).Adds v ∧ ∃ e, s.perform (.add i v) = (some e, s)) := by
  have hadd : s.memory.add i v = s.memory.addAt i v := by
    rw [Memory.add, Memory.index_of_lt hi]
    rfl
  obtain ⟨hadds, x, hok, hx⟩ | ⟨hnot, e, he⟩ := s.memory.addAt_cases s.heap i v
  · exact .inl ⟨hadds, x, by simp only [perform, hadd, hok], hx⟩
  · exact .inr ⟨hnot, e, by simp only [perform, hadd, he]⟩

/-- An act fails, sets one field, or leaves all fields alone. No vector leaves the heap. -/
theorem perform_cases (s : Store) (a : Act) :
    (∃ e, s.perform a = (some e, s)) ∨
      ∃ h', s.heap.cells.length ≤ h'.cells.length ∧
        (s.perform a = (none, ⟨s.memory, h'⟩) ∨
          ∃ i x, i < s.memory.fields.length ∧ s.perform a = (none, ⟨s.memory.setAt i x, h'⟩) ∧
            (s.memory.typeAt i).Holds h' x) := by
  cases a with
  | write field v =>
    by_cases hrange : 0 ≤ field ∧ field < s.memory.fields.length
    · obtain ⟨i, rfl⟩ := Int.eq_ofNat_of_zero_le hrange.1
      have hi : i < s.memory.fields.length := by omega
      obtain ⟨-, x, h', hok, hx, hheap⟩ | ⟨-, hfails⟩ := perform_write hi v
      · exact .inr ⟨h', hheap.length_le, .inr ⟨i, x, hi, hok, hx⟩⟩
      · exact .inl hfails
    · refine .inl ⟨.outOfRange field s.memory.layout, ?_⟩
      simp only [perform, Memory.write, Memory.index, if_neg hrange, bind, Except.bind]
  | add field delta =>
    by_cases hrange : 0 ≤ field ∧ field < s.memory.fields.length
    · obtain ⟨i, rfl⟩ := Int.eq_ofNat_of_zero_le hrange.1
      have hi : i < s.memory.fields.length := by omega
      obtain ⟨-, x, hok, hx⟩ | ⟨-, hfails⟩ := perform_add hi delta
      · exact .inr ⟨s.heap, le_rfl, .inr ⟨i, x, hi, hok, hx⟩⟩
      · exact .inl hfails
    · refine .inl ⟨.outOfRange field s.memory.layout, ?_⟩
      simp only [perform, Memory.add, Memory.index, if_neg hrange, bind, Except.bind]
  | revise ref change => exact .inr ⟨_, by simp [Heap.set], .inl rfl⟩
  | make v => exact .inr ⟨_, by simp [Heap.alloc], .inl rfl⟩

theorem Touches.setAt (x : Value) {h' : Heap} (hheap : s.heap.cells <+: h'.cells) :
    Touches i s ⟨s.memory.setAt i x, h'⟩ where
  layout := rfl
  others j hj := Fold.valueAt_setAt_ne hj.symm x
  vectors ref href := by
    obtain ⟨more, hmore⟩ := hheap
    show h'.cells.getD ref [] = s.heap.cells.getD ref []
    simp [← hmore, List.getElem?_append_left href]

namespace Conforms

theorem unset (layout : Layout) (heap : Heap) : Conforms layout ⟨.unset layout, heap⟩ where
  layout_eq := rfl
  length_eq := List.length_map _
  holds i := by
    have hnull : (Memory.unset layout).valueAt i = .null := by
      simp only [Memory.valueAt, Memory.unset, List.getD_eq_getElem?_getD, List.getElem?_map]
      cases layout[i]? <;> rfl
    show DataType.Holds heap _ ((Memory.unset layout).valueAt i)
    rw [hnull]
    exact DataType.holds_null heap _

theorem setAt (h : Conforms layout s) (hi : i < s.memory.fields.length) {x : Value} {h' : Heap}
    (hx : (s.memory.typeAt i).Holds h' x) (hle : s.heap.cells.length ≤ h'.cells.length) :
    Conforms layout ⟨s.memory.setAt i x, h'⟩ where
  layout_eq := h.layout_eq
  length_eq := (Fold.setAt_fields_length s.memory i x).trans h.length_eq
  holds j := by
    show DataType.Holds h' (s.memory.typeAt j) ((s.memory.setAt i x).valueAt j)
    by_cases hj : i = j
    · subst hj
      rw [Fold.valueAt_setAt_self hi]
      exact hx
    · rw [Fold.valueAt_setAt_ne hj]
      exact (h.holds j).mono hle

theorem onHeap (h : Conforms layout s) {h' : Heap} (hle : s.heap.cells.length ≤ h'.cells.length) :
    Conforms layout ⟨s.memory, h'⟩ :=
  ⟨h.layout_eq, h.length_eq, fun j => (h.holds j).mono hle⟩

theorem perform (h : Conforms layout s) (a : Act) : Conforms layout (s.perform a).2 := by
  rcases s.perform_cases a with ⟨e, hfails⟩ | ⟨h', hle, hok | ⟨i, x, hi, hok, hx⟩⟩
  · rw [hfails]
    exact h
  · rw [hok]
    exact h.onHeap hle
  · rw [hok]
    exact h.setAt hi hx hle

theorem after (h : Conforms layout s) (acts : List Act) : Conforms layout (s.after acts) := by
  induction acts generalizing s with
  | nil => exact h
  | cons a acts ih => exact ih (h.perform a)

end Conforms

/-- However a buffer of any layout has been used, each field is unset or holds what its type promises.
A call on one of its fields then does one of two things: it succeeds, if the type takes the value, and
touches nothing but the field, or it fails and nothing has changed. -/
theorem used_conforms (layout : Layout) (heap : Heap) (acts : List Act) :
    let s := (Store.mk (.unset layout) heap).after acts
    Conforms layout s ∧
      ∀ i < layout.length, ∀ v,
        (((s.memory.typeAt i).Takes v ∧
            ∃ s', s.perform (.write i v) = (none, s') ∧ Touches i s s') ∨
          (¬ (s.memory.typeAt i).Takes v ∧ ∃ e, s.perform (.write i v) = (some e, s))) ∧
        (((s.memory.typeAt i).Adds v ∧
            ∃ s', s.perform (.add i v) = (none, s') ∧ Touches i s s') ∨
          (¬ (s.memory.typeAt i).Adds v ∧ ∃ e, s.perform (.add i v) = (some e, s))) := by
  intro s
  have hs : Conforms layout s := (Conforms.unset layout heap).after acts
  refine ⟨hs, fun i hi v => ⟨?_, ?_⟩⟩
  · have hi : i < s.memory.fields.length := by rw [hs.length_eq]; exact hi
    obtain ⟨htakes, x, h', hok, -, hheap⟩ | hfails := perform_write hi v
    · exact .inl ⟨htakes, _, hok, Touches.setAt x hheap⟩
    · exact .inr hfails
  · have hi : i < s.memory.fields.length := by rw [hs.length_eq]; exact hi
    obtain ⟨hadds, x, hok, -⟩ | hfails := perform_add hi v
    · exact .inl ⟨hadds, _, hok, Touches.setAt x (List.prefix_refl _)⟩
    · exact .inr hfails

theorem used_conforms_vector_refused :
    let layout : Layout := [.array .double, .int]
    let s := (Store.mk (.unset layout) ⟨[[1, 2]], 0⟩).after
      [.write 0 (.vector (some 0)), .revise 1 (Vector.scale 3), .add 1 (.long 4)]
    1 < layout.length ∧ Conforms layout s ∧
      ∃ e, s.perform (.write 1 (.vector (some 1))) = (some e, s) := by
  intro layout s
  obtain ⟨hs, hcalls⟩ := used_conforms layout ⟨[[1, 2]], 0⟩
    [.write 0 (.vector (some 0)), .revise 1 (Vector.scale 3), .add 1 (.long 4)]
  have htype : s.memory.typeAt 1 = .int := by
    rw [Memory.typeAt, hs.layout_eq]
    rfl
  have hrefused : ¬ (s.memory.typeAt 1).Takes (.vector (some 1)) := by
    rw [htype]
    rintro (hnull | ⟨k, hk⟩)
    · cases hnull
    · cases hk
  rcases (hcalls 1 (by decide) (.vector (some 1))).1 with ⟨htakes, -⟩ | ⟨-, hfails⟩
  · exact absurd htakes hrefused
  · exact ⟨by decide, hs, hfails⟩

end Store

end FactFold
