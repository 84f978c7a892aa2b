import FactFold.Proofs.Machine.Vectors

/-!
# Functional and in-place operations on vectors

A vector can be added to another, or taken from it, in two ways. The static method yields a new
vector. The method of the same name changes its receiver, so that a vector which must stay is cloned
first (`onClone`). Both ways are the same script (`Elementwise.script`): the vector of the first
operand, a copy of it, the vector of the second operand, and the change of the copy. They differ in
what they do where a vector is absent, and in nothing else (`static_eq_script`, `onClone_eq_script`).

So on two vectors of any lengths both are one run, which ends in one world
(`Elementwise.script_runs`), and an absent first operand is a null pointer for both. An absent second
operand is a null pointer in place only: the static method passes the copy on as it is.
-/

namespace FactFold

/-! ## Items -/

/-- An item of the first list changes where the second list reaches. -/
theorem Vector.getElem?_zipOnto (f : Float → Float → Float) :
    ∀ (xs ys : List Float) (i : Nat),
      (zipOnto f xs ys)[i]? = xs[i]?.map fun x => (ys[i]?.map (f x)).getD x
  | x :: xs, y :: ys, 0 => rfl
  | x :: xs, y :: ys, i + 1 => getElem?_zipOnto f xs ys i
  | [], [], i | [], _ :: _, i => by simp [zipOnto]
  | x :: xs, [], i => by
    -- no item changes
    cases h : (x :: xs)[i]? <;> simp [zipOnto, h]

namespace Machine

open Run (toVector)

variable {w u : World} {natives : Natives} {a b v : Value} {x y : Option (List Float)}

/-! ## The vector of a value -/

/-- The items of the vector a value can be used as. Null and an absent vector stand for no vector, and
for a value that cannot be used as a vector there is no answer. -/
def World.vectorOf? (w : World) (v : Value) : Option (Option (List Float)) :=
  match v.asVector? with
  | some (.ok .absent) => some none
  | some (.ok (.shared ref)) => w.heap.cells[ref]?.map some
  | some (.ok (.fresh xs)) => some (some xs)
  | some (.error _) | none => none

theorem World.get_heap_of_cells {ref : Nat} {xs : List Float} (h : w.heap.cells[ref]? = some xs) :
    w.heap.get ref = xs := by
  rw [Heap.get, List.getD_eq_getElem?_getD, h, Option.getD_some]

theorem World.Survives.getElem?_cells (h : w.Survives u) {ref : Nat} {xs : List Float}
    (href : w.heap.cells[ref]? = some xs) : u.heap.cells[ref]? = some xs := by
  obtain ⟨more, hmore⟩ := h.cells
  rw [← hmore, List.getElem?_append_left (List.getElem?_eq_some_iff.1 href).1, href]

/-- A value keeps its vector as long as the world survives. -/
theorem World.Survives.vectorOf? (h : w.Survives u) (hv : w.vectorOf? v = some x) :
    u.vectorOf? v = some x := by
  unfold World.vectorOf? at hv ⊢
  split at hv
  case h_2 ref _ =>
    obtain ⟨xs, hxs, rfl⟩ := Option.map_eq_some_iff.1 hv
    rw [h.getElem?_cells hxs, Option.map_some]
  all_goals exact hv

theorem toVector_absent (h : w.vectorOf? v = some none) : (toVector v).runIn w = (.ok none, w) := by
  unfold World.vectorOf? at h
  unfold Run.toVector
  cases hv : v.asVector? with
  | none => simp [hv] at h
  | some r =>
    rcases r with e | (_ | ref | xs)
    all_goals simp_all

/-- The vector of a value gets a place of its own, or has one. -/
theorem toVector_present {xs : List Float} (h : w.vectorOf? v = some (some xs)) :
    ∃ ref u, (toVector v).runIn w = (.ok (some ref), u) ∧ w.Survives u ∧
      u.heap.cells[ref]? = some xs := by
  unfold World.vectorOf? at h
  unfold Run.toVector
  cases hv : v.asVector? with
  | none => simp [hv] at h
  | some r =>
    rcases r with e | (_ | ref | ys)
    case error => simp [hv] at h
    case ok.absent => simp [hv] at h
    case ok.shared =>
      rw [hv] at h
      obtain ⟨ys, hys, hxs⟩ := Option.map_eq_some_iff.1 h
      obtain rfl := Option.some.inj hxs
      -- a shared vector has its place already
      exact ⟨ref, w, rfl, .refl w, hys⟩
    case ok.fresh =>
      rw [hv] at h
      obtain rfl : ys = xs := by simpa using h
      refine ⟨w.heap.cells.length, { w with heap := (w.heap.alloc ys).2 }, rfl,
        ⟨rfl, List.prefix_append _ _⟩, ?_⟩
      simp [Heap.alloc]

/-! ## The two ways -/

/-- An operation that changes a vector item by item by another one. -/
inductive Elementwise where
  | plus
  | minus

namespace Elementwise

/-- The method that changes its receiver. -/
def method : Elementwise → String
  | .plus => "plus"
  | .minus => "minus"

/-- The static method. -/
def staticName : Elementwise → String
  | .plus => "VectorOps.plus"
  | .minus => "VectorOps.minus"

/-- What becomes of one item. -/
def item : Elementwise → Float → Float → Float
  | .plus => (· + ·)
  | .minus => (· - ·)

/-- The change of a whole vector. -/
def change (op : Elementwise) : List Float → List Float → List Float := Vector.zipOnto op.item

/-- Changes a copy by the vector of the second operand; `second` is what happens without one. -/
def changeCopy (op : Elementwise) (copy : Nat) (second : Run Unit) (b : Value) : Run Value := do
  match ← toVector b with
  | none => second
  | some other =>
    let items ← Run.vectorAt other
    Run.update copy fun v => op.change v items
  pure (.vector (some copy))

/-- What both ways do, up to absent vectors: `first` is the place that a null first operand is
reported at. -/
def script (op : Elementwise) (first : String) (second : Run Unit) (a b : Value) : Run Value := do
  match ← toVector a with
  | none => throw (.nullPointer first)
  | some ref =>
    let copy ← Run.alloc (← Run.vectorAt ref)
    op.changeCopy copy second b

end Elementwise

/-- Calls a method with one argument on a clone of a value, and yields the clone. -/
def callOnClone (method : String) (v b : Value) : Run Value := do
  let copy ← invoke v "cloneOnHeap" []
  let _ ← invoke copy method [b]
  pure copy

/-- Calls a method with one argument on a clone of a value as a vector. -/
def onClone (method : String) (a b : Value) : Run Value := do
  let v ← convert "IVector" a
  callOnClone method v b

/-- The static method passes over an absent second operand. -/
theorem static_eq_script (op : Elementwise) (hnative : natives.lookup op.staticName = none)
    (a b : Value) :
    static natives op.staticName [a, b] = op.script op.staticName (pure ()) a b := by
  unfold static
  rw [hnative]
  cases op with
  | plus => rfl
  | minus => rfl

theorem invoke_change (op : Elementwise) (ref : Option Nat) (b : Value) :
    invoke (.vector ref) op.method [b] = (do
      match ← toVector b with
      | none => throw (.nullPointer ("vector." ++ op.method))
      | some other =>
        let items ← Run.vectorAt other
        updateIfPresent ref fun v => op.change v items
        pure .null) := by
  cases op with
  | plus => rfl
  | minus => rfl

/-- The method on a clone does not. -/
theorem onClone_eq_script (op : Elementwise) (a b : Value) :
    onClone op.method a b =
      op.script "cloneOnHeap" (throw (.nullPointer ("vector." ++ op.method))) a b := by
  have hclone : ∀ ref : Nat, invoke (.vector (some ref)) "cloneOnHeap" [] = (do
      let copy ← Run.alloc (← Run.vectorAt ref)
      pure (.vector (some copy))) := fun ref => rfl
  show (Run.boxed <$> toVector a) >>= _ = _
  rw [bind_map_left]
  unfold Elementwise.script Elementwise.changeCopy
  congr 1
  funext ref
  -- a null operand fails where it is cloned
  cases ref with
  | none => rfl
  | some ref =>
    show callOnClone op.method (.vector (some ref)) b = _
    simp only [callOnClone, hclone, bind_assoc, pure_bind, invoke_change, updateIfPresent]
    congr 1; funext items
    congr 1; funext copy
    congr 1; funext other
    cases other with
    | none => rfl
    | some other => simp only [bind_assoc, pure_bind]

namespace Elementwise

variable (op : Elementwise) {first : String} {second : Run Unit} {xs ys : List Float}

theorem script_first_absent (ha : w.vectorOf? a = some none) :
    (op.script first second a b).runIn w = (.error (.nullPointer first), w) := by
  rw [script, Run.runIn_bind, toVector_absent ha]
  rfl

/-- The vector of the first operand is copied to a new place, and the script goes on there. -/
theorem script_first_present (b : Value) (ha : w.vectorOf? a = some (some xs)) :
    ∃ copy u, w.Survives u ∧ w.heap.cells.length ≤ copy ∧ u.heap.cells[copy]? = some xs ∧
      ∀ first second,
        (op.script first second a b).runIn w = (op.changeCopy copy second b).runIn u := by
  obtain ⟨ref, v, hrun, hsurvives, href⟩ := toVector_present ha
  refine ⟨v.heap.cells.length, { v with heap := (v.heap.alloc xs).2 },
    hsurvives.trans ⟨rfl, List.prefix_append _ _⟩, hsurvives.length_le, by simp [Heap.alloc],
    fun first second => ?_⟩
  simp only [script, Run.runIn_bind, hrun, Run.vectorAt, Run.runIn_get, Run.runIn_pure, Run.alloc,
    Run.runIn_modifyGet, World.get_heap_of_cells href]
  rfl

/-- On two vectors the script succeeds, and does not depend on what it would do without them. -/
theorem script_runs (ha : w.vectorOf? a = some (some xs)) (hb : w.vectorOf? b = some (some ys)) :
    ∃ copy u, w.Survives u ∧ w.heap.cells.length ≤ copy ∧
      u.heap.cells[copy]? = some (op.change xs ys) ∧
      ∀ first second, (op.script first second a b).runIn w = (.ok (.vector (some copy)), u) := by
  obtain ⟨copy, v, hv, hfresh, hcopy, hscript⟩ := op.script_first_present b ha
  -- the vector of the second operand is the one it was, also when both are the same
  obtain ⟨other, u, hrun, hu, hother⟩ := toVector_present (hv.vectorOf? hb)
  have hcopy : u.heap.cells[copy]? = some xs := hu.getElem?_cells hcopy
  refine ⟨copy, { u with heap := u.heap.set copy (op.change xs ys) },
    (hv.trans hu).set_heap hfresh _, hfresh, ?_, fun first second => ?_⟩
  · exact List.getElem?_set_self (List.getElem?_eq_some_iff.1 hcopy).1
  · simp only [hscript, changeCopy, Run.runIn_bind, hrun, Run.vectorAt, Run.runIn_get,
      Run.runIn_pure, Run.update, Run.runIn_modify, World.get_heap_of_cells hother,
      World.get_heap_of_cells hcopy]

/-- Without a second vector, what is to happen then decides about the copy. -/
theorem script_second_absent (ha : w.vectorOf? a = some (some xs)) (hb : w.vectorOf? b = some none) :
    ∃ copy u, w.Survives u ∧ w.heap.cells.length ≤ copy ∧ u.heap.cells[copy]? = some xs ∧
      ∀ first second, (op.script first second a b).runIn w =
        (second >>= fun _ => pure (.vector (some copy))).runIn u := by
  obtain ⟨copy, u, hu, hfresh, hcopy, hscript⟩ := op.script_first_present b ha
  refine ⟨copy, u, hu, hfresh, hcopy, fun first second => ?_⟩
  rw [hscript, changeCopy, Run.runIn_bind, toVector_absent (hu.vectorOf? hb)]

end Elementwise

/-! ## Agreement -/

/-- The step fails in the world, on a null where a value is needed. -/
def Run.FailsOnNull {α : Type} (step : Run α) (w : World) : Prop :=
  ∃ e, (step.runIn w).1 = .error e ∧ e.isNullPointer = true

namespace Run

variable {α β : Type}

theorem failsOnNull_throw (place : String) (w : World) :
    (throw (.nullPointer place) : Run α).FailsOnNull w := ⟨_, rfl, rfl⟩

theorem not_failsOnNull_pure (r : α) (w : World) : ¬ (pure r : Run α).FailsOnNull w := by
  rintro ⟨e, he, -⟩
  cases he

/-- What is done with the result at the end cannot fail. -/
theorem failsOnNull_bind_pure (step : Run α) (f : α → β) (w : World) :
    (step >>= fun r => pure (f r)).FailsOnNull w ↔ step.FailsOnNull w := by
  unfold FailsOnNull
  rw [runIn_bind]
  rcases step.runIn w with ⟨e | r, u⟩ <;> simp

end Run

/-- An absent first operand is a null pointer, and an absent second one is what it is made to be. -/
theorem Elementwise.script_failsOnNull (op : Elementwise) {first : String} {second : Run Unit}
    {P : Prop} (hsecond : ∀ u, second.FailsOnNull u ↔ P) (ha : w.vectorOf? a = some x)
    (hb : w.vectorOf? b = some y) :
    (op.script first second a b).FailsOnNull w ↔ x = none ∨ y = none ∧ P := by
  rcases x with _ | xs
  · simp [Run.FailsOnNull, op.script_first_absent ha, Fault.isNullPointer]
  -- the first operand is there, so that the second one decides
  rcases y with _ | ys
  · obtain ⟨copy, u, -, -, -, hrun⟩ := op.script_second_absent ha hb
    have hafter := (Run.failsOnNull_bind_pure second (fun _ => Value.vector (some copy)) u).trans
      (hsecond u)
    rw [Run.FailsOnNull, hrun]
    simpa [Run.FailsOnNull] using hafter
  · obtain ⟨copy, u, -, -, -, hrun⟩ := op.script_runs ha hb
    simp [Run.FailsOnNull, hrun]

/-- **The two ways agree on vectors, and on an absent first operand.** On two vectors of any lengths
they are one run: it yields a new vector, in which every item of the first one is combined with the
item of the second one at its place, if there is one, and everything that was there stays. In place a
null pointer is reported exactly when an operand is absent. The static method does so for the first
operand only; without the second one it yields a copy of the first.

An absent vector which is called as it is, without a conversion that makes it null, is its own clone
and takes in every vector without a change. -/
theorem static_agrees_onClone (op : Elementwise) (natives : Natives)
    (hnative : natives.lookup op.staticName = none) (ha : w.vectorOf? a = some x)
    (hb : w.vectorOf? b = some y) :
    ((static natives op.staticName [a, b]).FailsOnNull w ↔ x = none) ∧
    ((onClone op.method a b).FailsOnNull w ↔ x = none ∨ y = none) ∧
    (∀ xs ys, x = some xs → y = some ys → ∃ copy u items,
      (static natives op.staticName [a, b]).runIn w = (.ok (.vector (some copy)), u) ∧
      (onClone op.method a b).runIn w = (.ok (.vector (some copy)), u) ∧
      u.heap.cells[copy]? = some items ∧
      (∀ i : Nat, items[i]? = xs[i]?.map fun x => (ys[i]?.map (op.item x)).getD x) ∧
      w.Survives u ∧ w.heap.cells.length ≤ copy) ∧
    (∀ xs, x = some xs → y = none → ∃ copy u,
      (static natives op.staticName [a, b]).runIn w = (.ok (.vector (some copy)), u) ∧
      u.heap.cells[copy]? = some xs ∧ w.Survives u ∧ w.heap.cells.length ≤ copy) ∧
    (∀ ys, y = some ys → ∃ u,
      (callOnClone op.method (.vector none) b).runIn w = (.ok (.vector none), u) ∧
      w.Survives u) := by
  rw [static_eq_script op hnative, onClone_eq_script]
  -- an absent receiver is updated only if it is present, which is to say not at all
  have hreceiver : ∀ ys, y = some ys → ∃ u,
      (callOnClone op.method (.vector none) b).runIn w = (.ok (.vector none), u) ∧
      w.Survives u := by
    rintro ys rfl
    obtain ⟨other, u, hrun, hu, -⟩ := toVector_present hb
    refine ⟨u, ?_, hu⟩
    show (invoke (.vector none) op.method [b] >>= _).runIn w = _
    simp only [invoke_change, updateIfPresent, Run.runIn_bind, hrun, Run.vectorAt, Run.runIn_get,
      Run.runIn_pure]
  refine ⟨?_, ?_, ?_, ?_, hreceiver⟩
  · simpa using op.script_failsOnNull (P := False)
      (fun u => iff_of_false (Run.not_failsOnNull_pure () u) id) ha hb
  · simpa using op.script_failsOnNull (P := True)
      (fun u => iff_of_true (Run.failsOnNull_throw _ u) trivial) ha hb
  · rintro xs ys rfl rfl
    obtain ⟨copy, u, hu, hfresh, hcopy, hrun⟩ := op.script_runs ha hb
    exact ⟨copy, u, _, hrun _ _, hrun _ _, hcopy, Vector.getElem?_zipOnto _ xs ys, hu, hfresh⟩
  · rintro xs rfl rfl
    obtain ⟨copy, u, hu, hfresh, hcopy, hrun⟩ := op.script_second_absent ha hb
    exact ⟨copy, u, hrun _ _, hcopy, hu, hfresh⟩

/-- A vector plus a shorter list is one vector both ways; a vector plus nothing is itself by the
static method, and a null pointer in place. -/
theorem static_agrees_onClone_lengths :
    let w : World := { heap := { cells := [[1, 2]] } }
    (∃ copy u items,
      (static [] "VectorOps.plus" [.vector (some 0), .ints .int [3]]).runIn w =
        (.ok (.vector (some copy)), u) ∧
      (onClone "plus" (.vector (some 0)) (.ints .int [3])).runIn w =
        (.ok (.vector (some copy)), u) ∧
      u.heap.cells[copy]? = some items ∧ items[1]? = some 2 ∧ u.heap.cells[0]? = some [1, 2]) ∧
    ¬ (static [] "VectorOps.plus" [.vector (some 0), .null]).FailsOnNull w ∧
    (onClone "plus" (.vector (some 0)) .null).FailsOnNull w := by
  intro w
  have hlist := static_agrees_onClone (w := w) (a := .vector (some 0)) (b := .ints .int [3])
    .plus [] rfl rfl rfl
  have hnull := static_agrees_onClone (w := w) (a := .vector (some 0)) (b := .null)
    .plus [] rfl rfl rfl
  obtain ⟨copy, u, items, hstatic, hplace, hcopy, hitems, hu, -⟩ := hlist.2.2.1 _ _ rfl rfl
  refine ⟨⟨copy, u, items, hstatic, hplace, hcopy, hitems 1, hu.getElem?_cells rfl⟩, ?_, ?_⟩
  · exact fun h => nomatch hnull.1.1 h
  · exact hnull.2.1.2 (.inr rfl)

end Machine

end FactFold
