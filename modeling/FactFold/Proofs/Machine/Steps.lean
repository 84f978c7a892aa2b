import FactFold.Machine.Routine
import Mathlib

/-!
# Laws of steps

A step of a run is a function of the world. The equations here open a step at its first action, so
that a successful run can be taken apart (`runIn_bind_ok_iff`). Two properties of steps carry most
arguments about expressions.

* `Yields x P`: whenever `x` succeeds, its result satisfies `P`, whatever the world is.
* `Quiet x`: `x` leaves every buffer as it is, and neither looks at the remembered sources nor adds
  to them. The value of an expression is computed by a quiet step, so it does not matter how many
  expressions have been checked before.
-/

namespace FactFold.Machine.Run

variable {α β : Type} {w w' : World}

/-! ## Opening a step -/

@[simp] theorem runIn_pure (a : α) (w : World) : (pure a : Run α).runIn w = (.ok a, w) := rfl

@[simp] theorem runIn_throw (e : Fault) (w : World) :
    (throw e : Run α).runIn w = (.error e, w) := rfl

@[simp] theorem runIn_get (w : World) : (get : Run World).runIn w = (.ok w, w) := rfl

@[simp] theorem runIn_set (v w : World) : (set v : Run Unit).runIn w = (.ok (), v) := rfl

@[simp] theorem runIn_modify (f : World → World) (w : World) :
    (modify f : Run Unit).runIn w = (.ok (), f w) := rfl

@[simp] theorem runIn_modifyGet (f : World → α × World) (w : World) :
    (modifyGet f : Run α).runIn w = (.ok (f w).1, (f w).2) := rfl

@[simp] theorem runIn_lift (x : Except Fault α) (w : World) :
    (liftM x : Run α).runIn w = (x, w) := rfl

/-- A sequence of steps ends at the first that fails. -/
theorem runIn_bind (x : Run α) (k : α → Run β) (w : World) :
    (x >>= k).runIn w =
      match x.runIn w with
      | (.ok a, w') => (k a).runIn w'
      | (.error e, w') => (.error e, w') := by
  simp only [runIn, bind, ExceptT.bind, ExceptT.mk, StateT.bind, ExceptT.run, StateT.run,
    ExceptT.bindCont]
  -- the first step has failed or has a result, and either way the rest computes
  rcases x w with ⟨_ | _, _⟩ <;> rfl

/-- A sequence succeeds when both of its parts do. -/
theorem runIn_bind_ok_iff {x : Run α} {k : α → Run β} {b : β} :
    (x >>= k).runIn w = (.ok b, w') ↔
      ∃ a v, x.runIn w = (.ok a, v) ∧ (k a).runIn v = (.ok b, w') := by
  rw [runIn_bind]
  rcases h : x.runIn w with ⟨e | a, v⟩ <;> simp

/-- A step whose result is changed succeeds when the step does. -/
theorem runIn_map_ok_iff {f : α → β} {x : Run α} {b : β} :
    (f <$> x).runIn w = (.ok b, w') ↔ ∃ a, x.runIn w = (.ok a, w') ∧ f a = b := by
  rw [map_eq_pure_bind, runIn_bind_ok_iff]
  constructor
  · rintro ⟨a, v, hx, hp⟩
    simp only [runIn_pure, Prod.mk.injEq, Except.ok.injEq] at hp
    exact ⟨a, hp.2 ▸ hx, hp.1⟩
  · rintro ⟨a, hx, rfl⟩
    exact ⟨a, w', hx, rfl⟩

@[simp] theorem converted_ok (a : α) : converted (.ok a) = pure a := rfl

@[simp] theorem converted_error (e : ConversionError) :
    (converted (.error e) : Run α) = throw (.conversion e) := rfl

/-! ## Results -/

/-- Whenever the step succeeds, its result has the property. -/
def Yields (x : Run α) (P : α → Prop) : Prop := ∀ w a w', x.runIn w = (.ok a, w') → P a

namespace Yields

variable {x : Run α} {P Q : α → Prop}

theorem mono (hx : Yields x P) (h : ∀ a, P a → Q a) : Yields x Q :=
  fun w a w' hrun => h a (hx w a w' hrun)

theorem pure {a : α} (h : P a) : Yields (pure a) P := by
  intro w b w' hrun
  simp only [runIn_pure, Prod.mk.injEq, Except.ok.injEq] at hrun
  exact hrun.1 ▸ h

theorem throw (e : Fault) : Yields (throw e) P := by
  intro w b w' hrun
  simp at hrun

theorem lift {x : Except Fault α} (h : ∀ a, x = .ok a → P a) : Yields (liftM x) P := by
  intro w b w' hrun
  simp only [runIn_lift, Prod.mk.injEq] at hrun
  exact h b hrun.1

theorem bind {k : α → Run β} {R : β → Prop} (hx : Yields x P) (hk : ∀ a, P a → Yields (k a) R) :
    Yields (x >>= k) R := by
  intro w b w' hrun
  obtain ⟨a, v, hxa, hka⟩ := runIn_bind_ok_iff.1 hrun
  exact hk a (hx w a v hxa) v b w' hka

/-- The property of the second step alone may be enough. -/
theorem of_bind {k : α → Run β} {R : β → Prop} (hk : ∀ a, Yields (k a) R) : Yields (x >>= k) R :=
  bind (P := fun _ => True) (fun _ _ _ _ => trivial) fun a _ => hk a

theorem map {f : α → β} {R : β → Prop} (hx : Yields x P) (h : ∀ a, P a → R (f a)) :
    Yields (f <$> x) R := by
  intro w b w' hrun
  obtain ⟨a, hxa, rfl⟩ := runIn_map_ok_iff.1 hrun
  exact h a (hx w a w' hxa)

theorem of_map {f : α → β} {R : β → Prop} (h : ∀ a, R (f a)) : Yields (f <$> x) R :=
  map (P := fun _ => True) (fun _ _ _ _ => trivial) fun a _ => h a

/-- What follows a step only matters on the results the step can have. -/
theorem bind_congr {k l : α → Run β} (hx : Yields x P) (h : ∀ a, P a → k a = l a) :
    x >>= k = x >>= l := by
  funext w
  show (x >>= k).runIn w = (x >>= l).runIn w
  rw [runIn_bind, runIn_bind]
  rcases hrun : x.runIn w with ⟨e | a, v⟩
  · rfl
  · -- a result the first step has is one of those on which both go on alike
    simp only [h a (hx w a v hrun)]

end Yields

/-! ## Quiet steps -/

/-- The step changes no buffer, and the remembered sources neither show in what it does nor change
by it. -/
structure Quiet (x : Run α) : Prop where
  buffers : ∀ w, (x.runIn w).2.buffers = w.buffers
  blind : ∀ w p, x.runIn { w with programs := p } =
    ((x.runIn w).1, { (x.runIn w).2 with programs := p })

namespace Quiet

variable {x : Run α}

theorem pure (a : α) : Quiet (pure a) := ⟨fun _ => rfl, fun _ _ => rfl⟩

theorem throw (e : Fault) : Quiet (throw e : Run α) := ⟨fun _ => rfl, fun _ _ => rfl⟩

theorem lift (x : Except Fault α) : Quiet (liftM x : Run α) := ⟨fun _ => rfl, fun _ _ => rfl⟩

theorem bind {k : α → Run β} (hx : Quiet x) (hk : ∀ a, Quiet (k a)) : Quiet (x >>= k) := by
  constructor
  · intro w
    rw [runIn_bind]
    have hw := hx.buffers w
    rcases h : x.runIn w with ⟨e | a, v⟩
    · rwa [h] at hw
    · rw [h] at hw
      exact ((hk a).buffers v).trans hw
  · intro w p
    rw [runIn_bind, runIn_bind, hx.blind]
    rcases h : x.runIn w with ⟨e | a, v⟩
    · rfl
    · exact (hk a).blind v p

theorem map {f : α → β} (hx : Quiet x) : Quiet (f <$> x) := by
  rw [map_eq_pure_bind]
  exact hx.bind fun a => Quiet.pure (f a)

/-- A step that looks at the world, though not at the remembered sources. -/
theorem get_bind {k : World → Run β} (hk : ∀ w, Quiet (k w))
    (hblind : ∀ w p, k { w with programs := p } = k w) : Quiet (get >>= k) := by
  constructor
  · intro w
    rw [runIn_bind]
    exact (hk w).buffers w
  · intro w p
    rw [runIn_bind, runIn_bind]
    show (k { w with programs := p }).runIn { w with programs := p } = _
    -- it looks at the same things in both worlds
    rw [hblind]
    exact (hk w).blind w p

/-- A step that works on the heap alone. -/
theorem onHeap (f : Heap → α × Heap) :
    Quiet (modifyGet fun w => ((f w.heap).1, { w with heap := (f w.heap).2 })) :=
  ⟨fun _ => rfl, fun _ _ => rfl⟩

theorem converted (x : Except ConversionError α) : Quiet (converted x) := by
  cases x with
  | ok a => exact Quiet.pure a
  | error e => exact Quiet.throw _

theorem load (d : Datum) : Quiet (load d) := onHeap fun h => Value.ofDatum d h

theorem list (items : List Value) : Quiet (list items) :=
  onHeap fun h => (Value.seq h.number.1 items, h.number.2)

theorem alloc (v : List Float) : Quiet (alloc v) := onHeap fun h => h.alloc v

theorem vectorAt (ref : Nat) : Quiet (vectorAt ref) :=
  get_bind (fun _ => Quiet.pure _) fun _ _ => rfl

theorem update (ref : Nat) (f : List Float → List Float) : Quiet (update ref f) :=
  onHeap fun h => ((), h.set ref (f (h.get ref)))

theorem toVector (v : Value) : Quiet (toVector v) := by
  unfold Run.toVector
  -- only a list of numbers makes a vector
  split
  · exact Quiet.throw _
  · exact Quiet.throw _
  · exact Quiet.pure _
  · exact Quiet.pure _
  · exact (Quiet.alloc _).map

end Quiet

end FactFold.Machine.Run
