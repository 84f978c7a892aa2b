import FactFold.Proofs.Machine.Steps
import FactFold.Proofs.Text.Utf8

/-!
# What the primitives of expressions do

Operators, conversions, static methods and the comparing methods of values are all quiet: of the
world they look at the heap and the buffers only, and they change nothing but the heap. Each has a
fact about its result as well: no primitive makes a buffer out of values that are none.
-/

namespace FactFold.Machine

open Run (Quiet Yields)

/-! ## Sameness and equality look at heap and buffers only -/

section Blind

variable (w : World) (p : List String)

theorem sameBuffers_blind (depth : Nat) :
    sameBuffers { w with programs := p } depth = sameBuffers w depth := by
  induction depth with
  | zero => rfl
  | succ depth ih =>
    funext a b
    simp only [sameBuffers, ih]
    rfl

theorem same_blind : same { w with programs := p } = same w := by
  unfold same
  rw [sameBuffers_blind]

theorem equalItems_blind : equalItems { w with programs := p } = equalItems w := by
  funext a b
  simp only [equalItems, same_blind]

mutual

theorem equal_blind : ∀ a b : Value, equal { w with programs := p } a b = equal w a b
  | .seq _ as, b => by
    simp only [equal]
    cases items? w.heap b with
    | none => rfl
    | some bs => exact equalAll_blind as bs
  | .null, b | .scalar _, b | .span _, b | .ints .., b | .singles .., b | .doubles _, b
  | .vector _, b | .texts _, b | .fact .., b | .buffer _, b | .content _, b => by
    cases b <;> simp only [equal, equalItems_blind]

theorem equalAll_blind : ∀ as bs : List Value,
    equalAll { w with programs := p } as bs = equalAll w as bs
  | [], [] | [], _ :: _ | _ :: _, [] => by simp only [equalAll]
  | a :: as, b :: bs => by simp only [equalAll, equal_blind a b, equalAll_blind as bs]

end

theorem valueMethod_blind (receiver : Value) (method : String) (args : List Value) :
    valueMethod { w with programs := p } receiver method args = valueMethod w receiver method args := by
  unfold valueMethod
  simp only [same_blind]

theorem binary_blind (op : BinaryOp) (a b : Value) :
    binary { w with programs := p } op a b = binary w op a b := by
  unfold binary isIn?
  simp only [equal_blind]

end Blind

/-! ## Primitives are quiet -/

theorem quiet_lookAndLift {α : Type} {f : World → Except Fault α}
    (h : ∀ w p, f { w with programs := p } = f w) : Quiet (do liftM (f (← get))) :=
  Quiet.get_bind (fun _ => Quiet.lift _) fun w p => by rw [h]

theorem quiet_binary (op : BinaryOp) (a b : Value) : Quiet (do liftM (binary (← get) op a b)) :=
  quiet_lookAndLift fun w p => binary_blind w p op a b

theorem quiet_convert (type : String) (v : Value) : Quiet (convert type v) := by
  unfold convert
  split
  all_goals first
    | exact (Quiet.converted _).map
    | exact (Quiet.toVector _).map
    | exact Quiet.pure _
    | (split <;> first | exact Quiet.pure _ | exact Quiet.throw _)

theorem quiet_factMethod (fields : List Value) (method : String) (args : List Value) :
    Quiet (factMethod fields method args) := by
  unfold factMethod
  split
  · refine (Quiet.lift _).bind fun v => ?_
    split
    all_goals first
      | exact (Quiet.converted _).map
      | exact (Quiet.toVector _).map
      | exact Quiet.pure _
      | exact Quiet.throw _
  · exact Quiet.throw _

theorem quiet_updateIfPresent (ref : Option Nat) (f : List Float → List Float) :
    Quiet (updateIfPresent ref f) := by
  cases ref with
  | none => exact Quiet.pure _
  | some ref => exact Quiet.update ref f

theorem quiet_vectorMethod (ref : Option Nat) (method : String) (args : List Value) :
    Quiet (vectorMethod ref method args) := by
  unfold vectorMethod
  split
  · split
    · exact (Quiet.vectorAt _).bind fun _ => (Quiet.alloc _).bind fun _ => Quiet.pure _
    · exact Quiet.pure _
  · split
    · split
      · exact (Quiet.converted _).bind fun _ =>
          (quiet_updateIfPresent _ _).bind fun _ => Quiet.pure _
      · refine (Quiet.toVector _).bind fun other => ?_
        split
        · exact Quiet.throw _
        · split
          · exact Quiet.throw _
          · exact (Quiet.vectorAt _).bind fun _ =>
              (quiet_updateIfPresent _ _).bind fun _ => Quiet.pure _
    · exact Quiet.throw _

/-- Methods of a buffer that read, and those it has not, are quiet. -/
theorem quiet_bufferMethod (id : Nat) {method : String} (args : List Value)
    (h : method ∈ ["isNull", "readInt", "readLong", "equals", "compareTo"]) :
    Quiet (bufferMethod id method args) := by
  have hmethod : method = "isNull" ∨ method = "readInt" ∨ method = "readLong" ∨
      method = "equals" ∨ method = "compareTo" := by simpa using h
  unfold bufferMethod
  cases args with
  | nil => exact Quiet.throw _
  | cons place rest =>
    refine (Quiet.converted _).bind fun field => Quiet.get_bind (fun w => ?_) fun _ _ => rfl
    dsimp only
    split
    · -- there is no such field, and nothing comes after the failure
      exact Quiet.throw _
    · rcases hmethod with rfl | rfl | rfl | rfl | rfl
      · exact Quiet.pure _
      · exact Quiet.pure _
      · exact Quiet.pure _
      -- the comparing methods are unknown, whatever the arguments
      · rcases rest with _ | ⟨_, _ | _⟩ <;> exact Quiet.throw _
      · rcases rest with _ | ⟨_, _ | _⟩ <;> exact Quiet.throw _

/-- Comparing values by their methods is quiet, whatever the values are. -/
theorem quiet_invoke (receiver : Value) {method : String} (args : List Value)
    (h : method = "equals" ∨ method = "compareTo") : Quiet (invoke receiver method args) := by
  unfold invoke
  split
  · exact Quiet.throw _
  · exact quiet_factMethod _ _ _
  · exact quiet_bufferMethod _ _ (by rcases h with rfl | rfl <;> simp)
  · exact quiet_vectorMethod _ _ _
  · -- values of the evaluator's own look at the world without the remembered sources
    exact quiet_lookAndLift fun w p => valueMethod_blind w p _ _ _

theorem quiet_vectorStatic (name : String) (args : List Value) : Quiet (vectorStatic name args) := by
  unfold vectorStatic
  split
  · refine (Quiet.toVector _).bind fun ref => ?_
    split
    · exact Quiet.throw _
    · refine (Quiet.vectorAt _).bind fun _ => (Quiet.alloc _).bind fun _ => ?_
      split
      · exact (Quiet.converted _).bind fun _ => (Quiet.update _ _).bind fun _ => Quiet.pure _
      · refine (Quiet.toVector _).bind fun other => ?_
        split
        · exact Quiet.pure _
        · exact (Quiet.vectorAt _).bind fun _ => (Quiet.update _ _).bind fun _ => Quiet.pure _
  · exact Quiet.throw _

theorem quiet_static (natives : Natives) (name : String) (args : List Value) :
    Quiet (static natives name args) := by
  unfold static
  split
  · refine (Quiet.lift _).bind fun answer => ?_
    split
    · exact Quiet.pure _
    · exact Quiet.load _
  · split
    all_goals first
      | exact Quiet.lift _
      | exact quiet_vectorStatic _ _

/-! ## Results of comparing methods -/

theorem not_bufferMethod (id : Nat) {method : String} (args : List Value) {P : Value → Prop}
    (h : method = "equals" ∨ method = "compareTo") : Yields (bufferMethod id method args) P := by
  unfold bufferMethod
  cases args with
  | nil => exact Yields.throw _
  | cons place rest =>
    refine Yields.of_bind fun field => Yields.of_bind fun w => ?_
    dsimp only
    split
    · exact Yields.of_bind fun _ => by
        rcases h with rfl | rfl <;> rcases rest with _ | ⟨_, _ | _⟩ <;> exact Yields.throw _
    · rcases h with rfl | rfl <;> rcases rest with _ | ⟨_, _ | _⟩ <;> exact Yields.throw _

theorem not_factMethod (fields : List Value) {method : String} (args : List Value)
    {P : Value → Prop} (h : method = "equals" ∨ method = "compareTo") :
    Yields (factMethod fields method args) P := by
  unfold factMethod
  split
  · refine Yields.of_bind fun v => ?_
    rcases h with rfl | rfl <;> exact Yields.throw _
  · exact Yields.throw _

theorem not_vectorMethod (ref : Option Nat) {method : String} (args : List Value)
    {P : Value → Prop} (h : method = "equals" ∨ method = "compareTo") :
    Yields (vectorMethod ref method args) P := by
  unfold vectorMethod
  rw [if_neg (by rcases h with rfl | rfl <;> decide)]
  split
  · rw [if_neg (by rcases h with rfl | rfl <;> decide)]
    refine Yields.of_bind fun other => ?_
    split
    · exact Yields.throw _
    · rcases h with rfl | rfl <;> exact Yields.throw _
  · exact Yields.throw _

/-- The result of a comparing method is that of an ordinary value. -/
theorem yields_invoke {P : Value → Prop} (receiver : Value) {method : String} (args : List Value)
    (h : method = "equals" ∨ method = "compareTo")
    (hP : ∀ w v, valueMethod w receiver method args = .ok v → P v) :
    Yields (invoke receiver method args) P := by
  unfold invoke
  split
  · exact Yields.throw _
  · exact not_factMethod _ _ h
  · exact not_bufferMethod _ _ h
  · exact not_vectorMethod _ _ h
  · exact Yields.of_bind fun w => Yields.lift fun v hv => hP w v hv

/-- Equality by method tells a truth value. -/
theorem yields_equals (receiver : Value) (args : List Value) :
    Yields (invoke receiver "equals" args) fun v => ∃ b, v = .bool b := by
  refine yields_invoke receiver args (.inl rfl) fun w v hv => ?_
  unfold valueMethod at hv
  split at hv
  · split at hv <;> first | cases hv; exact ⟨_, rfl⟩ | simp_all
  · cases hv

/-- Three-way order tells an integer. -/
theorem yields_compareTo (receiver : Value) (args : List Value) :
    Yields (invoke receiver "compareTo" args) fun v => ∃ n, v = .long n := by
  refine yields_invoke receiver args (.inr rfl) fun w v hv => ?_
  unfold valueMethod at hv
  split at hv
  · split at hv
    case h_4 =>
      split at hv <;> cases hv
      exact ⟨_, rfl⟩
    all_goals first | cases hv; exact ⟨_, rfl⟩ | simp_all
  · cases hv

end FactFold.Machine
