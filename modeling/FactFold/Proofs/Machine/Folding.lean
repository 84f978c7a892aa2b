import FactFold.Proofs.Machine.Primitives
import FactFold.Proofs.Number.Wrap

/-!
# Folding literals keeps the value

Before a formula runs, arithmetic on literals in it is done at once. For the operators that code of
expressions uses this shows neither in the value of the formula nor in what is known about it.
-/

namespace FactFold.Machine

open Formula (binaryOn)
open Number (wrap64)

variable {natives : Natives} {env : Env}

/-- The operators of expressions: they evaluate both operands from left to right. -/
def BinaryOp.isStrict : BinaryOp → Bool
  | .add | .sub | .mul | .eq | .ne | .lt | .le | .gt | .ge => true
  | _ => false

/-- An operand as its operator sees it, by what is known about it. -/
def Static.operand (t : Static) (v : Value) : Value := if t = .any then v.opened else v

/-- Equality by what is known about both sides. -/
def Static.equality (s t : Static) (w : World) (a b : Value) : Except Fault Value :=
  if s = t && (s = .int || s = .text) then equalAs s a b else binary w .eq a b

/-- The result of a strict operator, by what is known about its operands. -/
def operate (op : BinaryOp) (s t : Static) (w : World) (a b : Value) : Except Fault Value :=
  match op with
  | .eq => Static.equality s t w (s.operand a) (t.operand b)
  | .ne => do
    let v ← Static.equality s t w (s.operand a) (t.operand b)
    unary .not v
  | op => binary w op (s.operand a) (t.operand b)

/-- A strict operator on two steps that compute its operands. -/
def operation (op : BinaryOp) (s t : Static) (x y : Run Value) : Run Value := do
  let a ← x
  let b ← y
  liftM (operate op s t (← get) a b)

theorem equality_eq (x y : Formula) (w : World) (a b : Value) :
    equality x y w a b = Static.equality x.static y.static w a b := by
  unfold equality sharedType? Static.equality
  dsimp only
  split_ifs <;> rfl

theorem Formula.operand_eq (x : Formula) (v : Value) : x.operand v = x.static.operand v := rfl

theorem lift_bind {α β : Type} (x : Except Fault α) (k : α → Except Fault β) :
    (liftM (x >>= k) : Run β) = (do let a ← (liftM x : Run α); liftM (k a)) := by
  cases x <;> rfl

/-- A strict operation evaluates its operands and then operates on them. -/
theorem eval_strict {op : BinaryOp} (h : op.isStrict = true) (x y : Formula) :
    eval natives env (.binary op x y) =
      operation op x.static y.static (eval natives env x) (eval natives env y) := by
  unfold operation operate
  cases op <;> cases h
  all_goals simp only [eval, equality_eq, Formula.operand_eq, lift_bind]

/-- A step that looks at the world to no effect. -/
theorem look_lift {α : Type} {f : World → Except Fault α} {a : α} (h : ∀ w, f w = .ok a) :
    (do liftM (f (← get)) : Run α) = pure a := by
  funext w
  show (Except.ok w >>= f, w) = (Except.ok a, w)
  -- the world that is looked at is the one the step runs in
  rw [← h w]
  rfl

/-- A strict operation on two values that are known beforehand. -/
theorem operation_pure {op : BinaryOp} {s t : Static} {a b v : Value}
    (h : ∀ w, operate op s t w a b = .ok v) : operation op s t (pure a) (pure b) = pure v := by
  unfold operation
  simp only [pure_bind]
  exact look_lift h

/-! ## Arithmetic on literals -/

theorem literalPair?_cases {x y : Formula} {p : LiteralPair} (h : literalPair? x y = some p) :
    (∃ a b, x = .int a ∧ y = .int b ∧ p = .ints a b) ∨
      (∃ a b, x = .int a ∧ y = .float b ∧ p = .floats (Number.doubleOfInt a) b) ∨
      (∃ a b, x = .float a ∧ y = .int b ∧ p = .floats a (Number.doubleOfInt b)) ∨
      (∃ a b, x = .float a ∧ y = .float b ∧ p = .floats a b) := by
  unfold literalPair? at h
  split at h <;> simp_all

/-- Folding an operation on number literals, by what the operation does with integers and with
doubles. -/
theorem eval_foldedPair {op : BinaryOp} (hop : op.isStrict = true) {x y : Formula} {p : LiteralPair}
    (hp : literalPair? x y = some p) (onInts : Int → Int → Int) {onFloats : Float → Float → Float}
    (hInts : ∀ w a b, binary w op (.scalar (.int .int a)) (.scalar (.int .int b)) =
      .ok (.scalar (.int .int (onInts a b))))
    (hFloats : ∀ w a b c d, numberPair? a b = some (.doubles c d) →
      binary w op a b = .ok (.double (onFloats c d)))
    (hne : op ≠ .eq ∧ op ≠ .ne) :
    eval natives env
        (match p with
          | .ints a b => .int (onInts a b)
          | .floats a b => .float (onFloats a b)) =
      eval natives env (.binary op x y) := by
  -- apart from equality an operation has one meaning, whatever is known about its operands
  have hoperate : ∀ s t w a b,
      operate op s t w a b = binary w op (s.operand a) (t.operand b) := by
    intro s t w a b
    unfold operate
    cases op <;> first | rfl | exact (hne.1 rfl).elim | exact (hne.2 rfl).elim
  rw [eval_strict hop]
  obtain ⟨a, b, rfl, rfl, rfl⟩ | ⟨a, b, rfl, rfl, rfl⟩ | ⟨a, b, rfl, rfl, rfl⟩ |
    ⟨a, b, rfl, rfl, rfl⟩ := literalPair?_cases hp
  -- two integers are folded as integers, any other pair as doubles
  all_goals
    simp only [eval]
    symm
    apply operation_pure
    intro w
    rw [hoperate]
    first
      | exact hInts w a b
      | exact hFloats w _ _ _ _ rfl

theorem eval_foldedAdd {x y : Formula} {p : LiteralPair} (hp : literalPair? x y = some p) :
    eval natives env
        (match p with
          | .ints a b => .int (wrap64 (a + b))
          | .floats a b => .float (a + b)) =
      eval natives env (.binary .add x y) := by
  refine eval_foldedPair rfl hp (fun a b => wrap64 (a + b)) (fun w a b => ?_)
    (fun w a b c d h => ?_) (by decide)
  · simp [binary, sum?, numberPair?, intResult]
  · simp [binary, sum?, h]

theorem eval_foldedSub {x y : Formula} {p : LiteralPair} (hp : literalPair? x y = some p) :
    eval natives env
        (match p with
          | .ints a b => .int (wrap64 (a - b))
          | .floats a b => .float (a - b)) =
      eval natives env (.binary .sub x y) := by
  refine eval_foldedPair rfl hp (fun a b => wrap64 (a - b)) (fun w a b => ?_)
    (fun w a b c d h => ?_) (by decide)
  · simp [binary, difference?, numberPair?, intResult]
  · simp [binary, difference?, h]

theorem eval_foldedMul {x y : Formula} {p : LiteralPair} (hp : literalPair? x y = some p) :
    eval natives env
        (match p with
          | .ints a b => .int (wrap64 (a * b))
          | .floats a b => .float (a * b)) =
      eval natives env (.binary .mul x y) := by
  refine eval_foldedPair rfl hp (fun a b => wrap64 (a * b)) (fun w a b => ?_)
    (fun w a b c d h => ?_) (by decide)
  · simp [binary, product?, numberPair?, intResult]
  · simp [binary, product?, h]

/-- **Folding a strict operation keeps its value.** -/
theorem eval_binaryOn {op : BinaryOp} (h : op.isStrict = true) (x y : Formula) :
    eval natives env (binaryOn op x y) = eval natives env (.binary op x y) := by
  cases op <;> cases h
  case add =>
    unfold binaryOn
    dsimp only
    split
    -- two texts are joined
    case h_1 s t =>
      rw [eval_strict rfl]
      simp only [eval]
      exact (operation_pure fun w => by
        simp [operate, Static.operand, Formula.static, Formula.static?, binary, sum?, numberPair?]).symm
    case h_2 =>
      have hfold := @eval_foldedAdd natives env x y
      cases hp : literalPair? x y with
      | none => rfl
      | some p => cases p <;> exact hfold hp
  case sub =>
    have hfold := @eval_foldedSub natives env x y
    unfold binaryOn
    cases hp : literalPair? x y with
    | none => rfl
    | some p => cases p <;> exact hfold hp
  case mul =>
    have hfold := @eval_foldedMul natives env x y
    unfold binaryOn
    cases hp : literalPair? x y with
    | none => rfl
    | some p => cases p <;> exact hfold hp
  case eq =>
    unfold binaryOn
    dsimp only
    split
    -- equality is folded where both sides are literals of one sort
    case h_4 => rfl
    all_goals
      rw [eval_strict rfl]
      simp only [eval]
      exact (operation_pure fun w => by
        simp [operate, Static.operand, Static.equality, Formula.static, Formula.static?, equalAs,
          binary, equal, equalItems, numberPair?, countsAsNull, same, sameWith, sameScalar]).symm
  all_goals rfl

/-- Folding a strict operation keeps what is known about it. -/
theorem static_binaryOn {op : BinaryOp} (h : op.isStrict = true) (x y : Formula) :
    (binaryOn op x y).static? = (Formula.binary op x y).static? := by
  cases op <;> cases h
  case add =>
    unfold binaryOn
    dsimp only
    split
    · rfl
    · cases hp : literalPair? x y with
      | none => rfl
      | some p =>
        obtain ⟨a, b, rfl, rfl, rfl⟩ | ⟨a, b, rfl, rfl, rfl⟩ | ⟨a, b, rfl, rfl, rfl⟩ |
          ⟨a, b, rfl, rfl, rfl⟩ := literalPair?_cases hp <;> rfl
  case eq =>
    unfold binaryOn
    dsimp only
    split <;> rfl
  -- whether the literals are folded or not, the result is a number of the same sort
  case sub | mul =>
    unfold binaryOn
    cases hp : literalPair? x y with
    | none => rfl
    | some p =>
      obtain ⟨a, b, rfl, rfl, rfl⟩ | ⟨a, b, rfl, rfl, rfl⟩ | ⟨a, b, rfl, rfl, rfl⟩ |
        ⟨a, b, rfl, rfl, rfl⟩ := literalPair?_cases hp <;> rfl
  all_goals rfl

/-! ## Negation of a literal -/

theorem eval_notOn (x : Formula) :
    eval natives env (Formula.unaryOn .not x) = eval natives env (.unary .not x) := by
  cases x <;> rfl

theorem static_notOn (x : Formula) :
    (Formula.unaryOn .not x).static? = (Formula.unary .not x).static? := by
  cases x <;> rfl

end FactFold.Machine
