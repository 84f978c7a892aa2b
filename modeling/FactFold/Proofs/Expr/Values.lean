import FactFold.Proofs.Expr.Meaning
import FactFold.Proofs.Machine.Statements

/-!
# Laws of values

The value of an expression is computed by a quiet step: no buffer changes, and how many expressions
have been checked before does not matter. A comparison yields a truth value. An expression of an
integral type yields an integer, provided the functions it calls do. What the evaluator knows about an
expression before running it fits the type of the expression.
-/

namespace FactFold

open Machine
open Machine.Run (Quiet Yields)

/-- What the laws need of a convention: it looks at heap and buffers only, takes values that are no
buffers as they are, and its equality tells truth values. -/
structure Convention.Lawful (c : Convention) : Prop where
  date : ∀ d, Quiet (c.date d)
  operand : ∀ t v, v.opened = v → c.operand t v = v
  blind : ∀ s t w p a b, c.equality s t { w with programs := p } a b = c.equality s t w a b
  truth : ∀ s t w a b v, c.equality s t w a b = .ok v → ∃ b, v = .bool b

theorem Convention.plain_lawful : Convention.plain.Lawful where
  date _ := Quiet.pure _
  operand _ _ _ := rfl
  blind _ _ w p a b := binary_blind w p .eq a b
  truth _ _ _ _ _ _ h := ⟨_, (Except.ok.inj h).symm⟩

theorem equalAs_bool {t : Static} {a b v : Value} (h : equalAs t a b = .ok v) :
    ∃ b, v = .bool b := by
  unfold equalAs at h
  split at h <;> cases h <;> exact ⟨_, rfl⟩

theorem Convention.machine_lawful (natives : Natives) : (Convention.machine natives).Lawful where
  date _ := quiet_static natives _ _
  operand t v h := by
    show (if t = .any then v.opened else v) = v
    split
    · exact h
    · rfl
  blind s t w p a b := by
    show (if _ then _ else _) = if _ then _ else _
    split
    · rfl
    · exact binary_blind w p .eq a b
  truth s t w a b v h := by
    change (if _ then _ else _) = _ at h
    split at h
    · exact equalAs_bool h
    · exact ⟨_, (Except.ok.inj h).symm⟩

namespace Meaning

variable {m : Meaning}

/-! ## Quiet steps -/

theorem quiet_read (t : DataType) (v : Value) : Quiet (read t v) := by
  unfold read
  split
  · exact (Quiet.toVector v).map
  · split
    · exact (Quiet.converted _).map
    · exact (Quiet.converted _).map
  · exact (Quiet.converted _).map
  · split
    · exact Quiet.throw _
    · exact quiet_convert _ _

theorem quiet_vector (items : List Value) : Quiet (vector items) :=
  (Quiet.list items).bind fun v => (Quiet.toVector v).map

theorem quiet_constant (hm : m.convention.Lawful) (c : Constant) : Quiet (m.constant c) := by
  cases c with
  | date d => exact hm.date d
  | ints ns | longs ns => exact quiet_vector _
  | floats xs | doubles xs => exact quiet_vector _
  | int n | long n => exact Quiet.pure _
  | float x | double x => exact Quiet.pure _
  | string bs => exact Quiet.pure _

theorem quiet_staticOf (natives : Natives) (args : List Value) : Quiet (staticOf natives args) := by
  cases args with
  | nil => exact Quiet.throw _
  | cons name args => exact quiet_static _ _ _

theorem quiet_call (natives : Natives) (name : String) (args : List Value) :
    Quiet (call natives name args) := by
  unfold call
  split
  · exact quiet_staticOf _ _
  · exact quiet_static _ _ _

theorem quiet_arithmetic {op : Arithmetic} {l r : Node} {x y : Run Value} (hx : Quiet x)
    (hy : Quiet y) : Quiet (m.arithmetic op l r x y) := by
  unfold arithmetic
  split
  · -- a scalar quotient converts its left operand before the right one is computed
    exact hx.bind fun a => (quiet_convert _ _).bind fun _ => hy.bind fun b => Quiet.lift _
  · exact hx.bind fun a => hy.bind fun b => quiet_binary _ _ _
  · exact hx.bind fun a => hy.bind fun b => quiet_static _ _ _
  · exact hx.bind fun a => hy.bind fun b => quiet_static _ _ _
  · exact hx.bind fun a => hy.bind fun b => quiet_static _ _ _
  · exact hy.bind fun b => hx.bind fun a => quiet_static _ _ _
  · exact hx.bind fun a => hy.bind fun b => (Quiet.lift _).bind fun _ => quiet_static _ _ _
  · exact Quiet.throw _

theorem quiet_compareInline (hm : m.convention.Lawful) (op : Comparison) (s t : Static)
    (a b : Value) : Quiet (m.compareInline op s t a b) := by
  unfold compareInline
  cases op with
  | eq => exact quiet_lookAndLift fun w p => hm.blind s t w p _ _
  | ne =>
    refine Quiet.get_bind (fun w => (Quiet.lift _).bind fun v => Quiet.lift _) fun w p => ?_
    simp only [hm.blind]
  | lt | le | gt | ge => exact quiet_binary _ _ _

theorem quiet_compareByMethod (op : Comparison) (a b : Value) : Quiet (compareByMethod op a b) := by
  unfold compareByMethod
  cases op with
  | eq => exact quiet_invoke _ _ (.inl rfl)
  | ne => exact (quiet_invoke _ _ (.inl rfl)).bind fun v => Quiet.lift _
  | lt | le | gt | ge =>
    exact (quiet_invoke _ _ (.inr rfl)).bind fun v => quiet_binary _ _ _

theorem quiet_comparison (hm : m.convention.Lawful) {op : Comparison} {l r : Node}
    {x y : Run Value} (hx : Quiet x) (hy : Quiet y) : Quiet (m.comparison op l r x y) := by
  unfold comparison
  refine hx.bind fun a => hy.bind fun b => ?_
  split
  · exact quiet_compareByMethod _ _ _
  · split
    · exact quiet_compareInline hm _ _ _ _ _
    · exact Quiet.throw _

/-! ## Truth values -/

theorem yields_order {op : BinaryOp} (h : op = .lt ∨ op = .le ∨ op = .gt ∨ op = .ge)
    (a b : Value) : Yields (do liftM (binary (← get) op a b)) fun v => ∃ b, v = .bool b := by
  refine Yields.of_bind fun w => Yields.lift fun v hv => ?_
  rcases h with rfl | rfl | rfl | rfl
  all_goals
    simp only [binary] at hv
    split at hv
    case h_1 u hu =>
      obtain ⟨c, -, rfl⟩ := Option.map_eq_some_iff.1 hu
      exact ⟨c, (Except.ok.inj hv).symm⟩
    case h_2 => cases hv

theorem yields_not (v : Value) :
    Yields (liftM (unary .not v)) fun v => ∃ b, v = .bool b := by
  refine Yields.lift fun u hu => ?_
  unfold unary at hu
  split at hu
  case h_1 => exact ⟨_, (Except.ok.inj hu).symm⟩
  all_goals simp_all

/-- A comparison tells a truth value. -/
theorem yields_comparison (hm : m.convention.Lawful) (op : Comparison) (l r : Node)
    (x y : Run Value) : Yields (m.comparison op l r x y) fun v => ∃ b, v = .bool b := by
  unfold comparison
  refine Yields.of_bind fun a => Yields.of_bind fun b => ?_
  split
  · unfold compareByMethod
    cases op with
    | eq => exact yields_equals _ _
    | ne => exact Yields.of_bind fun v => yields_not v
    | lt | le | gt | ge => exact Yields.of_bind fun v => yields_order (by decide) _ _
  · split
    · unfold compareInline
      cases op with
      | eq => exact Yields.of_bind fun w => Yields.lift fun v hv => hm.truth _ _ _ _ _ _ hv
      | ne => exact Yields.of_bind fun w => Yields.of_bind fun v => yields_not v
      | lt | le | gt | ge => exact yields_order (by decide) _ _
    · exact Yields.throw _

end Meaning

namespace Node

variable {m : Meaning}

mutual

/-- **The value of an expression is computed quietly.** -/
theorem quiet_value (hm : m.convention.Lawful) : ∀ n : Node, Quiet (n.value m)
  | .column c => by
    rw [value]
    exact (Quiet.lift _).bind fun v => Meaning.quiet_read _ v
  | .constant c => by
    rw [value]
    exact Meaning.quiet_constant hm c
  | .arithmetic op l r => by
    rw [value]
    exact Meaning.quiet_arithmetic (quiet_value hm l) (quiet_value hm r)
  | .comparison op l r => by
    rw [value]
    exact Meaning.quiet_comparison hm (quiet_value hm l) (quiet_value hm r)
  | .guarded op l r body => by
    rw [value]
    exact Quiet.throw _
  | .choice op l r yes no => by
    rw [value]
    refine (Meaning.quiet_comparison hm (quiet_value hm l) (quiet_value hm r)).bind fun c =>
      (Quiet.lift _).bind fun b => ?_
    cases b with
    | true => exact quiet_value hm yes
    | false => exact quiet_value hm no
  | .call f args => by
    rw [value]
    exact (quiet_values hm args).bind fun vs => Meaning.quiet_call _ _ vs

theorem quiet_values (hm : m.convention.Lawful) : ∀ ns : List Node, Quiet (values m ns)
  | [] => by
    rw [values]
    exact Quiet.pure _
  | n :: rest => by
    rw [values]
    exact (quiet_value hm n).bind fun v => (quiet_values hm rest).bind fun vs => Quiet.pure _

end

theorem quiet_holds (hm : m.convention.Lawful) (op : Comparison) (l r : Node) :
    Quiet (holds m op l r) :=
  (Meaning.quiet_comparison hm (quiet_value hm l) (quiet_value hm r)).bind fun _ => Quiet.lift _

/-- Without a condition the outcome of an expression is its value. -/
theorem outcome_of_single (m : Meaning) {n : Node}
    (hguard : ∀ op l r body, n ≠ .guarded op l r body)
    (hchoice : ∀ op l r yes no, n ≠ .choice op l r yes no) : n.outcome m = some <$> n.value m := by
  cases n with
  | guarded op l r body => exact (hguard _ _ _ _ rfl).elim
  | choice op l r yes no => exact (hchoice _ _ _ _ _ rfl).elim
  | _ => rfl

/-- The outcome of an expression is computed quietly. -/
theorem quiet_outcome (hm : m.convention.Lawful) : ∀ n : Node, Quiet (n.outcome m)
  | .guarded op l r body => by
    rw [outcome]
    refine (quiet_holds hm op l r).bind fun b => ?_
    cases b with
    | true => exact quiet_outcome hm body
    | false => exact Quiet.pure _
  | .choice op l r yes no => by
    rw [outcome]
    refine (quiet_holds hm op l r).bind fun b => ?_
    cases b with
    | true => exact quiet_outcome hm yes
    | false => exact quiet_outcome hm no
  | .column _ | .constant _ | .arithmetic .. | .comparison .. | .call .. =>
    (quiet_value hm _).map

/-! ## Integers -/

mutual

/-- The functions an expression calls. -/
def callees : Node → List Function
  | .column _ | .constant _ => []
  | .arithmetic _ l r | .comparison _ l r => l.callees ++ r.callees
  | .guarded _ l r body => l.callees ++ r.callees ++ body.callees
  | .choice _ l r yes no => l.callees ++ r.callees ++ yes.callees ++ no.callees
  | .call f args => f :: calleesOf args

/-- The functions several expressions call. -/
def calleesOf : List Node → List Function
  | [] => []
  | n :: rest => n.callees ++ calleesOf rest

end

mutual

/-- The constants of an expression. -/
def constants : Node → List Constant
  | .column _ => []
  | .constant c => [c]
  | .arithmetic _ l r | .comparison _ l r => l.constants ++ r.constants
  | .guarded _ l r body => l.constants ++ r.constants ++ body.constants
  | .choice _ l r yes no => l.constants ++ r.constants ++ yes.constants ++ no.constants
  | .call _ args => constantsOf args

/-- The constants of several expressions. -/
def constantsOf : List Node → List Constant
  | [] => []
  | n :: rest => n.constants ++ constantsOf rest

end

end Node

theorem Numeric.isIntegral_wider {a b : Numeric} (h : (a.wider b).isIntegral = true) :
    a.isIntegral = true ∧ b.isIntegral = true := by
  cases a <;> cases b <;> first | exact ⟨rfl, rfl⟩ | cases h

/-- An integral result of arithmetic comes from integral operands, and not by division. -/
theorem Arithmetic.integral_operands {op : Arithmetic} {s t : DataType}
    (h : (op.type s t).isIntegral = true) :
    op ≠ .div ∧ ∃ n k, s = .scalar n ∧ t = .scalar k ∧ n.isIntegral = true ∧ k.isIntegral = true := by
  unfold Arithmetic.type at h
  split at h
  case h_1 => cases h
  case h_2 n k hop =>
    obtain ⟨hn, hk⟩ := Numeric.isIntegral_wider h
    exact ⟨fun hdiv => hop hdiv, n, k, rfl, rfl, hn, hk⟩
  all_goals cases h

/-- Two branches of a choice of integral type are of integral types. -/
theorem integral_branches {s t : DataType}
    (h : (if s = t then s else (DataType.promote? s t).getD (.other "")).isIntegral = true) :
    s.isIntegral = true ∧ t.isIntegral = true := by
  split at h
  case isTrue heq => exact ⟨h, heq ▸ h⟩
  case isFalse =>
    unfold DataType.promote? at h
    split at h
    · exact Numeric.isIntegral_wider h
    · cases h
    · cases h

/-- Integers add, subtract and multiply to integers. -/
theorem binary_integer {op : BinaryOp} (hop : op = .add ∨ op = .sub ∨ op = .mul) {w : World}
    {a b v : Value} (ha : a.isInteger = true) (hb : b.isInteger = true)
    (h : binary w op a b = .ok v) : v.isInteger = true := by
  unfold Value.isInteger at ha hb
  split at ha <;> cases ha
  split at hb <;> cases hb
  rcases hop with rfl | rfl | rfl <;> obtain rfl := Except.ok.inj h <;> rfl

theorem Value.opened_of_integer {v : Value} (h : v.isInteger = true) : v.opened = v := by
  cases v <;> first | rfl | cases h

namespace Node

variable {m : Meaning}

/-- Functions whose calls yield integers. -/
def CallsIntegers (natives : Natives) (fs : List Function) : Prop :=
  ∀ f ∈ fs, ∀ args, Yields (Meaning.call natives f.callee args) fun v => v.isInteger = true

/-- **An expression of integral type yields integers.** -/
theorem yields_integer (hm : m.convention.Lawful) : ∀ n : Node,
    (n.type m.typing).isIntegral = true → CallsIntegers m.natives n.callees →
      Yields (n.value m) fun v => v.isInteger = true
  | .column c, ht, _ => by
    rw [value]
    refine Yields.of_bind fun v => ?_
    cases hc : (Node.column c).type m.typing with
    | scalar n =>
      rw [hc] at ht
      -- a column is converted to its type as it is read, whatever the row holds
      have hn : n.isIntegral = true := ht
      unfold Meaning.read
      simp only [hn, if_true]
      exact Yields.of_map fun _ => rfl
    | _ =>
      rw [hc] at ht
      cases ht
  | .constant c, ht, _ => by
    rw [value]
    rw [type] at ht
    cases c with
    | int n | long n => exact Yields.pure rfl
    | _ => cases ht
  | .arithmetic op l r, ht, hf => by
    rw [type] at ht
    obtain ⟨hop, n, k, hl, hr, hn, hk⟩ := Arithmetic.integral_operands ht
    have hx := yields_integer hm l (by rw [hl]; exact hn)
      (fun f h => hf f (by simp [callees, h]))
    have hy := yields_integer hm r (by rw [hr]; exact hk)
      (fun f h => hf f (by simp [callees, h]))
    rw [value]
    unfold Meaning.arithmetic
    rw [hl, hr]
    cases op with
    | div => exact (hop rfl).elim
    | mul | add | sub =>
      refine hx.bind fun a ha => hy.bind fun b hb => Yields.of_bind fun w => Yields.lift fun v hv => ?_
      -- integers are no buffers, so that the convention leaves both operands alone
      rw [hm.operand _ _ (Value.opened_of_integer ha),
        hm.operand _ _ (Value.opened_of_integer hb)] at hv
      exact binary_integer (by simp [Arithmetic.machine]) ha hb hv
  | .comparison op l r, ht, _ => by
    rw [type] at ht
    cases ht
  | .guarded op l r body, _, _ => by
    rw [value]
    exact Yields.throw _
  | .choice op l r yes no, ht, hf => by
    rw [type] at ht
    obtain ⟨hyes, hno⟩ := integral_branches ht
    have hy := yields_integer hm yes hyes (fun f h => hf f (by simp [callees, h]))
    have hn := yields_integer hm no hno (fun f h => hf f (by simp [callees, h]))
    rw [value]
    refine Yields.of_bind fun c => Yields.of_bind fun b => ?_
    cases b with
    | true => exact hy
    | false => exact hn
  | .call f args, _, hf => by
    rw [value]
    exact Yields.of_bind fun vs => hf f (by simp [callees]) vs

/-- An expression of integral type has an integer for its outcome, or none. -/
theorem yields_integer_outcome (hm : m.convention.Lawful) : ∀ n : Node,
    (n.type m.typing).isIntegral = true → CallsIntegers m.natives n.callees →
      Yields (n.outcome m) fun o => ∀ v ∈ o, v.isInteger = true
  | .guarded op l r body, ht, hf => by
    rw [type] at ht
    rw [outcome]
    refine Yields.of_bind fun b => ?_
    cases b with
    | true =>
      exact yields_integer_outcome hm body ht (fun f h => hf f (by simp [callees, h]))
    | false => exact Yields.pure (by simp)
  | .choice op l r yes no, ht, hf => by
    rw [type] at ht
    obtain ⟨hyes, hno⟩ := integral_branches ht
    rw [outcome]
    refine Yields.of_bind fun b => ?_
    cases b with
    | true => exact yields_integer_outcome hm yes hyes (fun f h => hf f (by simp [callees, h]))
    | false => exact yields_integer_outcome hm no hno (fun f h => hf f (by simp [callees, h]))
  | .column _, ht, hf | .constant _, ht, hf | .arithmetic .., ht, hf | .comparison .., ht, hf
  | .call .., ht, hf => (yields_integer hm _ ht hf).map fun v hv => by simpa using hv

end Node

/-! ## What is known fits the type -/

/-- What is known can be known about a value of a type. -/
def Machine.Static.fits : Static → DataType → Bool
  | k, .scalar _ => k = .any || k.isNumber
  | k, .boolean => k = .any || k = .bool
  | _, _ => true

/-- What is known about a choice fits what both branches fit. -/
theorem Machine.Static.fits_cond {a b : Static} {t : DataType} (ha : a.fits t = true)
    (hb : b.fits t = true) : ((Static.cond? .any a b).getD .any).fits t = true := by
  cases t with
  | scalar n => cases a <;> cases ha <;> cases b <;> cases hb <;> rfl
  | boolean => cases a <;> cases ha <;> cases b <;> cases hb <;> rfl
  | _ => rfl

/-- What is known about an arithmetic operation on numbers. -/
theorem Machine.Static.binary_numbers {op : Arithmetic} (hop : op ≠ .div) {a b : Static} {m n k : Numeric}
    (ha : a.fits (.scalar m) = true) (hb : b.fits (.scalar n) = true) :
    ∃ c, Static.binary? op.machine a b = some c ∧ c.fits (.scalar k) = true := by
  cases op with
  | div => exact (hop rfl).elim
  | mul | add | sub => cases a <;> cases ha <;> cases b <;> cases hb <;> exact ⟨_, rfl, rfl⟩

namespace Node

/-- **What the evaluator knows about an expression fits the type of the expression.** -/
theorem known_fits (t : Typing) : ∀ n : Node, (n.known t).fits (n.type t) = true
  | .column c => by
    rw [known]
    · cases (Node.column c).type t <;> rfl
    all_goals simp
  | .constant c => by cases c <;> rfl
  | .arithmetic op l r => by
    have hl := known_fits t l
    have hr := known_fits t r
    rw [type]
    -- the operands matter by their types and by what is known about them
    generalize hlt : l.type t = lt at hl
    generalize hrt : r.type t = rt at hr
    rw [known.eq_def]
    dsimp only
    rw [hlt, hrt]
    split
    case h_1 => rfl
    case h_2 m n hop =>
      obtain ⟨c, hc, hfits⟩ := Static.binary_numbers (k := m.wider n) (fun h => hop h) hl hr
      rw [hc]
      cases op with
      | div => exact (hop rfl).elim
      | mul | add | sub => exact hfits
    case h_3 => cases op.type lt rt <;> rfl
  | .comparison op l r => by
    rw [known, type]
    split <;> rfl
  | .guarded op l r body => by
    rw [known]
    · cases (Node.guarded op l r body).type t <;> rfl
    all_goals simp
  | .choice op l r yes no => by
    have hyes := known_fits t yes
    have hno := known_fits t no
    rw [known, type]
    split_ifs with heq
    · rw [heq] at hyes ⊢
      exact Static.fits_cond hyes hno
    · cases hp : DataType.promote? (yes.type t) (no.type t) with
      | none => rfl
      | some u =>
        unfold DataType.promote? at hp
        split at hp
        case h_1 m n hm hn =>
          rw [hm] at hyes
          rw [hn] at hno
          -- to what fits it does not matter which scalar type it is
          obtain rfl := Option.some.inj hp
          exact Static.fits_cond (t := .scalar (m.wider n)) hyes hno
        case h_2 =>
          obtain rfl := Option.some.inj hp
          rfl
        case h_3 => cases hp
  | .call f args => by
    rw [known]
    · cases (Node.call f args).type t <;> rfl
    all_goals simp

end Node

end FactFold
