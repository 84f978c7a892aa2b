import FactFold.Proofs.Expr.Values

/-!
# From one convention to the other

Where the evaluator's convention gives an expression a value, the plain convention gives the same
value. The converse can fail at one place only. Two operands that are both known to be integers are
compared as the evaluator's own integers, and a choice counts as one already when its first branch is:
the other branch may still yield an integer read from a row, which is none of the evaluator's own. Such
a comparison has no value under the evaluator's convention.

* `Run.Refines`: whenever one step succeeds, the other does the same.
* `Node.value_refines`: the value under one convention refines that under another, if the conventions
  agree on the constants and on the equalities of the expression.
* `Node.isSettled`: no equality of the expression meets an integer that is not the evaluator's own.
-/

namespace FactFold.Machine.Run

variable {α β : Type}

/-- Whenever the first step succeeds, the second has the same result and leaves the same world. -/
def Refines (x y : Run α) : Prop := ∀ ⦃w a u⦄, x.runIn w = (.ok a, u) → y.runIn w = (.ok a, u)

/-- The step can have this result. -/
def Arises (x : Run α) (a : α) : Prop := ∃ w u, x.runIn w = (.ok a, u)

theorem Yields.of_arises {x : Run α} {P : α → Prop} (h : Yields x P) {a : α} (ha : Arises x a) :
    P a := by
  obtain ⟨w, u, hrun⟩ := ha
  exact h w a u hrun

namespace Refines

theorem refl (x : Run α) : Refines x x := fun _ _ _ h => h

theorem bind {x y : Run α} {k l : α → Run β} (hx : Refines x y)
    (hk : ∀ a, Arises x a → Refines (k a) (l a)) : Refines (x >>= k) (y >>= l) := by
  intro w b u hrun
  obtain ⟨a, v, ha, hb⟩ := runIn_bind_ok_iff.1 hrun
  exact runIn_bind_ok_iff.2 ⟨a, v, hx ha, hk a ⟨w, v, ha⟩ hb⟩

theorem lift {x y : Except Fault α} (h : ∀ a, x = .ok a → y = .ok a) :
    Refines (liftM x) (liftM y) := by
  intro w a u hrun
  simp only [runIn_lift, Prod.mk.injEq] at hrun ⊢
  exact ⟨h a hrun.1, hrun.2⟩

end Refines

end FactFold.Machine.Run

namespace FactFold

open Machine
open Machine.Run (Yields Refines Arises)
open Number (wrap64)

/-! ## Ordinary values -/

/-- The value is no buffer, and an integer of the machine's own width has 64 bits. -/
def Value.IsOrdinary (v : Value) : Prop :=
  v.opened = v ∧ ∀ n, v = .scalar (.int .int n) → wrap64 n = n

theorem Value.isOrdinary_int (n : Int) : (Value.scalar (.int .int (wrap64 n))).IsOrdinary := by
  refine ⟨rfl, fun k hk => ?_⟩
  obtain rfl : wrap64 n = k := by simpa using hk
  exact Number.wrap64_wrap64 n

/-- Values that are neither buffers nor integers of the machine's own width. -/
theorem Value.isOrdinary_of_ne {v : Value} (hopened : v.opened = v)
    (hint : ∀ n, v ≠ .scalar (.int .int n)) : v.IsOrdinary :=
  ⟨hopened, fun n hn => (hint n hn).elim⟩

/-- Sums, differences and products are ordinary. -/
theorem binary_ordinary {op : Arithmetic} (hop : op ≠ .div) {w : World} {a b v : Value}
    (h : binary w op.machine a b = .ok v) : v.IsOrdinary := by
  -- the result is an integer of 64 bits, or it is made of doubles, texts, instants or spans
  have hresult : sum? a b = some v ∨ difference? a b = some v ∨ product? a b = some v := by
    cases op with
    | div => exact (hop rfl).elim
    | add | sub | mul =>
      simp only [Arithmetic.machine, binary] at h
      split at h
      case h_1 u hu =>
        obtain rfl := Except.ok.inj h
        simp [hu]
      case h_2 => cases h
  -- an integer of 64 bits, or something made of doubles, texts, instants or spans
  unfold sum? difference? product? at hresult
  rcases hresult with h | h | h
  all_goals
    split at h
    · obtain rfl := Option.some.inj h
      exact Value.isOrdinary_int _
    · obtain rfl := Option.some.inj h
      exact Value.isOrdinary_of_ne rfl (by intro n hn; cases hn)
    · split at h <;> cases h <;>
        exact Value.isOrdinary_of_ne rfl (by intro n hn; cases hn)

theorem divide_ordinary {a b v : Value} (h : divide a b = .ok v) : v.IsOrdinary := by
  unfold divide at h
  dsimp only at h
  split at h
  · split at h
    · cases h
    · obtain rfl := Except.ok.inj h
      exact Value.isOrdinary_of_ne rfl (by intro n hn; cases hn)
  · split at h
    · obtain rfl := Except.ok.inj h
      exact Value.isOrdinary_of_ne rfl (by intro n hn; cases hn)
    · cases h
    · cases h

/-- Types whose values are compared by operators. -/
def DataType.isSimple : DataType → Bool
  | .scalar _ | .boolean => true
  | _ => false

/-- A column of a simple type is read as an ordinary value. -/
theorem Meaning.read_ordinary {t : DataType} (ht : t.isSimple = true) (v : Value) :
    Yields (Meaning.read t v) Value.IsOrdinary := by
  have hlong : ∀ n, (Value.long n).IsOrdinary :=
    fun n => Value.isOrdinary_of_ne rfl (by intro k hk; cases hk)
  have hdouble : ∀ x, (Value.double x).IsOrdinary :=
    fun x => Value.isOrdinary_of_ne rfl (by intro k hk; cases hk)
  have hbool : ∀ b, (Value.bool b).IsOrdinary :=
    fun b => Value.isOrdinary_of_ne rfl (by intro k hk; cases hk)
  cases t with
  | scalar n =>
    unfold Meaning.read
    dsimp only
    split
    · exact Yields.of_map hlong
    · exact Yields.of_map hdouble
  | boolean => exact Yields.of_map hbool
  | _ => cases ht

/-- Arithmetic of a simple type is on numbers. -/
theorem Arithmetic.scalar_operands {op : Arithmetic} {s t : DataType}
    (h : (op.type s t).isSimple = true) : ∃ n k, s = .scalar n ∧ t = .scalar k := by
  unfold Arithmetic.type at h
  split at h
  case h_1 => exact ⟨_, _, rfl, rfl⟩
  case h_2 => exact ⟨_, _, rfl, rfl⟩
  all_goals cases h

/-- Both branches of a choice of simple type are of simple types. -/
theorem simple_branches {s t : DataType}
    (h : (if s = t then s else (DataType.promote? s t).getD (.other "")).isSimple = true) :
    s.isSimple = true ∧ t.isSimple = true := by
  split at h
  case isTrue heq => exact ⟨h, heq ▸ h⟩
  case isFalse =>
    unfold DataType.promote? at h
    split at h
    · exact ⟨rfl, rfl⟩
    · cases h
    · cases h

namespace Node

variable {m : Meaning}

/-- Functions whose calls yield ordinary values. -/
def CallsOrdinary (natives : Natives) (fs : List Function) : Prop :=
  ∀ f ∈ fs, ∀ args, Yields (Meaning.call natives f.callee args) Value.IsOrdinary

/-- **An expression of a simple type yields ordinary values.** -/
theorem yields_ordinary (hm : m.convention.Lawful) : ∀ n : Node,
    (n.type m.typing).isSimple = true → CallsOrdinary m.natives n.callees →
      Yields (n.value m) Value.IsOrdinary
  | .column c, ht, _ => by
    rw [value]
    exact Yields.of_bind fun v => Meaning.read_ordinary ht v
  | .constant c, ht, _ => by
    rw [value]
    rw [type] at ht
    cases c with
    | int n | long n => exact Yields.pure (Value.isOrdinary_int n)
    | float x | double x =>
      exact Yields.pure (Value.isOrdinary_of_ne rfl (by intro k hk; cases hk))
    | _ => cases ht
  | .arithmetic op l r, ht, hf => by
    rw [type] at ht
    obtain ⟨n, k, hl, hr⟩ := Arithmetic.scalar_operands ht
    rw [value]
    unfold Meaning.arithmetic
    rw [hl, hr]
    cases op with
    | div =>
      refine Yields.of_bind fun a => Yields.of_bind fun b => Yields.of_bind fun c => ?_
      exact Yields.lift fun v hv => divide_ordinary hv
    | mul | add | sub =>
      refine Yields.of_bind fun a => Yields.of_bind fun b => Yields.of_bind fun w => ?_
      exact Yields.lift fun v hv => binary_ordinary (by decide) hv
  | .comparison op l r, _, _ => by
    rw [value]
    refine (Meaning.yields_comparison hm op l r (l.value m) (r.value m)).mono ?_
    rintro v ⟨b, rfl⟩
    exact Value.isOrdinary_of_ne rfl (by intro k hk; cases hk)
  | .guarded op l r body, _, _ => by
    rw [value]
    exact Yields.throw _
  | .choice op l r yes no, ht, hf => by
    rw [type] at ht
    obtain ⟨hyes, hno⟩ := simple_branches ht
    have hy := yields_ordinary hm yes hyes (fun f h => hf f (by simp [callees, h]))
    have hn := yields_ordinary hm no hno (fun f h => hf f (by simp [callees, h]))
    rw [value]
    refine Yields.of_bind fun c => Yields.of_bind fun b => ?_
    cases b with
    | true => exact hy
    | false => exact hn
  | .call f args, _, hf => by
    rw [value]
    exact Yields.of_bind fun vs => hf f (by simp [callees]) vs

/-! ## Refinement -/

mutual

/-- The operands of the equalities in an expression. -/
def equalities : Node → List (Node × Node)
  | .column _ | .constant _ => []
  | .arithmetic _ l r => l.equalities ++ r.equalities
  | .comparison op l r => equalityOf op l r ++ l.equalities ++ r.equalities
  | .guarded op l r body =>
    equalityOf op l r ++ l.equalities ++ r.equalities ++ body.equalities
  | .choice op l r yes no =>
    equalityOf op l r ++ l.equalities ++ r.equalities ++ yes.equalities ++ no.equalities
  | .call _ args => equalitiesOf args

/-- The operands of the equalities in several expressions. -/
def equalitiesOf : List Node → List (Node × Node)
  | [] => []
  | n :: rest => n.equalities ++ equalitiesOf rest

/-- The operands of a comparison that is an equality. -/
def equalityOf (op : Comparison) (l r : Node) : List (Node × Node) :=
  if op = .eq || op = .ne then [(l, r)] else []

end

end Node

/-- The same meaning under another convention. -/
def Meaning.under (m : Meaning) (c : Convention) : Meaning := { m with convention := c }

namespace Node

variable {m : Meaning} {c d : Convention}

/-- Where operators compare the operands, what the first convention's equality tells of their values
the second's tells as well. -/
def EqualityRefines (m : Meaning) (c d : Convention) (l r : Node) : Prop :=
  comparesInline (l.type m.typing) (r.type m.typing) = true → ∀ w a b v,
    a.IsOrdinary → Arises (l.value (m.under c)) a → b.IsOrdinary → Arises (r.value (m.under c)) b →
      c.equality (l.known m.typing) (r.known m.typing) w a b = .ok v →
        d.equality (l.known m.typing) (r.known m.typing) w a b = .ok v

theorem simple_of_inline {s t : DataType} (h : comparesInline s t = true) :
    s.isSimple = true ∧ t.isSimple = true := by
  unfold comparesInline at h
  split at h
  · exact ⟨rfl, rfl⟩
  · exact ⟨rfl, rfl⟩
  · cases h

theorem comparison_refines (hc : c.Lawful) (hd : d.Lawful) {op : Comparison} {l r : Node}
    (heq : ∀ p ∈ equalityOf op l r, EqualityRefines m c d p.1 p.2)
    (hf : CallsOrdinary m.natives l.callees) (hf' : CallsOrdinary m.natives r.callees)
    (hl : Refines (l.value (m.under c)) (l.value (m.under d)))
    (hr : Refines (r.value (m.under c)) (r.value (m.under d))) :
    Refines ((m.under c).comparison op l r (l.value (m.under c)) (r.value (m.under c)))
      ((m.under d).comparison op l r (l.value (m.under d)) (r.value (m.under d))) := by
  refine hl.bind fun a ha => hr.bind fun b hb => ?_
  show Refines (if comparesByMethod (l.type m.typing) (r.type m.typing) = true then _ else
      if comparesInline (l.type m.typing) (r.type m.typing) = true then _ else _)
    (if comparesByMethod (l.type m.typing) (r.type m.typing) = true then _ else
      if comparesInline (l.type m.typing) (r.type m.typing) = true then _ else _)
  split_ifs with hby hin
  · exact .refl _
  · obtain ⟨hlt, hrt⟩ := simple_of_inline hin
    have hao := (yields_ordinary (m := m.under c) hc l hlt hf).of_arises ha
    have hbo := (yields_ordinary (m := m.under c) hc r hrt hf').of_arises hb
    unfold Meaning.compareInline
    dsimp only [Meaning.under]
    -- operands of simple types are no buffers, so both conventions leave them alone
    rw [hc.operand _ _ hao.1, hc.operand _ _ hbo.1, hd.operand _ _ hao.1, hd.operand _ _ hbo.1]
    cases op with
    | eq =>
      refine .bind (.refl _) fun w _ => .lift fun v hv => ?_
      exact heq (l, r) (by simp [equalityOf]) hin w a b v hao ha hbo hb hv
    | ne =>
      refine .bind (.refl _) fun w _ => .bind (.lift fun v hv => ?_) fun v _ => .refl _
      exact heq (l, r) (by simp [equalityOf]) hin w a b v hao ha hbo hb hv
    | lt | le | gt | ge => exact .refl _
  · exact .refl _

theorem arithmetic_refines (hc : c.Lawful) (hd : d.Lawful) {op : Arithmetic} {l r : Node}
    (hf : CallsOrdinary m.natives l.callees) (hf' : CallsOrdinary m.natives r.callees)
    (hl : Refines (l.value (m.under c)) (l.value (m.under d)))
    (hr : Refines (r.value (m.under c)) (r.value (m.under d))) :
    Refines ((m.under c).arithmetic op l r (l.value (m.under c)) (r.value (m.under c)))
      ((m.under d).arithmetic op l r (l.value (m.under d)) (r.value (m.under d))) := by
  have hlo : ∀ n, l.type m.typing = .scalar n → ∀ a, Arises (l.value (m.under c)) a → a.opened = a :=
    fun n hn a ha => ((yields_ordinary (m := m.under c) hc l
      (by show (l.type m.typing).isSimple = true; rw [hn]; rfl) hf).of_arises ha).1
  have hro : ∀ n, r.type m.typing = .scalar n → ∀ b, Arises (r.value (m.under c)) b → b.opened = b :=
    fun n hn b hb => ((yields_ordinary (m := m.under c) hc r
      (by show (r.type m.typing).isSimple = true; rw [hn]; rfl) hf').of_arises hb).1
  unfold Meaning.arithmetic
  dsimp only [Meaning.under] at hl hr hlo hro ⊢
  generalize l.type m.typing = lt at hlo
  generalize r.type m.typing = rt at hro
  split
  case h_1 =>
    exact hl.bind fun a _ => .bind (.refl _) fun a _ => hr.bind fun b _ => .refl _
  case h_2 =>
    refine hl.bind fun a ha => hr.bind fun b hb => ?_
    rw [hc.operand _ _ (hlo _ rfl a ha), hc.operand _ _ (hro _ rfl b hb),
      hd.operand _ _ (hlo _ rfl a ha), hd.operand _ _ (hro _ rfl b hb)]
    exact .refl _
  -- the vector is computed before the number it is scaled by
  case h_6 => exact hr.bind fun b _ => hl.bind fun a _ => .refl _
  case h_8 => exact .refl _
  all_goals exact hl.bind fun a _ => hr.bind fun b _ => .refl _

mutual

/-- **A value under one convention is the value under another**, if the conventions agree on the
constants and on the equalities of the expression. -/
theorem value_refines (hc : c.Lawful) (hd : d.Lawful) : ∀ n : Node,
    (∀ k ∈ n.constants, Refines ((m.under c).constant k) ((m.under d).constant k)) →
      (∀ p ∈ n.equalities, EqualityRefines m c d p.1 p.2) → CallsOrdinary m.natives n.callees →
        Refines (n.value (m.under c)) (n.value (m.under d))
  | .column _, _, _, _ => by
    rw [value, value]
    exact .refl _
  | .constant k, hk, _, _ => by
    rw [value, value]
    exact hk k (by simp [constants])
  | .arithmetic op l r, hk, he, hf => by
    simp only [constants, equalities, callees, CallsOrdinary, List.mem_append] at hk he hf
    rw [value, value]
    exact arithmetic_refines hc hd (fun f h => hf f (.inl h)) (fun f h => hf f (.inr h))
      (value_refines hc hd l (fun k h => hk k (.inl h)) (fun p h => he p (.inl h))
        fun f h => hf f (.inl h))
      (value_refines hc hd r (fun k h => hk k (.inr h)) (fun p h => he p (.inr h))
        fun f h => hf f (.inr h))
  | .comparison op l r, hk, he, hf => by
    simp only [constants, equalities, callees, CallsOrdinary, List.mem_append] at hk he hf
    rw [value, value]
    exact comparison_refines hc hd (fun p h => he p (.inl (.inl h))) (fun f h => hf f (.inl h))
      (fun f h => hf f (.inr h))
      (value_refines hc hd l (fun k h => hk k (.inl h)) (fun p h => he p (.inl (.inr h)))
        fun f h => hf f (.inl h))
      (value_refines hc hd r (fun k h => hk k (.inr h)) (fun p h => he p (.inr h))
        fun f h => hf f (.inr h))
  | .guarded .., _, _, _ => by
    rw [value, value]
    exact .refl _
  | .choice op l r yes no, hk, he, hf => by
    simp only [constants, equalities, callees, CallsOrdinary, List.mem_append] at hk he hf
    rw [value, value]
    refine .bind ?_ fun v _ => .bind (.refl _) fun b _ => ?_
    · exact comparison_refines hc hd (fun p h => he p (.inl (.inl (.inl (.inl h)))))
        (fun f h => hf f (.inl (.inl (.inl h)))) (fun f h => hf f (.inl (.inl (.inr h))))
        (value_refines hc hd l (fun k h => hk k (.inl (.inl (.inl h))))
          (fun p h => he p (.inl (.inl (.inl (.inr h))))) fun f h => hf f (.inl (.inl (.inl h))))
        (value_refines hc hd r (fun k h => hk k (.inl (.inl (.inr h))))
          (fun p h => he p (.inl (.inl (.inr h)))) fun f h => hf f (.inl (.inl (.inr h))))
    · cases b with
      | true =>
        exact value_refines hc hd yes (fun k h => hk k (.inl (.inr h)))
          (fun p h => he p (.inl (.inr h))) fun f h => hf f (.inl (.inr h))
      | false =>
        exact value_refines hc hd no (fun k h => hk k (.inr h)) (fun p h => he p (.inr h))
          fun f h => hf f (.inr h)
  | .call f args, hk, he, hf => by
    simp only [constants, equalities, callees, CallsOrdinary, List.mem_cons] at hk he hf
    rw [value, value]
    exact .bind (values_refine hc hd args hk he fun g h => hf g (.inr h)) fun vs _ => .refl _

/-- The values of several expressions under one convention are those under another. -/
theorem values_refine (hc : c.Lawful) (hd : d.Lawful) : ∀ ns : List Node,
    (∀ k ∈ constantsOf ns, Refines ((m.under c).constant k) ((m.under d).constant k)) →
      (∀ p ∈ equalitiesOf ns, EqualityRefines m c d p.1 p.2) →
        CallsOrdinary m.natives (calleesOf ns) →
          Refines (values (m.under c) ns) (values (m.under d) ns)
  | [], _, _, _ => by
    rw [values, values]
    exact .refl _
  | n :: rest, hk, he, hf => by
    simp only [constantsOf, equalitiesOf, calleesOf, CallsOrdinary, List.mem_append] at hk he hf
    rw [values, values]
    exact .bind (value_refines hc hd n (fun k h => hk k (.inl h)) (fun p h => he p (.inl h))
        fun f h => hf f (.inl h)) fun v _ =>
      .bind (values_refine hc hd rest (fun k h => hk k (.inr h)) (fun p h => he p (.inr h))
        fun f h => hf f (.inr h)) fun vs _ => .refl _

end

end Node

/-! ## The evaluator's convention and the plain one -/

/-- The evaluator takes the constant for what it is: its text is made of whole characters, and its date
is within 64 bits and made by the evaluator itself. -/
def Constant.IsOwn (natives : Natives) : Constant → Prop
  | .string bs => literalText bs = bs
  | .date d => natives.lookup "LocalDate.of" = none ∧ wrap64 d.year = d.year ∧
      wrap64 d.month = d.month ∧ wrap64 d.day = d.day
  | _ => True

theorem Constant.IsOwn.constant_eq {m : Meaning} {k : Constant} (h : k.IsOwn m.natives) :
    (m.under (.machine m.natives)).constant k = (m.under .plain).constant k := by
  cases k with
  | string bs => exact congrArg (fun t => pure (Value.scalar (.text t))) h
  | date d =>
    obtain ⟨hnone, hy, hm, hd⟩ := h
    show static m.natives "LocalDate.of" _ = pure (Value.scalar (.time (.ofDate d)))
    rw [static, hnone]
    show (pure (.scalar (.time (.ofDate ⟨wrap64 (wrap64 d.year), wrap64 (wrap64 d.month),
      wrap64 (wrap64 d.day)⟩))) : Run Value) = _
    simp only [hy, hm, hd]
  | _ => rfl

/-- Ordinary values that are equal as integers or as texts are equal. -/
theorem equalAs_binary {t : Static} {w : World} {a b v : Value} (ha : a.IsOrdinary)
    (hb : b.IsOrdinary) (h : equalAs t a b = .ok v) : binary w .eq a b = .ok v := by
  unfold equalAs at h
  split at h
  · obtain rfl := Except.ok.inj h
    rename_i x y
    have hx := ha.2 x rfl
    have hy := hb.2 y rfl
    simp [binary, equal, equalItems, numberPair?, hx, hy]
  · obtain rfl := Except.ok.inj h
    simp [binary, equal, equalItems, numberPair?, countsAsNull, same, sameWith, sameScalar]
  · cases h

namespace Node

/-- **What the evaluator's convention gives an expression is its plain value.** -/
theorem machine_refines_plain {m : Meaning} {n : Node} (hk : ∀ k ∈ n.constants, k.IsOwn m.natives)
    (hf : CallsOrdinary m.natives n.callees) :
    Refines (n.value (m.under (.machine m.natives))) (n.value (m.under .plain)) := by
  refine value_refines (Convention.machine_lawful _) Convention.plain_lawful n
    (fun k h => (hk k h).constant_eq ▸ .refl _) (fun p hp hin w a b v hao _ hbo _ hv => ?_) hf
  -- the two conventions differ only where both operands are known to be integers or texts
  change (if _ then _ else _) = _ at hv
  split at hv
  · exact equalAs_binary hao hbo hv
  · exact hv

/-- The value is always one of the evaluator's own integers. -/
def isSteady : Node → Bool
  | .constant (.int _) | .constant (.long _) => true
  | .arithmetic op l r => op ≠ .div && l.isSteady && r.isSteady
  | .choice _ _ _ yes no => yes.isSteady && no.isSteady
  | _ => false

/-- Two operands that are compared as the evaluator's own integers are such integers. -/
def isSettledPair (t : Typing) (l r : Node) : Bool :=
  !(l.known t = .int && r.known t = .int) || (l.isSteady && r.isSteady)

/-- All operands that are compared as the evaluator's own integers are such integers. -/
def isSettled (t : Typing) (n : Node) : Bool := n.equalities.all fun p => isSettledPair t p.1 p.2

theorem steady_type {t : Typing} : ∀ {n : Node}, n.isSteady = true → ∃ k, n.type t = .scalar k
  | .constant (.int _), _ | .constant (.long _), _ => ⟨_, rfl⟩
  | .arithmetic op l r, h => by
    simp only [isSteady, Bool.and_eq_true] at h
    obtain ⟨j, hl⟩ := steady_type (t := t) h.1.2
    obtain ⟨k, hr⟩ := steady_type (t := t) h.2
    rw [type, hl, hr]
    cases op <;> exact ⟨_, rfl⟩
  | .choice op l r yes no, h => by
    simp only [isSteady, Bool.and_eq_true] at h
    obtain ⟨j, hyes⟩ := steady_type (t := t) h.1
    obtain ⟨k, hno⟩ := steady_type (t := t) h.2
    rw [type, hyes, hno]
    split
    · exact ⟨j, rfl⟩
    · exact ⟨_, rfl⟩

theorem yields_own {m : Meaning} (hm : m.convention.Lawful) : ∀ {n : Node}, n.isSteady = true →
    Yields (n.value m) fun v => ∃ k, v = .scalar (.int .int k)
  | .constant (.int _), _ | .constant (.long _), _ => by
    rw [value]
    exact Yields.pure ⟨_, rfl⟩
  | .arithmetic op l r, h => by
    simp only [isSteady, Bool.and_eq_true] at h
    obtain ⟨j, hl⟩ := steady_type (t := m.typing) h.1.2
    obtain ⟨k, hr⟩ := steady_type (t := m.typing) h.2
    rw [value]
    unfold Meaning.arithmetic
    rw [hl, hr]
    cases op with
    | div => simp at h
    | mul | add | sub =>
      refine (yields_own hm h.1.2).bind fun a ha => (yields_own hm h.2).bind fun b hb => ?_
      obtain ⟨x, rfl⟩ := ha
      obtain ⟨y, rfl⟩ := hb
      refine Yields.of_bind fun w => Yields.lift fun v hv => ?_
      rw [hm.operand _ _ rfl, hm.operand _ _ rfl] at hv
      exact ⟨_, (Except.ok.inj hv).symm⟩
  | .choice op l r yes no, h => by
    simp only [isSteady, Bool.and_eq_true] at h
    rw [value]
    refine Yields.of_bind fun c => Yields.of_bind fun b => ?_
    cases b with
    | true => exact yields_own hm h.1
    | false => exact yields_own hm h.2

/-- **The plain value of a settled expression is what the evaluator's convention gives it.** -/
theorem plain_refines_machine {m : Meaning} {n : Node} (hk : ∀ k ∈ n.constants, k.IsOwn m.natives)
    (hf : CallsOrdinary m.natives n.callees) (hn : n.isSettled m.typing = true) :
    Refines (n.value (m.under .plain)) (n.value (m.under (.machine m.natives))) := by
  refine value_refines Convention.plain_lawful (Convention.machine_lawful _) n
    (fun k h => (hk k h).constant_eq ▸ .refl _) (fun p hp hin w a b v hao ha hbo hb hv => ?_) hf
  have hpair : isSettledPair m.typing p.1 p.2 = true := List.all_eq_true.1 hn p hp
  show (if _ then _ else _) = _
  split
  case isFalse => exact hv
  case isTrue hknown =>
    obtain ⟨hsame, hone⟩ := Bool.and_eq_true_iff.1 hknown
    have hsame : p.1.known m.typing = p.2.known m.typing := of_decide_eq_true hsame
    have hfits := known_fits m.typing p.1
    -- the operands are no texts, since texts are compared by methods
    have hint : p.1.known m.typing = .int := by
      cases hp1 : p.1.known m.typing with
      | int => rfl
      | text =>
        rw [hp1] at hfits
        obtain ⟨hsimple, -⟩ := simple_of_inline hin
        cases ht : p.1.type m.typing with
        | scalar k | boolean =>
          rw [ht] at hfits
          cases hfits
        | _ =>
          rw [ht] at hsimple
          cases hsimple
      | _ =>
        rw [hp1] at hone
        cases hone
    obtain ⟨hl, hr⟩ : p.1.isSteady = true ∧ p.2.isSteady = true := by
      simpa [isSettledPair, ← hsame, hint] using hpair
    obtain ⟨x, rfl⟩ := (yields_own (m := m.under .plain) Convention.plain_lawful hl).of_arises ha
    obtain ⟨y, rfl⟩ := (yields_own (m := m.under .plain) Convention.plain_lawful hr).of_arises hb
    rw [hint]
    have hequal : binary w .eq _ _ = .ok (.bool (x = y)) := equalAs_binary (t := .int) hao hbo rfl
    exact hequal.symm.trans hv

end Node

end FactFold
