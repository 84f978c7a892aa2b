import FactFold.Proofs.Lowering.Relation
import FactFold.Proofs.Machine.Terms

/-!
# Lowered code runs as the expression means

The code of an expression reads columns by their places in the fact record, while the meaning of the
expression reads them by name. This module shows that nothing else is between the two: lowered code
runs as the step that the evaluator's convention gives the expression (`Lowers.runsAs`).
-/

namespace FactFold.Lowering

open Machine
open Number (wrap64)

/-! ## Records by name -/

/-- The field of a record that a column has, by the place of its name among the columns. -/
def recordField (columns : List Column) (fields : List Value) (name : String) :
    Except Fault Value :=
  match columns.findIdx? (fun d => d.name = name) with
  | none => .error .misfit
  | some i => factField fields (.scalar (.int .int (wrap64 i)))

/-- The evaluator's meaning of expressions at a site, on a record. -/
def Site.meaning (s : Site) (natives : Natives) (fields : List Value) : Meaning where
  typing := s.typing
  natives := natives
  row := recordField s.columns fields
  convention := .machine natives

/-- The variables hold a record under the name of the fact, which the evaluator takes for a plain
name. -/
structure Site.Binds (s : Site) (env : Env) (fields : List Value) : Prop where
  plain : s.env.factName.toList.all isNameChar = true
  record : ∃ number, env.lookup s.env.factName = some (.fact number fields)

variable {s : Site} {natives : Natives} {env : Env} {fields : List Value}

/-! ## Shapes -/

/-- The code of a choice is a condition with the code of both branches. -/
theorem ternary_value_ok {c y n e : Element} {code : Term}
    (he : Element.ternary c y (some n) = .ok e) (hv : e.value = .ok code) :
    ∃ cc cy cn, c.value = .ok cc ∧ y.value = .ok cy ∧ n.value = .ok cn ∧ code = .cond cc cy cn := by
  rw [(ternary_some_ok he).1, Element.value] at hv
  obtain ⟨cc, hcc, hv⟩ := bind_ok hv
  obtain ⟨cy, hcy, hv⟩ := bind_ok hv
  obtain ⟨cn, hcn, hv⟩ := bind_ok hv
  exact ⟨cc, cy, cn, hcc, hcy, hcn, (Except.ok.inj hv).symm⟩

/-- A guarded element is rendered to a condition with an empty second block. -/
theorem render_guarded_ok {numeric array : Option Template} {c e : Element} {body : List Stmt}
    (hr : (Element.guarded c e).render numeric array = .ok body) :
    ∃ code yes, c.value = .ok code ∧ e.render numeric array = .ok yes ∧
      body = [.cond code yes []] := by
  rw [Element.render] at hr
  obtain ⟨code, hcode, hr⟩ := bind_ok hr
  obtain ⟨yes, hyes, hr⟩ := bind_ok hr
  exact ⟨code, yes, hcode, hyes, (Except.ok.inj hr).symm⟩

/-- Rendering puts the condition of a choice over its rendered branches. -/
theorem render_choice_ok {numeric array : Option Template} {c y n : Element} {t : DataType}
    {body : List Stmt} (hr : (Element.choice c y n t).render numeric array = .ok body) :
    ∃ code yes no, c.value = .ok code ∧ y.render numeric array = .ok yes ∧
      n.render numeric array = .ok no ∧ body = [.cond code yes no] := by
  rw [Element.render] at hr
  obtain ⟨code, hcode, hr⟩ := bind_ok hr
  obtain ⟨yes, hyes, hr⟩ := bind_ok hr
  obtain ⟨no, hno, hr⟩ := bind_ok hr
  exact ⟨code, yes, no, hcode, hyes, hno, (Except.ok.inj hr).symm⟩

/-- Only code of truth values starts with a negation. -/
theorem Lowers.type_of_negation {n : Node} {e : Element} {op : String} {z : Term}
    (h : Lowers s n e) (hv : e.value = .ok (.unary op z)) : e.type = .boolean := by
  cases h with
  | column ht hi =>
    simp only [Element.value, readColumn] at hv
    -- a choice is a conditional term
    split at hv <;> cases hv
  | constant c => cases c <;> cases hv
  | arithmetic hl hr ha hb he =>
    unfold Operators.arithmetic at he
    split at he <;> cases he
    all_goals cases hv
  | comparison hl hr ha hb he =>
    obtain ⟨-, -, rfl⟩ | ⟨-, rfl⟩ := comparison_code he <;> rfl
  | guarded hc hb => cases hv
  | choice hc hy hn he =>
    obtain ⟨_, _, _, -, -, -, hcode⟩ := ternary_value_ok he hv
    cases hcode
  | call ha => cases hv

/-- Code of numbers starts with no negation. -/
theorem Lowers.number_ne_negation {n : Node} {e : Element} {a : Term} (h : Lowers s n e)
    (hv : e.value = .ok a) {k : Numeric} (hk : e.type = .scalar k) (z : Term) :
    a ≠ .unary "!" z := by
  rintro rfl
  rw [h.type_of_negation hv] at hk
  cases hk

/-! ## Columns -/

/-- The code that reads a column runs as the column's read by name. -/
theorem readColumn_runsAs (hb : s.Binds env fields) {c : Column} {t : DataType} {i : Nat}
    (hi : s.columns.findIdx? (fun d => d.name = c.name) = some i) :
    RunsAs natives env (readColumn (.ident s.env.factName) i t) .any (do
      let v ← liftM (recordField s.columns fields c.name)
      Meaning.read t v) := by
  obtain ⟨number, hrec⟩ := hb.record
  have hread : ∀ method, RunsAs natives env
      (.invoke (.ident s.env.factName) method [.int i]) .any
      (factMethod fields method [.scalar (.int .int (wrap64 i))]) := by
    intro method
    have hident : RunsAs natives env (.ident s.env.factName) .any _ := RunsAs.ident hb.plain
    have h := RunsAs.invoke method hident (.single (RunsAs.int (i : Int)))
    simpa [hrec, invoke] using h
  -- the place in the code is the place of the name
  have hrow : recordField s.columns fields c.name =
      factField fields (.scalar (.int .int (wrap64 i))) := by
    simp only [recordField, hi]
  -- types without a method of their own are read as objects and cast
  have hcast : ∀ type : String, RunsAs natives env
      (.cast type (.invoke (.ident s.env.factName) "read" [.int i])) .any (do
        let v ← liftM (factField fields (.scalar (.int .int (wrap64 i))))
        if type = "" then throw .convertArity else convert type v) := by
    intro type
    simpa [factMethod] using RunsAs.cast type (hread "read")
  rw [hrow]
  cases t with
  | array n => exact hread "readVector"
  | scalar n => cases n <;> exact hread _
  | boolean => exact hread "readBoolean"
  | string => exact hcast "String"
  | localDate => exact hcast "LocalDate"
  | other name => exact hcast name

/-! ## Constants -/

theorem integers_runAs (type : String) (htype : type = "int" ∨ type = "long") (ns : List Int) :
    AllRunAs natives env ((ns.map Scalar.long).map fun s => .lit type (.scalar s))
      (pure (ns.map fun n => .scalar (.int .int (wrap64 n)))) := by
  induction ns with
  | nil => exact .nil
  | cons n ns ih =>
    have hn : RunsAs natives env (.lit type (.scalar (.long n))) .int
        (pure (.scalar (.int .int (wrap64 n)))) := by
      refine RunsAs.literal fun l hl => ?_
      rcases htype with rfl | rfl <;>
      · obtain rfl := Except.ok.inj hl
        exact ⟨rfl, rfl⟩
    simpa using hn.cons ih

theorem number_runsAs (type : String) (htype : type = "float" ∨ type = "double") (x : Float) :
    RunsAs natives env (.lit type (.scalar (.double x))) .float (pure (.double x)) := by
  refine RunsAs.literal fun l hl => ?_
  have hl : (if (x.isNaN || x.isInf) = true then (.error (.nonFiniteLiteral x))
      else .ok (.double x) : Except Fault LiteralValue) = .ok l := by
    rcases htype with rfl | rfl <;> exact hl
  -- only finite numbers are literals
  split at hl
  · cases hl
  · obtain rfl := Except.ok.inj hl
    exact ⟨rfl, rfl⟩

theorem numbers_runAs (type : String) (htype : type = "float" ∨ type = "double") (xs : List Float) :
    AllRunAs natives env ((xs.map Scalar.double).map fun s => .lit type (.scalar s))
      (pure (xs.map .double)) := by
  induction xs with
  | nil => exact .nil
  | cons x xs ih => simpa using (number_runsAs type htype x).cons ih

/-- The code of an array makes a list and then a vector of it. -/
theorem arrayTerm_runsAs {n : Numeric} {items : List Scalar} {vs : List Value}
    (h : AllRunAs natives env (items.map fun s => .lit n.name (.scalar s)) (pure vs)) :
    RunsAs natives env (arrayTerm n items) .any (Meaning.vector vs) := by
  have hnew := RunsAs.new (vectorClass n) (by cases n <;> decide)
    (.single (RunsAs.newArray n.name h))
  -- the classes of vectors differ in the type of their items only
  have hclass : ∀ v, newOf [.scalar (.text (.ofText (vectorClass n))), v] =
      Run.boxed <$> Run.toVector v := by
    intro v
    cases n <;>
      simp [newOf, vectorClass, Value.operand, Operand.textOrEmpty, Operand.toText,
        Except.toOption]
  simpa [arrayTerm, Meaning.vector, hclass] using hnew

/-- The code of a constant runs to its value. -/
theorem constantTerm_runsAs (c : Constant) :
    RunsAs natives env (constantTerm c) c.known ((s.meaning natives fields).constant c) := by
  cases c with
  | int n | long n =>
    refine RunsAs.literal fun l hl => ?_
    obtain rfl := Except.ok.inj hl
    exact ⟨rfl, rfl⟩
  | float x => exact number_runsAs "float" (.inl rfl) x
  | double x => exact number_runsAs "double" (.inr rfl) x
  | string bs =>
    refine RunsAs.literal fun l hl => ?_
    obtain rfl := Except.ok.inj hl
    exact ⟨rfl, rfl⟩
  | date d =>
    have hyear : RunsAs natives env (.int d.year) .int _ := RunsAs.int d.year
    have h := RunsAs.call "LocalDate.of"
      (hyear.cons ((RunsAs.int d.month).cons (.single (RunsAs.int d.day))))
    simp only [pure_bind, String.reduceEq, if_false] at h
    exact h
  | ints ns => exact arrayTerm_runsAs (integers_runAs "int" (.inl rfl) ns)
  | longs ns => exact arrayTerm_runsAs (integers_runAs "long" (.inr rfl) ns)
  | floats xs => exact arrayTerm_runsAs (numbers_runAs "float" (.inl rfl) xs)
  | doubles xs => exact arrayTerm_runsAs (numbers_runAs "double" (.inr rfl) xs)

/-! ## Operators -/

/-- An infix operation on numbers runs its operands from left to right. -/
theorem infix_runsAs (op : Arithmetic) (hop : op ≠ .div) {a b : Term} {t₁ t₂ : Static}
    {u v : Run Value} (hneg : ∀ z, a ≠ .unary "!" z) (ha : RunsAs natives env a t₁ u)
    (hb : RunsAs natives env b t₂ v) :
    RunsAs natives env (.binary op.symbol a b) ((Static.binary? op.machine t₁ t₂).getD .any)
      (operation op.machine t₁ t₂ u v) := by
  refine RunsAs.strict ?_ ?_ ?_ (fun _ => hneg) (fun t ht => by rw [ht]; rfl) ha hb
  all_goals cases op <;> first | rfl | decide | exact (hop rfl).elim

/-- The code of an arithmetic operation runs as the operation on the steps of its operands. -/
theorem arithmetic_runsAs {op : Arithmetic} {l r : Node} {x y e : Element} {a b code : Term}
    (hl : Lowers s l x) (hr : Lowers s r y) (hx : x.value = .ok a)
    (he : Operators.arithmetic op a b x.type y.type = .ok e) (hv : e.value = .ok code)
    {u v : Run Value} (ha : RunsAs natives env a (l.known s.typing) u)
    (hb : RunsAs natives env b (r.known s.typing) v) :
    RunsAs natives env code ((Node.arithmetic op l r).known s.typing)
      ((s.meaning natives fields).arithmetic op l r u v) := by
  have hneg : ∀ n, x.type = .scalar n → ∀ z, a ≠ .unary "!" z :=
    fun _ hn z => hl.number_ne_negation hx hn z
  rw [hl.type_eq] at hneg
  rw [hl.type_eq, hr.type_eq] at he
  unfold Operators.arithmetic at he
  simp only [Node.known, Meaning.arithmetic, Site.meaning]
  generalize hlt : l.type s.typing = lt at he hneg ⊢
  generalize hrt : r.type s.typing = rt at he ⊢
  -- one case for every pair of types that has an operator
  split at he
  case h_1 =>
    obtain rfl := Except.ok.inj he
    obtain rfl := Except.ok.inj hv
    simpa using RunsAs.quotient (RunsAs.cast "double" ha) hb
  case h_2 hop =>
    obtain rfl := Except.ok.inj he
    obtain rfl := Except.ok.inj hv
    cases op with
    | div => exact (hop rfl).elim
    | mul => exact infix_runsAs _ (by decide) (hneg _ rfl) ha hb
    | add => exact infix_runsAs _ (by decide) (hneg _ rfl) ha hb
    | sub => exact infix_runsAs _ (by decide) (hneg _ rfl) ha hb
  case h_7 =>
    obtain rfl := Except.ok.inj he
    obtain rfl := Except.ok.inj hv
    have hone : RunsAs natives env (.double 1) .float (pure (.double 1)) :=
      number_runsAs "double" (.inr rfl) 1
    simpa [Operators.vectorCall, Operators.vectorClass] using
      RunsAs.call "VectorOps.scale" (ha.cons (.single (hone.quotient hb)))
  case h_8 => cases he
  all_goals
    obtain rfl := Except.ok.inj he
    obtain rfl := Except.ok.inj hv
  · -- sums and differences of vectors, and a vector scaled from either side
    simpa [Operators.vectorCall, Operators.vectorClass] using
      RunsAs.call "VectorOps.plus" (ha.cons (.single hb))
  · simpa [Operators.vectorCall, Operators.vectorClass] using
      RunsAs.call "VectorOps.minus" (ha.cons (.single hb))
  · simpa [Operators.vectorCall, Operators.vectorClass] using
      RunsAs.call "VectorOps.scale" (ha.cons (.single hb))
  · simpa [Operators.vectorCall, Operators.vectorClass] using
      RunsAs.call "VectorOps.scale" (hb.cons (.single ha))

/-- A comparison that can fit its operands is known to be a truth value. -/
theorem comparison_static (op : Comparison) {t₁ t₂ : Static} (t : Static)
    (h : Static.binary? op.machine t₁ t₂ = some t) : t = .bool := by
  cases op <;> simp only [Comparison.machine, Static.binary?] at h <;> split at h <;> simp_all

/-- A comparison by an operator runs its operands from left to right. -/
theorem inline_runsAs (op : Comparison) {a b : Term} {t₁ t₂ : Static} {u v : Run Value}
    (ha : RunsAs natives env a t₁ u) (hb : RunsAs natives env b t₂ v) :
    RunsAs natives env (.binary op.symbol a b) .bool (operation op.machine t₁ t₂ u v) :=
  RunsAs.strict (by cases op <;> rfl) (by cases op <;> rfl) (by cases op <;> decide)
    (by cases op <;> exact fun h => nomatch h) (comparison_static op) ha hb

/-- The code of a comparison by methods runs as the comparison. -/
theorem byMethod_runsAs (op : Comparison) {a b : Term} {t₁ t₂ : Static} {u v : Run Value}
    (ha : RunsAs natives env a t₁ u) (hb : RunsAs natives env b t₂ v) :
    RunsAs natives env (Operators.byMethod op a b) (if op = .eq then .any else .bool) (do
      let p ← u
      let q ← v
      Meaning.compareByMethod op p q) := by
  have heq : RunsAs natives env (.invoke a "equals" [b]) .any (do
      let p ← u
      let q ← v
      invoke p "equals" [q]) := by
    simpa using RunsAs.invoke "equals" ha (.single hb)
  have hcmp : RunsAs natives env (.invoke a "compareTo" [b]) .any (do
      let p ← u
      let q ← v
      invoke p "compareTo" [q]) := by
    simpa using RunsAs.invoke "compareTo" ha (.single hb)
  -- whatever `equals` yields is negated as a truth value
  have hnot : (do
      let r ← (do
        let p ← u
        let q ← v
        invoke p "equals" [q])
      liftM (unary .not (Static.any.operand r)) : Run Value) = (do
      let p ← u
      let q ← v
      Meaning.compareByMethod .ne p q) := by
    simp only [bind_assoc, Meaning.compareByMethod]
    refine bind_congr fun p => bind_congr fun q => ?_
    exact (yields_equals p [q]).bind_congr fun r ⟨_, hr⟩ => by rw [hr]; rfl
  -- the other comparisons compare the result of `compareTo` with zero
  have horder : ∀ o : BinaryOp, o ≠ .eq → o ≠ .ne →
      operation o .any .int (do
        let p ← u
        let q ← v
        invoke p "compareTo" [q]) (pure (.scalar (.int .int (wrap64 0)))) = (do
      let p ← u
      let q ← v
      let r ← invoke p "compareTo" [q]
      liftM (binary (← get) o r (.scalar (.int .int 0)))) := by
    intro o ho ho'
    -- an integer result is no operand in need of opening
    have hoperate : ∀ w n, operate o .any .int w (.long n) (.scalar (.int .int (wrap64 0))) =
        binary w o (.long n) (.scalar (.int .int 0)) := by
      intro w n
      cases o <;> rfl
    simp only [operation, bind_assoc, pure_bind]
    refine bind_congr fun p => bind_congr fun q => ?_
    refine (yields_compareTo p [q]).bind_congr fun r ⟨n, hr⟩ => ?_
    simp only [hr, hoperate]
  cases op with
  | eq => exact heq
  | ne => exact hnot ▸ RunsAs.not heq
  | lt => exact horder .lt (by decide) (by decide) ▸ inline_runsAs .lt hcmp (RunsAs.int 0)
  | le => exact horder .le (by decide) (by decide) ▸ inline_runsAs .le hcmp (RunsAs.int 0)
  | gt => exact horder .gt (by decide) (by decide) ▸ inline_runsAs .gt hcmp (RunsAs.int 0)
  | ge => exact horder .ge (by decide) (by decide) ▸ inline_runsAs .ge hcmp (RunsAs.int 0)

/-- A comparison by an operator under the evaluator's convention. -/
theorem compareInline_machine (op : Comparison) (t₁ t₂ : Static) (p q : Value) :
    (s.meaning natives fields).compareInline op t₁ t₂ p q =
      (do liftM (operate op.machine t₁ t₂ (← get) p q)) := by
  cases op with
  | ne =>
    simp only [Meaning.compareInline, operate, Comparison.machine, lift_bind]
    rfl
  | eq | lt | le | gt | ge => rfl

/-- The code of a comparison runs as the comparison of the steps of its operands. -/
theorem comparison_runsAs {op : Comparison} {l r : Node} {x y e : Element} {a b code : Term}
    (hl : Lowers s l x) (hr : Lowers s r y)
    (he : Operators.comparison op a b x.type y.type = .ok e) (hv : e.value = .ok code)
    {u v : Run Value} (ha : RunsAs natives env a (l.known s.typing) u)
    (hb : RunsAs natives env b (r.known s.typing) v) :
    RunsAs natives env code ((Node.comparison op l r).known s.typing)
      ((s.meaning natives fields).comparison op l r u v) := by
  rw [hl.type_eq, hr.type_eq] at he
  rw [Node.known]
  unfold Meaning.comparison
  obtain ⟨hin, hby, rfl⟩ | ⟨hby, rfl⟩ := comparison_code he
  · obtain rfl := Except.ok.inj hv
    have h := inline_runsAs op ha hb
    simp only [Site.meaning, hby, hin, if_true, Bool.and_false, Bool.false_eq_true, if_false]
    refine cast (congrArg _ ?_) h
    exact bind_congr fun p => bind_congr fun q => (compareInline_machine op _ _ p q).symm
  · obtain rfl := Except.ok.inj hv
    have h := byMethod_runsAs op ha hb
    simp only [Site.meaning, hby, if_true, Bool.and_true, decide_eq_true_eq]
    exact h

mutual

/-- **Lowered code runs as the expression means.** -/
theorem Lowers.runsAs (hb : s.Binds env fields) : ∀ {n : Node} {e : Element} {code : Term},
    Lowers s n e → e.value = .ok code →
      RunsAs natives env code (n.known s.typing) (n.value (s.meaning natives fields))
  | .column c, _, _, .column ht hi, hv => by
    obtain rfl := Except.ok.inj hv
    simp only [Node.known, Node.value, Node.type, Site.meaning, Site.typing, ht, Option.getD_some]
    exact readColumn_runsAs hb hi
  | .constant c, _, _, .constant _, hv => by
    obtain rfl := Except.ok.inj hv
    rw [Node.known, Node.value]
    exact constantTerm_runsAs c
  | .arithmetic op l r, _, _, .arithmetic hl hr hx hy he, hv => by
    rw [Node.value]
    exact arithmetic_runsAs hl hr hx he hv (hl.runsAs hb hx) (hr.runsAs hb hy)
  | .comparison op l r, _, _, .comparison hl hr hx hy he, hv => by
    rw [Node.value]
    exact comparison_runsAs hl hr he hv (hl.runsAs hb hx) (hr.runsAs hb hy)
  | .guarded op l r body, _, _, .guarded hc hbody, hv => by cases hv
  | .choice op l r yes no, _, _, .choice (.comparison hl hr hx hy hc) hyes hno he, hv => by
    obtain ⟨c, y, n, hcv, hyv, hnv, rfl⟩ := ternary_value_ok he hv
    rw [Node.known, Node.value]
    exact RunsAs.cond (comparison_runsAs hl hr hc hcv (hl.runsAs hb hx) (hr.runsAs hb hy))
      (hyes.runsAs hb hyv) (hno.runsAs hb hnv)
  | .call f args, _, _, .call ha, hv => by
    obtain rfl := Except.ok.inj hv
    simp only [Node.known, Node.value]
    exact RunsAs.call f.callee (ha.runAs hb)

/-- Lowered arguments run one after the other as the expressions mean. -/
theorem LowersAll.runAs (hb : s.Binds env fields) : ∀ {ns : List Node} {terms : List TypedTerm},
    LowersAll s ns terms →
      AllRunAs natives env (terms.map TypedTerm.code) (Node.values (s.meaning natives fields) ns)
  | [], _, .nil => by
    rw [Node.values]
    exact .nil
  | n :: rest, _, .cons hn hv hr => by
    rw [Node.values, List.map_cons]
    exact (hn.runsAs hb hv).cons (hr.runAs hb)

end

end FactFold.Lowering
