import FactFold.Proofs.Expr.Values
import FactFold.Proofs.Lowering.Simulation
import FactFold.Proofs.Machine.Sparing

/-!
# Lowered code passes the check

Before it runs, code is written as source and its formula is checked. Lowered code gets through both
whenever its constants can be written: types settle everything else, since what the evaluator knows
about the code of an operand always fits the operator its type has chosen.

`Passes code t` says that a term can be written and that its check finds `t`. There is one rule for
every form of a term, and `Lowers.passes` applies them along the expression.
-/

namespace FactFold.Machine

open Number (wrap64)

/-! ## Rules of the check -/

/-- The term can be written, and the check finds `t`. -/
def Passes (code : Term) (t : Static) : Prop :=
  ∃ s f, source code = .ok s ∧ Formula.ofTerm? code = some f ∧ f.static? = some t

/-- The terms can be written, and the check finds something about all of them. -/
def AllPass (codes : List Term) : Prop :=
  ∃ ss fs ts, sources codes = .ok ss ∧ Formula.ofTerms? codes = some fs ∧
    Formula.statics? fs = some ts

theorem AllPass.nil : AllPass [] := ⟨[], [], [], rfl, rfl, rfl⟩

theorem Passes.cons {code : Term} {codes : List Term} {t : Static} (h : Passes code t)
    (hs : AllPass codes) : AllPass (code :: codes) := by
  obtain ⟨s, f, hsource, hf, ht⟩ := h
  obtain ⟨ss, fs, ts, hsources, hfs, hts⟩ := hs
  exact ⟨s :: ss, f :: fs, t :: ts, sources_cons hsource hsources,
    by simp [Formula.ofTerms?, hf, hfs], by simp [Formula.statics?, ht, hts]⟩

theorem AllPass.single {code : Term} {t : Static} (h : Passes code t) : AllPass [code] :=
  h.cons .nil

theorem Passes.literal {type : String} {d : Datum} {l : LiteralValue} {t : Static}
    (h : literalValue type d = .ok l) (ht : l.formula.static? = some t) :
    Passes (.lit type d) t :=
  ⟨l.source, l.formula, by rw [source, h]; rfl, by simp [Formula.ofTerm?, h, Except.toOption], ht⟩

/-- An integer can be written unless it is the lowest one. -/
theorem Passes.ofInt {type : String} (htype : type = "int" ∨ type = "long") {n : Int}
    (hn : wrap64 n ≠ -(2 ^ 63)) : Passes (.lit type (.scalar (.long n))) .int := by
  refine Passes.literal (l := .int (wrap64 n)) ?_ (by rw [LiteralValue.formula, if_neg hn]; rfl)
  rcases htype with rfl | rfl <;> rfl

theorem Passes.int {n : Int} (hn : wrap64 n ≠ -(2 ^ 63)) : Passes (.int n) .int :=
  .ofInt (.inl rfl) hn

/-- A number can be written unless it is not finite. -/
theorem Passes.ofFloat {type : String} (htype : type = "float" ∨ type = "double") {x : Float}
    (hx : (x.isNaN || x.isInf) = false) : Passes (.lit type (.scalar (.double x))) .float := by
  refine Passes.literal (l := .double x) ?_ rfl
  -- a finite number is a literal of either type
  have hvalue : (if (x.isNaN || x.isInf) = true then (.error (.nonFiniteLiteral x))
      else .ok (.double x) : Except Fault LiteralValue) = .ok (.double x) := by
    rw [hx]
    rfl
  rcases htype with rfl | rfl <;> exact hvalue

theorem Passes.ident {name : String} (h : name.toList.all isNameChar = true) :
    Passes (.ident name) .any :=
  ⟨_, .variable name, rfl, by simp only [Formula.ofTerm?, h, if_true], rfl⟩

theorem source_binary (sign : String) {a b : Term} {l r : String} (hl : source a = .ok l)
    (hr : source b = .ok r) : ∃ s, source (.binary sign a b) = .ok s :=
  ⟨_, by rw [source, hl, hr]; rfl⟩

theorem Passes.strict {sign : String} {op : BinaryOp} {a b : Term} {s t u : Static}
    (hsign : BinaryOp.ofText? sign = some op) (hop : op.isStrict = true) (hdiv : sign ≠ "/")
    (hneg : op = .mul → ∀ z, a ≠ .unary "!" z) (hu : Static.binary? op s t = some u)
    (ha : Passes a s) (hb : Passes b t) : Passes (.binary sign a b) u := by
  obtain ⟨l, f, hl, hf, hs⟩ := ha
  obtain ⟨r, g, hr, hg, ht⟩ := hb
  obtain ⟨text, htext⟩ := source_binary sign hl hr
  refine ⟨text, .binary op f g, htext, ofTerm?_binary hsign hdiv hneg hf hg, ?_⟩
  rw [static?_strict hop, hs, ht]
  exact hu

theorem Passes.not {a : Term} (ha : Passes a .any) : Passes (.unary "!" a) .bool := by
  obtain ⟨l, f, hl, hf, ht⟩ := ha
  exact ⟨_, .unary .not f, by rw [source, hl]; rfl, by simp [Formula.ofTerm?, hf, UnaryOp.ofText?],
    by rw [Formula.static?, ht]; rfl⟩

theorem Passes.quotient {a b : Term} {s t : Static} (ha : Passes a s) (hb : Passes b t) :
    Passes (.binary "/" a b) .any := by
  obtain ⟨l, f, hl, hf, hs⟩ := ha
  obtain ⟨r, g, hr, hg, ht⟩ := hb
  obtain ⟨text, htext⟩ := source_binary "/" hl hr
  exact ⟨text, .call .quotient [f, g], htext, by simp [Formula.ofTerm?, hf, hg],
    by simp [Formula.static?, Formula.statics?, hs, ht]⟩

/-- A name before checked formulas changes nothing. -/
theorem statics?_withName (name : String) {fs : List Formula} {ts : List Static}
    (h : Formula.statics? fs = some ts) : ∃ us, Formula.statics? (Formula.withName name fs) = some us := by
  unfold Formula.withName
  -- a name is a text, which is always known
  split
  · exact ⟨ts, h⟩
  · exact ⟨.text :: ts, by simp [Formula.statics?, Formula.ofText, Formula.static?, h]⟩

theorem Passes.call (name : String) {args : List Term} (h : AllPass args) :
    Passes (.call name args) .any := by
  obtain ⟨ss, fs, ts, hss, hfs, hts⟩ := h
  obtain ⟨us, hus⟩ := statics?_withName name hts
  exact ⟨_, .call .static (Formula.withName name fs), by rw [source, hss]; rfl,
    by simp [Formula.ofTerm?, hfs], by simp [Formula.static?, hus]⟩

theorem Passes.new (type : String) {args : List Term} (h : AllPass args) :
    Passes (.new type args) .any := by
  obtain ⟨ss, fs, ts, hss, hfs, hts⟩ := h
  obtain ⟨us, hus⟩ := statics?_withName type hts
  exact ⟨_, .call .new (Formula.withName type fs), by rw [source, hss]; rfl,
    by simp [Formula.ofTerm?, hfs], by simp [Formula.static?, hus]⟩

theorem Passes.cast (type : String) {a : Term} {t : Static} (h : Passes a t) :
    Passes (.cast type a) .any := by
  obtain ⟨s, f, hs, hf, ht⟩ := h
  have hone : Formula.statics? [f] = some [t] := by simp [Formula.statics?, ht]
  obtain ⟨us, hus⟩ := statics?_withName type hone
  exact ⟨_, .call .convert (Formula.withName type [f]), by rw [source, hs]; rfl,
    by simp [Formula.ofTerm?, hf], by simp [Formula.static?, hus]⟩

theorem Passes.invoke (method : String) {receiver : Term} {args : List Term} {t : Static}
    (hr : Passes receiver t) (h : AllPass args) : Passes (.invoke receiver method args) .any := by
  obtain ⟨s, f, hs, hf, ht⟩ := hr
  obtain ⟨ss, fs, ts, hss, hfs, hts⟩ := h
  exact ⟨_, .call .call (f :: Formula.ofText method :: fs), by rw [source, hs, hss]; rfl,
    by simp [Formula.ofTerm?, hf, hfs],
    by simp [Formula.static?, Formula.statics?, Formula.ofText, ht, hts]⟩

theorem Passes.newArray (element : String) {items : List Term} (h : AllPass items) :
    Passes (.newArray element items) .list := by
  obtain ⟨ss, fs, ts, hss, hfs, hts⟩ := h
  exact ⟨_, .list fs, by rw [source, hss]; rfl, by simp [Formula.ofTerm?, hfs],
    by simp [Formula.static?, hts]⟩

theorem Passes.cond {c a b : Term} {r s t u : Static} (hu : Static.cond? r s t = some u)
    (hc : Passes c r) (ha : Passes a s) (hb : Passes b t) : Passes (.cond c a b) u := by
  obtain ⟨k, f, hk, hf, hr⟩ := hc
  obtain ⟨l, g, hl, hg, hs⟩ := ha
  obtain ⟨m, h, hm, hh, ht⟩ := hb
  exact ⟨_, .cond f g h, by rw [source, hk, hl, hm]; rfl, by simp [Formula.ofTerm?, hf, hg, hh],
    by rw [Formula.static?, hr, hs, ht]; exact hu⟩

/-- Evaluating a term that passes succeeds where the step it runs as does. -/
theorem Passes.evaluate {natives : Natives} {env : Env} {code : Term} {s t : Static} {x : Run Value}
    {I : World → Prop} {P : Value → Prop} (hp : Passes code s) (hcode : RunsAs natives env code t x)
    (hI : ∀ w source, I w → I (w.remember source)) (hx : Run.Succeeds I x P) :
    Run.Succeeds I (evaluate natives env code) P := by
  obtain ⟨text, f, htext, hf, hs⟩ := hp
  -- nothing is remembered but the source
  intro w hw
  rw [evaluate_eq hcode htext hf (by rw [hs]; rfl)]
  exact hx _ (hI w text hw)

end FactFold.Machine

namespace FactFold

open Machine
open Number (wrap64)

/-! ## Constants -/

/-- An integer whose digits can be written. -/
def writableInt (n : Int) : Bool := wrap64 n ≠ -(2 ^ 63)

/-- A number that is finite. -/
def writableFloat (x : Float) : Bool := !(x.isNaN || x.isInf)

/-- The numbers in the constant's code can be written. -/
def Constant.isWritable : Constant → Bool
  | .int n | .long n => writableInt n
  | .float x | .double x => writableFloat x
  | .string _ => true
  | .date d => writableInt d.year && writableInt d.month && writableInt d.day
  | .ints ns | .longs ns => ns.all writableInt
  | .floats xs | .doubles xs => xs.all writableFloat

namespace Lowering

variable {s : Site}

theorem integers_pass (type : String) (htype : type = "int" ∨ type = "long") {ns : List Int}
    (h : ns.all writableInt = true) :
    AllPass ((ns.map Scalar.long).map fun s => .lit type (.scalar s)) := by
  induction ns with
  | nil => exact .nil
  | cons n ns ih =>
    obtain ⟨hn, hns⟩ := Bool.and_eq_true_iff.1 h
    exact (Passes.ofInt htype (of_decide_eq_true hn)).cons (ih hns)

theorem numbers_pass (type : String) (htype : type = "float" ∨ type = "double") {xs : List Float}
    (h : xs.all writableFloat = true) :
    AllPass ((xs.map Scalar.double).map fun s => .lit type (.scalar s)) := by
  induction xs with
  | nil => exact .nil
  | cons x xs ih =>
    obtain ⟨hx, hxs⟩ := Bool.and_eq_true_iff.1 h
    exact (Passes.ofFloat htype (Bool.not_eq_true' _ ▸ hx)).cons (ih hxs)

theorem arrayTerm_passes {n : Numeric} {items : List Scalar}
    (h : AllPass (items.map fun s => .lit n.name (.scalar s))) : Passes (arrayTerm n items) .any :=
  .new _ (.single (.newArray _ h))

theorem constantTerm_passes {c : Constant} (h : c.isWritable = true) :
    Passes (constantTerm c) c.known := by
  cases c with
  | int n => exact .ofInt (.inl rfl) (of_decide_eq_true h)
  | long n => exact .ofInt (.inr rfl) (of_decide_eq_true h)
  | float x => exact .ofFloat (.inl rfl) (Bool.not_eq_true' _ ▸ h)
  | double x => exact .ofFloat (.inr rfl) (Bool.not_eq_true' _ ▸ h)
  | string bs => exact .literal rfl rfl
  | date d =>
    obtain ⟨h, hd⟩ := Bool.and_eq_true_iff.1 h
    obtain ⟨hy, hm⟩ := Bool.and_eq_true_iff.1 h
    exact .call _ ((Passes.int (of_decide_eq_true hy)).cons
      ((Passes.int (of_decide_eq_true hm)).cons (.single (.int (of_decide_eq_true hd)))))
  | ints ns => exact arrayTerm_passes (integers_pass "int" (.inl rfl) h)
  | longs ns => exact arrayTerm_passes (integers_pass "long" (.inr rfl) h)
  | floats xs => exact arrayTerm_passes (numbers_pass "float" (.inl rfl) h)
  | doubles xs => exact arrayTerm_passes (numbers_pass "double" (.inr rfl) h)

/-! ## Expressions -/

theorem readColumn_passes (hplain : s.env.factName.toList.all isNameChar = true) {i : Nat}
    (hi : i < 2 ^ 63) (t : DataType) : Passes (readColumn (.ident s.env.factName) i t) .any := by
  -- no place of a column is the lowest integer
  have hindex : wrap64 (i : Int) ≠ -(2 ^ 63) := by
    rw [Number.wrap64_of_range (by omega) (by omega)]
    omega
  have hread : ∀ method, Passes (.invoke (.ident s.env.factName) method [.int i]) .any :=
    fun method => .invoke method (.ident hplain) (.single (.int hindex))
  cases t with
  | array n => exact hread _
  | scalar n => exact hread _
  | boolean => exact hread _
  | string => exact .cast _ (hread _)
  | localDate => exact .cast _ (hread _)
  | other name => exact .cast _ (hread _)

theorem infix_passes {op : Arithmetic} (hop : op ≠ .div) {a b : Term} {t₁ t₂ u : Static}
    (hneg : ∀ z, a ≠ .unary "!" z) (hu : Static.binary? op.machine t₁ t₂ = some u)
    (ha : Passes a t₁) (hb : Passes b t₂) : Passes (.binary op.symbol a b) u := by
  refine Passes.strict ?_ ?_ ?_ (fun _ => hneg) hu ha hb
  all_goals cases op <;> first | rfl | decide | exact (hop rfl).elim

/-- The code of an arithmetic operation passes when its operands do. -/
theorem arithmetic_passes {op : Arithmetic} {l r : Node} {x y e : Element} {a b code : Term}
    (hl : Lowers s l x) (hr : Lowers s r y) (hx : x.value = .ok a)
    (he : Operators.arithmetic op a b x.type y.type = .ok e) (hv : e.value = .ok code)
    (ha : Passes a (l.known s.typing)) (hb : Passes b (r.known s.typing)) :
    Passes code ((Node.arithmetic op l r).known s.typing) := by
  have hneg : ∀ n, x.type = .scalar n → ∀ z, a ≠ .unary "!" z :=
    fun _ hn z => hl.number_ne_negation hx hn z
  have hlf := Node.known_fits s.typing l
  have hrf := Node.known_fits s.typing r
  rw [hl.type_eq] at hneg
  rw [hl.type_eq, hr.type_eq] at he
  unfold Operators.arithmetic at he
  simp only [Node.known]
  generalize hlt : l.type s.typing = lt at he hneg hlf ⊢
  generalize hrt : r.type s.typing = rt at he hrf ⊢
  split at he
  case h_1 =>
    obtain rfl := Except.ok.inj he
    obtain rfl := Except.ok.inj hv
    exact .quotient (.cast _ ha) hb
  case h_2 n m hop =>
    obtain rfl := Except.ok.inj he
    obtain rfl := Except.ok.inj hv
    have hdiv : op ≠ .div := fun h => hop h
    -- what is known about numbers fits every operator on numbers
    obtain ⟨c, hc, -⟩ := Static.binary_numbers (k := n) hdiv hlf hrf
    have h := infix_passes hdiv (hneg _ rfl) hc ha hb
    cases op with
    | div => exact (hop rfl).elim
    | mul | add | sub => simpa only [hc, Option.getD_some] using h
  case h_7 =>
    obtain rfl := Except.ok.inj he
    obtain rfl := Except.ok.inj hv
    have hone : Passes (.double 1) .float := .ofFloat (.inr rfl) (by decide +kernel)
    exact .call _ (ha.cons (.single (hone.quotient hb)))
  case h_8 => cases he
  all_goals
    obtain rfl := Except.ok.inj he
    obtain rfl := Except.ok.inj hv
  · exact .call _ (ha.cons (.single hb))
  · exact .call _ (ha.cons (.single hb))
  · exact .call _ (ha.cons (.single hb))
  · exact .call _ (hb.cons (.single ha))

/-- Operands that are compared by an operator fit it: numbers fit every comparison, and truth values
have code for equality only. -/
theorem inline_static {op : Comparison} {a b : Term} {lt rt : DataType} {e : Element}
    (he : Operators.comparison op a b lt rt = .ok e) (hin : comparesInline lt rt = true)
    {t₁ t₂ : Static} (hl : t₁.fits lt = true) (hr : t₂.fits rt = true) :
    Static.binary? op.machine t₁ t₂ = some .bool := by
  unfold Operators.comparison at he
  split at he
  -- numbers on both sides
  case h_1 => cases t₁ <;> cases hl <;> cases t₂ <;> cases hr <;> cases op <;> rfl
  case h_4 =>
    split at he
    -- truth values on both sides, compared for equality
    case isTrue hop => cases t₁ <;> cases hl <;> cases t₂ <;> cases hr <;> cases op <;> cases hop <;> rfl
    case isFalse => cases he
  case h_5 => cases he
  all_goals cases hin

theorem inline_passes (op : Comparison) {a b : Term} {t₁ t₂ : Static}
    (hu : Static.binary? op.machine t₁ t₂ = some .bool) (ha : Passes a t₁) (hb : Passes b t₂) :
    Passes (.binary op.symbol a b) .bool :=
  .strict (by cases op <;> rfl) (by cases op <;> rfl) (by cases op <;> decide)
    (by cases op <;> exact fun h => nomatch h) hu ha hb

theorem byMethod_passes {op : Comparison} {a b : Term} {t₁ t₂ : Static} (ha : Passes a t₁)
    (hb : Passes b t₂) : Passes (Operators.byMethod op a b) (if op = .eq then .any else .bool) := by
  have hcmp : Passes (.invoke a "compareTo" [b]) .any := .invoke _ ha (.single hb)
  have hzero : Passes (.int 0) .int := .int (by decide)
  cases op with
  | eq => exact .invoke _ ha (.single hb)
  | ne => exact .not (.invoke _ ha (.single hb))
  | lt => exact inline_passes .lt rfl hcmp hzero
  | le => exact inline_passes .le rfl hcmp hzero
  | gt => exact inline_passes .gt rfl hcmp hzero
  | ge => exact inline_passes .ge rfl hcmp hzero

/-- The code of a comparison passes when its operands do. -/
theorem comparison_passes {op : Comparison} {l r : Node} {x y e : Element} {a b code : Term}
    (hl : Lowers s l x) (hr : Lowers s r y)
    (he : Operators.comparison op a b x.type y.type = .ok e) (hv : e.value = .ok code)
    (ha : Passes a (l.known s.typing)) (hb : Passes b (r.known s.typing)) :
    Passes code ((Node.comparison op l r).known s.typing) := by
  rw [hl.type_eq, hr.type_eq] at he
  rw [Node.known]
  obtain ⟨hin, hby, rfl⟩ | ⟨hby, rfl⟩ := comparison_code he
  · obtain rfl := Except.ok.inj hv
    have hstatic := inline_static he hin (Node.known_fits _ l) (Node.known_fits _ r)
    simp only [hby, Bool.and_false, Bool.false_eq_true, if_false]
    exact inline_passes op hstatic ha hb
  · obtain rfl := Except.ok.inj hv
    simp only [hby, Bool.and_true, decide_eq_true_eq]
    exact byMethod_passes ha hb

/-- What is known about a comparison makes it a condition. -/
theorem cond_static {op : Comparison} {l r : Node} (t : Typing) (a b : Static) :
    Static.cond? ((Node.comparison op l r).known t) a b =
      some ((Static.cond? .any a b).getD .any) := by
  rw [Node.known]
  split <;> rfl

mutual

/-- **Lowered code passes the check**, provided its constants can be written. -/
theorem Lowers.passes (hplain : s.env.factName.toList.all isNameChar = true)
    (hcolumns : s.columns.length ≤ 2 ^ 63) : ∀ {n : Node} {e : Element} {code : Term},
    Lowers s n e → e.value = .ok code → (∀ c ∈ n.constants, c.isWritable = true) →
      Passes code (n.known s.typing)
  | .column c, _, _, .column ht hi, hv, _ => by
    obtain rfl := Except.ok.inj hv
    obtain ⟨hlt, -⟩ := List.findIdx?_eq_some_iff_findIdx_eq.1 hi
    exact readColumn_passes hplain (lt_of_lt_of_le hlt hcolumns) _
  | .constant c, _, _, .constant _, hv, hc => by
    obtain rfl := Except.ok.inj hv
    exact constantTerm_passes (hc c (by simp [Node.constants]))
  | .arithmetic op l r, _, _, .arithmetic hl hr hx hy he, hv, hc => by
    simp only [Node.constants, List.mem_append] at hc
    exact arithmetic_passes hl hr hx he hv (hl.passes hplain hcolumns hx fun c h => hc c (.inl h))
      (hr.passes hplain hcolumns hy fun c h => hc c (.inr h))
  | .comparison op l r, _, _, .comparison hl hr hx hy he, hv, hc => by
    simp only [Node.constants, List.mem_append] at hc
    exact comparison_passes hl hr he hv (hl.passes hplain hcolumns hx fun c h => hc c (.inl h))
      (hr.passes hplain hcolumns hy fun c h => hc c (.inr h))
  | .guarded op l r body, _, _, .guarded hc hbody, hv, _ => by cases hv
  | .choice op l r yes no, _, _, .choice (.comparison hl hr hx hy hc) hyes hno he, hv, hconst => by
    simp only [Node.constants, List.mem_append] at hconst
    obtain ⟨c, y, n, hcv, hyv, hnv, rfl⟩ := ternary_value_ok he hv
    rw [Node.known]
    exact .cond (cond_static s.typing _ _)
      (comparison_passes hl hr hc hcv
        (hl.passes hplain hcolumns hx fun c h => hconst c (.inl (.inl (.inl h))))
        (hr.passes hplain hcolumns hy fun c h => hconst c (.inl (.inl (.inr h)))))
      (hyes.passes hplain hcolumns hyv fun c h => hconst c (.inl (.inr h)))
      (hno.passes hplain hcolumns hnv fun c h => hconst c (.inr h))
  | .call f args, _, _, .call ha, hv, hc => by
    obtain rfl := Except.ok.inj hv
    rw [Node.constants] at hc
    exact .call _ (ha.pass hplain hcolumns hc)

/-- Lowered arguments pass the check. -/
theorem LowersAll.pass (hplain : s.env.factName.toList.all isNameChar = true)
    (hcolumns : s.columns.length ≤ 2 ^ 63) : ∀ {ns : List Node} {terms : List TypedTerm},
    LowersAll s ns terms → (∀ c ∈ Node.constantsOf ns, c.isWritable = true) →
      AllPass (terms.map TypedTerm.code)
  | [], _, .nil, _ => .nil
  | n :: rest, _, .cons hn hv hr, hc => by
    simp only [Node.constantsOf, List.mem_append] at hc
    exact (hn.passes hplain hcolumns hv fun c h => hc c (.inl h)).cons
      (hr.pass hplain hcolumns fun c h => hc c (.inr h))

end

end Lowering

end FactFold
