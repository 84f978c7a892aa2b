import FactFold.Proofs.Kind.Atomicity
import FactFold.Proofs.Kind.Progress

/-!
# Routines are sound

Code is generated in one place and run in another, and only names of methods and spellings of types
tie the two together. This module shows that they fit: the routines of every built-in kind over every
sound expression run to their end on every row that has values of the types of its columns, and on
every typed buffer of the artifact's layout (`distilled_sound`).

A routine is rendered from templates. What a template accepts is a matter of the template alone
(`Accepts`), and what it is given is a matter of the expression alone (`Lowers.has`), so that the
routine is safe by induction on the expression (`render_safe`). There are two exceptions, and both
are exact: an integer product cannot be divided by zero, and where no row has come there is no vector
to take the mean of.

Expressions that are not settled are not sound. An equality of two operands that are both taken for
the evaluator's own integers is only defined on such integers; a choice that starts with a constant
is taken for one, but may turn out to be a column.
-/

namespace FactFold.Fold

open Machine Lowering
open Kind (agg source target declareValue valueName valueVar notNull both either negate)
open Machine.Run (Works Gets)

variable {natives : Natives} {env : Env} {bs : List Memory} {id : Nat} {l : Layout}

/-! ## Rendered routines -/

section Rendering

variable {s : Site} {row : List Value} (hnatives : natives.KeepsGenerated)
  (hcolumns : s.columns.length ≤ 2 ^ 63)
  (hrow : RowFits s.env.schema (s.columns.map Column.name) row) (hvars : s.Binds env row)
  {t : DataType} {P : Value → Prop} {numeric array : Option Template}
  (hnumeric : ∀ n, t = .scalar n → ∀ f ∈ numeric, Accepts natives env id l t P f)
  (harray : ∀ n, t = .array n → ∀ f ∈ array, Accepts natives env id l t (fun _ => True) f)

include hnatives hcolumns hrow hvars

/-- A condition has the truth value that decides the outcome. -/
theorem condition_has {op : Comparison} {x y : Node} {c : Element} {code : Term}
    (hc : Lowers s (.comparison op x y) c) (hcode : c.value = .ok code)
    (h : (Node.comparison op x y).Sound s.typing) (bs : List Memory) :
    Has natives env bs code ((Node.comparison op x y).known s.typing) fun v => ∃ b, v = .bool b ∧
      Node.holds (s.meaning natives row) op x y = pure b := by
  have htype : c.type = .boolean := by
    rw [hc.type_eq, Node.type]
  refine (hc.has hnatives hcolumns hrow hvars hcode h bs).mono ?_
  rintro v ⟨hv, hvalue⟩
  rw [htype] at hv hvalue
  obtain ⟨b, rfl⟩ := Value.bool_of_conforms hv
  refine ⟨b, rfl, ?_⟩
  have hcomparison := hvalue rfl
  rw [Node.value] at hcomparison
  rw [Node.holds, hcomparison]
  rfl

include hnumeric harray

theorem render_single_safe {n : Node} {e : Element} {body : List Stmt} (hn : Lowers s n e)
    (h : n.Sound s.typing) (hguard : ∀ op l r body, n ≠ .guarded op l r body)
    (hchoice : ∀ op l r yes no, n ≠ .choice op l r yes no) (ht : e.type.Widens t)
    (hP : ∀ o, n.outcome (s.meaning natives row) = pure o → ∀ v ∈ o, P v)
    (hr : e.render numeric array = .ok body) (hready : Ready l bs id) :
    Safe natives env bs body := by
  obtain ⟨code, u, rfl⟩ := hn.single hguard hchoice
  change u.Widens t at ht
  have hcode := hn.has hnatives hcolumns hrow hvars rfl h bs
  have hfits : (n.known s.typing).fits u = true := by
    have htype : u = n.type s.typing := hn.type_eq
    rw [htype]
    exact Node.known_fits s.typing n
  have houtcome := Node.outcome_of_single (s.meaning natives row) hguard hchoice
  -- a value that is no vector is the outcome
  have houtput : u.isArray = false → ∀ v : Value, (u.isArray = false →
      n.value (s.meaning natives row) = pure v) → P v := by
    intro hu v hv
    rw [hv hu] at houtcome
    exact hP (some v) houtcome v rfl
  rw [Element.render] at hr
  split at hr
  case h_2 => cases hr
  case h_1 f hf =>
    obtain rfl := Except.ok.inj hr
    cases ht with
    | refl =>
      cases t with
      | scalar k =>
        exact hnumeric k rfl f hf bs code _ hready hfits
          (hcode.mono fun v hv => ⟨hv.1, houtput rfl v hv.2⟩)
      | array k =>
        exact harray k rfl f hf bs code _ hready hfits (hcode.mono fun v hv => ⟨hv.1, trivial⟩)
      | _ => cases hf
    | @numbers j k hjk =>
      have hwide : DataType.Widens (.scalar j) (.scalar k) := .numbers hjk
      exact hnumeric k rfl f hf bs code _ hready hfits
        (hcode.mono fun v hv => ⟨Value.conforms_widens hwide hv.1, houtput rfl v hv.2⟩)
    | arrays j k =>
      have hwide : DataType.Widens (.array j) (.array k) := .arrays j k
      exact harray k rfl f hf bs code _ hready hfits
        (hcode.mono fun v hv => ⟨Value.conforms_widens hwide hv.1, trivial⟩)

/-- **A rendered routine is safe** if its templates accept values of the type. -/
theorem render_safe {n : Node} {e : Element} {body : List Stmt} {bs : List Memory}
    (hn : Lowers s n e) (h : n.Sound s.typing) (ht : e.type.Widens t)
    (hP : ∀ o, n.outcome (s.meaning natives row) = pure o → ∀ v ∈ o, P v)
    (hr : e.render numeric array = .ok body) (hready : Ready l bs id) :
    Safe natives env bs body := by
  induction hn using Lowers.conditions generalizing body bs with
  | guarded hc hin ih =>
    obtain ⟨code, yes, hcode, hyes, rfl⟩ := render_guarded_ok hr
    have hcond := condition_has hnatives hcolumns hrow hvars hc hcode
      (h.child (by simp [Node.children])) bs
    refine cond_safe hcond (fun hholds => ?_) fun _ => nothing_safe
    refine ih (h.child (by simp [Node.children])) ht (fun o ho => ?_) hyes hready
    exact hP o (by rw [Node.outcome, hholds]; exact ho)
  | choice hc hyes hno he ihyes ihno =>
    obtain ⟨hyw, hnw⟩ := ternary_widens he
    rw [(ternary_some_ok he).1] at hr
    obtain ⟨code, ys, ns, hcode, hys, hns, rfl⟩ := render_choice_ok hr
    have hcond := condition_has hnatives hcolumns hrow hvars hc hcode
      (h.child (by simp [Node.children])) bs
    refine cond_safe hcond (fun hholds => ?_) fun hholds => ?_
    · refine ihyes (h.child (by simp [Node.children])) (hyw.trans ht) (fun o ho => ?_) hys hready
      exact hP o (by rw [Node.outcome, hholds]; exact ho)
    · refine ihno (h.child (by simp [Node.children])) (hnw.trans ht) (fun o ho => ?_) hns hready
      exact hP o (by rw [Node.outcome, hholds]; exact ho)
  | single hn hguard hchoice =>
    exact render_single_safe hnatives hcolumns hrow hvars hnumeric harray hn h hguard hchoice ht hP
      hr hready

end Rendering

/-! ## Rows -/

/-- Counting rows is safe where there is a field for it. -/
theorem count_follows {n : Int} (hn : Number.wrap64 n ≠ -(2 ^ 63)) (hcount : l[1]? = some .int) :
    Follows natives id l [Kind.count n] := by
  intro env bs hb hready
  have hnumber : Has natives env bs (.int n) .int fun v => v.conforms .int = true := by
    refine (Has.int hn).mono ?_
    rintro v rfl
    rfl
  exact (add_safe (i := 1) hb hready (by omega) hcount rfl hnumber).single

theorem nothing_follows : Follows natives id l [] := fun _ _ _ _ => nothing_safe

section Rows

variable {s : Site} {row : List Value} (hnatives : natives.KeepsGenerated)
  (hcolumns : s.columns.length ≤ 2 ^ 63)
  (hrow : RowFits s.env.schema (s.columns.map Column.name) row) (hvars : s.Binds env row)
  (hb : Holds env agg id) {n : Node} {e : Element} (he : Lowers s n e) (h : n.Sound s.typing)

include hnatives hcolumns hrow hvars hb he h

/-- A number that is computed from the value is added; what is done with a vector is safe by
itself. -/
theorem rendered_safe (hl : l[0]? = some e.type) {f : Term → Term}
    (hf : ∀ m, e.type = .scalar m → ∀ bs code, HasNumber natives env bs m code →
      HasNumber natives env bs m (f code))
    {extra : List Stmt} (hextra : Follows natives id l extra) {template : Template}
    (harray : ∀ m, e.type = .array m → Accepts natives env id l e.type (fun _ => True) template)
    {body : List Stmt}
    (hr : e.render (some fun value => agg.add 0 (f value) e.type :: extra) (some template) =
      .ok body) (hready : Ready l bs id) : Safe natives env bs body := by
  refine render_safe hnatives hcolumns hrow hvars (P := fun _ => True) ?_ ?_ he h (.refl _)
    (fun _ _ _ _ => trivial) hr hready
  · rintro m hm _ ⟨⟩
    rw [hm] at hl ⊢
    exact adding_accepts hb hl (hf m hm) hextra
  · rintro m hm _ ⟨⟩
    exact harray m hm

/-- A number that is computed from the value is added, or a vector accumulated. -/
theorem adding_safe (hl : l[0]? = some e.type) {f : Term → Term}
    (hf : ∀ m, e.type = .scalar m → ∀ bs code, HasNumber natives env bs m code →
      HasNumber natives env bs m (f code))
    {first : Term}
    (hfirst : ∀ env bs, HasVector natives env bs valueVar → HasVector natives env bs first)
    {method : String} (hmethod : method ∈ vectorChanges) {extra : List Stmt}
    (hextra : Follows natives id l extra) {body : List Stmt}
    (hr : e.render (some fun value => agg.add 0 (f value) e.type :: extra)
      (some fun value => [declareValue e.type value, .cond (notNull valueVar)
        (Kind.accumulateVector 0 valueVar first method :: extra) []]) = .ok body)
    (hready : Ready l bs id) : Safe natives env bs body := by
  refine rendered_safe hnatives hcolumns hrow hvars hb he h hl hf hextra (fun m hm => ?_) hr hready
  rw [hm] at hl ⊢
  exact accumulating_accepts hb hl hfirst hmethod hextra

/-- The same the other way round: a vector is changed only where one has been accumulated. -/
theorem withdrawing_safe (hl : l[0]? = some e.type) {f : Term → Term}
    (hf : ∀ m, e.type = .scalar m → ∀ bs code, HasNumber natives env bs m code →
      HasNumber natives env bs m (f code))
    {method : String} (hmethod : method ∈ vectorChanges) {extra : List Stmt}
    (hextra : Follows natives id l extra) {body : List Stmt}
    (hr : e.render (some fun value => agg.add 0 (f value) e.type :: extra)
      (some fun value => [declareValue e.type value, .cond (both (notNull valueVar) (agg.isSet 0))
        (agg.vector 0 method [valueVar] :: extra) []]) = .ok body)
    (hready : Ready l bs id) : Safe natives env bs body := by
  refine rendered_safe hnatives hcolumns hrow hvars hb he h hl hf hextra (fun m hm => ?_) hr hready
  rw [hm] at hl ⊢
  exact withdrawing_accepts hb hl hmethod hextra

omit hb in
/-- Where there is only a template for numbers. -/
theorem numbers_safe {P : Value → Prop} {template : Template}
    (hP : ∀ o, n.outcome (s.meaning natives row) = pure o → ∀ v ∈ o, P v)
    (hnumeric : ∀ m, e.type = .scalar m → Accepts natives env id l e.type P template)
    {body : List Stmt} (hr : e.render (some template) none = .ok body) (hready : Ready l bs id) :
    Safe natives env bs body := by
  refine render_safe hnatives hcolumns hrow hvars ?_ ?_ he h (.refl _) hP hr hready
  · rintro m hm _ ⟨⟩
    exact hnumeric m hm
  · rintro _ _ _ ⟨⟩

/-- **Taking a row in** is safe. -/
theorem contribute_safe {v : Visitor} (hv : v ∈ builtinKinds) (hlayout : v.layout e.type = .ok l)
    {body : List Stmt} (hbody : v.contribute e = .ok body) (hready : Ready l bs id) :
    Safe natives env bs body := by
  have hany : ∀ o, n.outcome (s.meaning natives row) = pure o → ∀ v ∈ o, True :=
    fun _ _ _ _ => trivial
  obtain ⟨k, rfl⟩ | ⟨k, rfl⟩ := builtin_cases hv
  · cases k with
    | sum =>
      obtain rfl := Except.ok.inj (onNumeric_ok hlayout).1
      exact adding_safe hnatives hcolumns hrow hvars hb he h rfl (fun _ _ _ _ hx => hx)
        (fun _ _ hx => hx) (by decide) nothing_follows (onNumeric_ok hbody).1 hready
    | mean =>
      obtain rfl := Except.ok.inj (onNumeric_ok hlayout).1
      exact adding_safe hnatives hcolumns hrow hvars hb he h rfl (fun _ _ _ _ hx => hx)
        (fun _ _ hx => hx) (by decide) (count_follows (by decide) rfl) (onNumeric_ok hbody).1 hready
    | squareSum =>
      obtain rfl := Except.ok.inj (onScalar_ok hlayout).1
      refine numbers_safe hnatives hcolumns hrow hvars he h hany (fun m hm => ?_)
        (onScalar_ok hbody).1 hready
      rw [hm]
      exact squaring_accepts (f := fun x => x) hb rfl fun _ _ _ hx => hx
    | short =>
      obtain rfl := Except.ok.inj (onNumeric_ok hlayout).1
      refine adding_safe hnatives hcolumns hrow hvars hb he h rfl (fun m hm bs code hx => ?_)
        (fun _ _ => negativeVector_hasVector) (by decide) nothing_follows (onNumeric_ok hbody).1
        hready
      rw [hm]
      exact negativePart_hasNumber hnatives hx
  · obtain rfl : [e.type] = l := by
      cases k <;> exact Except.ok.inj (onScalar_ok hlayout).1
    have hrender : e.render (some fun value =>
        declareValue e.type value :: k.foldInto agg e.type valueVar) none = .ok body := by
      cases k <;> exact (onScalar_ok hbody).1
    refine numbers_safe hnatives hcolumns hrow hvars he h hany (fun m hm => ?_) hrender hready
    rw [hm]
    exact folding_accepts hb rfl k

/-- **Taking a row out** is safe, unless an integer product would be divided by zero. -/
theorem decontribute_safe {v : Visitor} (hv : v ∈ builtinKinds)
    (hlayout : v.layout e.type = .ok l) {body : List Stmt}
    (hbody : v.decontribute e = .ok (some body))
    (hzero : v = Kind.multiply → e.type.isIntegral = true →
      ∀ o, n.outcome (s.meaning natives row) = pure o → ∀ v ∈ o, long v ≠ 0)
    (hready : Ready l bs id) : Safe natives env bs body := by
  obtain ⟨k, rfl⟩ | ⟨k, rfl⟩ := builtin_cases hv
  · cases k with
    | sum =>
      obtain rfl := Except.ok.inj (onNumeric_ok hlayout).1
      exact withdrawing_safe hnatives hcolumns hrow hvars hb he h rfl
        (fun _ _ _ _ => negate_hasNumber) (by decide) nothing_follows
        (some_ok (onNumeric_ok hbody).1) hready
    | mean =>
      obtain rfl := Except.ok.inj (onNumeric_ok hlayout).1
      exact withdrawing_safe hnatives hcolumns hrow hvars hb he h rfl
        (fun _ _ _ _ => negate_hasNumber) (by decide) (count_follows (by decide) rfl)
        (some_ok (onNumeric_ok hbody).1) hready
    | squareSum =>
      obtain rfl := Except.ok.inj (onScalar_ok hlayout).1
      refine numbers_safe hnatives hcolumns hrow hvars he h (P := fun _ => True)
        (fun _ _ _ _ => trivial) (fun m hm => ?_) (some_ok (onScalar_ok hbody).1) hready
      rw [hm]
      exact squaring_accepts (f := negate) hb rfl fun _ _ _ => negate_hasNumber
    | short =>
      obtain rfl := Except.ok.inj (onNumeric_ok hlayout).1
      refine withdrawing_safe hnatives hcolumns hrow hvars hb he h rfl (fun m hm bs code hx => ?_)
        (by decide) nothing_follows (some_ok (onNumeric_ok hbody).1) hready
      rw [hm]
      exact negate_hasNumber (negativePart_hasNumber hnatives hx)
  · cases k with
    | min | max => cases hbody
    | product =>
      obtain rfl := Except.ok.inj (onScalar_ok hlayout).1
      refine numbers_safe hnatives hcolumns hrow hvars he h
        (P := fun v => e.type.isIntegral = true → long v ≠ 0)
        (fun o ho v hv hint => hzero rfl hint o ho v hv) (fun m hm => ?_)
        (some_ok (onScalar_ok hbody).1) hready
      rw [hm]
      exact dividing_accepts hb rfl fun v hv hint => hv hint

end Rows

/-! ## Merges -/

section Merging

variable {src dst : Nat} (hsource : Holds env source src) (htarget : Holds env target dst)
  (hsrc : Ready l bs src) (hdst : Ready l bs dst)

include hsource htarget hsrc hdst

theorem mergeCount_safe (hcount : l[1]? = some .int) : Safe natives env bs [Kind.mergeCount] := by
  have hread : Has natives env bs (source.read 1 .int) .any _ :=
    read_has (i := 1) hsource hsrc (by omega) hcount
  exact (add_safe (i := 1) htarget hdst (by omega) hcount rfl hread).single

theorem mergeAdding_safe {n : Numeric} (ht : l[0]? = some (.scalar n)) {extra : List Stmt}
    (hextra : ∀ bs, Ready l bs src → Ready l bs dst → Safe natives env bs extra) :
    Safe natives env bs (target.add 0 (source.read 0 (.scalar n)) (.scalar n) :: extra) := by
  have hread : Has natives env bs (source.read 0 (.scalar n)) .any _ :=
    read_has (i := 0) hsource hsrc (by omega) ht
  exact change_safe (add_safe (i := 0) htarget hdst (by omega) ht rfl hread)
    fun bs' hk => hextra bs' (hsrc.keep hk) (hdst.keep hk)

theorem mergeVector_safe {n : Numeric} (ht : l[0]? = some (.array n)) {method : String}
    (hmethod : method ∈ vectorChanges) {extra : List Stmt}
    (hextra : ∀ bs, Ready l bs src → Ready l bs dst → Safe natives env bs extra) :
    Safe natives env bs (Kind.mergeVector method extra) := by
  refine cond_safe (isSet_has (i := 0) hsource hsrc (by omega) ht) (fun hset => ?_)
    fun _ => nothing_safe
  obtain ⟨ref, href⟩ := hsrc.vector ht hset
  have hread : Has natives env bs (source.readVector 0) .any
      fun v => ∃ ref, v = .vector (some ref) := by
    refine (readVector_has (i := 0) hsource hsrc (by omega) ht).mono ?_
    rintro v rfl
    exact ⟨ref, by rw [href]; rfl⟩
  exact change_safe (accumulate_safe (i := 0) htarget hdst (by omega) ht rfl hmethod hread hread)
    fun bs' hk => hextra bs' (hsrc.keep hk) (hdst.keep hk)

theorem mergeFolding_safe (k : Combining) {n : Numeric} (ht : l[0]? = some (.scalar n))
    {body : List Stmt} (hbody : k.visitor.merge (.scalar n) = .ok body) :
    Safe natives env bs body := by
  have hset : Has natives env bs (source.isSet 0) .bool _ :=
    isSet_has (i := 0) hsource hsrc (by omega) ht
  have hread : Has natives env bs (source.read 0 (.scalar n)) .any _ :=
    read_has (i := 0) hsource hsrc (by omega) ht
  have hinput : ∀ v : Value, v.conforms (.scalar n) = true → ∀ k : Combining,
      Safe natives (("input", v) :: env) bs (k.foldInto target (.scalar n) (.ident "input")) :=
    fun v hv => foldInto_safe (htarget.cons (by decide) v) hdst ht (variable_has (by decide) hv)
  cases k with
  | min =>
    obtain rfl := Except.ok.inj hbody
    exact cond_safe hset (fun _ => declare_safe hread fun v hv => hinput v hv .min)
      fun _ => nothing_safe
  | max =>
    obtain rfl := Except.ok.inj hbody
    exact cond_safe hset (fun _ => declare_safe hread fun v hv => hinput v hv .max)
      fun _ => nothing_safe
  | product =>
    obtain rfl := Except.ok.inj hbody
    exact cond_safe hset (fun _ => foldInto_safe htarget hdst ht hread .product)
      fun _ => nothing_safe

/-- **Merging** is safe. -/
theorem merge_safe {v : Visitor} (hv : v ∈ builtinKinds) {t : DataType}
    (hlayout : v.layout t = .ok l) {body : List Stmt} (hbody : v.merge t = .ok body) :
    Safe natives env bs body := by
  obtain ⟨k, rfl⟩ | ⟨k, rfl⟩ := builtin_cases hv
  · obtain rfl := Additive.layout_ok hlayout
    -- what is added after the first field is at most the count
    have hextra : ∀ bs, Ready (t :: if k.counts then [.int] else []) bs src →
        Ready (t :: if k.counts then [.int] else []) bs dst → Safe natives env bs k.merging := by
      intro bs hsrc hdst
      unfold Additive.merging
      split
      · rename_i hcounts
        rw [if_pos hcounts] at hsrc hdst
        exact mergeCount_safe hsource htarget hsrc hdst rfl
      · exact nothing_safe
    obtain ⟨n, rfl, rfl⟩ | ⟨n, method, rfl, hmethod, rfl⟩ := Additive.merge_cases hbody
    · exact mergeAdding_safe hsource htarget hsrc hdst rfl hextra
    · refine mergeVector_safe hsource htarget hsrc hdst rfl ?_ hextra
      exact (show ∀ m ∈ ["plus", "plusNegativeValues"], m ∈ vectorChanges by decide) _ hmethod
  · obtain ⟨hl, ht⟩ : Except.ok [t] = Except.ok l ∧ t.isNumeric = true := by
      cases k <;> exact onScalar_ok hlayout
    obtain rfl := Except.ok.inj hl
    cases t with
    | scalar n => exact mergeFolding_safe hsource htarget hsrc hdst k rfl hbody
    | _ => cases ht

end Merging

/-! ## Results -/

theorem ret_safe {a : Term} {t : Static} {P : Value → Prop} (ha : Has natives env bs a t P) :
    Safe natives env bs [.ret a] := by
  obtain ⟨hpass, x, hruns, hx⟩ := ha
  refine works_ret ⟨hpass, x, hruns, hx.mono ?_⟩
  rintro v bs' ⟨-, rfl⟩
  exact .refl _

section Results

variable (hb : Holds env agg id) (hready : Ready l bs id) {n : Numeric}

include hb hready

/-- The quotient of the sum and the number of rows. -/
theorem meanOfNumbers_safe (ht : l[0]? = some (.scalar n)) (hcount : l[1]? = some .int) :
    Safe natives env bs
      [.ret (.binary "/" (.cast "double" (agg.read 0 (.scalar n))) (agg.read 1 .int))] := by
  have hsum : Has natives env bs (.cast "double" (agg.read 0 (.scalar n))) .any
      fun v => ∃ x, v = .double x := by
    refine Has.cast (by decide) (read_has (i := 0) hb hready (by omega) ht) fun v hv => ?_
    obtain ⟨x, hx⟩ := convert_double hv
    rw [hx]
    exact Gets.pure ⟨x, rfl⟩
  have hrows : Has natives env bs (agg.read 1 .int) .any _ :=
    read_has (i := 1) hb hready (by omega) hcount
  refine ret_safe (P := fun _ => True) (hsum.quotient hrows ?_)
  rintro v w ⟨x, rfl⟩ hw
  obtain ⟨y, hy⟩ := divide_double x hw
  exact ⟨_, trivial, hy⟩

/-- A clone of the vector, scaled, where there is a vector. -/
theorem meanOfVectors_safe (ht : l[0]? = some (.array n)) (hcount : l[1]? = some .int)
    (hset : ((bufferAt bs id).valueAt 0).isNull = false) :
    Safe natives env bs
      [.decl DataType.vectorInterface "result" (.invoke (agg.readVector 0) "cloneOnHeap" []),
        .run (.invoke (.ident "result") "scale" [.binary "/" (.double 1) (agg.read 1 .int)]),
        .ret (.ident "result")] := by
  obtain ⟨ref, href⟩ := hready.vector ht hset
  have hclone : Has natives env bs (.invoke (agg.readVector 0) "cloneOnHeap" []) .any
      fun v => v.conforms (.array n) = true := by
    refine (readVector_has (i := 0) hb hready (by omega) ht).invoke .nil ?_
    rintro v vs rfl rfl w rfl
    rw [href]
    exact ⟨_, _, rfl, rfl, rfl⟩
  refine declare_safe (t := .array n) hclone fun v hv => ?_
  obtain ⟨copy, rfl⟩ := Value.vector_of_conforms hv
  have hresult : Has natives (("result", .vector (some copy)) :: env) bs (.ident "result") .any
      (· = .vector (some copy)) := .ident (by decide) List.lookup_cons_self
  have hone : Has natives (("result", .vector (some copy)) :: env) bs (.double 1) .float
      (· = .double 1) :=
    ⟨.ofFloat (.inr rfl) (by decide +kernel), _, number_runsAs "double" (.inr rfl) 1, Gets.pure rfl⟩
  have hrows : Has natives (("result", .vector (some copy)) :: env) bs (agg.read 1 .int) .any _ :=
    read_has (i := 1) (hb.cons (by decide) _) hready (by omega) hcount
  have hfactor : Has natives (("result", .vector (some copy)) :: env) bs
      (.binary "/" (.double 1) (agg.read 1 .int)) .any fun v => ∃ x, v = .double x := by
    refine hone.quotient hrows ?_
    rintro v w rfl hw
    obtain ⟨x, hx⟩ := divide_double 1 hw
    exact ⟨_, ⟨x, rfl⟩, hx⟩
  have hscale : SafeStep natives (("result", .vector (some copy)) :: env) bs
      (.run (.invoke (.ident "result") "scale" [.binary "/" (.double 1) (agg.read 1 .int)])) := by
    refine works_run (t := .any) (hresult.invoke hfactor.single ?_)
    rintro v vs rfl ⟨_, rfl, x, rfl⟩ w rfl
    exact ⟨_, _, rfl, .refl _⟩
  refine change_safe hscale fun bs' _ => ?_
  exact ret_safe (.ident (by decide) List.lookup_cons_self)

/-- **Giving the result** is safe, unless there is no vector to take the mean of. -/
theorem terminate_safe {v : Visitor} (hv : v ∈ builtinKinds) {t : DataType}
    (hlayout : v.layout t = .ok l) {body : List Stmt} (hbody : v.terminate t = .ok body)
    (hset : v = Kind.mean → t.isArray = true → ((bufferAt bs id).valueAt 0).isNull = false) :
    Safe natives env bs body := by
  have hread : t.isNumeric = true ∨ t.isArray = true → l = [t] →
      Safe natives env bs [.ret (agg.read 0 t)] := by
    rintro ht rfl
    cases t with
    | scalar n => exact ret_safe (read_has (i := 0) hb hready (by omega) rfl)
    | array n => exact ret_safe (readVector_has (i := 0) hb hready (by omega) rfl)
    | _ => simp [DataType.isNumeric, DataType.isArray] at ht
  obtain ⟨k, rfl⟩ | ⟨k, rfl⟩ := builtin_cases hv
  · cases k with
    | sum | short =>
      obtain ⟨hl, ht⟩ := onNumeric_ok hlayout
      obtain rfl := Except.ok.inj (onNumeric_ok hbody).1
      exact hread ht (Except.ok.inj hl).symm
    | squareSum =>
      obtain ⟨hl, ht⟩ := onScalar_ok hlayout
      obtain rfl := Except.ok.inj (onScalar_ok hbody).1
      exact hread (.inl ht) (Except.ok.inj hl).symm
    | mean =>
      obtain rfl := Except.ok.inj (onNumeric_ok hlayout).1
      cases t with
      | scalar n =>
        obtain rfl := Except.ok.inj hbody
        exact meanOfNumbers_safe hb hready rfl rfl
      | array n =>
        obtain rfl := Except.ok.inj hbody
        exact meanOfVectors_safe hb hready rfl rfl (hset rfl rfl)
      | _ => cases hbody
  · obtain ⟨hl, ht⟩ : Except.ok [t] = Except.ok l ∧ t.isNumeric = true := by
      cases k <;> exact onScalar_ok hlayout
    obtain rfl : [.ret (agg.read 0 t)] = body := by
      cases k <;> exact Except.ok.inj (onScalar_ok hbody).1
    exact hread (.inl ht) (Except.ok.inj hl).symm

end Results

/-! ## Where routines fail

Two routines have an exception, and there they do fail. -/

/-- An integer that divides another is not zero. -/
theorem divide_integers {a b r : Value} (ha : a.isInteger = true) (hb : b.isInteger = true)
    (h : divide a b = .ok r) : long b ≠ 0 ∧ r.isInteger = true := by
  rw [divide_integer ha hb] at h
  split at h
  case isTrue => cases h
  case isFalse hne =>
    obtain rfl := Except.ok.inj h
    exact ⟨hne, rfl⟩

/-- A value that an integer product has been divided by is not zero. -/
theorem consumes_divide {n : Numeric} (hb : Holds env agg id) (hn : n.isIntegral = true) :
    Consumes natives env (fun value => [agg.write 0 (.binary "/" (agg.read 0 (.scalar n)) value)])
      fun v _ _ => long v ≠ 0 := by
  intro code t x hcode hquiet hinteger w w' f h
  have hfield : Reads (bufferMethod id ("read" ++ n.suffix) [fieldValue 0]) _ := Reads.field hn
  have hruns := (hb.read 0 n).quotient hcode
  have hq := hfield.quiet.bind fun a => hquiet.bind fun b => Run.Quiet.lift (divide a b)
  -- both operands are integers, so their quotient has not been taken by zero
  have hdivided : ∀ {w u : World} {r : Value}, (do
      let a ← bufferMethod id ("read" ++ n.suffix) [fieldValue 0]
      let b ← x
      liftM (divide a b) : Run Value).runIn w = (.ok r, u) →
        r.isInteger = true ∧ ∃ v u', x.runIn w = (.ok v, u') ∧ long v ≠ 0 := by
    intro w u r hrun
    obtain ⟨a, w₁, ha, hrun⟩ := Run.runIn_bind_ok_iff.1 hrun
    obtain ⟨rfl, rfl⟩ := bufferMethod_read_ok (by omega) hn ha
    obtain ⟨v, w₂, hv, hdivide⟩ := Run.runIn_bind_ok_iff.1 hrun
    obtain ⟨hne, hr⟩ := divide_integers rfl (hinteger _ _ _ hv) (congrArg Prod.fst hdivide)
    exact ⟨hr, v, w₂, hv, hne⟩
  -- the quotient is written, so it has been computed
  obtain ⟨g, u, hs, -⟩ := exec_cons_ok h
  obtain ⟨-, -, r, u', hr, -⟩ := write_ok (i := 0) hb (by omega) hruns hq
    (fun _ _ _ hr => notNull_of_isInteger (hdivided hr).1) hs
  exact (hdivided hr).2

/-- A vector that a mean has been taken of was there. -/
theorem meanOfVectors_set {n : Numeric} (hb : Holds env agg id) {w w' : World}
    (hready : Ready l w.buffers id) (ht : l[0]? = some (.array n)) {rest : List Stmt} {f : Flow}
    (h : (exec natives env (.decl DataType.vectorInterface "result"
      (.invoke (agg.readVector 0) "cloneOnHeap" []) :: rest)).runIn w = (.ok f, w')) :
    ((bufferAt w.buffers id).valueAt 0).isNull = false := by
  obtain ⟨g, u, hs, -⟩ := exec_cons_ok h
  obtain ⟨v, a, w₂, heval, -, -⟩ := decl_ok hs
  have hread := hb.method "readVector" 0 (show AllRunAs natives env [] _ from .nil)
  obtain ⟨text, hrun⟩ := evaluate_ok (RunsAs.invoke "cloneOnHeap" hread .nil) heval
  simp only [pure_bind] at hrun
  obtain ⟨r, w₁, hr, hclone⟩ := Run.runIn_bind_ok_iff.1 hrun
  obtain ⟨r', w₃, hr', hboxed, -⟩ := readVector_gets (i := 0) (by omega) (hready.lt ht) (.inl rfl)
    (w.remember text) (World.Alike.remember w text).buffers
  obtain ⟨rfl, rfl⟩ : r = r' ∧ w₁ = w₃ := by simpa using hr.symm.trans hr'
  -- a clone is made of a vector; the field of a typed buffer that is set has one
  by_contra hnull
  have hvalue : (bufferAt w.buffers id).valueAt 0 = .null := by
    rcases hready.typed 0 with hunset | hv
    · exact hunset
    · rw [hready.typeAt ht] at hv
      obtain ⟨ref, href⟩ := Value.vector_of_conforms hv
      rw [href] at hnull
      exact (hnull rfl).elim
  have hnone : (bufferAt w.buffers id).vectorAt 0 = none := by
    simp [Memory.vectorAt, hvalue]
  rw [hboxed, hnone] at hclone
  cases hclone

/-! ## Calls -/

/-- The call succeeds, and keeps the buffers. -/
def Completes {α : Type} (w : World) (r : Except RunError α × World) : Prop :=
  ∃ a u, r = (.ok a, u) ∧ Keeps w.buffers u.buffers

theorem Completes.ignored {w : World} {r : Except RunError Value × World} (h : Completes w r) :
    Completes w (Machine.ignored r) := by
  obtain ⟨a, u, rfl, hkeeps⟩ := h
  exact ⟨(), u, rfl, hkeeps⟩

/-- A routine with a safe body completes. -/
theorem run_completes {r : Routine} {args : List Value} {w w₁ : World}
    (hlength : args.length = r.params.length) (hbuffers : w₁.buffers = w.buffers)
    (hsafe : Safe natives ((r.params.map Param.name).zip args).reverse w.buffers r.body) :
    Completes w (run natives r args w₁) := by
  obtain ⟨f, u, hrun, hkeeps⟩ := hsafe w₁ hbuffers
  unfold run
  rw [if_neg (by simp [hlength])]
  dsimp only
  rw [hrun]
  cases f <;> exact ⟨_, u, rfl, hkeeps⟩

/-- What soundness asks of an aggregation: its routines are those of a built-in kind over the
expression, which is sound, and the names that code relies on stand for what they should. -/
structure Dependable (v : Visitor) (g : Aggregation) : Prop where
  builtin : v ∈ builtinKinds
  element : ∃ kind config columns e acc, v.artifact kind config columns e acc = .ok g.artifact ∧
    Lowers g.site g.node e ∧ config.factParameter = g.site.env.factName
  sound : g.node.Sound g.site.typing
  columns : g.site.columns.length ≤ 2 ^ 63
  natives : g.natives.KeepsGenerated
  plain : g.site.env.factName.toList.all isNameChar = true
  distinct : g.site.env.factName ≠ BufferRef.aggregation.name

/-- The row has values of the types of the columns. -/
abbrev Aggregation.Takes (g : Aggregation) (row : List Value) : Prop :=
  RowFits g.site.env.schema (g.site.columns.map Column.name) row

namespace Dependable

variable {v : Visitor} {g : Aggregation} (h : Dependable v g) {w : World}

include h

theorem merge {src dst : Nat} (hsrc : Ready g.artifact.layout w.buffers src)
    (hdst : Ready g.artifact.layout w.buffers dst) :
    Completes w (Machine.merge g.natives g.artifact src dst w) := by
  obtain ⟨_, _, _, e, _, hart, -, -⟩ := h.element
  have hmade := artifact_ok hart
  refine (run_completes (params_length hmade.merge_params).symm rfl ?_).ignored
  rw [hmade.merge_params]
  exact merge_safe (mergeEnv_source src dst) (mergeEnv_target src dst) hsrc hdst h.builtin
    hmade.layout hmade.merge

/-- Giving the result completes exactly if there is a vector to take the mean of. -/
theorem terminate_iff (hid : Ready g.artifact.layout w.buffers id) :
    Completes w (terminate g.natives g.artifact id w) ↔ ¬ (v = Kind.mean ∧
      g.artifact.output.isArray = true ∧ ((w.buffer id).valueAt 0).isNull = true) := by
  obtain ⟨_, _, _, e, _, hart, -, -⟩ := h.element
  have hmade := artifact_ok hart
  have hlayout := hmade.layout
  have hterminate := hmade.terminate
  have hparams := hmade.terminate_params
  have hholds : Holds [(BufferRef.aggregation.name, .buffer id)] agg id := ⟨by decide, by rfl⟩
  rw [hmade.output]
  constructor
  · rintro ⟨r, u, hrun, -⟩ ⟨rfl, harray, hnull⟩
    -- a run that completes has cloned the vector, so there is one
    obtain ⟨n, hn⟩ : ∃ n, e.type = .array n := by
      cases ht : e.type with
      | array n => exact ⟨n, rfl⟩
      | _ => rw [ht] at harray; cases harray
    obtain ⟨f, hexec⟩ := run_exec hrun
    rw [hn] at hlayout hterminate
    have hbody := Except.ok.inj hterminate
    have hlay : [.array n, .int] = g.artifact.layout := Except.ok.inj hlayout
    rw [hparams, ← hbody] at hexec
    have hset := meanOfVectors_set hholds hid (by rw [← hlay]; rfl) hexec
    rw [buffer_eq, hset] at hnull
    cases hnull
  · intro hset
    refine run_completes (params_length hparams).symm rfl ?_
    rw [hparams]
    refine terminate_safe hholds hid h.builtin hlayout hterminate fun hmean harray => ?_
    exact Bool.eq_false_iff.2 fun hnull => hset ⟨hmean, harray, hnull⟩

variable {row : List Value} (hrow : g.Takes row)

include hrow

theorem contribute (hid : Ready g.artifact.layout w.buffers id) :
    Completes w (Machine.contribute g.natives g.artifact row id w) := by
  obtain ⟨_, _, _, e, _, hart, he, hfact⟩ := h.element
  have hmade := artifact_ok hart
  refine (run_completes (params_length hmade.contribute_params).symm rfl ?_).ignored
  rw [hmade.contribute_params, hfact]
  exact contribute_safe h.natives h.columns hrow (rowEnv_binds h.plain h.distinct row id w)
    (rowEnv_holds _ row id w) he h.sound h.builtin hmade.layout hmade.contribute hid

/-- Taking a row out completes exactly if no integer product would be divided by zero. -/
theorem decontribute_iff (hsome : g.artifact.decontribute.isSome = true)
    (hid : Ready g.artifact.layout w.buffers id) :
    Completes w (decontribute g.natives g.artifact row id w) ↔ ¬ (v = Kind.multiply ∧
      g.artifact.output.isIntegral = true ∧ rowValue g.natives g.site g.node row w = some 0) := by
  obtain ⟨_, _, _, e, _, hart, he, hfact⟩ := h.element
  have hmade := artifact_ok hart
  obtain ⟨r, hr⟩ := Option.isSome_iff_exists.1 hsome
  have hlayout := hmade.layout
  have hdecontribute := hmade.decontribute
  rw [hr] at hdecontribute
  have hnames := hmade.decontribute_params r hr
  have hbinds := rowEnv_binds h.plain h.distinct row id w
  rw [hmade.output]
  unfold decontribute
  rw [hr]
  constructor
  · rintro ⟨_, u, hrun, -⟩ ⟨rfl, hint, hzero⟩
    obtain ⟨f, hexec⟩ := rowRun_exec hnames hrun
    obtain ⟨m, hm, hmint⟩ := DataType.isIntegral_scalar hint
    have hrender := some_ok (onScalar_ok hdecontribute).1
    -- a sound expression calls nothing
    have hcalls : Node.CallsIntegers g.natives g.node.callees := by
      rw [h.sound.calls]
      exact fun _ hf => nomatch hf
    rw [hfact] at hexec
    rw [hm] at hrender
    rw [he.type_eq] at hint
    -- a run that completes has divided, and not by zero
    have hdivide : Consumes g.natives (rowEnv g.site.env.factName row id w) _ _ :=
      consumes_divide (rowEnv_holds _ row id w) hmint
    obtain ⟨o, u', ho, heffect⟩ := render_ok hbinds hdivide he hint hcalls hrender hexec
    rw [rowValue_eq ho] at hzero
    cases o with
    | none => cases hzero
    | some x => exact heffect.2 (Option.some.inj hzero)
  · intro hzero
    refine (run_completes (params_length hnames).symm rfl ?_).ignored
    rw [hnames, hfact]
    refine decontribute_safe h.natives h.columns hrow hbinds (rowEnv_holds _ row id w) he h.sound
      h.builtin hlayout hdecontribute (fun hkind hint o ho x hx hlong => hzero ⟨hkind, hint, ?_⟩) hid
    -- the outcome is a constant, so the row has that value in any world
    have hrun : (g.node.outcome (g.site.meaning g.natives row)).runIn (w.fact row).2 =
        (.ok o, (w.fact row).2) := by
      rw [ho]
      rfl
    rw [rowValue_eq hrun, hx]
    exact congrArg some hlong

/-- The code of every part of the expression has a value of the type it was given. -/
theorem part {k : Node} (hk : g.node.Part k) {e : Element} {code : Term} {ws ws' : Workspace}
    (hlower : (Lowering.node g.site.env g.site.columns k).runIn ws = (.ok e, ws'))
    (hcode : e.value = .ok code) (id : Nat) (w₁ : World) :
    ∃ x u, (evaluate g.natives (rowEnv g.site.env.factName row id w) code).runIn w₁ = (.ok x, u) ∧
      x.conforms e.type = true := by
  have hsound := h.sound.part hk
  have hlowers : Lowers g.site k e := ((node_lowers hlower).2 _ (.refl _)).recalled hsound.calls
  have hbinds := rowEnv_binds h.plain h.distinct row id w
  obtain ⟨x, u, hrun, hx, -⟩ :=
    (hlowers.has h.natives h.columns hrow hbinds hcode hsound w₁.buffers).works w₁ rfl
  exact ⟨x, u, hrun, hx.1⟩

omit hrow in
/-- Rows are taken in to the last one. -/
theorem contributeAll (hid : Ready g.artifact.layout w.buffers id) {rows : List (List Value)}
    (hrows : ∀ row ∈ rows, g.Takes row) (index : Nat) :
    ∃ u, Machine.contributeAll g.natives g.artifact id index rows w = (.ok (), u) ∧
      Ready g.artifact.layout u.buffers id := by
  induction rows generalizing w index with
  | nil => exact ⟨w, rfl, hid⟩
  | cons row rest ih =>
    -- one row leaves the buffer ready for the next
    obtain ⟨_, w₁, hrun, hkeeps⟩ := h.contribute (hrows row (by simp)) hid
    have hothers : ∀ row ∈ rest, g.Takes row := fun row hr => hrows row (by simp [hr])
    obtain ⟨u, hrest, hu⟩ := ih (hid.keep hkeeps) hothers (index + 1)
    refine ⟨u, ?_, hu⟩
    rw [Machine.contributeAll, hrun]
    exact hrest

omit hrow in
/-- **Aggregating rows never fails**, and the buffer it makes is ready for more. -/
theorem aggregate {rows : List (List Value)} (hrows : ∀ row ∈ rows, g.Takes row) :
    ∃ id u, Machine.aggregate g.natives g.artifact rows w = (.ok id, u) ∧
      Ready g.artifact.layout u.buffers id := by
  have hfresh : bufferAt (w.addBuffer (.unset g.artifact.layout)).2.buffers w.buffers.length =
      .unset g.artifact.layout := by
    simp [bufferAt, World.addBuffer]
  have hready : Ready g.artifact.layout (w.addBuffer (.unset g.artifact.layout)).2.buffers
      w.buffers.length := by
    constructor
    · rw [hfresh]
      rfl
    · rw [hfresh]
      exact .unset _
  obtain ⟨u, hrun, hu⟩ := h.contributeAll hready hrows 0
  refine ⟨_, u, ?_, hu⟩
  unfold Machine.aggregate
  dsimp only [World.addBuffer] at hrun ⊢
  rw [hrun]

end Dependable

section Distilled

variable {v : Visitor} {env : DistillEnv} {kind : String} {n : Node} {ws ws' : Workspace}
  {a : Artifact}

/-- A distillation of a sound expression with a built-in kind is dependable. -/
theorem Dependable.of_distill (hv : v ∈ builtinKinds) (hkind : env.kinds.get kind = .ok v)
    (ha : (n.distill env kind).runIn ws = (.ok a, ws'))
    (hplain : env.config.filled.factParameter.toList.all isNameChar = true)
    (hdistinct : env.config.filled.factParameter ≠ BufferRef.aggregation.name)
    (hnatives : natives.KeepsGenerated) (hcolumns : n.columns.length ≤ 2 ^ 63)
    (hsound : n.Sound (distillSite env n ws'.cache).typing) :
    Dependable v ⟨natives, a, distillSite env n ws'.cache, n⟩ := by
  obtain ⟨v', e, acc, hv', he, hart⟩ := distill_ok ha
  obtain rfl : v = v' := Except.ok.inj (hkind.symm.trans hv')
  have hname := distillSite_factName env n ws'.cache
  refine ⟨hv, ⟨kind, _, _, e, acc, hart, he, hname.symm⟩, hsound, hcolumns, hnatives, ?_, ?_⟩
  · rw [hname]
    exact hplain
  · rw [hname]
    exact hdistinct

/-- **Distilled routines are sound.** Take a sound expression, a built-in kind, and a row that has
values of the types of the columns. The code of every part of the expression has a value of the type
it was given. On buffers that are laid out for the artifact and typed, taking the row in and merging
succeed, and the buffers stay so; taking the row out does too, except from an integer product by a
row of value zero; and so does giving the result, except the mean of no vector. Rows of such values
can therefore be aggregated one after the other, however many there are. -/
theorem distilled_sound (hv : v ∈ builtinKinds) (hkind : env.kinds.get kind = .ok v)
    (ha : (n.distill env kind).runIn ws = (.ok a, ws'))
    (hplain : env.config.filled.factParameter.toList.all isNameChar = true)
    (hdistinct : env.config.filled.factParameter ≠ BufferRef.aggregation.name)
    (hnatives : natives.KeepsGenerated) (hcolumns : n.columns.length ≤ 2 ^ 63)
    (hsound : n.Sound (distillSite env n ws'.cache).typing) {row : List Value}
    (hrow : RowFits env.schema (n.columns.map Column.name) row) :
    (∀ k, n.Part k → ∀ e code ws₁ ws₂,
      (Lowering.node (distillSite env n ws'.cache).env n.columns k).runIn ws₁ = (.ok e, ws₂) →
        e.value = .ok code → ∀ id w w₁, ∃ x u,
          (evaluate natives (rowEnv env.config.filled.factParameter row id w) code).runIn w₁ =
            (.ok x, u) ∧ x.conforms e.type = true) ∧
    (∀ w id, Ready a.layout w.buffers id →
      Completes w (contribute natives a row id w) ∧
      (a.decontribute.isSome = true → (Completes w (decontribute natives a row id w) ↔
        ¬ (v = Kind.multiply ∧ a.output.isIntegral = true ∧
          rowValue natives (distillSite env n ws'.cache) n row w = some 0))) ∧
      (Completes w (terminate natives a id w) ↔
        ¬ (v = Kind.mean ∧ a.output.isArray = true ∧
          ((w.buffer id).valueAt 0).isNull = true))) ∧
    (∀ w src dst, Ready a.layout w.buffers src → Ready a.layout w.buffers dst →
      Completes w (merge natives a src dst w)) ∧
    ∀ w rows, (∀ r ∈ rows, RowFits env.schema (n.columns.map Column.name) r) →
      ∃ id u, aggregate natives a rows w = (.ok id, u) ∧ Ready a.layout u.buffers id := by
  have hg := Dependable.of_distill hv hkind ha hplain hdistinct hnatives hcolumns hsound
  refine ⟨fun k hk e code ws₁ ws₂ hlower hcode id w w₁ => ?_, fun w id hid => ⟨?_, ?_, ?_⟩, ?_, ?_⟩
  · rw [← distillSite_factName env n ws'.cache]
    exact hg.part hrow hk hlower hcode id w₁
  · exact hg.contribute hrow hid
  · exact fun hsome => hg.decontribute_iff hrow hsome hid
  · exact hg.terminate_iff hid
  · exact fun w src dst hsrc hdst => hg.merge hsrc hdst
  · exact fun w rows hrows => hg.aggregate hrows

end Distilled

/-- A row of value zero goes into a product of integers and cannot be taken out again. -/
theorem distilled_sound_product :
    let env : DistillEnv := { schema := [("a", .int)] }
    let node : Node := .choice .lt (.column ⟨"a", ""⟩) (.constant (.int 5)) (.column ⟨"a", ""⟩)
      (.constant (.int 2))
    let w : World := { buffers := [.unset [.int]] }
    ∃ a ws, (node.distill env "multiply").runIn {} = (.ok a, ws) ∧
      Completes w (contribute [] a [.long 0] 0 w) ∧
      ¬ Completes w (decontribute [] a [.long 0] 0 w) := by
  intro env node w
  obtain ⟨a, ws, ha, hlayout, hsome, hint, hvalue⟩ : ∃ a ws,
      (node.distill env "multiply").runIn {} = (.ok a, ws) ∧ a.layout = [.int] ∧
        a.decontribute.isSome = true ∧ a.output.isIntegral = true ∧
          rowValue [] (distillSite env node ws.cache) node [.long 0] w = some 0 := by
    refine ⟨_, _, rfl, rfl, rfl, rfl, ?_⟩
    decide +kernel
  have hsound : node.Sound (distillSite env node ws.cache).typing := ⟨rfl, by decide +kernel, rfl⟩
  have hrow : RowFits env.schema (node.columns.map Column.name) [.long 0] := by
    intro i name t hname ht
    cases i with
    | zero =>
      obtain rfl := Option.some.inj hname
      obtain rfl := Option.some.inj ht
      exact ⟨_, rfl, rfl⟩
    | succ i => cases hname
  -- the buffer is fresh
  have hready : Ready a.layout w.buffers 0 := by
    rw [hlayout]
    exact ⟨rfl, .unset _⟩
  have hnatives : Natives.KeepsGenerated [] := fun _ _ => rfl
  have hcalls := (distilled_sound (v := Kind.multiply) (by simp [builtinKinds]) (by rfl) ha
    (by decide) (by decide) hnatives (by decide) hsound hrow).2.1 w 0 hready
  exact ⟨a, ws, ha, hcalls.1, fun hout => (hcalls.2.1 hsome).1 hout ⟨rfl, hint, hvalue⟩⟩

-- the same column as the second branch of a choice that is compared with an integer: not settled
example :
    let env : DistillEnv := { schema := [("a", .int)] }
    let a : Node := .column ⟨"a", ""⟩
    let inner : Node := .choice .gt a (.constant (.int 0)) (.constant (.int 5)) a
    let n : Node := .choice .eq inner (.constant (.int 7)) (.constant (.int 1)) (.constant (.int 2))
    let w : World := { buffers := [.unset [.int]] }
    ∃ r ws, (n.distill env "sum").runIn {} = (.ok r, ws) ∧
      (contribute [] r [.long (-3)] 0 w).1.isOk = false := by
  intro env a inner n w
  refine ⟨_, _, rfl, ?_⟩
  decide +kernel

end FactFold.Fold
