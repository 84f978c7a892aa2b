import FactFold.Proofs.Machine.Folding

/-!
# What terms run as

An expression is written as source, read as a formula, checked, simplified and then run.
`RunsAs natives env code t x` says what comes of all that: whenever the term `code` can be written and
its formula passes the check, `t` is known about it beforehand and running it is the step `x`.

There is one rule for every form of a term, so that the step a term runs as can be read off the term.
Nothing above this module has to look at formulas again.

* `RunsAs.int`, `RunsAs.literal`, `RunsAs.ident`: literals and variables;
* `RunsAs.strict`, `RunsAs.quotient`, `RunsAs.not`: operators;
* `RunsAs.either`, `RunsAs.both`: connectives;
* `RunsAs.call`, `RunsAs.invoke`, `RunsAs.new`, `RunsAs.newArray`, `RunsAs.cast`: calls;
* `RunsAs.cond`: the choice.

`evaluate_cases` puts the rules to use.
-/

namespace FactFold.Machine

open Run (Quiet Yields)
open Number (wrap64)

/-- A formula that is free of broken operations, about which `t` is known also after simplifying, and
that runs as the step `x`. -/
structure Formula.RunsAs (natives : Natives) (env : Env) (f : Formula) (t : Static) (x : Run Value) :
    Prop where
  whole : f.hasBroken = false
  known : f.static? = some t
  kept : f.simplify.static? = some t
  value : eval natives env f.simplify = x

/-- Formulas that are free of broken operations and run as the step `x`. -/
structure Formula.AllRunAs (natives : Natives) (env : Env) (fs : List Formula)
    (x : Run (List Value)) : Prop where
  whole : anyBroken fs = false
  kept : (statics? (simplifyAll fs)).isSome = true
  value : evalAll natives env (simplifyAll fs) = x

/-- A term of which `t` is known and that runs as the step `x`, if it can be written and passes the
check. -/
def RunsAs (natives : Natives) (env : Env) (code : Term) (t : Static) (x : Run Value) : Prop :=
  ∀ s, source code = .ok s → ∃ f, Formula.ofTerm? code = some f ∧
    (f.static?.isSome = true → f.RunsAs natives env t x)

/-- Terms that run one after the other as the step `x`, if they can be written and pass the check. -/
def AllRunAs (natives : Natives) (env : Env) (codes : List Term) (x : Run (List Value)) : Prop :=
  ∀ ss, sources codes = .ok ss → ∃ fs, Formula.ofTerms? codes = some fs ∧
    ((Formula.statics? fs).isSome = true → Formula.AllRunAs natives env fs x)

variable {natives : Natives} {env : Env}

/-! ## Parts of a successful source -/

theorem bind_ok {α β ε : Type} {x : Except ε α} {k : α → Except ε β} {b : β}
    (h : (x >>= k) = .ok b) : ∃ a, x = .ok a ∧ k a = .ok b := by
  cases x with
  | error e => cases h
  | ok a => exact ⟨a, rfl, h⟩

theorem bind_isSome {α β : Type} {x : Option α} {k : α → Option β} (h : (x >>= k).isSome = true) :
    ∃ a, x = some a ∧ (k a).isSome = true := by
  cases x with
  | none => cases h
  | some a => exact ⟨a, rfl, h⟩

/-! ## Lists of terms -/

/-- A formula before others runs before them. -/
theorem Formula.RunsAs.cons {f : Formula} {fs : List Formula} {t : Static} {x : Run Value}
    {xs : Run (List Value)} (r : f.RunsAs natives env t x)
    (rs : Formula.AllRunAs natives env fs xs) :
    Formula.AllRunAs natives env (f :: fs) (do
      let v ← x
      let vs ← xs
      pure (v :: vs)) := by
  constructor
  · simp [Formula.anyBroken, r.whole, rs.whole]
  · obtain ⟨ts, hts⟩ := Option.isSome_iff_exists.1 rs.kept
    simp [Formula.simplifyAll, Formula.statics?, r.kept, hts]
  · simp only [Formula.simplifyAll, evalAll, r.value, rs.value]

theorem AllRunAs.nil : AllRunAs natives env [] (pure []) :=
  fun _ _ => ⟨[], rfl, fun _ => ⟨rfl, rfl, rfl⟩⟩

theorem RunsAs.cons {code : Term} {codes : List Term} {t : Static} {x : Run Value}
    {xs : Run (List Value)} (h : RunsAs natives env code t x) (hs : AllRunAs natives env codes xs) :
    AllRunAs natives env (code :: codes) (do
      let v ← x
      let vs ← xs
      pure (v :: vs)) := by
  intro ss hss
  rw [sources] at hss
  obtain ⟨a, ha, hss⟩ := bind_ok hss
  obtain ⟨as, has, -⟩ := bind_ok hss
  obtain ⟨f, hf, run⟩ := h a ha
  obtain ⟨fs, hfs, runs⟩ := hs as has
  refine ⟨f :: fs, by simp [Formula.ofTerms?, hf, hfs], fun hstatic => ?_⟩
  rw [Formula.statics?] at hstatic
  obtain ⟨t', ht', hstatic⟩ := bind_isSome hstatic
  obtain ⟨ts, hts, -⟩ := bind_isSome hstatic
  exact Formula.RunsAs.cons (run (by simp [ht'])) (runs (by simp [hts]))

theorem AllRunAs.single {code : Term} {t : Static} {x : Run Value}
    (h : RunsAs natives env code t x) : AllRunAs natives env [code] (do
      let v ← x
      pure [v]) := by
  simpa only [pure_bind] using RunsAs.cons h AllRunAs.nil

/-! ## Literals and variables -/

/-- What is known about a literal. -/
def LiteralValue.static : LiteralValue → Static
  | .int _ => .int
  | .double _ => .float
  | .bool _ => .bool
  | .text _ => .text

/-- The value a literal runs to. -/
def LiteralValue.value : LiteralValue → Value
  | .int n => .scalar (.int .int n)
  | .double x => .double x
  | .bool b => .bool b
  | .text bs => .scalar (.text (literalText bs))

/-- A literal runs to its value. -/
theorem RunsAs.literal {type : String} {d : Datum} {t : Static} {v : Value}
    (h : ∀ l, literalValue type d = .ok l → l.static = t ∧ l.value = v) :
    RunsAs natives env (.lit type d) t (pure v) := by
  intro s hs
  rw [source] at hs
  cases hl : literalValue type d with
  | error e => simp [hl, Functor.map, Except.map] at hs
  | ok l =>
    obtain ⟨rfl, rfl⟩ := h l hl
    refine ⟨l.formula, by simp [Formula.ofTerm?, hl, Except.toOption], fun hstatic => ?_⟩
    cases l with
    | int n =>
      simp only [LiteralValue.formula] at hstatic ⊢
      -- the least integer has no formula of its own, and does not pass the check
      split_ifs at hstatic ⊢
      · cases hstatic
      · exact ⟨rfl, rfl, rfl, rfl⟩
    | double x => exact ⟨rfl, rfl, rfl, rfl⟩
    | bool b => exact ⟨rfl, rfl, rfl, rfl⟩
    | text bs => exact ⟨rfl, rfl, rfl, rfl⟩

/-- An integer literal, whose digits wrap at 64 bits. -/
theorem RunsAs.int (n : Int) :
    RunsAs natives env (.int n) .int (pure (.scalar (.int .int (wrap64 n)))) := by
  refine RunsAs.literal fun l hl => ?_
  obtain rfl := Except.ok.inj hl
  exact ⟨rfl, rfl⟩

/-- A variable with a plain name has the value of its name. -/
theorem RunsAs.ident {name : String} (h : name.toList.all isNameChar = true) :
    RunsAs natives env (.ident name) .any (pure ((env.lookup name).getD .null)) :=
  fun _ _ => ⟨.variable name, by simp only [Formula.ofTerm?, h, if_true],
    fun _ => ⟨rfl, rfl, rfl, by simp only [Formula.simplify, eval]⟩⟩

theorem RunsAs.null : RunsAs natives env .null .null (pure .null) :=
  fun _ _ => ⟨.null, rfl, fun _ => ⟨rfl, rfl, rfl, rfl⟩⟩

/-! ## Operators -/

theorem Formula.static_of_kept {f : Formula} {t : Static} (h : f.static? = some t) :
    f.static = t := by
  rw [Formula.static, h]
  rfl

theorem simplify_strict {op : BinaryOp} (h : op.isStrict = true) (x y : Formula) :
    (Formula.binary op x y).simplify = Formula.binaryOn op x.simplify y.simplify := by
  cases op <;> cases h <;> rw [Formula.simplify] <;> simp

theorem static?_strict {op : BinaryOp} (h : op.isStrict = true) (x y : Formula) :
    (Formula.binary op x y).static? = (do
      let a ← x.static?
      let b ← y.static?
      Static.binary? op a b) := by
  cases op <;> cases h <;> rw [Formula.static?] <;> simp

theorem isBroken_strict {op : BinaryOp} (h : op.isStrict = true) (x y : Formula) :
    Formula.isBroken op x y = false := by
  cases op <;> cases h <;> rfl

/-- The formula of an infix operator. A negation on the left of a product would take the product in,
so it must not stand there. -/
theorem ofTerm?_binary {sign : String} {op : BinaryOp} {a b : Term} {f g : Formula}
    (hsign : BinaryOp.ofText? sign = some op) (hdiv : sign ≠ "/")
    (hneg : op = .mul → ∀ z, a ≠ .unary "!" z) (hf : Formula.ofTerm? a = some f)
    (hg : Formula.ofTerm? b = some g) :
    Formula.ofTerm? (.binary sign a b) = some (.binary op f g) := by
  simp only [Formula.ofTerm?, hf, hg, hsign, hdiv, if_false, Option.bind_eq_bind, Option.bind_some]
  split
  · exact absurd rfl (hneg rfl _)
  · rfl

theorem source_binary_ok {sign : String} {a b : Term} {text : String}
    (h : source (.binary sign a b) = .ok text) : ∃ l r, source a = .ok l ∧ source b = .ok r := by
  rw [source] at h
  obtain ⟨l, hl, h⟩ := bind_ok h
  obtain ⟨r, hr, -⟩ := bind_ok h
  exact ⟨l, r, hl, hr⟩

/-- A strict operator runs its operands from left to right. -/
theorem RunsAs.strict {sign : String} {op : BinaryOp} {a b : Term} {s t u : Static}
    {x y : Run Value} (hsign : BinaryOp.ofText? sign = some op) (hop : op.isStrict = true)
    (hdiv : sign ≠ "/") (hneg : op = .mul → ∀ z, a ≠ .unary "!" z)
    (hknown : ∀ u', Static.binary? op s t = some u' → u' = u)
    (ha : RunsAs natives env a s x) (hb : RunsAs natives env b t y) :
    RunsAs natives env (.binary sign a b) u (operation op s t x y) := by
  intro text htext
  obtain ⟨l, r, hl, hr⟩ := source_binary_ok htext
  obtain ⟨f, hf, runF⟩ := ha l hl
  obtain ⟨g, hg, runG⟩ := hb r hr
  refine ⟨.binary op f g, ofTerm?_binary hsign hdiv hneg hf hg, fun hstatic => ?_⟩
  rw [static?_strict hop] at hstatic
  obtain ⟨s', hs', hstatic⟩ := bind_isSome hstatic
  obtain ⟨t', ht', hstatic⟩ := bind_isSome hstatic
  have rF := runF (by simp [hs'])
  have rG := runG (by simp [ht'])
  -- what the check has found out about the operands is what they run as
  obtain rfl : s' = s := Option.some.inj (hs'.symm.trans rF.known)
  obtain rfl : t' = t := Option.some.inj (ht'.symm.trans rG.known)
  obtain ⟨u', hu⟩ := Option.isSome_iff_exists.1 hstatic
  obtain rfl := hknown u' hu
  constructor
  · rw [Formula.hasBroken, isBroken_strict hop, rF.whole, rG.whole]
    rfl
  · rw [static?_strict hop]
    simp [hs', ht', hu]
  · rw [simplify_strict hop, static_binaryOn hop, static?_strict hop]
    simp [rF.kept, rG.kept, hu]
  · rw [simplify_strict hop, eval_binaryOn hop, eval_strict hop, rF.value, rG.value,
      Formula.static_of_kept rF.kept, Formula.static_of_kept rG.kept]

/-- A negation. -/
theorem RunsAs.not {a : Term} {t : Static} {x : Run Value} (ha : RunsAs natives env a t x) :
    RunsAs natives env (.unary "!" a) .bool (do
      let v ← x
      liftM (unary .not (t.operand v))) := by
  intro text htext
  rw [source] at htext
  obtain ⟨l, hl, -⟩ := bind_ok htext
  obtain ⟨f, hf, run⟩ := ha l hl
  refine ⟨.unary .not f, by simp [Formula.ofTerm?, hf, UnaryOp.ofText?], fun hstatic => ?_⟩
  rw [Formula.static?] at hstatic
  obtain ⟨t', ht', hstatic⟩ := bind_isSome hstatic
  have r := run (by simp [ht'])
  obtain rfl : t' = t := Option.some.inj (ht'.symm.trans r.known)
  -- a negation that passes is one of a truth value or of something unknown
  have hbool : Static.unary? .not t' = some .bool := by
    unfold Static.unary? at hstatic ⊢
    dsimp only at hstatic ⊢
    split_ifs at hstatic ⊢ <;> simp_all
  refine ⟨by rw [Formula.hasBroken, r.whole], by simp [Formula.static?, ht', hbool], ?_, ?_⟩
  · rw [Formula.simplify, static_notOn, Formula.static?, r.kept]
    exact hbool
  · rw [Formula.simplify, eval_notOn, eval, r.value]
    simp only [Formula.operand_eq, Formula.static_of_kept r.kept]

/-! ## Connectives -/

theorem static?_connective {op : BinaryOp} (hop : op = .and ∨ op = .or) (x y : Formula) :
    (Formula.binary op x y).static? = (do
      let a ← x.static?
      let b ← y.static?
      Static.binary? op a b) := by
  rcases hop with rfl | rfl <;> rw [Formula.static?] <;> simp

/-- A connective of which neither side is a literal is still there when it runs. -/
theorem simplify_connective {op : BinaryOp} (hop : op = .and ∨ op = .or) {x y : Formula}
    (hx : x.simplify.boolLiteral? = none) (hy : y.simplify.boolLiteral? = none) :
    (Formula.binary op x y).simplify = .binary op x.simplify y.simplify := by
  rcases hop with rfl | rfl <;> rw [Formula.simplify] <;>
    simp [Formula.binaryOn, Formula.connective, hx, hy]

/-- Such a connective runs as what it evaluates to. -/
theorem Formula.RunsAs.connective {op : BinaryOp} (hop : op = .and ∨ op = .or) {f g : Formula}
    {s t u : Static} {x y z : Run Value} (rF : f.RunsAs natives env s x)
    (rG : g.RunsAs natives env t y) (hf : f.simplify.boolLiteral? = none)
    (hg : g.simplify.boolLiteral? = none) (hu : Static.binary? op s t = some u)
    (hz : eval natives env (.binary op f.simplify g.simplify) = z) :
    (Formula.binary op f g).RunsAs natives env u z := by
  have hsimplify := simplify_connective hop hf hg
  constructor
  · rw [Formula.hasBroken, rF.whole, rG.whole]
    rcases hop with rfl | rfl <;> rfl
  · rw [static?_connective hop, rF.known, rG.known]
    exact hu
  · rw [hsimplify, static?_connective hop, rF.kept, rG.kept]
    exact hu
  · rw [hsimplify, hz]

/-- A truth value is its own operand. -/
theorem Formula.RunsAs.operand_bool {f : Formula} {x : Run Value}
    (r : f.RunsAs natives env .bool x) : f.simplify.operand = id := by
  funext v
  rw [Formula.operand_eq, Formula.static_of_kept r.kept]
  rfl

/-- A formula about which nothing is known is no literal. -/
theorem boolLiteral?_of_any {f : Formula} (h : f.static? = some .any) : f.boolLiteral? = none := by
  cases f with
  | bool b => cases h
  | _ => rfl

/-- A connective whose left side is unknown and whose right side is an order: neither side can have
become a literal, so that the connective is still there when it runs. -/
theorem RunsAs.either {sign : String} {op : BinaryOp} {a b c : Term} {s t : Static}
    {x y z : Run Value} (hsign : BinaryOp.ofText? sign = some op) (hop : op = .lt ∨ op = .gt)
    (hdiv : sign ≠ "/") (ha : RunsAs natives env a .any x) (hb : RunsAs natives env b s y)
    (hc : RunsAs natives env c t z) :
    RunsAs natives env (.binary "||" a (.binary sign b c)) .bool (do
      let v ← x
      if ← liftM (asBool v.opened) then pure v.opened else operation op s t y z) := by
  have hstrict : op.isStrict = true := by rcases hop with rfl | rfl <;> rfl
  have hneg : op = .mul → ∀ z, b ≠ .unary "!" z := by
    rintro rfl
    simp at hop
  have horder : RunsAs natives env (.binary sign b c) .bool (operation op s t y z) := by
    refine RunsAs.strict hsign hstrict hdiv hneg (fun u hu => ?_) hb hc
    rcases hop with rfl | rfl <;> simp only [Static.binary?, Option.ite_none_right_eq_some,
      Option.some.injEq] at hu <;> exact hu.2.symm
  intro text htext
  obtain ⟨l, r, hl, hr⟩ := source_binary_ok htext
  obtain ⟨l', r', hl', hr'⟩ := source_binary_ok hr
  obtain ⟨f, hf, runF⟩ := ha l hl
  obtain ⟨g, hg, -⟩ := hb l' hl'
  obtain ⟨h, hh, -⟩ := hc r' hr'
  obtain ⟨k, hk, runK⟩ := horder r hr
  obtain rfl : k = .binary op g h :=
    Option.some.inj (hk.symm.trans (ofTerm?_binary hsign hdiv hneg hg hh))
  refine ⟨.binary .or f (.binary op g h),
    ofTerm?_binary rfl (by decide) (by intro h; cases h) hf hk, fun hstatic => ?_⟩
  rw [static?_connective (.inr rfl)] at hstatic
  obtain ⟨s', hs', hstatic⟩ := bind_isSome hstatic
  obtain ⟨t', ht', -⟩ := bind_isSome hstatic
  have rF := runF (by simp [hs'])
  have rK := runK (by simp [ht'])
  -- an order is never folded
  have hright : (Formula.binary op g h).simplify.boolLiteral? = none := by
    rcases hop with rfl | rfl <;> rw [simplify_strict rfl] <;> rfl
  refine .connective (.inr rfl) rF rK (boolLiteral?_of_any rF.kept) hright rfl ?_
  rw [eval, rF.value, rK.value, rK.operand_bool]
  simp only [Formula.operand_eq, Formula.static_of_kept rF.kept, id_map]
  rfl

/-- A connective of an inequality and the negation of something unknown. -/
theorem RunsAs.both {a b c : Term} {s t : Static} {x y z : Run Value}
    (ha : RunsAs natives env a s x) (hb : RunsAs natives env b t y)
    (hc : RunsAs natives env c .any z) :
    RunsAs natives env (.binary "&&" (.binary "!=" a b) (.unary "!" c)) .bool (do
      let v ← operation .ne s t x y
      if ← liftM (asBool v) then do
        let u ← z
        liftM (unary .not u.opened)
      else pure v) := by
  have hne : RunsAs natives env (.binary "!=" a b) .bool (operation .ne s t x y) := by
    refine RunsAs.strict rfl rfl (by decide) (by intro h; cases h) (fun u hu => ?_) ha hb
    simp only [Static.binary?, Option.ite_none_right_eq_some, Option.some.injEq] at hu
    exact hu.2.symm
  intro text htext
  obtain ⟨l, r, hl, hr⟩ := source_binary_ok htext
  obtain ⟨la, lb, hla, hlb⟩ := source_binary_ok hl
  obtain ⟨g, hg, -⟩ := ha la hla
  obtain ⟨h, hh, -⟩ := hb lb hlb
  obtain ⟨k, hk, runK⟩ := hne l hl
  obtain rfl : k = .binary .ne g h := Option.some.inj
    (hk.symm.trans (ofTerm?_binary rfl (by decide) (by intro h; cases h) hg hh))
  obtain ⟨m, hm, runM⟩ := hc.not r hr
  rw [source] at hr
  obtain ⟨rc, hrc, -⟩ := bind_ok hr
  obtain ⟨f, hf, runF⟩ := hc rc hrc
  obtain rfl : m = .unary .not f :=
    Option.some.inj (hm.symm.trans (by simp [Formula.ofTerm?, hf, UnaryOp.ofText?]))
  refine ⟨.binary .and (.binary .ne g h) (.unary .not f),
    ofTerm?_binary rfl (by decide) (by intro h; cases h) hk hm, fun hstatic => ?_⟩
  rw [static?_connective (.inl rfl)] at hstatic
  obtain ⟨s', hs', hstatic⟩ := bind_isSome hstatic
  obtain ⟨t', ht', -⟩ := bind_isSome hstatic
  have rK := runK (by simp [hs'])
  have rM := runM (by simp [ht'])
  rw [Formula.static?] at ht'
  obtain ⟨u', hu', -⟩ := Option.bind_eq_some_iff.1 ht'
  have rF := runF (by simp [hu'])
  have hleft : (Formula.binary .ne g h).simplify.boolLiteral? = none := by
    rw [simplify_strict rfl]
    rfl
  -- the operand is unknown, so the negation is not folded
  have hnotOn : (Formula.unary .not f).simplify = .unary .not f.simplify := by
    have hlit := boolLiteral?_of_any rF.kept
    rw [Formula.simplify]
    cases hcase : f.simplify with
    | bool b =>
      rw [hcase] at hlit
      cases hlit
    | _ => rfl
  refine .connective (.inl rfl) rK rM hleft (by rw [hnotOn]; rfl) rfl ?_
  rw [eval, rK.value, rM.value, rK.operand_bool, rM.operand_bool, id_map]
  rfl

/-! ## Calls -/

/-- The term of a name. -/
def nameTerm (name : String) : Term := .lit "String" (.scalar (.text (.ofText name)))

theorem RunsAs.name (name : String) :
    RunsAs natives env (nameTerm name) .text (pure (.scalar (.text (.ofText name)))) := by
  refine RunsAs.literal fun l hl => ?_
  obtain rfl := Except.ok.inj hl
  exact ⟨rfl, by simp [LiteralValue.value, Operand.textOrEmpty, Operand.toText, Datum.operand,
    Except.toOption]⟩

/-- A term whose formula is a call runs its arguments and then the function. -/
theorem RunsAs.ofArgs (code : Term) {args : List Term} {f : Routed} {xs : Run (List Value)}
    (hsource : ∀ s, source code = .ok s → ∃ ss, sources args = .ok ss)
    (hterm : ∀ fs, Formula.ofTerms? args = some fs → Formula.ofTerm? code = some (.call f fs))
    (h : AllRunAs natives env args xs) :
    RunsAs natives env code .any (do
      let vs ← xs
      routed natives f vs) := by
  intro s hs
  obtain ⟨ss, hss⟩ := hsource s hs
  obtain ⟨fs, hfs, run⟩ := h ss hss
  refine ⟨.call f fs, hterm fs hfs, fun hstatic => ?_⟩
  rw [Formula.static?] at hstatic
  obtain ⟨ts, hts, -⟩ := bind_isSome hstatic
  -- the call passes the check only if its arguments do
  have r := run (by simp [hts])
  obtain ⟨us, hus⟩ := Option.isSome_iff_exists.1 r.kept
  refine ⟨by rw [Formula.hasBroken, r.whole], by simp [Formula.static?, hts], ?_, ?_⟩
  · simp [Formula.simplify, Formula.static?, hus]
  · simp only [Formula.simplify, eval, r.value]

theorem sources_cons {x : Term} {xs : List Term} {s : String} {ss : List String}
    (h : source x = .ok s) (hs : sources xs = .ok ss) : sources (x :: xs) = .ok (s :: ss) := by
  simp [sources, h, hs, bind, Except.bind, pure, Except.pure]

theorem ofTerms?_cons {x : Term} {xs : List Term} {fs : List Formula}
    (h : Formula.ofTerms? (x :: xs) = some fs) :
    ∃ f gs, fs = f :: gs ∧ Formula.ofTerm? x = some f ∧ Formula.ofTerms? xs = some gs := by
  rw [Formula.ofTerms?] at h
  obtain ⟨f, hf, h⟩ := Option.bind_eq_some_iff.1 h
  obtain ⟨gs, hgs, h⟩ := Option.bind_eq_some_iff.1 h
  exact ⟨f, gs, (Option.some.inj h).symm, hf, hgs⟩

theorem ofTerms?_single {x : Term} {fs : List Formula} (h : Formula.ofTerms? [x] = some fs) :
    ∃ f, fs = [f] ∧ Formula.ofTerm? x = some f := by
  obtain ⟨f, gs, rfl, hf, hgs⟩ := ofTerms?_cons h
  obtain rfl : gs = [] := (Option.some.inj hgs).symm
  exact ⟨f, rfl, hf⟩

theorem ofTerm?_name (name : String) :
    Formula.ofTerm? (nameTerm name) = some (Formula.ofText name) := by
  simp [nameTerm, Formula.ofTerm?, literalValue, LiteralValue.formula, Formula.ofText,
    Operand.textOrEmpty, Operand.toText, Datum.operand, Except.toOption]

/-- A name before other terms is read as the text it is. -/
theorem ofTerms?_name_cons {name : String} {xs : List Term} {fs : List Formula}
    (h : Formula.ofTerms? (nameTerm name :: xs) = some fs) :
    ∃ gs, fs = Formula.ofText name :: gs ∧ Formula.ofTerms? xs = some gs := by
  obtain ⟨f, gs, rfl, hf, hgs⟩ := ofTerms?_cons h
  rw [ofTerm?_name] at hf
  obtain rfl := Option.some.inj hf
  exact ⟨gs, rfl, hgs⟩

/-- A name can always be written. -/
theorem sources_name_cons (name : String) {xs : List Term} {ss : List String}
    (hs : sources xs = .ok ss) : ∃ ts, sources (nameTerm name :: xs) = .ok ts := by
  obtain ⟨s, hname⟩ : ∃ s, source (nameTerm name) = .ok s :=
    ⟨_, by simp [nameTerm, source, literalValue, Functor.map, Except.map]; rfl⟩
  exact ⟨s :: ss, sources_cons hname hs⟩

/-- Division runs its operands from left to right. -/
theorem RunsAs.quotient {a b : Term} {s t : Static} {x y : Run Value}
    (ha : RunsAs natives env a s x) (hb : RunsAs natives env b t y) :
    RunsAs natives env (.binary "/" a b) .any (do
      let v ← x
      let u ← y
      liftM (divide v u)) := by
  have h := RunsAs.ofArgs (.binary "/" a b) (f := .quotient) (fun text htext => ?_)
    (fun fs hfs => ?_) (ha.cons (.single hb))
  · simpa [routed, divideOf] using h
  · rw [source] at htext
    obtain ⟨l, hl, htext⟩ := bind_ok htext
    obtain ⟨r, hr, -⟩ := bind_ok htext
    exact ⟨[l, r], sources_cons hl (sources_cons hr rfl)⟩
  · obtain ⟨f, gs, rfl, hf, hgs⟩ := ofTerms?_cons hfs
    obtain ⟨g, rfl, hg⟩ := ofTerms?_single hgs
    simp [Formula.ofTerm?, hf, hg]

/-- A static call runs its arguments in order. Without a name it takes the first argument for the
name. -/
theorem RunsAs.call (name : String) {args : List Term} {xs : Run (List Value)}
    (h : AllRunAs natives env args xs) :
    RunsAs natives env (.call name args) .any (do
      let vs ← xs
      if name = "" then staticOf natives vs else static natives name vs) := by
  -- the name is the first argument of a call with a name
  by_cases hname : name = ""
  · have h := RunsAs.ofArgs (.call name args) (f := .static) (fun text htext => ?_)
      (fun fs hfs => ?_) h
    · simpa [routed, hname] using h
    · rw [source] at htext
      obtain ⟨ss, hss, -⟩ := bind_ok htext
      exact ⟨ss, hss⟩
    · simp [Formula.ofTerm?, hfs, Formula.withName, hname]
  · have h := RunsAs.ofArgs (.call name args) (f := .static) (fun text htext => ?_)
      (fun fs hfs => ?_) ((RunsAs.name name).cons h)
    · simpa [routed, hname, staticOf, Value.operand, Operand.textOrEmpty, Operand.toText,
        Except.toOption] using h
    · rw [source] at htext
      obtain ⟨ss, hss, -⟩ := bind_ok htext
      exact sources_name_cons name hss
    · obtain ⟨gs, rfl, hgs⟩ := ofTerms?_name_cons hfs
      simp [Formula.ofTerm?, hgs, Formula.withName, hname]

/-- A method call runs the receiver and then the arguments in order. -/
theorem RunsAs.invoke (method : String) {receiver : Term} {args : List Term} {t : Static}
    {x : Run Value} {xs : Run (List Value)} (hr : RunsAs natives env receiver t x)
    (h : AllRunAs natives env args xs) :
    RunsAs natives env (.invoke receiver method args) .any (do
      let v ← x
      let vs ← xs
      Machine.invoke v method vs) := by
  have h := RunsAs.ofArgs (.invoke receiver method args) (f := .call) (fun text htext => ?_)
    (fun fs hfs => ?_) (hr.cons ((RunsAs.name method).cons h))
  · simpa [routed, invokeOf, Value.operand, Operand.textOrEmpty, Operand.toText,
      Except.toOption] using h
  · rw [source] at htext
    obtain ⟨r, hr, htext⟩ := bind_ok htext
    obtain ⟨ss, hss, -⟩ := bind_ok htext
    obtain ⟨ts, hts⟩ := sources_name_cons method hss
    exact ⟨r :: ts, sources_cons hr hts⟩
  · obtain ⟨f, gs, rfl, hf, hgs⟩ := ofTerms?_cons hfs
    obtain ⟨hs, rfl, hhs⟩ := ofTerms?_name_cons hgs
    simp [Formula.ofTerm?, hf, hhs]

/-- A new object of a named class. -/
theorem RunsAs.new (type : String) {args : List Term} {xs : Run (List Value)} (hname : type ≠ "")
    (h : AllRunAs natives env args xs) :
    RunsAs natives env (.new type args) .any (do
      let vs ← xs
      newOf (.scalar (.text (.ofText type)) :: vs)) := by
  have h := RunsAs.ofArgs (.new type args) (f := .new) (fun text htext => ?_)
    (fun fs hfs => ?_) ((RunsAs.name type).cons h)
  · simpa [routed] using h
  · rw [source] at htext
    obtain ⟨ss, hss, -⟩ := bind_ok htext
    exact sources_name_cons type hss
  · obtain ⟨gs, rfl, hgs⟩ := ofTerms?_name_cons hfs
    simp [Formula.ofTerm?, hgs, Formula.withName, hname]

/-- A list runs its items in order. -/
theorem RunsAs.newArray (element : String) {items : List Term} {xs : Run (List Value)}
    (h : AllRunAs natives env items xs) :
    RunsAs natives env (.newArray element items) .list (do
      let vs ← xs
      Run.list vs) := by
  intro text htext
  rw [source] at htext
  obtain ⟨ss, hss, -⟩ := bind_ok htext
  obtain ⟨fs, hfs, run⟩ := h ss hss
  refine ⟨.list fs, by simp [Formula.ofTerm?, hfs], fun hstatic => ?_⟩
  rw [Formula.static?] at hstatic
  obtain ⟨ts, hts, -⟩ := bind_isSome hstatic
  have r := run (by simp [hts])
  obtain ⟨us, hus⟩ := Option.isSome_iff_exists.1 r.kept
  refine ⟨by rw [Formula.hasBroken, r.whole], by simp [Formula.static?, hts], ?_, ?_⟩
  · simp [Formula.simplify, Formula.static?, hus]
  · simp only [Formula.simplify, eval, r.value]

/-- A conversion to a named type; one to the nameless type fails. -/
theorem RunsAs.cast (type : String) {a : Term} {t : Static} {x : Run Value}
    (h : RunsAs natives env a t x) :
    RunsAs natives env (.cast type a) .any (do
      let v ← x
      if type = "" then throw .convertArity else convert type v) := by
  -- as for calls, the type is the first argument
  by_cases hname : type = ""
  · have h := RunsAs.ofArgs (.cast type a) (f := .convert) (fun text htext => ?_)
      (fun fs hfs => ?_) (.single h)
    · simpa [routed, hname, convertOf] using h
    · rw [source] at htext
      obtain ⟨s, hs, -⟩ := bind_ok htext
      exact ⟨[s], sources_cons hs rfl⟩
    · obtain ⟨f, rfl, hf⟩ := ofTerms?_single hfs
      simp [Formula.ofTerm?, hf, Formula.withName, hname]
  · have h := RunsAs.ofArgs (.cast type a) (f := .convert) (fun text htext => ?_)
      (fun fs hfs => ?_) ((RunsAs.name type).cons (.single h))
    · simpa [routed, hname, convertOf, Value.operand, Operand.textOrEmpty, Operand.toText,
        Except.toOption] using h
    · rw [source] at htext
      obtain ⟨s, hs, -⟩ := bind_ok htext
      exact sources_name_cons type (sources_cons hs rfl)
    · obtain ⟨gs, rfl, hgs⟩ := ofTerms?_name_cons hfs
      obtain ⟨g, rfl, hg⟩ := ofTerms?_single hgs
      simp [Formula.ofTerm?, hg, Formula.withName, hname]

/-! ## Choices -/

/-- What is known about a choice does not depend on its condition. -/
theorem Static.cond?_eq {c yes no t : Static} (h : Static.cond? c yes no = some t) :
    Static.cond? .any yes no = some t := by
  unfold Static.cond? at h ⊢
  split_ifs at h ⊢ <;> simp_all

/-- A choice runs its condition and then the branch the condition tells. -/
theorem RunsAs.cond {c a b : Term} {r s t : Static} {x y z : Run Value}
    (hc : RunsAs natives env c r x) (ha : RunsAs natives env a s y) (hb : RunsAs natives env b t z) :
    RunsAs natives env (.cond c a b) ((Static.cond? .any s t).getD .any) (do
      let v ← x
      if ← liftM (asBool v) then y else z) := by
  intro text htext
  rw [source] at htext
  obtain ⟨k, hk, htext⟩ := bind_ok htext
  obtain ⟨l, hl, htext⟩ := bind_ok htext
  obtain ⟨m, hm, -⟩ := bind_ok htext
  obtain ⟨f, hf, runF⟩ := hc k hk
  obtain ⟨g, hg, runG⟩ := ha l hl
  obtain ⟨h, hh, runH⟩ := hb m hm
  refine ⟨.cond f g h, by simp [Formula.ofTerm?, hf, hg, hh], fun hstatic => ?_⟩
  rw [Formula.static?] at hstatic
  obtain ⟨r', hr', hstatic⟩ := bind_isSome hstatic
  obtain ⟨s', hs', hstatic⟩ := bind_isSome hstatic
  obtain ⟨t', ht', hstatic⟩ := bind_isSome hstatic
  have rF := runF (by simp [hr'])
  have rG := runG (by simp [hs'])
  have rH := runH (by simp [ht'])
  obtain rfl : r' = r := Option.some.inj (hr'.symm.trans rF.known)
  obtain rfl : s' = s := Option.some.inj (hs'.symm.trans rG.known)
  obtain rfl : t' = t := Option.some.inj (ht'.symm.trans rH.known)
  obtain ⟨u, hu⟩ := Option.isSome_iff_exists.1 hstatic
  -- what is known of the choice is known from its branches
  rw [Static.cond?_eq hu]
  constructor
  · simp [Formula.hasBroken, rF.whole, rG.whole, rH.whole]
  · simp [Formula.static?, hr', hs', ht', hu]
  · simp [Formula.simplify, Formula.static?, rF.kept, rG.kept, rH.kept, hu]
  · simp only [Formula.simplify, eval, rF.value, rG.value, rH.value]

/-! ## Evaluating -/

/-- A term that can be written and is accepted is evaluated by the step it runs as. -/
theorem evaluate_accepted {code : Term} {t : Static} {x : Run Value} {s : String} {f : Formula}
    (h : RunsAs natives env code t x) (hs : source code = .ok s)
    (hf : Formula.ofTerm? code = some f) (hacc : f.isAccepted = true) (w : World) :
    (evaluate natives env code).runIn w = x.runIn (w.remember s) := by
  obtain ⟨g, hg, run⟩ := h s hs
  obtain rfl : g = f := Option.some.inj (hg.symm.trans hf)
  have hstatic : g.static?.isSome = true := by
    unfold Formula.isAccepted at hacc
    exact (Bool.and_eq_true_iff.1 hacc).1
  unfold evaluate program?
  rw [Run.runIn_bind]
  simp only [hs, Run.runIn_lift, hf, Option.some_or, Option.bind_eq_bind, Option.bind_some, hacc,
    if_true, Option.pure_def]
  rw [Run.runIn_bind, Run.runIn_modify, (run hstatic).value]

/-- **What evaluating a term does.** It is refused before anything has happened, or its source is
remembered and the step the term runs as is taken. -/
theorem evaluate_cases {code : Term} {t : Static} {x : Run Value}
    (h : RunsAs natives env code t x) (w : World) :
    (∃ e, (evaluate natives env code).runIn w = (.error e, w)) ∨
      ∃ s, (evaluate natives env code).runIn w = x.runIn (w.remember s) := by
  cases hs : source code with
  | error e =>
    unfold evaluate
    rw [Run.runIn_bind, Run.runIn_lift, hs]
    exact .inl ⟨e, rfl⟩
  | ok s =>
    obtain ⟨f, hf, -⟩ := h s hs
    by_cases hacc : f.isAccepted = true
    · exact .inr ⟨s, evaluate_accepted h hs hf hacc w⟩
    · -- the source is formed, and the check refuses it
      unfold evaluate program?
      rw [Run.runIn_bind, Run.runIn_lift, hs]
      simp only [hf, Option.some_or, Option.bind_eq_bind, Option.bind_some, hacc,
        Bool.false_eq_true, if_false]
      exact .inl ⟨_, rfl⟩

/-- When evaluating a term succeeds, the step the term runs as has. -/
theorem evaluate_ok {code : Term} {t : Static} {x : Run Value} {w w' : World} {v : Value}
    (h : RunsAs natives env code t x) (hrun : (evaluate natives env code).runIn w = (.ok v, w')) :
    ∃ s, x.runIn (w.remember s) = (.ok v, w') := by
  obtain ⟨e, he⟩ | ⟨s, hs⟩ := evaluate_cases h w
  · rw [he] at hrun
    cases hrun
  · exact ⟨s, hs.symm.trans hrun⟩

/-- A term that can be written and passes the check is evaluated by the step it runs as. -/
theorem evaluate_eq {code : Term} {t : Static} {x : Run Value} {s : String} {f : Formula}
    (h : RunsAs natives env code t x) (hs : source code = .ok s)
    (hf : Formula.ofTerm? code = some f) (hstatic : f.static?.isSome = true) (w : World) :
    (evaluate natives env code).runIn w = x.runIn (w.remember s) := by
  obtain ⟨g, hg, run⟩ := h s hs
  obtain rfl : g = f := Option.some.inj (hg.symm.trans hf)
  have hacc : g.isAccepted = true := by
    rw [Formula.isAccepted, hstatic, (run hstatic).whole]
    rfl
  exact evaluate_accepted h hs hf hacc w

end FactFold.Machine
