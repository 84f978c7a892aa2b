import FactFold.Proofs.Lowering.Acceptance

/-!
# Steps that cannot fail

`Run.Works K x Q` says of a step `x` that it succeeds whenever the buffers are as `K` says, and that
its result and the buffers it leaves are as `Q` says. Heap and remembered sources do not matter here:
no step of a routine can fail because of them.

`Evaluates` says the same of the code of a step: it passes the check, and what it runs as works.
There is one rule for every form of a term in a template and one for every form of a statement. The
operands of a term only get values from the buffers (`Has`); what changes buffers is always the
method called last.
-/

namespace FactFold.Machine

open Number (wrap64)

/-! ## Triples on buffers -/

namespace Run

variable {α β : Type} {x : Run α} {K : List Memory → Prop} {Q : α → List Memory → Prop}

/-- From buffers as `K` says the step succeeds, with a result and buffers as `Q` says. -/
def Works (K : List Memory → Prop) (x : Run α) (Q : α → List Memory → Prop) : Prop :=
  ∀ w, K w.buffers → ∃ a u, x.runIn w = (.ok a, u) ∧ Q a u.buffers

/-- With these buffers the step gets a value that has the property, and leaves the buffers alone. -/
abbrev Gets (bs : List Memory) (x : Run α) (P : α → Prop) : Prop :=
  Works (· = bs) x fun a bs' => P a ∧ bs' = bs

namespace Works

theorem bind {k : α → Run β} {R : β → List Memory → Prop} (hx : Works K x Q)
    (hk : ∀ a, Works (Q a) (k a) R) : Works K (x >>= k) R := by
  intro w hw
  obtain ⟨a, v, ha, hv⟩ := hx w hw
  obtain ⟨b, u, hb, hu⟩ := hk a v hv
  exact ⟨b, u, runIn_bind_ok_iff.2 ⟨a, v, ha, hb⟩, hu⟩

theorem mono {R : α → List Memory → Prop} (hx : Works K x Q) (h : ∀ a bs, Q a bs → R a bs) :
    Works K x R := by
  intro w hw
  obtain ⟨a, u, ha, hu⟩ := hx w hw
  exact ⟨a, u, ha, h a _ hu⟩

end Works

namespace Gets

variable {bs : List Memory} {P : α → Prop}

theorem pure {a : α} (h : P a) : Gets bs (pure a) P := fun w hw => ⟨a, w, rfl, h, hw⟩

/-- What comes after a value has been got starts with the same buffers. -/
theorem bind {k : α → Run β} {R : β → List Memory → Prop} (hx : Gets bs x P)
    (hk : ∀ a, P a → Works (· = bs) (k a) R) : Works (· = bs) (x >>= k) R := by
  refine Works.bind hx fun a w hw => ?_
  exact hk a hw.1 w hw.2

theorem mono {R : α → Prop} (hx : Gets bs x P) (h : ∀ a, P a → R a) : Gets bs x R :=
  Works.mono hx fun a _ ha => ⟨h a ha.1, ha.2⟩

theorem lift {e : Except Fault α} {a : α} (he : e = .ok a) (h : P a) : Gets bs (liftM e) P := by
  subst he
  exact fun w hw => ⟨a, w, rfl, h, hw⟩

/-- A result that is the same in every world can be looked up in any of them. -/
theorem look {f : World → Except Fault α} {a : α} (hf : ∀ w, f w = .ok a) (h : P a) :
    Gets bs (do liftM (f (← get))) P := by
  rw [look_lift hf]
  exact pure h

end Gets

end Run

open Run (Works Gets)

variable {natives : Natives} {env : Env} {bs : List Memory}

/-! ## Terms -/

/-- The term passes the check, which finds `t`, and with these buffers it runs as a step that works. -/
def Evaluates (natives : Natives) (env : Env) (bs : List Memory) (code : Term) (t : Static)
    (Q : Value → List Memory → Prop) : Prop :=
  Passes code t ∧ ∃ x, RunsAs natives env code t x ∧ Works (· = bs) x Q

/-- The term passes the check and gets a value that has the property. -/
abbrev Has (natives : Natives) (env : Env) (bs : List Memory) (code : Term) (t : Static)
    (P : Value → Prop) : Prop :=
  Evaluates natives env bs code t fun v bs' => P v ∧ bs' = bs

/-- The terms pass the check and get values that have the property. -/
def AllHave (natives : Natives) (env : Env) (bs : List Memory) (codes : List Term)
    (P : List Value → Prop) : Prop :=
  AllPass codes ∧ ∃ x, AllRunAs natives env codes x ∧ Gets bs x P

variable {a b c : Term} {args : List Term} {s t u : Static} {P R S : Value → Prop}
  {A : List Value → Prop} {Q : Value → List Memory → Prop}

theorem AllHave.nil : AllHave natives env bs [] (· = []) := ⟨.nil, _, .nil, Gets.pure rfl⟩

/-- Evaluating a term that evaluates works. -/
theorem Evaluates.works (h : Evaluates natives env bs a t Q) :
    Works (· = bs) (evaluate natives env a) Q := by
  obtain ⟨⟨text, f, htext, hf, hstatic⟩, x, hruns, hx⟩ := h
  intro w hw
  rw [evaluate_eq hruns htext hf (by rw [hstatic]; rfl)]
  -- remembering the source leaves the buffers
  exact hx _ ((World.Alike.remember w text).buffers.trans hw)

namespace Has

theorem cons (ha : Has natives env bs a t P) (hs : AllHave natives env bs args A) :
    AllHave natives env bs (a :: args) fun vs => ∃ v us, vs = v :: us ∧ P v ∧ A us := by
  obtain ⟨hpass, x, hruns, hx⟩ := ha
  obtain ⟨hpasses, xs, hrun, hxs⟩ := hs
  refine ⟨hpass.cons hpasses, _, hruns.cons hrun, ?_⟩
  exact Gets.bind hx fun v hv => Gets.bind hxs fun us hus => Gets.pure ⟨v, us, rfl, hv, hus⟩

theorem single (ha : Has natives env bs a t P) :
    AllHave natives env bs [a] fun vs => ∃ v, vs = [v] ∧ P v := by
  obtain ⟨hpass, x, hruns, hx⟩ := ha
  exact ⟨.single hpass, _, .single hruns, Gets.bind hx fun v hv => Gets.pure ⟨v, rfl, hv⟩⟩

theorem mono (ha : Has natives env bs a t P) (h : ∀ v, P v → R v) : Has natives env bs a t R := by
  obtain ⟨hpass, x, hruns, hx⟩ := ha
  exact ⟨hpass, x, hruns, Gets.mono hx h⟩

theorem literal {type : String} {d : Datum} {l : LiteralValue} (hl : literalValue type d = .ok l)
    (ht : l.formula.static? = some l.static) :
    Has natives env bs (.lit type d) l.static (· = l.value) := by
  refine ⟨.literal hl ht, _, .literal fun l' hl' => ?_, Gets.pure rfl⟩
  obtain rfl := Except.ok.inj (hl.symm.trans hl')
  exact ⟨rfl, rfl⟩

theorem int {n : Int} (hn : wrap64 n ≠ -(2 ^ 63)) :
    Has natives env bs (.int n) .int (· = .scalar (.int .int (wrap64 n))) :=
  ⟨.int hn, _, .int n, Gets.pure rfl⟩

theorem null : Has natives env bs .null .null (· = .null) :=
  ⟨⟨_, .null, rfl, rfl, rfl⟩, _, .null, Gets.pure rfl⟩

theorem ident {name : String} {v : Value} (hplain : name.toList.all isNameChar = true)
    (hv : env.lookup name = some v) : Has natives env bs (.ident name) .any (· = v) := by
  have hruns : RunsAs natives env (.ident name) .any _ := RunsAs.ident hplain
  rw [hv] at hruns
  exact ⟨.ident hplain, _, hruns, Gets.pure rfl⟩

theorem operation {op : BinaryOp} {x y : Run Value} (hx : Gets bs x P) (hy : Gets bs y R)
    (h : ∀ v w, P v → R w → ∃ r, S r ∧ ∀ u, operate op s t u v w = .ok r) :
    Gets bs (operation op s t x y) S := by
  refine Gets.bind hx fun v hv => Gets.bind hy fun w hw => ?_
  obtain ⟨r, hr, hoperate⟩ := h v w hv hw
  exact Gets.look hoperate hr

theorem strict {sign : String} {op : BinaryOp} (hsign : BinaryOp.ofText? sign = some op)
    (hop : op.isStrict = true) (hdiv : sign ≠ "/") (hneg : op = .mul → ∀ z, a ≠ .unary "!" z)
    (hu : Static.binary? op s t = some u) (ha : Has natives env bs a s P)
    (hb : Has natives env bs b t R)
    (h : ∀ v w, P v → R w → ∃ r, S r ∧ ∀ u, operate op s t u v w = .ok r) :
    Has natives env bs (.binary sign a b) u S := by
  obtain ⟨hpa, x, hra, hx⟩ := ha
  obtain ⟨hpb, y, hrb, hy⟩ := hb
  -- the check finds one type for the operator, and so the step runs with that one
  refine ⟨.strict hsign hop hdiv hneg hu hpa hpb, _, ?_, Has.operation hx hy h⟩
  exact .strict hsign hop hdiv hneg (fun u' hu' => Option.some.inj (hu'.symm.trans hu)) hra hrb

theorem not {C : Bool → Prop} (ha : Has natives env bs a .any fun v => ∃ b, v = .bool b ∧ C b) :
    Has natives env bs (.unary "!" a) .bool fun v => ∃ b, v = .bool (!b) ∧ C b := by
  obtain ⟨hpass, x, hruns, hx⟩ := ha
  refine ⟨hpass.not, _, hruns.not, Gets.bind hx ?_⟩
  rintro v ⟨b, rfl, hb⟩
  exact Gets.lift rfl ⟨b, rfl, hb⟩

theorem quotient (ha : Has natives env bs a s P) (hb : Has natives env bs b t R)
    (h : ∀ v w, P v → R w → ∃ r, S r ∧ divide v w = .ok r) :
    Has natives env bs (.binary "/" a b) .any S := by
  obtain ⟨hpa, x, hra, hx⟩ := ha
  obtain ⟨hpb, y, hrb, hy⟩ := hb
  refine ⟨hpa.quotient hpb, _, hra.quotient hrb, Gets.bind hx fun v hv => Gets.bind hy fun w hw => ?_⟩
  obtain ⟨r, hr, hdivide⟩ := h v w hv hw
  exact Gets.lift hdivide hr

theorem cast {type : String} (htype : type ≠ "") (ha : Has natives env bs a t P)
    (h : ∀ v, P v → Gets bs (convert type v) R) : Has natives env bs (.cast type a) .any R := by
  obtain ⟨hpass, x, hruns, hx⟩ := ha
  refine ⟨hpass.cast type, _, hruns.cast type, Gets.bind hx fun v hv => ?_⟩
  rw [if_neg htype]
  exact h v hv

theorem call {name : String} (hname : name ≠ "") (hs : AllHave natives env bs args A)
    (h : ∀ vs, A vs → Gets bs (static natives name vs) R) :
    Has natives env bs (.call name args) .any R := by
  obtain ⟨hpass, xs, hruns, hxs⟩ := hs
  refine ⟨.call name hpass, _, .call name hruns, Gets.bind hxs fun vs hvs => ?_⟩
  rw [if_neg hname]
  exact h vs hvs

theorem new {type : String} (htype : type ≠ "") (hs : AllHave natives env bs args A)
    (h : ∀ vs, A vs → Gets bs (newOf (.scalar (.text (.ofText type)) :: vs)) R) :
    Has natives env bs (.new type args) .any R := by
  obtain ⟨hpass, xs, hruns, hxs⟩ := hs
  exact ⟨.new type hpass, _, .new type htype hruns, Gets.bind hxs h⟩

end Has

/-- A method is called on the value of the receiver, and may change buffers. -/
theorem Has.invoke {method : String} (ha : Has natives env bs a t P)
    (hs : AllHave natives env bs args A)
    (h : ∀ v vs, P v → A vs → Works (· = bs) (invoke v method vs) Q) :
    Evaluates natives env bs (.invoke a method args) .any Q := by
  obtain ⟨hpass, x, hruns, hx⟩ := ha
  obtain ⟨hpasses, xs, hrun, hxs⟩ := hs
  exact ⟨.invoke method hpass hpasses, _, .invoke method hruns hrun,
    Gets.bind hx fun v hv => Gets.bind hxs fun vs hvs => h v vs hv hvs⟩

/-! ## Connectives -/

theorem Passes.connective {sign : String} {op : BinaryOp} (hsign : BinaryOp.ofText? sign = some op)
    (hop : op = .and ∨ op = .or) (hdiv : sign ≠ "/") (hu : Static.binary? op s t = some u)
    (ha : Passes a s) (hb : Passes b t) : Passes (.binary sign a b) u := by
  obtain ⟨l, f, hl, hf, hs⟩ := ha
  obtain ⟨r, g, hr, hg, ht⟩ := hb
  obtain ⟨text, htext⟩ := source_binary sign hl hr
  have hneg : op = .mul → ∀ z, a ≠ .unary "!" z := by
    rintro rfl
    simp at hop
  refine ⟨text, .binary op f g, htext, ofTerm?_binary hsign hdiv hneg hf hg, ?_⟩
  rw [static?_connective hop, hs, ht]
  exact hu

/-- One of an unknown truth value and an order of two numbers. -/
theorem Has.either {sign : String} {op : BinaryOp} (hsign : BinaryOp.ofText? sign = some op)
    (hop : op = .lt ∨ op = .gt) (hdiv : sign ≠ "/")
    (ha : Has natives env bs a .any fun v => ∃ b, v = .bool b) (hb : Has natives env bs b .any P)
    (hc : Has natives env bs c .any R)
    (h : ∀ v w, P v → R w → ∃ o, ∀ u, operate op .any .any u v w = .ok (.bool o)) :
    Has natives env bs (.binary "||" a (.binary sign b c)) .bool fun v => ∃ b, v = .bool b := by
  obtain ⟨hpa, x, hra, hx⟩ := ha
  obtain ⟨hpb, y, hrb, hy⟩ := hb
  obtain ⟨hpc, z, hrc, hz⟩ := hc
  have horder : Passes (.binary sign b c) .bool := by
    refine .strict hsign ?_ hdiv ?_ ?_ hpb hpc
    all_goals rcases hop with rfl | rfl <;> first | rfl | exact nofun
  have hor : BinaryOp.ofText? "||" = some .or := rfl
  refine ⟨.connective hor (.inr rfl) (by decide) rfl hpa horder, _,
    .either hsign hop hdiv hra hrb hrc, Gets.bind hx ?_⟩
  rintro v ⟨o, rfl⟩
  cases o with
  -- an unset field settles it, and the order is not looked at
  | true => exact Gets.pure ⟨true, rfl⟩
  | false =>
    refine Has.operation hy hz fun v w hv hw => ?_
    obtain ⟨o, ho⟩ := h v w hv hw
    exact ⟨.bool o, ⟨o, rfl⟩, ho⟩

/-- Both of a difference and the negation of an unknown truth value. -/
theorem Has.both {C : Bool → Prop} (ha : Has natives env bs a .any P)
    (hb : Has natives env bs b .null R)
    (hc : Has natives env bs c .any fun v => ∃ b, v = .bool b ∧ C b)
    (h : ∀ v w, P v → R w → ∃ o, ∀ u, operate .ne .any .null u v w = .ok (.bool o)) :
    Has natives env bs (.binary "&&" (.binary "!=" a b) (.unary "!" c)) .bool
      fun v => ∃ b, v = .bool b ∧ (b = true → C false) := by
  obtain ⟨hpa, x, hra, hx⟩ := ha
  obtain ⟨hpb, y, hrb, hy⟩ := hb
  obtain ⟨hpc, z, hrc, hz⟩ := hc
  have hne : Passes (.binary "!=" a b) .bool :=
    .strict rfl rfl (by decide) (by intro h; cases h) rfl hpa hpb
  have hgets : Gets bs (Machine.operation .ne .any .null x y) fun v => ∃ o, v = .bool o := by
    refine Has.operation hx hy fun v w hv hw => ?_
    obtain ⟨o, ho⟩ := h v w hv hw
    exact ⟨.bool o, ⟨o, rfl⟩, ho⟩
  have hand : BinaryOp.ofText? "&&" = some .and := rfl
  refine ⟨.connective hand (.inl rfl) (by decide) rfl hne hpc.not, _,
    .both hra hrb hrc, Gets.bind hgets ?_⟩
  rintro v ⟨o, rfl⟩
  cases o with
  -- where there is no difference the negation is not looked at
  | false => exact Gets.pure ⟨false, rfl, by simp⟩
  | true =>
    show Works (· = bs) (z >>= fun u => liftM (unary .not u.opened)) _
    refine Gets.bind hz ?_
    rintro v ⟨o, rfl, ho⟩
    refine Gets.lift rfl ⟨!o, rfl, fun h => ?_⟩
    cases o with
    | true => cases h
    | false => exact ho

/-! ## Statements -/

variable {rest yes no : List Stmt} {F : Flow → List Memory → Prop} {L : List Memory → Prop}

theorem works_nil (hF : F (.next env) bs) : Works (· = bs) (exec natives env []) F := by
  rw [exec]
  exact fun w hw => ⟨_, w, rfl, hw ▸ hF⟩

theorem works_run (h : Evaluates natives env bs a t fun _ => L) :
    Works (· = bs) (execStmt natives env (.run a)) fun f bs' => f = .next env ∧ L bs' := by
  rw [execStmt]
  exact h.works.bind fun v w hw => ⟨_, w, rfl, rfl, hw⟩

theorem works_ret (h : Evaluates natives env bs a t fun _ => L) :
    Works (· = bs) (exec natives env [.ret a]) fun _ => L := by
  rw [exec_single, execStmt, map_eq_pure_bind]
  exact h.works.bind fun v w hw => ⟨_, w, rfl, hw⟩

/-- Statements after one that runs to its end go on with the buffers it leaves. -/
theorem works_then {st : Stmt}
    (hs : Works (· = bs) (execStmt natives env st) fun f bs' => f = .next env ∧ L bs')
    (hrest : ∀ bs', L bs' → Works (· = bs') (exec natives env rest) F) :
    Works (· = bs) (exec natives env (st :: rest)) F := by
  rw [exec]
  refine hs.bind fun f w hw => ?_
  -- the statement runs to its end, so that the rest is reached
  obtain ⟨rfl, hL⟩ := hw
  exact hrest _ hL w rfl

/-- A condition picks the branch that its truth value is for. -/
theorem works_cond {C : Bool → Prop} (hc : Has natives env bs c t fun v => ∃ b, v = .bool b ∧ C b)
    (hyes : C true → Works (· = bs) (exec natives env yes) F)
    (hno : C false → Works (· = bs) (exec natives env no) F) :
    Works (· = bs) (execStmt natives env (.cond c yes no)) F := by
  rw [execStmt]
  refine Gets.bind hc.works ?_
  rintro v ⟨b, rfl, hb⟩
  cases b with
  | true => exact hyes hb
  | false => exact hno hb

/-- A declaration binds its value once the value has been converted. -/
theorem works_decl {type name : String} (ha : Has natives env bs a t P)
    (hconvert : ∀ v, P v → Gets bs (convert type v) R)
    (hrest : ∀ v, R v → Works (· = bs) (exec natives ((name, v) :: env) rest) F) :
    Works (· = bs) (exec natives env (.decl type name a :: rest)) F := by
  rw [exec_decl]
  refine Gets.bind ha.works fun v hv => Gets.bind (P := R) ?_ hrest
  intro w hw
  obtain ⟨r, u, hrun, hr⟩ := hconvert v hv w hw
  -- the conversion succeeds, so that no fault is reworded
  exact ⟨r, u, by rw [runIn_rethrow, hrun], hr⟩

end FactFold.Machine
