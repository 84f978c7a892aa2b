import FactFold.Proofs.Lowering.Simulation
import FactFold.Proofs.Machine.Sparing

/-!
# Lowered code spares the world

The code of an expression only computes: it changes no buffer and no vector that was there before,
whatever the record holds, whatever the functions given from outside yield, and wherever it fails.
That does not even need the record: the name of the fact may be bound to anything, a buffer included,
as long as it is a name.

`Sparing` has one rule for every form of a term that code of expressions uses.
-/

namespace FactFold.Machine

open Run (Spares)

variable {natives : Natives} {env : Env}

/-- The term runs as a step that spares every world. -/
def Sparing (natives : Natives) (env : Env) (code : Term) : Prop :=
  ∃ t x, RunsAs natives env code t x ∧ ∀ w, Spares w x

/-- The terms run one after the other as a step that spares every world. -/
def AllSparing (natives : Natives) (env : Env) (codes : List Term) : Prop :=
  ∃ xs, AllRunAs natives env codes xs ∧ ∀ w, Spares w xs

/-! ## Rules -/

theorem literal_runsAs (type : String) (d : Datum) :
    ∃ t v, RunsAs natives env (.lit type d) t (pure v) := by
  cases hl : literalValue type d with
  -- a literal that cannot be written has no run
  | error e =>
    refine ⟨.any, .null, .literal fun l h => ?_⟩
    rw [hl] at h
    cases h
  | ok l =>
    refine ⟨l.static, l.value, .literal fun l' h => ?_⟩
    obtain rfl := Except.ok.inj (hl.symm.trans h)
    exact ⟨rfl, rfl⟩

theorem AllSparing.nil : AllSparing natives env [] := ⟨_, .nil, fun _ => .pure _⟩

namespace Sparing

variable {a b c : Term} {args : List Term}

theorem cons (ha : Sparing natives env a) (h : AllSparing natives env args) :
    AllSparing natives env (a :: args) := by
  obtain ⟨t, x, hx, sx⟩ := ha
  obtain ⟨xs, hxs, sxs⟩ := h
  exact ⟨_, hx.cons hxs, fun w => .bind (sx w) fun _ => .bind (sxs w) fun _ => .pure _⟩

theorem single (ha : Sparing natives env a) : AllSparing natives env [a] := ha.cons .nil

theorem literal (type : String) (d : Datum) : Sparing natives env (.lit type d) := by
  obtain ⟨t, v, hv⟩ : ∃ t v, RunsAs natives env (.lit type d) t (pure v) := literal_runsAs type d
  exact ⟨t, pure v, hv, fun _ => .pure v⟩

theorem ident {name : String} (h : name.toList.all isNameChar = true) :
    Sparing natives env (.ident name) := ⟨_, _, .ident h, fun _ => .pure _⟩

theorem null : Sparing natives env .null := ⟨_, _, .null, fun _ => .pure _⟩

theorem spares_operation {op : BinaryOp} {s t : Static} {x y : Run Value}
    {w : World} (hx : Spares w x) (hy : Spares w y) : Spares w (operation op s t x y) :=
  .bind hx fun _ => .bind hy fun _ => .look

theorem strict {sign : String} {op : BinaryOp} (hsign : BinaryOp.ofText? sign = some op)
    (hop : op.isStrict = true) (hdiv : sign ≠ "/") (hneg : op = .mul → ∀ z, a ≠ .unary "!" z)
    (ha : Sparing natives env a) (hb : Sparing natives env b) :
    Sparing natives env (.binary sign a b) := by
  obtain ⟨s, x, hx, sx⟩ := ha
  obtain ⟨t, y, hy, sy⟩ := hb
  refine ⟨(Static.binary? op s t).getD .any, _, .strict hsign hop hdiv hneg (fun u hu => ?_) hx hy,
    fun w => spares_operation (sx w) (sy w)⟩
  rw [hu]
  rfl

theorem not (ha : Sparing natives env a) : Sparing natives env (.unary "!" a) := by
  obtain ⟨t, x, hx, sx⟩ := ha
  exact ⟨_, _, .not hx, fun w => .bind (sx w) fun _ => .lift _⟩

theorem either {sign : String} {op : BinaryOp} (hsign : BinaryOp.ofText? sign = some op)
    (hop : op = .lt ∨ op = .gt) (hdiv : sign ≠ "/") (method : String)
    (hread : isReading method = true) {receiver : Term} (hr : Sparing natives env receiver)
    (hargs : AllSparing natives env args) (hb : Sparing natives env b) (hc : Sparing natives env c) :
    Sparing natives env (.binary "||" (.invoke receiver method args) (.binary sign b c)) := by
  obtain ⟨_, x, hx, sx⟩ := hr
  obtain ⟨xs, hxs, sxs⟩ := hargs
  obtain ⟨s, y, hy, sy⟩ := hb
  obtain ⟨t, z, hz, sz⟩ := hc
  refine ⟨_, _, .either hsign hop hdiv (.invoke method hx hxs) hy hz, fun w => ?_⟩
  refine .bind (.bind (sx w) fun _ => .bind (sxs w) fun _ => spares_invoke hread _ _) fun v => ?_
  refine .bind (.lift _) fun r => ?_
  -- the right side runs only where the left side is false
  cases r with
  | true => exact .pure _
  | false => exact spares_operation (sy w) (sz w)

theorem both (method : String) (hread : isReading method = true) {receiver : Term}
    (ha : Sparing natives env a) (hb : Sparing natives env b) (hr : Sparing natives env receiver)
    (hargs : AllSparing natives env args) :
    Sparing natives env
      (.binary "&&" (.binary "!=" a b) (.unary "!" (.invoke receiver method args))) := by
  obtain ⟨s, x, hx, sx⟩ := ha
  obtain ⟨t, y, hy, sy⟩ := hb
  obtain ⟨_, z, hz, sz⟩ := hr
  obtain ⟨xs, hxs, sxs⟩ := hargs
  refine ⟨_, _, .both hx hy (.invoke method hz hxs), fun w => ?_⟩
  refine .bind (spares_operation (sx w) (sy w)) fun v => .bind (.lift _) fun r => ?_
  -- the right side runs only where the left side is true
  cases r with
  | true =>
    exact .bind (.bind (sz w) fun _ => .bind (sxs w) fun _ => spares_invoke hread _ _) fun _ =>
      .lift _
  | false => exact .pure _

theorem quotient (ha : Sparing natives env a) (hb : Sparing natives env b) :
    Sparing natives env (.binary "/" a b) := by
  obtain ⟨s, x, hx, sx⟩ := ha
  obtain ⟨t, y, hy, sy⟩ := hb
  exact ⟨_, _, .quotient hx hy, fun w => .bind (sx w) fun _ => .bind (sy w) fun _ => .lift _⟩

theorem call (name : String) (h : AllSparing natives env args) :
    Sparing natives env (.call name args) := by
  obtain ⟨xs, hxs, sxs⟩ := h
  refine ⟨_, _, .call name hxs, fun w => .bind (sxs w) fun vs => ?_⟩
  split
  · exact spares_staticOf natives vs
  · exact spares_static natives name vs

theorem invoke {method : String} (hread : isReading method = true) (ha : Sparing natives env a)
    (h : AllSparing natives env args) : Sparing natives env (.invoke a method args) := by
  obtain ⟨t, x, hx, sx⟩ := ha
  obtain ⟨xs, hxs, sxs⟩ := h
  exact ⟨_, _, .invoke method hx hxs, fun w =>
    .bind (sx w) fun _ => .bind (sxs w) fun _ => spares_invoke hread _ _⟩

theorem new {type : String} (hname : type ≠ "") (h : AllSparing natives env args) :
    Sparing natives env (.new type args) := by
  obtain ⟨xs, hxs, sxs⟩ := h
  exact ⟨_, _, .new type hname hxs, fun w => .bind (sxs w) fun _ => spares_newOf _⟩

theorem newArray (element : String) (h : AllSparing natives env args) :
    Sparing natives env (.newArray element args) := by
  obtain ⟨xs, hxs, sxs⟩ := h
  exact ⟨_, _, .newArray element hxs, fun w => .bind (sxs w) fun _ => .list _⟩

theorem cast (type : String) (ha : Sparing natives env a) : Sparing natives env (.cast type a) := by
  obtain ⟨t, x, hx, sx⟩ := ha
  refine ⟨_, _, .cast type hx, fun w => .bind (sx w) fun v => ?_⟩
  split
  · exact .throw _
  · exact spares_convert type v

theorem cond (hc : Sparing natives env c) (ha : Sparing natives env a) (hb : Sparing natives env b) :
    Sparing natives env (.cond c a b) := by
  obtain ⟨r, x, hx, sx⟩ := hc
  obtain ⟨s, y, hy, sy⟩ := ha
  obtain ⟨t, z, hz, sz⟩ := hb
  refine ⟨_, _, .cond hx hy hz, fun w => .bind (sx w) fun _ => .bind (.lift _) fun b => ?_⟩
  cases b with
  | true => exact sy w
  | false => exact sz w

theorem evaluate (h : Sparing natives env a) (w : World) : Spares w (evaluate natives env a) := by
  obtain ⟨t, x, hx, sx⟩ := h
  exact spares_evaluate hx (sx w)

end Sparing

end FactFold.Machine

namespace FactFold.Lowering

open Machine

variable {s : Site} {natives : Natives} {env : Env}

/-! ## Code of expressions -/

theorem readColumn_sparing (hplain : s.env.factName.toList.all isNameChar = true) (i : Int)
    (t : DataType) : Sparing natives env (readColumn (.ident s.env.factName) i t) := by
  -- the methods of a record are readings
  have hread : ∀ method, isReading method = true →
      Sparing natives env (.invoke (.ident s.env.factName) method [.int i]) :=
    fun method hmethod => .invoke hmethod (.ident hplain) (Sparing.literal _ _).single
  cases t with
  | array n => exact hread _ (by decide)
  | scalar n => exact hread _ (by cases n <;> decide)
  | boolean => exact hread _ (by decide)
  | string | localDate | other name => exact .cast _ (hread _ (by decide))

theorem literals_sparing (type : String) (items : List Scalar) :
    AllSparing natives env (items.map fun s => .lit type (.scalar s)) := by
  induction items with
  | nil => exact .nil
  | cons s items ih => exact (Sparing.literal _ _).cons ih

theorem arrayTerm_sparing (n : Numeric) (items : List Scalar) :
    Sparing natives env (arrayTerm n items) :=
  .new (by cases n <;> decide) (Sparing.newArray _ (literals_sparing _ items)).single

theorem constantTerm_sparing (c : Constant) : Sparing natives env (constantTerm c) := by
  have hint : ∀ n : Int, Sparing natives env (.int n) := fun n => .literal _ _
  cases c with
  | date d => exact .call _ ((hint _).cons ((hint _).cons (hint _).single))
  | ints ns | longs ns | floats xs | doubles xs => exact arrayTerm_sparing _ _
  | int n | long n | float x | double x | string bs => exact .literal _ _

theorem arithmetic_sparing {op : Arithmetic} {l : Node} {x e : Element} {a b code : Term}
    {rt : DataType} (hl : Lowers s l x) (hx : x.value = .ok a)
    (he : Operators.arithmetic op a b x.type rt = .ok e) (hv : e.value = .ok code)
    (ha : Sparing natives env a) (hb : Sparing natives env b) : Sparing natives env code := by
  have hneg : ∀ n, x.type = .scalar n → ∀ z, a ≠ .unary "!" z :=
    fun _ hn z => hl.number_ne_negation hx hn z
  unfold Operators.arithmetic at he
  generalize x.type = lt at he hneg
  split at he
  case h_8 => cases he
  all_goals
    obtain rfl := Except.ok.inj he
    obtain rfl := Except.ok.inj hv
  -- a quotient of numbers is cast first
  case h_1 => exact .quotient (.cast _ ha) hb
  case h_2 hop =>
    -- a division of numbers is the case before
    cases op with
    | div => exact (hop rfl).elim
    | mul | add | sub => exact .strict rfl rfl (by decide) (fun _ => hneg _ rfl) ha hb
  case h_6 => exact .call _ (hb.cons ha.single)
  case h_7 => exact .call _ (ha.cons (Sparing.quotient (.literal _ _) hb).single)
  all_goals exact .call _ (ha.cons hb.single)

theorem inline_sparing (op : Comparison) {a b : Term} (ha : Sparing natives env a)
    (hb : Sparing natives env b) : Sparing natives env (.binary op.symbol a b) := by
  have hsign : BinaryOp.ofText? op.symbol = some op.machine := by cases op <;> rfl
  refine .strict hsign ?_ ?_ ?_ ha hb
  all_goals cases op <;> first | rfl | decide | exact fun h => nomatch h

theorem byMethod_sparing (op : Comparison) {a b : Term} (ha : Sparing natives env a)
    (hb : Sparing natives env b) : Sparing natives env (Operators.byMethod op a b) := by
  have hequals : Sparing natives env (.invoke a "equals" [b]) := .invoke (by decide) ha hb.single
  have hcompare : Sparing natives env (.invoke a "compareTo" [b]) := .invoke (by decide) ha hb.single
  cases op with
  | eq => exact hequals
  | ne => exact hequals.not
  | lt | le | gt | ge => exact inline_sparing _ hcompare (.literal _ _)

theorem comparison_sparing {op : Comparison} {a b code : Term} {lt rt : DataType} {e : Element}
    (he : Operators.comparison op a b lt rt = .ok e) (hv : e.value = .ok code)
    (ha : Sparing natives env a) (hb : Sparing natives env b) : Sparing natives env code := by
  obtain ⟨-, -, rfl⟩ | ⟨-, rfl⟩ := comparison_code he
  · obtain rfl := Except.ok.inj hv
    exact inline_sparing op ha hb
  · obtain rfl := Except.ok.inj hv
    exact byMethod_sparing op ha hb

mutual

/-- **Lowered code spares the world.** -/
theorem Lowers.sparing (hplain : s.env.factName.toList.all isNameChar = true) :
    ∀ {n : Node} {e : Element} {code : Term}, Lowers s n e → e.value = .ok code →
      Sparing natives env code
  | .column _, _, _, .column _ _, hv => by
    obtain rfl := Except.ok.inj hv
    exact readColumn_sparing hplain _ _
  | .constant c, _, _, .constant _, hv => by
    obtain rfl := Except.ok.inj hv
    exact constantTerm_sparing c
  | .arithmetic .., _, _, .arithmetic hl hr hx hy he, hv =>
    arithmetic_sparing hl hx he hv (hl.sparing hplain hx) (hr.sparing hplain hy)
  | .comparison .., _, _, .comparison hl hr hx hy he, hv =>
    comparison_sparing he hv (hl.sparing hplain hx) (hr.sparing hplain hy)
  | .guarded .., _, _, .guarded _ _, hv => by cases hv
  | .choice .., _, _, .choice (.comparison hl hr hx hy hc) hyes hno he, hv => by
    obtain ⟨c, y, n, hcv, hyv, hnv, rfl⟩ := ternary_value_ok he hv
    have hcond := comparison_sparing hc hcv (hl.sparing hplain hx) (hr.sparing hplain hy)
    exact hcond.cond (hyes.sparing hplain hyv) (hno.sparing hplain hnv)
  | .call f _, _, _, .call ha, hv => by
    obtain rfl := Except.ok.inj hv
    exact .call f.callee (ha.sparing hplain)

theorem LowersAll.sparing (hplain : s.env.factName.toList.all isNameChar = true) :
    ∀ {ns : List Node} {terms : List TypedTerm}, LowersAll s ns terms →
      AllSparing natives env (terms.map TypedTerm.code)
  | [], _, .nil => .nil
  | _ :: _, _, .cons hn hv hr => (hn.sparing hplain hv).cons (hr.sparing hplain)

end

end FactFold.Lowering
