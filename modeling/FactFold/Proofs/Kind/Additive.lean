import FactFold.Proofs.Kind.Runs

/-!
# What the additive kinds do to a buffer

Sum, mean, sum of squares and negative part add an amount to the first field for every row, the same
amount with the opposite sign when a row is taken out, and the source's field when buffers are merged.
The amount is the value itself, its square or its negative part. Mean counts rows in a second field
beside.

`Amount` is what the templates have in common: a term made of the code of a value, which runs as a
step that computes an amount of the value.
-/

namespace FactFold.Fold

open Machine Lowering
open Kind (agg declareValue valueVar valueName negate negativePart zero square count)
open Machine.Run (Quiet Yields)
open Number (wrap64)

variable {natives : Natives} {env : Env}

/-! ## Amounts -/

/-- The term made of the code of a value computes the amount `g` of the value, up to wrapping. -/
def Amount (natives : Natives) (env : Env) (make : Term → Term) (g : Int → Int) : Prop :=
  ∀ ⦃code : Term⦄ ⦃t : Static⦄ ⦃x : Run Value⦄, RunsAs natives env code t x → Quiet x →
    Yields x (fun v => v.isInteger = true) →
      ∃ t' y, RunsAs natives env (make code) t' y ∧ Quiet y ∧
        Yields y (fun v => v.isInteger = true) ∧
        ∀ ⦃w r u⦄, y.runIn w = (.ok r, u) → ∃ v, x.runIn w = (.ok v, u) ∧
          wrap64 r.operand.longOrZero = wrap64 (g v.operand.longOrZero)

/-- The value itself is an amount. -/
theorem amount_value : Amount natives env (fun value => value) fun v => v :=
  fun _ t x h hq hy => ⟨t, x, h, hq, hy, fun _ _ _ hrun => ⟨_, hrun, rfl⟩⟩

/-- Minus one times an amount is its opposite. -/
theorem Amount.negate {make : Term → Term} {g : Int → Int} (h : Amount natives env make g) :
    Amount natives env (fun value => negate (make value)) fun v => -g v := by
  intro code t x hcode hq hy
  obtain ⟨t', y, hmake, hqy, hyy, hrun⟩ := h hcode hq hy
  have hone : Yields (pure (.scalar (.int .int (wrap64 (-1)))) : Run Value) fun v =>
      v.isInteger = true := Yields.pure rfl
  refine ⟨_, _, infix_runsAs .mul (by decide) (by intro z hz; cases hz) (RunsAs.int (-1))
    hmake, quiet_mul (Quiet.pure _) hqy, fun w r u hr => ?_, fun w r u hr => ?_⟩
  · obtain ⟨a, b, v, -, -, rfl⟩ := operation_mul_ok hone hyy hr
    rfl
  · obtain ⟨a, b, v, ha, hb, rfl⟩ := operation_mul_ok hone hyy hr
    simp only [Run.runIn_pure, Prod.mk.injEq, Except.ok.injEq] at ha
    obtain ⟨rfl, rfl⟩ := ha
    obtain ⟨v, hv, heq⟩ := hrun hb
    refine ⟨v, hv, ?_⟩
    -- minus one was wrapped before the product, which does not show modulo `2 ^ 64`
    have hproduct : wrap64 (long (intResult
        (long (.scalar (.int .int (wrap64 (-1)))) * long b))) = wrap64 (-long b) := by
      simp only [intResult, long_int, Number.wrap64_wrap64, Number.wrap64_mul_left, neg_one_mul]
    rw [hproduct, ← Number.wrap64_neg, heq, Number.wrap64_neg]

/-- The negative part of a value. -/
theorem amount_negativePart (hmin : natives.lookup "Math.min" = none) {n : Numeric}
    (hn : n.isIntegral = true) :
    Amount natives env (negativePart (.scalar n)) fun v => min 0 v := by
  intro code t x hcode hq hy
  have hzero : RunsAs natives env (zero (.scalar n)) .int (pure (.scalar (.int .int 0))) := by
    refine RunsAs.literal fun l hl => ?_
    cases n <;> cases hn <;>
    · obtain rfl := Except.ok.inj hl
      exact ⟨rfl, rfl⟩
  -- the code is a call of the function for the smaller of zero and the value
  have hcall := RunsAs.call "Math.min" (hzero.cons (.single hcode))
  have hstep : ∀ a : Value, a.isInteger = true →
      static natives "Math.min" [.scalar (.int .int 0), a] = pure (.long (min 0 (long a))) := by
    intro a ha
    obtain ⟨k, m, rfl⟩ := integer_cases ha
    simp only [static, hmin, extremum, Value.isInteger, Bool.and_self, if_true]
    have hleast : (if (decide (0 < wrap64 m)) == true then 0 else wrap64 m) = min 0 (wrap64 m) := by
      rcases lt_or_ge 0 (wrap64 m) with h | h
      · simp [h, h.le]
      · simp [not_lt.2 h, h]
    show (pure (.long (if (decide (0 < wrap64 m)) == true then 0 else wrap64 m)) : Run Value) = _
    rw [hleast, long_int]
  -- reading the two arguments and calling is applying the minimum to the value
  have heq : (do
      let vs ← (do
        let v ← (pure (.scalar (.int .int 0)) : Run Value)
        let vs ← (do
          let v ← x
          pure [v])
        pure (v :: vs))
      if "Math.min" = "" then staticOf natives vs else static natives "Math.min" vs) =
      (fun a => Value.long (min 0 (long a))) <$> x := by
    simp only [pure_bind, bind_assoc, String.reduceEq, if_false, map_eq_pure_bind]
    exact hy.bind_congr fun a ha => hstep a ha
  rw [heq] at hcall
  refine ⟨_, _, hcall, hq.map, Yields.of_map fun _ => rfl, fun w r u hr => ?_⟩
  obtain ⟨v, hv, rfl⟩ := Run.runIn_map_ok_iff.1 hr
  exact ⟨v, hv, by simp⟩

theorem bump_congr {m : Memory} {i : Nat} {a b : Int} (h : wrap64 a = wrap64 b) :
    m.bump i a = m.bump i b := by
  rw [Memory.bump, Memory.bump, Number.wrap64_add_congr _ h]

variable {id : Nat} {layout : Layout} {n : Numeric}

/-- Adding an amount of a value to the first field. -/
theorem add_amount (hb : Holds env agg id) (hlayout : (layout.getD 0 (.other "")).isIntegral = true)
    {make : Term → Term} {g : Int → Int} (hmake : Amount natives env make g) {code : Term}
    {t : Static} {x : Run Value} (hcode : RunsAs natives env code t x) (hq : Quiet x)
    (hy : Yields x fun v => v.isInteger = true) {w w' : World} {f : Flow}
    (h : (execStmt natives env (agg.add 0 (make code) (.scalar n))).runIn w = (.ok f, w')) :
    f = .next env ∧ ∃ v u, x.runIn w = (.ok v, u) ∧
      Changes layout id (fun v m => m.bump 0 (g v)) v w.buffers w'.buffers := by
  obtain ⟨t', y, hterm, hqy, -, hrun⟩ := hmake hcode hq hy
  obtain ⟨hf, hrange, r, u, hr, heffect⟩ := add_ok (i := 0) hb (by omega) hterm hqy h
  obtain ⟨v, hv, heq⟩ := hrun hr
  refine ⟨hf, v, u, hv, hrange, fun hlay => ?_⟩
  -- the field is integral in the buffer because it is so in the layout
  have hint : ((w.buffer id).typeAt 0).isIntegral = true := by
    rw [Memory.typeAt, buffer_eq, hlay]
    exact hlayout
  rw [(heffect hint).buffers, setBuffer_buffers, run_buffers hqy hr, buffer_eq, bump_congr heq]

/-- A template that adds an amount. -/
theorem consumes_add (hb : Holds env agg id)
    (hlayout : (layout.getD 0 (.other "")).isIntegral = true) {make : Term → Term} {g : Int → Int}
    (hmake : Amount natives env make g) :
    Consumes natives env (fun value => [agg.add 0 (make value) (.scalar n)])
      (Changes layout id fun v m => m.bump 0 (g v)) := by
  intro code t x hcode hq hy w w' f h
  obtain ⟨e, u, hs, hrest⟩ := exec_cons_ok h
  obtain ⟨rfl, hv⟩ := add_amount hb hlayout hmake hcode hq hy hs
  obtain ⟨-, rfl⟩ := exec_nil_ok hrest
  exact hv

/-- Counting a row in the second field. -/
theorem count_ok (hb : Holds env agg id) (hlayout : (layout.getD 1 (.other "")).isIntegral = true)
    {c : Int} {w w' : World} {f : Flow}
    (h : (execStmt natives env (count c)).runIn w = (.ok f, w'))
    (hlay : (bufferAt w.buffers id).layout = layout) :
    f = .next env ∧ w'.buffers = w.buffers.set id ((bufferAt w.buffers id).bump 1 c) := by
  obtain ⟨hf, -, r, u, hr, heffect⟩ :=
    add_ok (i := 1) hb le_rfl (RunsAs.int c) (Quiet.pure _) h
  simp only [Run.runIn_pure, Prod.mk.injEq, Except.ok.injEq] at hr
  obtain ⟨rfl, rfl⟩ := hr
  have hint : ((w.buffer id).typeAt 1).isIntegral = true := by
    rw [Memory.typeAt, buffer_eq, hlay]
    exact hlayout
  refine ⟨hf, ?_⟩
  rw [(heffect hint).buffers, setBuffer_buffers, buffer_eq,
    bump_congr (a := long (.scalar (.int .int (wrap64 c)))) (b := c) (by simp)]

/-- A template that adds an amount and counts. -/
theorem consumes_addCount (hb : Holds env agg id)
    (hlayout : (layout.getD 0 (.other "")).isIntegral = true)
    (hcount : (layout.getD 1 (.other "")).isIntegral = true) {make : Term → Term} {g : Int → Int}
    (hmake : Amount natives env make g) (c : Int) :
    Consumes natives env (fun value => [agg.add 0 (make value) (.scalar n), count c])
      (Changes layout id fun v m => (m.bump 0 (g v)).bump 1 c) := by
  intro code t x hcode hq hy w w' f h
  obtain ⟨e, u, hs, hrest⟩ := exec_cons_ok h
  obtain ⟨rfl, v, u', hv, hrange, hchange⟩ := add_amount hb hlayout hmake hcode hq hy hs
  obtain ⟨e, u₂, hs₂, hrest⟩ := exec_cons_ok hrest
  refine ⟨v, u', hv, hrange, fun hlay => ?_⟩
  have hu := hchange hlay
  have hself := bufferAt_set_self (lt_of_layout hrange)
    ((bufferAt w.buffers id).bump 0 (g (long v)))
  obtain ⟨rfl, hu₂⟩ := count_ok hb hcount hs₂ (by rw [hu, hself]; exact hlay)
  obtain ⟨-, rfl⟩ := exec_nil_ok hrest
  -- both changes are of one buffer
  rw [hu₂, hu, hself, List.set_set]

/-- A template that adds an amount of the square of a value. -/
theorem consumes_addSquare (hb : Holds env agg id) (hn : n.isIntegral = true)
    (hlayout : (layout.getD 0 (.other "")).isIntegral = true) {make : Term → Term} {g : Int → Int}
    (hmake : ∀ env, Amount natives env make g) (hg : ∀ a, wrap64 (g (wrap64 a)) = wrap64 (g a)) :
    Consumes natives env
      (fun value => [declareValue (.scalar n) value, agg.add 0 (make (square valueVar)) (.scalar n)])
      (Changes layout id fun v m => m.bump 0 (g (v * v))) := by
  intro code t x hcode hq hy w w' f h
  obtain ⟨v, u, w₁, hv, hbuffers, hrest⟩ := declare_ok hn hcode hq hy h
  -- the value is computed once; the square is a product of the variable with itself
  have hvar : RunsAs natives ((valueName, .long (long v)) :: env) (.ident valueName) .any _ :=
    variable_runsAs (by decide) _
  have hsquare : RunsAs natives ((valueName, .long (long v)) :: env) (square valueVar) _ _ :=
    infix_runsAs .mul (by decide) (by intro z hz; cases hz) hvar hvar
  have hint : Yields (pure (.long (long v)) : Run Value) fun v => v.isInteger = true :=
    Yields.pure rfl
  have hyields : Yields (operation .mul .any .any (pure (.long (long v))) (pure (.long (long v))))
      fun v => v.isInteger = true := by
    intro w r u hr
    obtain ⟨a, b, u, -, -, rfl⟩ := operation_mul_ok hint hint hr
    rfl
  obtain ⟨e, w₂, hs, hrest⟩ := exec_cons_ok hrest
  obtain ⟨rfl, r, u₂, hr, hrange, hchange⟩ := add_amount (hb.cons (by decide) _) hlayout (hmake _) hsquare
    (quiet_mul (Quiet.pure _) (Quiet.pure _)) hyields hs
  obtain ⟨-, rfl⟩ := exec_nil_ok hrest
  obtain ⟨a, b, u₃, ha, hb', rfl⟩ := operation_mul_ok hint hint hr
  simp only [Run.runIn_pure, Prod.mk.injEq, Except.ok.injEq] at ha hb'
  obtain ⟨rfl, rfl⟩ := ha
  obtain ⟨rfl, -⟩ := hb'
  -- declaring the variable has changed no buffer
  rw [hbuffers] at hrange hchange
  refine ⟨v, u, hv, hrange, fun hlay => ?_⟩
  rw [hchange hlay]
  congr 1
  apply bump_congr
  simp only [intResult, long_int, Number.wrap64_wrap64, Number.wrap64_mul_left,
    Number.wrap64_mul_right, hg]

/-! ## Merging -/

/-- Adding a field of the source to the same field of the target. -/
theorem mergeAdd_ok {source target : BufferRef} {src tgt i : Nat} (hs : Holds env source src)
    (ht : Holds env target tgt) (hi : i ≤ 1) (hn : n.isIntegral = true) {w w' : World} {f : Flow}
    (h : (execStmt natives env (target.add i (source.read i (.scalar n)) (.scalar n))).runIn w =
      (.ok f, w')) :
    f = .next env ∧ i < (bufferAt w.buffers src).layout.length ∧
      i < (bufferAt w.buffers tgt).layout.length ∧
      (((bufferAt w.buffers tgt).typeAt i).isIntegral = true →
        w'.buffers = w.buffers.set tgt
          ((bufferAt w.buffers tgt).bump i ((bufferAt w.buffers src).intAt i))) := by
  have hq : Quiet (bufferMethod src ("read" ++ n.suffix) [fieldValue i]) :=
    quiet_bufferRead (by cases n <;> cases hn <;> simp [Numeric.suffix]) _
  obtain ⟨hf, htgt, v, u, hv, heffect⟩ := add_ok ht hi (hs.read i n) hq h
  have hsrc := bufferMethod_range hi hv
  obtain ⟨rfl, rfl⟩ := bufferMethod_read_ok hi hn hv
  refine ⟨hf, hsrc, htgt, fun hint => ?_⟩
  rw [(heffect hint).buffers, setBuffer_buffers, buffer_eq, buffer_eq]
  exact congrArg _ (bump_congr (by simp))

/-! ## The additive kinds -/

/-- The kinds that add an amount for every row. -/
inductive Additive where
  | sum
  | mean
  | squareSum
  | short
  deriving DecidableEq

namespace Additive

/-- The kind itself. -/
def visitor : Additive → Visitor
  | .sum => Kind.sum
  | .mean => Kind.mean
  | .squareSum => Kind.squareSum
  | .short => Kind.short

/-- What a value adds to the first field. -/
def amount : Additive → Int → Int
  | .sum, v | .mean, v => v
  | .squareSum, v => v * v
  | .short, v => min 0 v

/-- The kind counts rows in a second field. -/
def counts : Additive → Bool
  | .mean => true
  | _ => false

/-- The fields of the kind's buffers, for numbers. -/
def fieldTypes (k : Additive) (n : Numeric) : Layout :=
  if k.counts then [.scalar n, .int] else [.scalar n]

/-- Adds an amount to the first field, and a number of rows to the second where rows are counted. -/
def change (k : Additive) (amount rows : Int) (m : Memory) : Memory :=
  if k.counts then (m.bump 0 amount).bump 1 rows else m.bump 0 amount

theorem fieldTypes_ok {k : Additive} {l : Layout} (h : k.visitor.layout (.scalar n) = .ok l) :
    l = k.fieldTypes n := by
  cases k <;> exact (Except.ok.inj h).symm

/-- Adds the source's count, where there is one. -/
def merging (k : Additive) : List Stmt := if k.counts then [Kind.mergeCount] else []

/-- The value first, and behind it the number of rows, where they are counted. -/
theorem layout_ok {k : Additive} {t : DataType} {l : Layout} (h : k.visitor.layout t = .ok l) :
    l = t :: if k.counts then [.int] else [] := by
  cases k with
  | sum => exact (Except.ok.inj (onNumeric_ok h).1).symm
  | mean => exact (Except.ok.inj (onNumeric_ok h).1).symm
  | squareSum => exact (Except.ok.inj (onScalar_ok h).1).symm
  | short => exact (Except.ok.inj (onNumeric_ok h).1).symm

/-- A merge adds numbers or changes vectors, and then adds the counts. -/
theorem merge_cases {k : Additive} {t : DataType} {body : List Stmt}
    (h : k.visitor.merge t = .ok body) :
    (∃ n, t = .scalar n ∧ body = Kind.target.add 0 (Kind.source.read 0 t) t :: k.merging) ∨
      ∃ n method, t = .array n ∧ method ∈ ["plus", "plusNegativeValues"] ∧
        body = Kind.mergeVector method k.merging := by
  cases k with
  | sum | mean | short =>
    cases t with
    | scalar n => exact .inl ⟨n, rfl, (Except.ok.inj h).symm⟩
    | array n => exact .inr ⟨n, _, rfl, by decide, (Except.ok.inj h).symm⟩
    | _ => cases h
  | squareSum =>
    obtain ⟨h, ht⟩ := onScalar_ok h
    cases t with
    | scalar n => exact .inl ⟨n, rfl, (Except.ok.inj h).symm⟩
    | _ => cases ht

theorem fieldTypes_first {k : Additive} (hn : n.isIntegral = true) :
    ((k.fieldTypes n).getD 0 (.other "")).isIntegral = true := by
  cases k <;> exact hn

variable {s : Site} {fields : List Value} {node : Node} {e : Element}

/-- **Taking a row in** adds the amount of its value and counts the row, or does nothing where the
row has no value. -/
theorem contribute_ok {k : Additive} (hk : k = .short → natives.lookup "Math.min" = none)
    (hs : s.Binds env fields) (hb : Holds env agg id) (he : Lowers s node e)
    (ht : (node.type s.typing).isIntegral = true)
    (hf : Node.CallsIntegers natives node.callees) (hn : e.type = .scalar n)
    {body : List Stmt} (hbody : k.visitor.contribute e = .ok body) {w w' : World} {f : Flow}
    (h : (exec natives env body).runIn w = (.ok f, w')) :
    ∃ o u, (node.outcome (s.meaning natives fields)).runIn w = (.ok o, u) ∧
      effectOf (Changes (k.fieldTypes n) id fun v m => k.change (k.amount v) 1 m) o w.buffers
        w'.buffers := by
  have hint : n.isIntegral = true := by
    rw [← he.type_eq, hn] at ht
    exact ht
  have hfirst : ((k.fieldTypes n).getD 0 (.other "")).isIntegral = true := fieldTypes_first hint
  cases k with
  | sum =>
    simp only [visitor, Kind.sum, Kind.onNumeric, hn, DataType.isNumeric, Bool.true_or, if_true] at hbody
    exact render_ok hs (consumes_add hb hfirst amount_value) he ht hf hbody h
  | mean =>
    simp only [visitor, Kind.mean, Kind.onNumeric, hn, DataType.isNumeric, Bool.true_or, if_true] at hbody
    exact render_ok hs (consumes_addCount hb hfirst rfl amount_value 1) he ht hf hbody h
  | squareSum =>
    simp only [visitor, Kind.squareSum, Kind.onScalar, hn, DataType.isNumeric, if_true] at hbody
    exact render_ok hs (consumes_addSquare hb hint hfirst (fun _ => amount_value) (by simp)) he ht hf
      hbody h
  | short =>
    simp only [visitor, Kind.short, Kind.onNumeric, hn, DataType.isNumeric, Bool.true_or, if_true] at hbody
    exact render_ok hs (consumes_add hb hfirst (amount_negativePart (hk rfl) hint)) he ht hf hbody h

/-- **Taking a row out** takes back what taking it in adds. -/
theorem decontribute_ok {k : Additive} (hk : k = .short → natives.lookup "Math.min" = none)
    (hs : s.Binds env fields) (hb : Holds env agg id) (he : Lowers s node e)
    (ht : (node.type s.typing).isIntegral = true)
    (hf : Node.CallsIntegers natives node.callees) (hn : e.type = .scalar n)
    {body : List Stmt} (hbody : k.visitor.decontribute e = .ok (some body)) {w w' : World} {f : Flow}
    (h : (exec natives env body).runIn w = (.ok f, w')) :
    ∃ o u, (node.outcome (s.meaning natives fields)).runIn w = (.ok o, u) ∧
      effectOf (Changes (k.fieldTypes n) id fun v m => k.change (-k.amount v) (-1) m) o w.buffers
        w'.buffers := by
  have hint : n.isIntegral = true := by
    rw [← he.type_eq, hn] at ht
    exact ht
  have hfirst : ((k.fieldTypes n).getD 0 (.other "")).isIntegral = true := fieldTypes_first hint
  cases k with
  | sum =>
    simp only [visitor, Kind.sum, Kind.onNumeric, hn, DataType.isNumeric, Bool.true_or,
      if_true] at hbody
    exact render_ok hs (consumes_add hb hfirst amount_value.negate) he ht hf (some_ok hbody) h
  | mean =>
    simp only [visitor, Kind.mean, Kind.onNumeric, hn, DataType.isNumeric, Bool.true_or,
      if_true] at hbody
    exact render_ok hs (consumes_addCount hb hfirst rfl amount_value.negate (-1)) he ht hf
      (some_ok hbody) h
  | squareSum =>
    simp only [visitor, Kind.squareSum, Kind.onScalar, hn, DataType.isNumeric, if_true] at hbody
    exact render_ok hs (consumes_addSquare hb hint hfirst (fun _ => amount_value.negate) (by simp))
      he ht hf (some_ok hbody) h
  | short =>
    simp only [visitor, Kind.short, Kind.onNumeric, hn, DataType.isNumeric, Bool.true_or,
      if_true] at hbody
    exact render_ok hs (consumes_add hb hfirst (amount_negativePart (hk rfl) hint).negate) he ht hf
      (some_ok hbody) h

/-- **Merging** adds the fields of the source to those of the target. -/
theorem merge_ok {k : Additive} {src tgt : Nat} (hs : Holds env Kind.source src)
    (ht : Holds env Kind.target tgt) (hn : n.isIntegral = true) {body : List Stmt}
    (hbody : k.visitor.merge (.scalar n) = .ok body) {w w' : World} {f : Flow}
    (h : (exec natives env body).runIn w = (.ok f, w')) :
    0 < (bufferAt w.buffers src).layout.length ∧ 0 < (bufferAt w.buffers tgt).layout.length ∧
      ((bufferAt w.buffers tgt).layout = k.fieldTypes n → src ≠ tgt →
        w'.buffers = w.buffers.set tgt (k.change ((bufferAt w.buffers src).intAt 0)
          ((bufferAt w.buffers src).intAt 1) (bufferAt w.buffers tgt))) := by
  -- all four kinds begin by adding the first field
  obtain ⟨_, -, rfl⟩ | ⟨_, _, ht, -⟩ := merge_cases hbody
  swap
  · cases ht
  obtain ⟨g, u, hadd, hexec⟩ := exec_cons_ok h
  obtain ⟨rfl, hsrc, htgt, heffect⟩ := mergeAdd_ok (i := 0) hs ht (by omega) hn hadd
  refine ⟨hsrc, htgt, fun hlay hne => ?_⟩
  have hu := heffect (by rw [Memory.typeAt, hlay]; exact fieldTypes_first hn)
  unfold change
  by_cases hc : k.counts = true
  · simp only [merging, hc, if_true] at hexec ⊢
    obtain ⟨g, u₂, hcount, hexec⟩ := exec_cons_ok hexec
    obtain ⟨rfl, -, -, heffect₂⟩ := mergeAdd_ok (i := 1) (n := .int) hs ht le_rfl rfl hcount
    obtain ⟨-, rfl⟩ := exec_nil_ok hexec
    -- the second field of the source is read after the first one of the target has changed
    have hself := bufferAt_set_self (lt_of_layout htgt)
      ((bufferAt w.buffers tgt).bump 0 ((bufferAt w.buffers src).intAt 0))
    have hother : bufferAt (w.buffers.set tgt _) src = bufferAt w.buffers src :=
      bufferAt_set_ne hne.symm ((bufferAt w.buffers tgt).bump 0 ((bufferAt w.buffers src).intAt 0))
    have htype : (bufferAt u.buffers tgt).typeAt 1 = .int := by
      rw [hu, hself, Memory.typeAt, Memory.bump, Memory.setAt, hlay, fieldTypes, if_pos hc]
      rfl
    rw [heffect₂ (by rw [htype]; rfl), hu, hself, hother, List.set_set]
  · simp only [merging, hc, if_false, Bool.false_eq_true] at hexec ⊢
    obtain ⟨-, rfl⟩ := exec_nil_ok hexec
    exact hu

/-! ## Runs of the additive kinds -/

/-- What the values of an account add up to. -/
def total (k : Additive) (a : Account) : Int :=
  (a.taken.map k.amount).sum - (a.returned.map k.amount).sum

/-- A buffer agrees with an account: its fields hold the total and the number of rows, wrapped at 64
bits. -/
structure Balanced (k : Additive) (n : Numeric) (m : Memory) (a : Account) : Prop where
  layout : m.layout = k.fieldTypes n
  fields : m.fields.length = m.layout.length
  total : m.intAt 0 = wrap64 (k.total a)
  rows : k.counts = true → m.intAt 1 = wrap64 a.rows

/-- A fresh buffer agrees with the empty account. -/
theorem Balanced.fresh (k : Additive) (n : Numeric) :
    Balanced k n (.unset (k.fieldTypes n)) {} := by
  refine ⟨rfl, by simp [Memory.unset], ?_, fun h => ?_⟩ <;> cases k <;> rfl

/-- A change of a buffer agrees with the same change of the account. -/
theorem Balanced.change {k : Additive} {m : Memory} {a b : Account} (h : Balanced k n m a) {c d : Int}
    (hc : wrap64 (k.total b) = wrap64 (k.total a + c))
    (hd : k.counts = true → wrap64 b.rows = wrap64 (a.rows + d)) :
    Balanced k n (k.change c d m) b := by
  have hlen : m.fields.length = (k.fieldTypes n).length := by rw [h.fields, h.layout]
  have h0 : 0 < m.fields.length := by
    rw [hlen]
    cases k <;> exact Nat.succ_pos _
  unfold Additive.change
  by_cases hk : k.counts = true
  · have h1 : 1 < m.fields.length := by
      rw [hlen, fieldTypes, if_pos hk]
      exact Nat.lt_succ_self 1
    rw [if_pos hk]
    refine ⟨by simp [h.layout], by simp [h.fields], ?_, fun _ => ?_⟩
    · -- the first field does not feel the count
      rw [intAt_bump_ne (by decide), intAt_bump_self h0, h.total, Number.wrap64_add_left, hc]
    · -- and the second field does not feel the amount
      rw [intAt_bump_self (by simpa using h1), intAt_bump_ne (by decide), h.rows hk,
        Number.wrap64_add_left, hd hk]
  · rw [if_neg hk]
    refine ⟨by simp [h.layout], by simp [h.fields], ?_, fun hk' => (hk hk').elim⟩
    rw [intAt_bump_self h0, h.total, Number.wrap64_add_left, hc]

theorem Balanced.take {k : Additive} {m : Memory} {a : Account} (h : Balanced k n m a) (v : Int) :
    Balanced k n (k.change (k.amount v) 1 m) (a.take (some v)) := by
  refine h.change (congrArg wrap64 ?_) fun _ => congrArg wrap64 ?_
  · simp [Additive.total, Account.take]
    ring
  · simp [Account.rows, Account.take]
    ring

theorem Balanced.giveBack {k : Additive} {m : Memory} {a : Account} (h : Balanced k n m a) (v : Int) :
    Balanced k n (k.change (-k.amount v) (-1) m) (a.giveBack (some v)) := by
  refine h.change (congrArg wrap64 ?_) fun _ => congrArg wrap64 ?_
  · simp [Additive.total, Account.giveBack]
    ring
  · simp [Account.rows, Account.giveBack]
    ring

theorem Balanced.join {k : Additive} {m m' : Memory} {a b : Account} (h : Balanced k n m a)
    (h' : Balanced k n m' b) : Balanced k n (k.change (m'.intAt 0) (m'.intAt 1) m) (a.join b) := by
  refine h.change ?_ fun hk => ?_
  · rw [h'.total, Number.wrap64_add_right]
    simp only [Additive.total, Account.join, Multiset.map_add, Multiset.sum_add]
    congr 1
    ring
  · rw [h'.rows hk, Number.wrap64_add_right]
    simp only [Account.rows, Account.join, Multiset.card_add, Nat.cast_add]
    congr 1
    ring

variable {g : Aggregation}

/-- **Every step keeps every buffer in agreement with its account.** -/
theorem step_balanced {k : Additive} (hg : Aggregates k.visitor n g)
    (hk : k = .short → g.natives.lookup "Math.min" = none) {w w' : World} {l : Ledger} {s : Step}
    (hs : s.Proper) (h : Each (Balanced k n) w.buffers l)
    (hrun : s.perform g.natives g.artifact w = (.ok (), w')) :
    Each (Balanced k n) w'.buffers
      (s.record (fun row => rowValue g.natives g.site g.node row w) l) := by
  obtain ⟨kind, config, columns, e, acc, hart, he, hn, hname⟩ := hg.element
  have hmade := artifact_ok hart
  have ht : (g.node.type g.site.typing).isIntegral = true := by
    rw [← he.type_eq, hn]
    exact hg.integral
  cases s with
  | contribute row id =>
    obtain ⟨f, hexec⟩ := rowRun_exec (hname ▸ hmade.contribute_params) hrun
    obtain ⟨o, u, ho, heffect⟩ := contribute_ok hk (rowEnv_binds hg.plain hg.distinct row id w)
      (rowEnv_holds _ row id w) he ht hg.calls hn hmade.contribute hexec
    rw [Step.record, rowValue_eq ho]
    exact h.row (fun a => by simp [Account.take]) (fun m a hm => hm.layout)
      (fun m a v hm _ => hm.take v) heffect
  | decontribute row id =>
    unfold Step.perform Machine.decontribute at hrun
    cases hr : g.artifact.decontribute with
    | none => simp [hr] at hrun
    | some r =>
      simp only [hr] at hrun
      have hdecontribute := hmade.decontribute
      rw [hr] at hdecontribute
      obtain ⟨f, hexec⟩ := rowRun_exec (hname ▸ hmade.decontribute_params r hr) hrun
      obtain ⟨o, u, ho, heffect⟩ := decontribute_ok hk
        (rowEnv_binds hg.plain hg.distinct row id w) (rowEnv_holds _ row id w) he ht hg.calls hn
        hdecontribute hexec
      rw [Step.record, rowValue_eq ho]
      exact h.row (fun a => by simp [Account.giveBack]) (fun m a hm => hm.layout)
        (fun m a v hm _ => hm.giveBack v) heffect
  | merge source target =>
    obtain ⟨f, hexec⟩ := mergeRun_exec hmade.merge_params hrun
    have hmerge := hmade.merge
    rw [hn] at hmerge
    obtain ⟨hsrc, htgt, heffect⟩ := merge_ok (mergeEnv_source source target)
      (mergeEnv_target source target) hg.integral hmerge hexec
    have htarget := (h target).1 (lt_of_layout htgt)
    have hsource := (h source).1 (lt_of_layout hsrc)
    rw [heffect htarget.layout hs]
    exact h.set (lt_of_layout htgt) (htarget.join hsource)

end Additive

variable {k : Additive} {env : DistillEnv} {kind : String} {node : Node} {ws ws' : Workspace}
  {a : Artifact}

/-- **The law of the additive kinds.** However rows are taken in and out and buffers are merged, the
first field of every buffer holds, wrapped at 64 bits, the amounts of the values that have reached the
buffer less those of the values taken out. Mean's second field counts these values. -/
theorem runs_additive (hkind : env.kinds.get kind = .ok k.visitor)
    (ha : (node.distill env kind).runIn ws = (.ok a, ws'))
    (hout : a.output = .int ∨ a.output = .scalar .long)
    (hcalls : Node.CallsIntegers natives node.callees)
    (hplain : env.config.filled.factParameter.toList.all isNameChar = true)
    (hdistinct : env.config.filled.factParameter ≠ BufferRef.aggregation.name)
    (hleast : k = .short → natives.lookup "Math.min" = none)
    {w₀ w : World} {l : Ledger} {steps : List Step} (hfresh : ∀ m ∈ w₀.buffers, m = .unset a.layout)
    (hproper : ∀ s ∈ steps, s.Proper)
    (hruns : Runs ⟨natives, a, distillSite env node ws'.cache, node⟩ w₀ (fun _ => {}) steps w l)
    (id : Nat) :
    (w.buffer id).intAt 0 = wrap64 (k.total (l id)) ∧
      (k = .mean → (w.buffer id).intAt 1 = wrap64 (l id).rows) := by
  obtain ⟨t, hg⟩ := Aggregates.of_distill hkind ha hout hcalls hplain hdistinct
  rw [Additive.fieldTypes_ok hg.layout] at hfresh
  have heach := hruns.invariant (Additive.step_balanced hg hleast) hproper
    (Each.start hfresh (Additive.Balanced.fresh k t))
  by_cases hid : id < w.buffers.length
  · have hbalanced := (heach id).1 hid
    exact ⟨hbalanced.total, fun hk => hbalanced.rows (by rw [hk]; rfl)⟩
  · -- there is no such buffer, and nothing has reached it
    have hge : w.buffers.length ≤ id := not_lt.1 hid
    rw [buffer_eq, bufferAt_of_le hge, (heach id).2 hge]
    exact ⟨by cases k <;> rfl, fun _ => rfl⟩

/-- Two rows are taken into two buffers, one is merged into the other, and the first row is taken out
again. -/
theorem runs_additive_mean :
    let env : DistillEnv := { schema := [("a", .int)] }
    let node : Node := .column ⟨"a", ""⟩
    let fresh : World := { buffers := [.unset [.int, .int], .unset [.int, .int]] }
    let steps : List Step :=
      [.contribute [.long 5] 0, .contribute [.long 7] 1, .merge 1 0, .decontribute [.long 5] 0]
    ∃ a ws w l, (node.distill env "mean").runIn {} = (.ok a, ws) ∧
      Runs ⟨[], a, distillSite env node ws.cache, node⟩ fresh (fun _ => {}) steps w l ∧
      Additive.mean.total (l 0) = 7 ∧ (w.buffer 0).intAt 0 = wrap64 (Additive.mean.total (l 0)) ∧
      (w.buffer 0).intAt 1 = wrap64 (l 0).rows := by
  intro env node fresh steps
  obtain ⟨a, ws, w, l, ha, hout, hlayout, hruns, htotal⟩ : ∃ a ws w l,
      (node.distill env "mean").runIn {} = (.ok a, ws) ∧ a.output = .int ∧ a.layout = [.int, .int] ∧
      Runs ⟨[], a, distillSite env node ws.cache, node⟩ fresh (fun _ => {}) steps w l ∧
      Additive.mean.total (l 0) = 7 := by
    refine ⟨_, _, _, _, rfl, rfl, rfl, .call ?_ (.call ?_ (.call ?_ (.call ?_ (.done _ _)))), ?_⟩
    all_goals decide +kernel
  have h := runs_additive (k := .mean) (by rfl) ha (.inl hout) (by intro f hf; cases hf)
    (by decide) (by decide) (by intro hk; cases hk) (by simp [fresh, hlayout])
    (by simp [steps, Step.Proper]) hruns 0
  exact ⟨a, ws, w, l, ha, hruns, htotal, h.1, h.2 rfl⟩

/-- Where the fact record is called what the buffer is called, the buffer hides it: the row has a
value, and nothing is added. -/
theorem sum_of_hidden_record :
    let env : DistillEnv :=
      { schema := [("a", .int)], config := { factParameter := "aggregationBuffer" } }
    let node : Node := .column ⟨"a", ""⟩
    let fresh : World := { buffers := [.unset [.int]] }
    ∃ a ws w l, (node.distill env "sum").runIn {} = (.ok a, ws) ∧
      Runs ⟨[], a, distillSite env node ws.cache, node⟩ fresh (fun _ => {})
        [.contribute [.long 5] 0] w l ∧
      Additive.sum.total (l 0) = 5 ∧ (w.buffer 0).intAt 0 = 0 := by
  intro env node fresh
  refine ⟨_, _, _, _, rfl, .call ?_ (.done _ _), ?_, ?_⟩
  all_goals decide +kernel

end FactFold.Fold
