import FactFold.Proofs.Kind.Runs

/-!
# What the combining kinds do to a buffer

Minimum, maximum and product keep one integer. An unset field is not neutral for them, since it would
read as zero: each template asks whether the field is set before it combines, and a merge asks whether
there is anything to combine. Contributing and merging end in the same statements (`foldInto`), which
fold the value of a term into the field of a buffer.
-/

namespace FactFold.Fold

open Machine Lowering
open Kind (agg declareValue valueVar either)
open Machine.Run (Quiet Yields)
open Number (wrap64)

variable {natives : Natives} {env : Env} {id : Nat} {n : Numeric}

/-- The kinds that combine the values of rows into one. -/
inductive Combining where
  | min
  | max
  | product
  deriving DecidableEq

namespace Combining

/-- The kind itself. -/
def visitor : Combining → Visitor
  | .min => Kind.min
  | .max => Kind.max
  | .product => Kind.multiply

/-- What a value that comes to `x` makes of it. -/
def combine : Combining → Int → Int → Int
  | .min, x, v => Min.min x v
  | .max, x, v => Max.max x v
  | .product, x, v => wrap64 (x * v)

/-- The field is written for a value that comes to `x`. -/
def replaces : Combining → Int → Int → Bool
  | .min, x, v => v < x
  | .max, x, v => x < v
  | .product, _, _ => true

/-- Folds a value into a buffer: it becomes the first value, or is combined with what is there. -/
def change (k : Combining) (v : Int) (m : Memory) : Memory :=
  if (m.valueAt 0).isNull then m.setAt 0 (.long v)
  else if k.replaces (m.intAt 0) v then m.setAt 0 (.long (k.combine (m.intAt 0) v))
  else m

theorem combine_of_not_replaces {k : Combining} {x v : Int} (h : k.replaces x v = false) :
    k.combine x v = x := by
  cases k with
  | min => simpa [replaces, combine] using h
  | max => simpa [replaces, combine] using h
  | product => cases h

/-- The statements that fold the value of a term into the first field of a buffer. -/
def foldInto (k : Combining) (b : BufferRef) (t : DataType) (value : Term) : List Stmt :=
  match k with
  | .min => [.cond (either (b.isNull 0) (.binary "<" value (b.read 0 t))) [b.write 0 value] []]
  | .max => [.cond (either (b.isNull 0) (.binary ">" value (b.read 0 t))) [b.write 0 value] []]
  | .product => [.cond (b.isNull 0) [b.write 0 value] [b.write 0 (.binary "*" (b.read 0 t) value)]]

end Combining

/-! ## Folding a value into a buffer -/

/-- A quiet step that yields an integer which depends on the buffers alone. -/
structure Reads (x : Run Value) (z : List Memory → Int) : Prop where
  quiet : Quiet x
  isInteger : Yields x fun v => v.isInteger = true
  value : ∀ ⦃w r u⦄, x.runIn w = (.ok r, u) → long r = z w.buffers

theorem Reads.pure {v : Value} (h : v.isInteger = true) : Reads (pure v) fun _ => long v := by
  refine ⟨Quiet.pure _, Yields.pure h, fun w r u hr => ?_⟩
  simp only [Run.runIn_pure, Prod.mk.injEq, Except.ok.injEq] at hr
  rw [hr.1]

theorem Reads.field (hn : n.isIntegral = true) :
    Reads (bufferMethod id ("read" ++ n.suffix) [fieldValue 0])
      fun buffers => (bufferAt buffers id).intAt 0 := by
  refine ⟨quiet_bufferRead (by cases n <;> cases hn <;> simp [Numeric.suffix]) _, ?_, ?_⟩
  · intro w r u hr
    -- a field that is unset reads as zero, which is an integer too
    rw [(bufferMethod_read_ok (by omega) hn hr).1]
    rfl
  · intro w r u hr
    rw [(bufferMethod_read_ok (by omega) hn hr).1]
    exact Number.wrap64_longOrZero _

theorem notNull_of_isInteger {v : Value} (h : v.isInteger = true) : v.isNull = false := by
  obtain ⟨k, m, rfl⟩ := integer_cases h
  rfl

variable {b : BufferRef}

/-- Writing an integer that depends on the buffers alone. -/
theorem write_reads (hb : Holds env b id) (layout : Layout)
    (hlayout : (layout.getD 0 (.other "")).isIntegral = true) {value : Term} {t : Static}
    {x : Run Value} {z : List Memory → Int} (hvalue : RunsAs natives env value t x)
    (hx : Reads x z) {w w' : World} {f : Flow}
    (h : (exec natives env [b.write 0 value]).runIn w = (.ok f, w')) :
    0 < (bufferAt w.buffers id).layout.length ∧
      ((bufferAt w.buffers id).layout = layout →
        w'.buffers = w.buffers.set id
          ((bufferAt w.buffers id).setAt 0 (.long (z w.buffers)))) := by
  obtain ⟨g, u, hs, hrest⟩ := exec_cons_ok h
  obtain ⟨rfl, hrange, r, u', hr, heffect⟩ := write_ok (i := 0) hb (by omega) hvalue hx.quiet
    (hx.isInteger.mono fun _ => notNull_of_isInteger) hs
  obtain ⟨-, rfl⟩ := exec_nil_ok hrest
  refine ⟨hrange, fun hlay => ?_⟩
  have hint : ((w.buffer id).typeAt 0).isIntegral = true := by
    rw [Memory.typeAt, buffer_eq, hlay]
    exact hlayout
  rw [(heffect hint).buffers, setBuffer_buffers, run_buffers hx.quiet hr, buffer_eq, ← hx.value hr]

/-- Whether a field is unset, as a condition. -/
theorem isNull_ok (hb : Holds env b id) {v : Value} {c : Bool} {w u : World}
    (heval : (evaluate natives env (b.isNull 0)).runIn w = (.ok v, u))
    (hc : v.operand.toBool = .ok c) :
    0 < (bufferAt w.buffers id).layout.length ∧
      c = ((bufferAt w.buffers id).valueAt 0).isNull ∧ u.buffers = w.buffers := by
  obtain ⟨u', hu', -, hbuffers⟩ := evaluate_quiet (hb.isNull 0) (quiet_bufferRead (.inl rfl) _) heval
  have hrange := bufferMethod_range (i := 0) (by omega) hu'
  obtain ⟨rfl, -⟩ := bufferMethod_isNull_ok (by omega) hu'
  exact ⟨hrange, (Except.ok.inj hc).symm, hbuffers⟩

/-- Whether a field is set, as a condition. -/
theorem isSet_ok (hb : Holds env b id) {v : Value} {c : Bool} {w u : World}
    (heval : (evaluate natives env (b.isSet 0)).runIn w = (.ok v, u))
    (hc : v.operand.toBool = .ok c) :
    0 < (bufferAt w.buffers id).layout.length ∧
      c = !((bufferAt w.buffers id).valueAt 0).isNull ∧ u.buffers = w.buffers := by
  have hq : Quiet (bufferMethod id "isNull" [fieldValue 0]) := quiet_bufferRead (.inl rfl) _
  obtain ⟨u', hu', -, hbuffers⟩ := evaluate_quiet (hb.isNull 0).not
    (hq.bind fun _ => Quiet.lift _) heval
  obtain ⟨r, u₁, hr, hnot⟩ := Run.runIn_bind_ok_iff.1 hu'
  have hrange := bufferMethod_range (i := 0) (by omega) hr
  obtain ⟨rfl, -⟩ := bufferMethod_isNull_ok (by omega) hr
  simp only [Run.runIn_lift, Prod.mk.injEq] at hnot
  obtain rfl := Except.ok.inj hnot.1
  exact ⟨hrange, (Except.ok.inj hc).symm, hbuffers⟩

/-- Whether a field is unset or a value compares to the field, as a condition. -/
theorem either_ok (hb : Holds env b id) (hn : n.isIntegral = true) {sign : String} {op : BinaryOp}
    (hsign : BinaryOp.ofText? sign = some op) (hop : op = .lt ∨ op = .gt) (hdiv : sign ≠ "/")
    {p : Int → Int → Bool} (hp : ∀ w x y, x.isInteger = true → y.isInteger = true →
      operate op .any .any w x y = .ok (.bool (p (long x) (long y))))
    {value : Term} {x : Run Value} {z : List Memory → Int} (hvalue : RunsAs natives env value .any x)
    (hx : Reads x z) {v : Value} {c : Bool} {w u : World}
    (heval : (evaluate natives env
      (either (b.isNull 0) (.binary sign value (b.read 0 (.scalar n))))).runIn w = (.ok v, u))
    (hc : v.operand.toBool = .ok c) :
    0 < (bufferAt w.buffers id).layout.length ∧
      c = (((bufferAt w.buffers id).valueAt 0).isNull ||
        p (z w.buffers) ((bufferAt w.buffers id).intAt 0)) ∧ u.buffers = w.buffers := by
  have hnull : Quiet (bufferMethod id "isNull" [fieldValue 0]) := quiet_bufferRead (.inl rfl) _
  have hread : Reads (bufferMethod id ("read" ++ n.suffix) [fieldValue 0]) _ := Reads.field hn
  have hoperation : Quiet (operation op .any .any x (bufferMethod id ("read" ++ n.suffix)
      [fieldValue 0])) := by
    refine hx.quiet.bind fun r => hread.quiet.bind fun q => ?_
    rcases hop with rfl | rfl
    · exact quiet_binary .lt r.opened q.opened
    · exact quiet_binary .gt r.opened q.opened
  obtain ⟨u', hu', -, hbuffers⟩ := evaluate_quiet
    (RunsAs.either hsign hop hdiv (hb.isNull 0) hvalue (hb.read 0 n))
    (hnull.bind fun r => (Quiet.lift _).bind fun c => by
      cases c
      · exact hoperation
      · exact Quiet.pure _) heval
  obtain ⟨r, u₁, hr, hrest⟩ := Run.runIn_bind_ok_iff.1 hu'
  refine ⟨bufferMethod_range (by omega) hr, ?_, hbuffers⟩
  obtain ⟨rfl, hu₁⟩ := bufferMethod_isNull_ok (by omega) hr
  rw [hu₁, buffer_eq] at hrest
  -- an unset field settles the disjunction, and the comparison is not made
  cases hunset : ((bufferAt w.buffers id).valueAt 0).isNull with
  | true =>
    rw [hunset] at hrest
    obtain ⟨hv, -⟩ := Prod.mk.inj hrest
    rw [← Except.ok.inj hv] at hc
    exact (Except.ok.inj hc).symm
  | false =>
    rw [hunset] at hrest
    -- the field is set, so the disjunction is the comparison of its value
    have horder : (operation op .any .any x (bufferMethod id ("read" ++ n.suffix)
        [fieldValue 0])).runIn w = (.ok v, u') := hrest
    obtain ⟨r, u₂, hr, horder⟩ := Run.runIn_bind_ok_iff.1 horder
    obtain ⟨q, u₃, hq, horder⟩ := Run.runIn_bind_ok_iff.1 horder
    rw [Run.runIn_bind] at horder
    simp only [Run.runIn_get, hp _ _ _ (hx.isInteger _ _ _ hr) (hread.isInteger _ _ _ hq),
      Run.runIn_lift, Prod.mk.injEq, Except.ok.injEq] at horder
    rw [← horder.1, hx.value hr, hread.value hq, run_buffers hx.quiet hr] at hc
    rw [Bool.false_or, ← Except.ok.inj hc]

namespace Combining

variable {k : Combining} {value : Term} {x : Run Value} {z : List Memory → Int}

/-- An extremum keeps the value that compares to the other. -/
theorem keep_ok (hb : Holds env b id) (hn : n.isIntegral = true) {sign : String} {op : BinaryOp}
    (hsign : BinaryOp.ofText? sign = some op) (hop : op = .lt ∨ op = .gt) (hdiv : sign ≠ "/")
    (horder : ∀ w x y, x.isInteger = true → y.isInteger = true →
      operate op .any .any w x y = .ok (.bool (k.replaces (long y) (long x))))
    (hkeep : ∀ x v, k.replaces x v = true → k.combine x v = v)
    (hvalue : RunsAs natives env value .any x) (hx : Reads x z) {w w' : World} {f : Flow}
    (h : (exec natives env [.cond (either (b.isNull 0) (.binary sign value (b.read 0 (.scalar n))))
      [b.write 0 value] []]).runIn w = (.ok f, w')) :
    0 < (bufferAt w.buffers id).layout.length ∧
      ((bufferAt w.buffers id).layout = [.scalar n] → w'.buffers = w.buffers.set id
        (k.change (z w.buffers) (bufferAt w.buffers id))) := by
  obtain ⟨v, c, u, g, heval, hbool, hexec⟩ := exec_cond_ok h
  obtain ⟨hrange, hc, hu⟩ := either_ok (p := fun x y => k.replaces y x) hb hn hsign hop hdiv horder
    hvalue hx heval hbool
  refine ⟨hrange, fun hlay => ?_⟩
  unfold change
  -- the condition says whether the value is written
  cases c with
  | true =>
    obtain ⟨-, hwrite⟩ := write_reads hb [.scalar n] hn hvalue hx hexec
    rw [hu] at hwrite
    rw [hwrite hlay]
    split_ifs with hnull hreplaces
    · rfl
    · rw [hkeep _ _ hreplaces]
    · simp_all
  | false =>
    obtain ⟨-, rfl⟩ := exec_nil_ok hexec
    obtain ⟨hnull, hreplaces⟩ := Bool.or_eq_false_iff.1 hc.symm
    rw [hu, hnull, hreplaces]
    exact (set_bufferAt _ _).symm

/-- A product multiplies what is there by the value. -/
theorem multiply_ok (hb : Holds env b id) (hn : n.isIntegral = true)
    (hvalue : RunsAs natives env value .any x) (hx : Reads x z) {w w' : World} {f : Flow}
    (h : (exec natives env [.cond (b.isNull 0) [b.write 0 value]
      [b.write 0 (.binary "*" (b.read 0 (.scalar n)) value)]]).runIn w = (.ok f, w')) :
    0 < (bufferAt w.buffers id).layout.length ∧
      ((bufferAt w.buffers id).layout = [.scalar n] → w'.buffers = w.buffers.set id
        (product.change (z w.buffers) (bufferAt w.buffers id))) := by
  obtain ⟨v, c, u, g, heval, hbool, hexec⟩ := exec_cond_ok h
  obtain ⟨hrange, hc, hu⟩ := isNull_ok hb heval hbool
  refine ⟨hrange, fun hlay => ?_⟩
  unfold change
  cases c with
  | true =>
    obtain ⟨-, hwrite⟩ := write_reads hb [.scalar n] hn hvalue hx hexec
    rw [hu] at hwrite
    rw [hwrite hlay, ← hc]
    rfl
  | false =>
    have hread : Reads (bufferMethod id ("read" ++ n.suffix) [fieldValue 0]) _ := Reads.field hn
    -- the product reads the field and the value before anything is written
    have hproduct : Reads (operation .mul .any .any
        (bufferMethod id ("read" ++ n.suffix) [fieldValue 0]) x)
        fun buffers => wrap64 ((bufferAt buffers id).intAt 0 * z buffers) := by
      refine ⟨quiet_mul hread.quiet hx.quiet, fun w r u hr => ?_, fun w r u hr => ?_⟩
      · obtain ⟨p, q, u', hp, hq, rfl⟩ := operation_mul_ok hread.isInteger hx.isInteger hr
        rfl
      · obtain ⟨p, q, u', hp, hq, rfl⟩ := operation_mul_ok hread.isInteger hx.isInteger hr
        rw [hread.value hp, hx.value hq, run_buffers hread.quiet hp]
        exact Number.wrap64_wrap64 _
    obtain ⟨-, hwrite⟩ := write_reads hb [.scalar n] hn
      (infix_runsAs .mul (by decide) (by intro z hz; cases hz) (hb.read 0 n) hvalue)
      hproduct hexec
    rw [hu] at hwrite
    rw [hwrite hlay, ← hc]
    simp [replaces, combine]

/-- **Folding a value into a buffer** combines it with what is there. -/
theorem foldInto_ok (hb : Holds env b id) (hn : n.isIntegral = true)
    (hvalue : RunsAs natives env value .any x) (hx : Reads x z) {w w' : World} {f : Flow}
    (h : (exec natives env (k.foldInto b (.scalar n) value)).runIn w = (.ok f, w')) :
    0 < (bufferAt w.buffers id).layout.length ∧
      ((bufferAt w.buffers id).layout = [.scalar n] → w'.buffers = w.buffers.set id
        (k.change (z w.buffers) (bufferAt w.buffers id))) := by
  cases k with
  | min =>
    refine keep_ok (k := .min) hb hn (show BinaryOp.ofText? "<" = some .lt from rfl) (.inl rfl) (by decide)
      (fun w x y hx hy => ?_) (fun x v hv => ?_) hvalue hx h
    · obtain ⟨_, _, rfl⟩ := integer_cases hx
      obtain ⟨_, _, rfl⟩ := integer_cases hy
      rfl
    · exact min_eq_right (of_decide_eq_true hv).le
  | max =>
    refine keep_ok (k := .max) hb hn (show BinaryOp.ofText? ">" = some .gt from rfl) (.inr rfl) (by decide)
      (fun w x y hx hy => ?_) (fun x v hv => ?_) hvalue hx h
    · obtain ⟨_, _, rfl⟩ := integer_cases hx
      obtain ⟨_, _, rfl⟩ := integer_cases hy
      rfl
    · exact max_eq_right (of_decide_eq_true hv).le
  | product => exact multiply_ok hb hn hvalue hx h

/-! ## Routines of the combining kinds -/

variable {s : Site} {fields : List Value} {node : Node} {e : Element}

/-- **Taking a row in** folds its value into the buffer, or does nothing where the row has no
value. -/
theorem contribute_ok (hs : s.Binds env fields) (hb : Holds env agg id) (he : Lowers s node e)
    (ht : (node.type s.typing).isIntegral = true)
    (hf : Node.CallsIntegers natives node.callees) (hn : e.type = .scalar n)
    {body : List Stmt} (hbody : k.visitor.contribute e = .ok body) {w w' : World} {f : Flow}
    (h : (exec natives env body).runIn w = (.ok f, w')) :
    ∃ o u, (node.outcome (s.meaning natives fields)).runIn w = (.ok o, u) ∧
      effectOf (Changes [.scalar n] id k.change) o w.buffers w'.buffers := by
  have hint : n.isIntegral = true := by
    rw [← he.type_eq, hn] at ht
    exact ht
  -- all three kinds declare the value and fold the variable into the field
  have hrender : e.render (some fun value =>
      declareValue (.scalar n) value :: k.foldInto agg (.scalar n) valueVar) none = .ok body := by
    cases k with
    | min | max =>
      simp only [visitor, Kind.min, Kind.max, Kind.extremum, Kind.onScalar, hn, DataType.isNumeric,
        if_true] at hbody
      exact hbody
    | product =>
      simp only [visitor, Kind.multiply, Kind.onScalar, hn, DataType.isNumeric, if_true] at hbody
      exact hbody
  refine render_ok hs (fun code t x hcode hq hy w w' f h => ?_) he ht hf hrender h
  obtain ⟨v, u, w₁, hv, hbuffers, hrest⟩ := declare_ok hint hcode hq hy h
  have hfold := foldInto_ok (hb.cons (by decide) _) hint (variable_runsAs (by decide) _)
    (Reads.pure (v := .long (long v)) rfl) hrest
  rw [hbuffers, long_int, Number.wrap64_longOrZero] at hfold
  exact ⟨v, u, hv, hfold⟩

/-- **Merging** folds the source's value, if there is one, into the target. -/
theorem merge_ok {src tgt : Nat} (hs : Holds env Kind.source src) (ht : Holds env Kind.target tgt)
    (hn : n.isIntegral = true) {body : List Stmt} (hbody : k.visitor.merge (.scalar n) = .ok body)
    {w w' : World} {f : Flow} (h : (exec natives env body).runIn w = (.ok f, w')) :
    0 < (bufferAt w.buffers src).layout.length ∧
      if ((bufferAt w.buffers src).valueAt 0).isNull then w'.buffers = w.buffers
      else 0 < (bufferAt w.buffers tgt).layout.length ∧
        ((bufferAt w.buffers tgt).layout = [.scalar n] → w'.buffers = w.buffers.set tgt
          (k.change ((bufferAt w.buffers src).intAt 0) (bufferAt w.buffers tgt))) := by
  -- all three kinds look at the source first, and fold what it holds
  obtain ⟨inner, rfl, hinner⟩ : ∃ inner, body = [.cond (Kind.source.isSet 0) inner []] ∧
      (inner = .decl (DataType.scalar n).sourceName "input" (Kind.source.read 0 (.scalar n)) ::
          k.foldInto Kind.target (.scalar n) (.ident "input") ∨
        inner = k.foldInto Kind.target (.scalar n) (Kind.source.read 0 (.scalar n))) := by
    cases k with
    | min | max => exact ⟨_, (Except.ok.inj hbody).symm, .inl rfl⟩
    | product => exact ⟨_, (Except.ok.inj hbody).symm, .inr rfl⟩
  obtain ⟨v, c, u, g, heval, hbool, hexec⟩ := exec_cond_ok h
  obtain ⟨hrange, hc, hu⟩ := isSet_ok hs heval hbool
  refine ⟨hrange, ?_⟩
  have hread : Reads (bufferMethod src ("read" ++ n.suffix) [fieldValue 0]) _ := Reads.field hn
  cases hnull : ((bufferAt w.buffers src).valueAt 0).isNull with
  | true =>
    rw [hnull] at hc
    subst hc
    obtain ⟨-, rfl⟩ := exec_nil_ok hexec
    exact hu
  | false =>
    rw [hnull] at hc
    subst hc
    rw [← hu]
    rcases hinner with rfl | rfl
    · obtain ⟨r, u₁, w₁, hr, hbuffers, hrest⟩ :=
        declare_ok hn (hs.read 0 n) hread.quiet hread.isInteger hexec
      have hfold := foldInto_ok (ht.cons (by decide) _) hn (variable_runsAs (by decide) _)
        (Reads.pure (v := .long (long r)) rfl) hrest
      rw [hbuffers, long_int, Number.wrap64_longOrZero] at hfold
      rw [← hread.value hr]
      exact hfold
    · exact foldInto_ok ht hn (hs.read 0 n) hread hexec

/-! ## Runs of the combining kinds -/

/-- The value is what the kind makes of the values of rows: the smallest or the largest of them, or
their product, wrapped at 64 bits. There must be one. -/
def Summarizes : Combining → Multiset Int → Int → Prop
  | .min, values, x => x ∈ values ∧ ∀ y ∈ values, x ≤ y
  | .max, values, x => x ∈ values ∧ ∀ y ∈ values, y ≤ x
  | .product, values, x => values ≠ 0 ∧ x = wrap64 values.prod

theorem Summarizes.single {v : Int} (hv : wrap64 v = v) : k.Summarizes {v} v := by
  cases k with
  | min | max => simp [Summarizes]
  | product => simp [Summarizes, hv]

theorem Summarizes.ne_zero {values : Multiset Int} {x : Int} (h : k.Summarizes values x) :
    values ≠ 0 := by
  cases k with
  | min | max =>
    rintro rfl
    exact Multiset.notMem_zero _ h.1
  | product => exact h.1

/-- There is at most one summary. -/
theorem Summarizes.unique {values : Multiset Int} {x y : Int} (h : k.Summarizes values x)
    (h' : k.Summarizes values y) : x = y := by
  cases k with
  | min => exact le_antisymm (h.2 y h'.1) (h'.2 x h.1)
  | max => exact le_antisymm (h'.2 x h.1) (h.2 y h'.1)
  | product => rw [h.2, h'.2]

/-- Combining two summaries summarizes all values. -/
theorem Summarizes.combine {values others : Multiset Int} {x y : Int} (h : k.Summarizes values x)
    (h' : k.Summarizes others y) : k.Summarizes (values + others) (k.combine x y) := by
  cases k with
  | min =>
    refine ⟨?_, fun z hz => ?_⟩
    · rcases min_choice x y with hxy | hxy <;> rw [Combining.combine, hxy, Multiset.mem_add]
      · exact .inl h.1
      · exact .inr h'.1
    · rcases Multiset.mem_add.1 hz with hz | hz
      · exact min_le_of_left_le (h.2 z hz)
      · exact min_le_of_right_le (h'.2 z hz)
  | max =>
    refine ⟨?_, fun z hz => ?_⟩
    · rcases max_choice x y with hxy | hxy <;> rw [Combining.combine, hxy, Multiset.mem_add]
      · exact .inl h.1
      · exact .inr h'.1
    · rcases Multiset.mem_add.1 hz with hz | hz
      · exact le_max_of_le_left (h.2 z hz)
      · exact le_max_of_le_right (h'.2 z hz)
  | product =>
    refine ⟨fun hsum => h.1 (add_eq_zero.1 hsum).1, ?_⟩
    rw [Combining.combine, h.2, h'.2, Multiset.prod_add, Number.wrap64_mul_left,
      Number.wrap64_mul_right]

/-- A buffer agrees with an account: it is unset while nothing has reached it, and holds a summary of
the values that have. -/
structure Settled (k : Combining) (n : Numeric) (m : Memory) (a : Account) : Prop where
  layout : m.layout = [.scalar n]
  fields : m.fields.length = 1
  returned : a.returned = 0
  value : m.valueAt 0 = .null ∧ a.taken = 0 ∨
    ∃ x, m.valueAt 0 = .long x ∧ wrap64 x = x ∧ k.Summarizes a.taken x

theorem Settled.fresh (k : Combining) (n : Numeric) : Settled k n (.unset [.scalar n]) {} :=
  ⟨rfl, rfl, rfl, .inl ⟨rfl, rfl⟩⟩

/-- Folding a summary of some values into a buffer makes them reach it. -/
theorem Settled.change {m : Memory} {a b : Account} (h : Settled k n m a) {v : Int}
    {values : Multiset Int} (hv : wrap64 v = v) (hvalues : k.Summarizes values v)
    (hb : b.taken = a.taken + values) (hreturned : b.returned = 0) :
    Settled k n (k.change v m) b := by
  have hset : ∀ x, (m.setAt 0 (.long x)).valueAt 0 = .long x :=
    fun x => valueAt_setAt_self (by rw [h.fields]; exact Nat.one_pos) _
  unfold Combining.change
  obtain ⟨hnull, htaken⟩ | ⟨x, hx, hwrap, hsummary⟩ := h.value
  · -- the first value to reach the buffer is stored as it is
    rw [hnull, if_pos (by rfl)]
    refine ⟨by simpa using h.layout, by simpa using h.fields, hreturned,
      .inr ⟨v, hset v, hv, ?_⟩⟩
    rw [hb, htaken, zero_add]
    exact hvalues
  · have hint : m.intAt 0 = x := by
      rw [Memory.intAt, hx]
      exact hwrap
    have hcombined := hsummary.combine hvalues
    rw [← hb] at hcombined
    -- the summary of both is stored, or is what the field holds already
    rw [hx, hint, if_neg (by simp [Value.isNull])]
    split_ifs with hreplaces
    · refine ⟨by simpa using h.layout, by simpa using h.fields, hreturned,
        .inr ⟨_, hset _, ?_, hcombined⟩⟩
      cases k with
      | min => rcases min_choice x v with hxv | hxv <;> simp only [Combining.combine, hxv, hwrap, hv]
      | max => rcases max_choice x v with hxv | hxv <;> simp only [Combining.combine, hxv, hwrap, hv]
      | product => exact Number.wrap64_wrap64 _
    · rw [combine_of_not_replaces (by simpa using hreplaces)] at hcombined
      exact ⟨h.layout, h.fields, hreturned, .inr ⟨x, hx, hwrap, hcombined⟩⟩

theorem Settled.take {m : Memory} {a : Account} (h : Settled k n m a) {v : Int}
    (hv : wrap64 v = v) : Settled k n (k.change v m) (a.take (some v)) :=
  h.change hv (.single hv) (by simp [Account.take, add_comm]) h.returned

variable {g : Aggregation}

/-- **Every step that takes no row out keeps every buffer in agreement with its account.** -/
theorem step_settled (hg : Aggregates k.visitor n g) {w w' : World} {l : Ledger} {s : Step}
    (hs : s.Proper ∧ s.Forward) (h : Each (Settled k n) w.buffers l)
    (hrun : s.perform g.natives g.artifact w = (.ok (), w')) :
    Each (Settled k n) w'.buffers
      (s.record (fun row => rowValue g.natives g.site g.node row w) l) := by
  obtain ⟨kind, config, columns, e, acc, hart, he, hn, hname⟩ := hg.element
  have hmade := artifact_ok hart
  have ht : (g.node.type g.site.typing).isIntegral = true := by
    rw [← he.type_eq, hn]
    exact hg.integral
  cases s with
  | contribute row id =>
    obtain ⟨f, hexec⟩ := rowRun_exec (hname ▸ hmade.contribute_params) hrun
    obtain ⟨o, u, ho, heffect⟩ := contribute_ok (rowEnv_binds hg.plain hg.distinct row id w)
      (rowEnv_holds _ row id w) he ht hg.calls hn hmade.contribute hexec
    rw [Step.record, rowValue_eq ho]
    exact h.row (fun a => by simp [Account.take]) (fun m a hm => hm.layout)
      (fun m a v hm hv => hm.take hv) heffect
  | decontribute row id => exact hs.2.elim
  | merge source target =>
    obtain ⟨f, hexec⟩ := mergeRun_exec hmade.merge_params hrun
    have hmerge := hmade.merge
    rw [hn] at hmerge
    obtain ⟨hsrc, heffect⟩ := merge_ok (mergeEnv_source source target)
      (mergeEnv_target source target) hg.integral hmerge hexec
    have hsource := (h source).1 (lt_of_layout hsrc)
    obtain ⟨hnull, htaken⟩ | ⟨x, hx, hwrap, hsummary⟩ := hsource.value
    · -- the source is unset, and so nothing has reached it
      rw [hnull, if_pos (by rfl)] at heffect
      have hjoin : (l target).join (l source) = l target := by
        simp [Account.join, htaken, hsource.returned]
      rw [heffect, Step.record, hjoin, Function.update_eq_self]
      exact h
    · rw [hx, if_neg (by simp [Value.isNull])] at heffect
      obtain ⟨htgt, hchange⟩ := heffect
      have htarget := (h target).1 (lt_of_layout htgt)
      have hint : (bufferAt w.buffers source).intAt 0 = x := by
        rw [Memory.intAt, hx]
        exact hwrap
      rw [hchange htarget.layout, hint]
      refine h.set (lt_of_layout htgt) (htarget.change hwrap hsummary rfl ?_)
      simp [Account.join, htarget.returned, hsource.returned]

end Combining

variable {k : Combining} {env : DistillEnv} {kind : String} {node : Node} {ws ws' : Workspace}
  {a : Artifact}

/-- **The law of the combining kinds.** However rows are taken in and buffers are merged, the field of
a buffer is unset exactly while no value has reached the buffer. Then it holds the smallest or the
largest of the values that have, or their product, and that is also the result. It does not depend on
anything but the values. -/
theorem runs_combining (hkind : env.kinds.get kind = .ok k.visitor)
    (ha : (node.distill env kind).runIn ws = (.ok a, ws'))
    (hout : a.output = .int ∨ a.output = .scalar .long)
    (hcalls : Node.CallsIntegers natives node.callees)
    (hplain : env.config.filled.factParameter.toList.all isNameChar = true)
    (hdistinct : env.config.filled.factParameter ≠ BufferRef.aggregation.name)
    {w₀ w : World} {l : Ledger} {steps : List Step} (hfresh : ∀ m ∈ w₀.buffers, m = .unset a.layout)
    (hsteps : ∀ s ∈ steps, s.Proper ∧ s.Forward)
    (hruns : Runs ⟨natives, a, distillSite env node ws'.cache, node⟩ w₀ (fun _ => {}) steps w l)
    (id : Nat) :
    ((w.buffer id).valueAt 0 = .null ↔ (l id).taken = 0) ∧
      ((l id).taken ≠ 0 → ∃ x, (w.buffer id).valueAt 0 = .long x ∧
        (∀ y, k.Summarizes (l id).taken y ↔ y = x) ∧
        (Machine.terminate natives a id w).1 = .ok (.long x)) := by
  obtain ⟨t, hg⟩ := Aggregates.of_distill hkind ha hout hcalls hplain hdistinct
  have hlayout : a.layout = [.scalar t] := by
    have h := hg.layout
    cases k <;> exact (Except.ok.inj h).symm
  rw [hlayout] at hfresh
  have heach := hruns.invariant (Combining.step_settled hg) hsteps
    (Each.start hfresh (Combining.Settled.fresh k t))
  by_cases hid : id < w.buffers.length
  · have hsettled := (heach id).1 hid
    rw [← buffer_eq] at hsettled
    obtain ⟨hnull, htaken⟩ | ⟨x, hx, hwrap, hsummary⟩ := hsettled.value
    · exact ⟨⟨fun _ => htaken, fun _ => hnull⟩, fun hne => (hne htaken).elim⟩
    · refine ⟨⟨fun hnull => ?_, fun htaken => (hsummary.ne_zero htaken).elim⟩, fun _ => ⟨x, hx, ?_, ?_⟩⟩
      · rw [hx] at hnull
        cases hnull
      · exact fun y => ⟨fun hy => hy.unique hsummary, fun hy => hy ▸ hsummary⟩
      · obtain ⟨_, _, _, e, _, hart, -, hn, -⟩ := hg.element
        have hterminate := (artifact_ok hart).terminate
        have hbody : a.terminate.body = [.ret (Kind.agg.read 0 (.scalar t))] := by
          rw [hn] at hterminate
          cases k <;> exact (Except.ok.inj hterminate).symm
        have hint : (w.buffer id).intAt 0 = x := by
          rw [Memory.intAt, hx]
          exact hwrap
        rw [terminate_read hg.integral (artifact_ok hart).terminate_params hbody
          (by rw [hsettled.layout]; exact Nat.one_pos), hint]
  · -- there is no such buffer, and nothing has reached it
    have hge : w.buffers.length ≤ id := not_lt.1 hid
    rw [buffer_eq, bufferAt_of_le hge, (heach id).2 hge]
    exact ⟨⟨fun _ => rfl, fun _ => rfl⟩, fun hne => (hne rfl).elim⟩

/-- Two rows are taken into two buffers, and a third buffer and the second are merged into the
first. -/
theorem runs_combining_max :
    let env : DistillEnv := { schema := [("a", .int)] }
    let node : Node := .column ⟨"a", ""⟩
    let fresh : World := { buffers := [.unset [.int], .unset [.int], .unset [.int]] }
    let steps : List Step :=
      [.contribute [.long (-5)] 0, .contribute [.long (-7)] 1, .merge 2 0, .merge 1 0]
    ∃ a ws w l, (node.distill env "max").runIn {} = (.ok a, ws) ∧
      Runs ⟨[], a, distillSite env node ws.cache, node⟩ fresh (fun _ => {}) steps w l ∧
      (l 0).taken = {-5, -7} ∧ ∃ x, (w.buffer 0).valueAt 0 = .long x ∧
        Combining.max.Summarizes (l 0).taken x ∧ (Machine.terminate [] a 0 w).1 = .ok (.long x) := by
  intro env node fresh steps
  obtain ⟨a, ws, w, l, ha, hout, hlayout, hruns, htaken⟩ : ∃ a ws w l,
      (node.distill env "max").runIn {} = (.ok a, ws) ∧ a.output = .int ∧ a.layout = [.int] ∧
      Runs ⟨[], a, distillSite env node ws.cache, node⟩ fresh (fun _ => {}) steps w l ∧
      (l 0).taken = {-5, -7} := by
    refine ⟨_, _, _, _, rfl, rfl, rfl, .call ?_ (.call ?_ (.call ?_ (.call ?_ (.done _ _)))), ?_⟩
    all_goals decide +kernel
  have h := runs_combining (k := .max) (by rfl) ha (.inl hout) (by intro f hf; cases hf)
    (by decide) (by decide) (by simp [fresh, hlayout]) (by simp [steps, Step.Proper, Step.Forward])
    hruns 0
  obtain ⟨x, hx, hsummary, hterminate⟩ := h.2 (by rw [htaken]; decide)
  exact ⟨a, ws, w, l, ha, hruns, htaken, x, hx, (hsummary x).2 rfl, hterminate⟩

/-- Where the fact record is called what the buffer is called, the buffer hides it: the largest of
one row's value is not that value. -/
theorem max_of_hidden_record :
    let env : DistillEnv :=
      { schema := [("a", .int)], config := { factParameter := "aggregationBuffer" } }
    let node : Node := .column ⟨"a", ""⟩
    let fresh : World := { buffers := [.unset [.int]] }
    ∃ a ws w l, (node.distill env "max").runIn {} = (.ok a, ws) ∧
      Runs ⟨[], a, distillSite env node ws.cache, node⟩ fresh (fun _ => {})
        [.contribute [.long 5] 0] w l ∧
      (l 0).taken = {5} ∧ (w.buffer 0).intAt 0 = 0 := by
  intro env node fresh
  refine ⟨_, _, _, _, rfl, .call ?_ (.done _ _), ?_, ?_⟩
  all_goals decide +kernel

end FactFold.Fold
