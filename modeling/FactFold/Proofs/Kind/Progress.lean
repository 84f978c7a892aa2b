import FactFold.Proofs.Kind.Combining
import FactFold.Proofs.Lowering.Soundness

/-!
# Templates that cannot fail

Every field of a buffer is unset or holds a value of its type (`Memory.IsTyped`). On such buffers the
methods that templates use have a result, and what they write is of the field's type again (`Keeps`).
A template that is given the code of a value of the expression's type is therefore safe
(`Accepts`): none of its methods is missing, none of its fields out of range, and no conversion of a
declared value fails.

Two things have to be known beyond types. A vector is changed in place only where the field is known
to be set, and an integer product is divided only by a value that is not zero.
-/

namespace FactFold

/-- Every field is unset or holds a value of its type. -/
def Memory.IsTyped (m : Memory) : Prop :=
  ∀ i, m.valueAt i = .null ∨ (m.valueAt i).conforms (m.typeAt i) = true

theorem Memory.IsTyped.unset (l : Layout) : (Memory.unset l).IsTyped := by
  intro i
  left
  simp only [Memory.valueAt, Memory.unset, List.getD_eq_getElem?_getD, List.getElem?_map]
  cases l[i]? <;> rfl

theorem Memory.IsTyped.setAt {m : Memory} (h : m.IsTyped) {i : Nat} {v : Value}
    (hv : v.conforms (m.typeAt i) = true) : (m.setAt i v).IsTyped := by
  intro j
  by_cases hj : i = j
  · subst hj
    by_cases hlt : i < m.fields.length
    · rw [Fold.valueAt_setAt_self hlt]
      exact .inr hv
    · -- behind the last field nothing is written
      have hsame : m.setAt i v = m := by
        simp only [Memory.setAt, List.set_eq_of_length_le (not_lt.1 hlt)]
      rw [hsame]
      exact h i
  · rw [Fold.valueAt_setAt_ne hj]
    exact h j

/-- A value of the type of a field can be written into it. -/
theorem Memory.writeAt_conforms {m : Memory} {i : Nat} {v : Value}
    (ht : (m.typeAt i).isNumeric = true ∨ (m.typeAt i).isArray = true)
    (hv : v.conforms (m.typeAt i) = true) (heap : Heap) :
    ∃ x heap', m.writeAt heap i v = .ok (m.setAt i x, heap') ∧ x.conforms (m.typeAt i) = true := by
  unfold writeAt
  cases hm : m.typeAt i with
  | scalar n =>
    rw [hm] at hv
    -- an integer goes into any field for numbers, a double only where the type is not integral
    obtain ⟨k, j, rfl⟩ | ⟨hn, p, y, rfl⟩ := Value.number_cases hv
    · cases n <;> exact ⟨_, _, rfl, rfl⟩
    · cases n with
      | int | long => cases hn
      | float | double => exact ⟨_, _, rfl, rfl⟩
  | array n =>
    rw [hm] at hv
    obtain ⟨ref, rfl⟩ := Value.vector_of_conforms hv
    exact ⟨_, _, rfl, rfl⟩
  | _ => simp [hm, DataType.isNumeric, DataType.isArray] at ht

/-- A number can be added to a field for numbers of its type. -/
theorem Memory.addAt_conforms {m : Memory} {i : Nat} {v : Value} {n : Numeric}
    (ht : m.typeAt i = .scalar n) (hv : v.conforms (.scalar n) = true) :
    ∃ x, m.addAt i v = .ok (m.setAt i x) ∧ x.conforms (m.typeAt i) = true := by
  unfold addAt
  rw [ht]
  obtain ⟨k, j, rfl⟩ | ⟨hn, p, y, rfl⟩ := Value.number_cases hv
  · cases n <;> exact ⟨_, rfl, rfl⟩
  · cases n with
    | int | long => cases hn
    | float | double => exact ⟨_, rfl, rfl⟩

namespace Fold

open Machine Lowering
open Kind (agg source target declareValue valueName valueVar notNull both either negate)
open Machine.Run (Works Gets)
open Number (wrap64)

variable {natives : Natives} {env : Env} {bs bs' : List Memory} {id : Nat} {b : BufferRef}
  {l : Layout}

/-! ## Buffers that stay typed -/

/-- All buffers keep their layouts, and those that are typed stay so. -/
structure Keeps (bs bs' : List Memory) : Prop where
  layout : ∀ id, (bufferAt bs' id).layout = (bufferAt bs id).layout
  typed : ∀ id, (bufferAt bs id).IsTyped → (bufferAt bs' id).IsTyped

namespace Keeps

theorem refl (bs : List Memory) : Keeps bs bs := ⟨fun _ => rfl, fun _ h => h⟩

theorem trans {bs'' : List Memory} (h : Keeps bs bs') (h' : Keeps bs' bs'') : Keeps bs bs'' :=
  ⟨fun id => (h'.layout id).trans (h.layout id), fun id ht => h'.typed id (h.typed id ht)⟩

/-- A field may be set to a value of its type. -/
theorem set {i : Nat} {v : Value} (hv : v.conforms ((bufferAt bs id).typeAt i) = true) :
    Keeps bs (bs.set id ((bufferAt bs id).setAt i v)) := by
  -- either the buffer is there and has been replaced, or nothing has happened
  have hcases : ∀ j, bufferAt (bs.set id ((bufferAt bs id).setAt i v)) j = bufferAt bs j ∨
      j = id ∧
        bufferAt (bs.set id ((bufferAt bs id).setAt i v)) j = (bufferAt bs id).setAt i v := by
    intro j
    by_cases hj : id = j
    · subst hj
      by_cases hlt : id < bs.length
      · exact .inr ⟨rfl, bufferAt_set_self hlt _⟩
      · rw [List.set_eq_of_length_le (not_lt.1 hlt)]
        exact .inl rfl
    · exact .inl (bufferAt_set_ne hj _)
  constructor
  · intro j
    rcases hcases j with h | ⟨rfl, h⟩ <;> rw [h]
    rfl
  · intro j hj
    rcases hcases j with h | ⟨rfl, h⟩ <;> rw [h]
    · exact hj
    · exact hj.setAt hv

end Keeps

/-- With these buffers the statement runs to its end, and keeps them. -/
abbrev SafeStep (natives : Natives) (env : Env) (bs : List Memory) (st : Stmt) : Prop :=
  Works (· = bs) (execStmt natives env st) fun f bs' => f = .next env ∧ Keeps bs bs'

/-- With these buffers the statements run to their end, and keep them. -/
abbrev Safe (natives : Natives) (env : Env) (bs : List Memory) (body : List Stmt) : Prop :=
  Works (· = bs) (exec natives env body) fun _ => Keeps bs

/-- The buffer has the layout, and is typed. -/
structure Ready (l : Layout) (bs : List Memory) (id : Nat) : Prop where
  layout : (bufferAt bs id).layout = l
  typed : (bufferAt bs id).IsTyped

theorem Ready.keep (h : Ready l bs id) (hk : Keeps bs bs') : Ready l bs' id :=
  ⟨(hk.layout id).trans h.layout, hk.typed id h.typed⟩

theorem Ready.typeAt (h : Ready l bs id) {i : Nat} {t : DataType} (hi : l[i]? = some t) :
    (bufferAt bs id).typeAt i = t := by
  simp [Memory.typeAt, h.layout, hi]

theorem Ready.lt (h : Ready l bs id) {i : Nat} {t : DataType} (hi : l[i]? = some t) :
    i < (bufferAt bs id).layout.length := by
  rw [h.layout]
  exact (List.getElem?_eq_some_iff.1 hi).1

/-- A field for vectors that is set has a vector. -/
theorem Ready.vector (h : Ready l bs id) {i : Nat} {n : Numeric} (hi : l[i]? = some (.array n))
    (hset : ((bufferAt bs id).valueAt i).isNull = false) :
    ∃ ref, (bufferAt bs id).vectorAt i = some ref := by
  -- a typed field is unset or of its type
  rcases h.typed i with hnull | hv
  · rw [hnull] at hset
    cases hset
  · rw [h.typeAt hi] at hv
    obtain ⟨ref, href⟩ := Value.vector_of_conforms hv
    exact ⟨ref, by simp [Memory.vectorAt, href]⟩

/-! ## Methods of ready buffers -/

section Methods

variable {i : Nat} (hi : i ≤ 1) (hrange : i < (bufferAt bs id).layout.length)

include hi hrange

theorem isNull_gets : Gets bs (bufferMethod id "isNull" [fieldValue i])
    (· = .bool ((bufferAt bs id).valueAt i).isNull) := by
  rintro w rfl
  exact ⟨_, _, bufferMethod_isNull hi hrange, rfl, rfl⟩

/-- Fields for integers hold integers, and the others doubles. -/
theorem read_gets (n : Numeric) : Gets bs (bufferMethod id ("read" ++ n.suffix) [fieldValue i])
    fun v => v.conforms (.scalar n) = true ∧ v.isInteger = n.isIntegral := by
  rintro w rfl
  have hrange : i < (w.buffer id).layout.length := hrange
  cases n with
  | int | long => exact ⟨_, _, bufferMethod_read hi hrange rfl, ⟨rfl, rfl⟩, rfl⟩
  | float | double =>
    simp only [bufferMethod, fieldValue_index hi, Run.converted_ok, pure_bind, Run.runIn_bind,
      Run.runIn_get]
    rw [if_neg (by omega)]
    exact ⟨_, _, rfl, ⟨rfl, rfl⟩, rfl⟩

theorem readVector_gets {method : String}
    (h : method = "readVector" ∨ method = "readWritableVector") :
    Gets bs (bufferMethod id method [fieldValue i])
      (· = Run.boxed ((bufferAt bs id).vectorAt i)) := by
  rintro w rfl
  have hrange : i < (w.buffer id).layout.length := hrange
  simp only [bufferMethod, fieldValue_index hi, Run.converted_ok, pure_bind, Run.runIn_bind,
    Run.runIn_get]
  rw [if_neg (by omega)]
  rcases h with rfl | rfl <;> exact ⟨_, _, rfl, rfl, rfl⟩

theorem write_works {v : Value}
    (ht : ((bufferAt bs id).typeAt i).isNumeric = true ∨ ((bufferAt bs id).typeAt i).isArray = true)
    (hv : v.conforms ((bufferAt bs id).typeAt i) = true) :
    Works (· = bs) (bufferMethod id "write" [fieldValue i, v]) fun _ => Keeps bs := by
  rintro w rfl
  obtain ⟨x, heap', hwrite, hx⟩ := Memory.writeAt_conforms ht hv w.heap
  have hwrite : (w.buffer id).writeAt w.heap i v = .ok ((w.buffer id).setAt i x, heap') := hwrite
  -- only a field for vectors looks at the value before it is written
  have hwritten : (bufferWrite id i v).runIn w =
      (.ok .null, { w with heap := heap' }.setBuffer id ((w.buffer id).setAt i x)) := by
    cases hm : (w.buffer id).typeAt i with
    | array n =>
      obtain ⟨ref, rfl⟩ := Value.vector_of_conforms (hm ▸ hv)
      simp only [bufferWrite, Run.runIn_bind, Run.runIn_get, hm, DataType.isArray, if_true,
        Run.toVector, Value.asVector?, map_pure, Run.runIn_pure, hwrite, Run.runIn_set]
    | _ =>
      simp only [bufferWrite, Run.runIn_bind, Run.runIn_get, hm, DataType.isArray,
        Bool.false_eq_true, if_false, Run.runIn_pure, hwrite, Run.runIn_set]
  rw [bufferMethod_write hi hrange, hwritten]
  exact ⟨_, _, rfl, .set hx⟩

theorem add_works {n : Numeric} {v : Value} (ht : (bufferAt bs id).typeAt i = .scalar n)
    (hv : v.conforms (.scalar n) = true) :
    Works (· = bs) (bufferMethod id ("add" ++ n.suffix) [fieldValue i, v]) fun _ => Keeps bs := by
  rintro w rfl
  obtain ⟨x, hadd, hx⟩ := Memory.addAt_conforms ht hv
  have hadd : (w.buffer id).addAt i v = _ := hadd
  rw [bufferMethod_add hi hrange]
  simp only [bufferAdd, Run.runIn_bind, Run.runIn_get, hadd, Run.runIn_set, Run.runIn_pure]
  exact ⟨_, _, rfl, .set hx⟩

end Methods

/-! ## Code on ready buffers -/

/-- The methods that change a vector by another. -/
def vectorChanges : List String := ["plus", "minus", "plusNegativeValues", "minusNegativeValues"]

/-- A method of the buffer of a variable. -/
theorem method_evaluates (hb : Holds env b id) {i : Nat} (hi : i ≤ 1) {name : String}
    {args : List Term} {A : List Value → Prop} {Q : Value → List Memory → Prop}
    (hs : AllHave natives env bs args A)
    (h : ∀ vs, A vs → Works (· = bs) (bufferMethod id name (fieldValue i :: vs)) Q) :
    Evaluates natives env bs (b.method name i args) .any Q := by
  -- `Has.int` is about every literal but the smallest one
  have hindex : wrap64 (i : Int) ≠ -(2 ^ 63) := by
    rcases Nat.le_one_iff_eq_zero_or_eq_one.1 hi with rfl | rfl <;> decide
  have hargs : AllHave natives env bs (.int i :: args) _ := (Has.int hindex).cons hs
  refine (Has.ident hb.plain hb.bound).invoke hargs ?_
  rintro v vs rfl ⟨_, us, rfl, rfl, hus⟩
  exact h us hus

section Ready

variable (hb : Holds env b id) (hready : Ready l bs id) {i : Nat} {t : DataType}
  (hi : i ≤ 1) (ht : l[i]? = some t)

include hb hready hi ht

theorem isNull_has : Has natives env bs (b.isNull i) .any fun v =>
    ∃ c, v = .bool c ∧ ((bufferAt bs id).valueAt i).isNull = c := by
  refine method_evaluates hb hi .nil ?_
  rintro vs rfl
  exact Gets.mono (isNull_gets hi (hready.lt ht)) fun v hv => ⟨_, hv, rfl⟩

theorem isSet_has : Has natives env bs (b.isSet i) .bool fun v =>
    ∃ c, v = .bool c ∧ ((bufferAt bs id).valueAt i).isNull = !c := by
  refine (isNull_has hb hready hi ht).not.mono ?_
  rintro v ⟨c, rfl, hc⟩
  exact ⟨!c, rfl, by simpa using hc⟩

theorem readOwn_has {n : Numeric} : Has natives env bs (b.read i (.scalar n)) .any fun v =>
    v.conforms (.scalar n) = true ∧ v.isInteger = n.isIntegral := by
  refine method_evaluates hb hi .nil ?_
  rintro vs rfl
  exact read_gets hi (hready.lt ht) n

theorem read_has {n : Numeric} : Has natives env bs (b.read i (.scalar n)) .any fun v =>
    v.conforms (.scalar n) = true :=
  (readOwn_has hb hready hi ht).mono fun _ hv => hv.1

/-- The vector of a field, which may be absent. -/
theorem readVector_has : Has natives env bs (b.readVector i) .any
    (· = Run.boxed ((bufferAt bs id).vectorAt i)) := by
  refine method_evaluates hb hi .nil ?_
  rintro vs rfl
  exact readVector_gets hi (hready.lt ht) (.inl rfl)

theorem write_safe {value : Term} {k : Static} (htype : t.isNumeric = true ∨ t.isArray = true)
    (hv : Has natives env bs value k fun v => v.conforms t = true) :
    SafeStep natives env bs (b.write i value) := by
  refine works_run (t := .any) (method_evaluates hb hi hv.single ?_)
  rintro vs ⟨v, rfl, hv⟩
  -- the layout gives the field its type
  rw [← hready.typeAt ht] at htype hv
  exact write_works hi (hready.lt ht) htype hv

theorem add_safe {n : Numeric} {delta : Term} {k : Static} (hn : t = .scalar n)
    (hd : Has natives env bs delta k fun v => v.conforms (.scalar n) = true) :
    SafeStep natives env bs (b.add i delta t) := by
  subst hn
  refine works_run (t := .any) (method_evaluates hb hi hd.single ?_)
  rintro vs ⟨v, rfl, hv⟩
  exact add_works hi (hready.lt ht) (hready.typeAt ht) hv

/-- A vector that is there can be changed by another one. -/
theorem vector_safe {n : Numeric} {value : Term} {k : Static} {method : String}
    (hn : t = .array n) (hset : ((bufferAt bs id).valueAt i).isNull = false)
    (hmethod : method ∈ vectorChanges)
    (hv : Has natives env bs value k fun v => ∃ ref, v = .vector (some ref)) :
    SafeStep natives env bs (b.vector i method [value]) := by
  subst hn
  -- the field is set, so there is a vector to call the method on
  obtain ⟨ref, href⟩ := hready.vector ht hset
  have hread : Has natives env bs (b.readWritableVector i) .any (· = .vector (some ref)) := by
    refine method_evaluates hb hi .nil ?_
    rintro vs rfl
    have hgets := readVector_gets hi (hready.lt ht) (.inr rfl)
    rw [href] at hgets
    exact hgets
  refine works_run (t := .any) (hread.invoke hv.single ?_)
  rintro v vs rfl ⟨_, rfl, other, rfl⟩ w rfl
  simp only [vectorChanges, List.mem_cons, List.not_mem_nil, or_false] at hmethod
  -- each of the four methods changes the heap alone
  rcases hmethod with rfl | rfl | rfl | rfl <;> exact ⟨_, _, rfl, .refl _⟩

/-- The first vector is written, and later ones change it. -/
theorem accumulate_safe {n : Numeric} {first value : Term} {j k : Static} {method : String}
    (hn : t = .array n) (hmethod : method ∈ vectorChanges)
    (hf : Has natives env bs first j fun v => ∃ ref, v = .vector (some ref))
    (hv : Has natives env bs value k fun v => ∃ ref, v = .vector (some ref)) :
    SafeStep natives env bs (.cond (b.isNull i) [b.write i first] [b.vector i method [value]]) := by
  refine works_cond (isNull_has hb hready hi ht) (fun _ => ?_) fun hset => ?_
  · -- the field is unset, and a vector conforms to its type
    have hvector : Has natives env bs first j fun v => v.conforms t = true := by
      refine hf.mono ?_
      rintro v ⟨ref, rfl⟩
      rw [hn]
      rfl
    rw [exec_single]
    exact write_safe hb hready hi ht (.inr (by rw [hn]; rfl)) hvector
  · rw [exec_single]
    exact vector_safe hb hready hi ht hn hset hmethod hv

end Ready

/-! ## Values in templates -/

theorem operand_number {v : Value} {n : Numeric} (t : Static) (h : v.conforms (.scalar n) = true) :
    t.operand v = v := by
  unfold Static.operand
  split
  · exact Value.opened_of_number h
  · rfl

/-- The term has a number of the type, and what the check knows about it fits. -/
abbrev HasNumber (natives : Natives) (env : Env) (bs : List Memory) (n : Numeric) (code : Term) :
    Prop :=
  ∃ k : Static, k.fits (.scalar n) = true ∧
    Has natives env bs code k fun v => v.conforms (.scalar n) = true

/-- The term has a vector. -/
abbrev HasVector (natives : Natives) (env : Env) (bs : List Memory) (code : Term) : Prop :=
  ∃ k, Has natives env bs code k fun v => ∃ ref, v = .vector (some ref)

section Numbers

variable {n : Numeric} {x y : Term}

theorem product_hasNumber (hneg : ∀ z, x ≠ .unary "!" z) (hx : HasNumber natives env bs n x)
    (hy : HasNumber natives env bs n y) : HasNumber natives env bs n (.binary "*" x y) := by
  obtain ⟨s, hs, hx⟩ := hx
  obtain ⟨t, ht, hy⟩ := hy
  obtain ⟨u, hu, hfits⟩ : ∃ u, Static.binary? Arithmetic.mul.machine s t = some u ∧
      u.fits (.scalar n) = true :=
    Static.binary_numbers (by decide) hs ht
  refine ⟨u, hfits, .strict rfl rfl (by decide) (fun _ => hneg) hu hx hy fun v w hv hw => ?_⟩
  obtain ⟨r, hr, hmul⟩ := binary_conforms (.inr (.inr rfl)) hv hw
  refine ⟨r, ?_, fun u => ?_⟩
  · -- both factors have the type of the product
    have hsame : n.wider n = n := by cases n <;> rfl
    rwa [hsame] at hr
  · show binary u .mul (s.operand v) (t.operand w) = .ok r
    rw [operand_number s hv, operand_number t hw, hmul u]

theorem negate_hasNumber (hx : HasNumber natives env bs n x) :
    HasNumber natives env bs n (negate x) := by
  have hone : Has natives env bs (.int (-1)) .int fun v => v.conforms (.scalar n) = true := by
    refine (Has.int (by decide)).mono ?_
    rintro v rfl
    rfl
  exact product_hasNumber (by simp [Term.int]) ⟨.int, rfl, hone⟩ hx

theorem zero_has (n : Numeric) : ∃ k, Has natives env bs (Kind.zero (.scalar n)) k fun v =>
    v.conforms (.scalar n) = true := by
  -- the zero of a type that is not integral is written as a double, which has to be finite
  have hfinite : ((Number.doubleOfInt 0).isNaN || (Number.doubleOfInt 0).isInf) = false := by
    decide +kernel
  have hdouble : (if ((Number.doubleOfInt 0).isNaN || (Number.doubleOfInt 0).isInf) = true then
      .error (.nonFiniteLiteral (Number.doubleOfInt 0))
      else .ok (.double (Number.doubleOfInt 0)) : Except Fault LiteralValue) =
        .ok (.double (Number.doubleOfInt 0)) := by
    rw [hfinite]
    rfl
  obtain ⟨x, hx, hstatic, hconforms⟩ : ∃ x, literalValue n.name (.scalar (.int .int 0)) = .ok x ∧
      x.formula.static? = some x.static ∧ x.value.conforms (.scalar n) = true := by
    cases n with
    | int | long => exact ⟨.int 0, rfl, rfl, rfl⟩
    | float | double => exact ⟨_, hdouble, rfl, rfl⟩
  refine ⟨x.static, (Has.literal hx hstatic).mono ?_⟩
  rintro v rfl
  exact hconforms

theorem negativePart_hasNumber (hnatives : natives.KeepsGenerated)
    (hx : HasNumber natives env bs n x) :
    HasNumber natives env bs n (Kind.negativePart (.scalar n) x) := by
  obtain ⟨t, -, hx⟩ := hx
  obtain ⟨k, hzero⟩ : ∃ k, Has natives env bs (Kind.zero (.scalar n)) k _ := zero_has n
  refine ⟨.any, rfl, .call (by decide) (hzero.cons hx.single) ?_⟩
  rintro vs ⟨z, us, rfl, hz, v, rfl, hv⟩
  rw [static_generated hnatives (by decide)]
  -- the function is not among the natives, so it is the built-in minimum
  show Gets bs (liftM (Machine.extremum "Math.min" true [z, v])) _
  have hdouble : n.isIntegral = false → ∀ x, (Value.double x).conforms (.scalar n) = true := by
    intro hn x
    simp [Value.conforms, DataType.isNumeric, DataType.isIntegral, hn]
  obtain ⟨_, _, rfl⟩ | ⟨hn, _, _, rfl⟩ := Value.number_cases hz <;>
    obtain ⟨_, _, rfl⟩ | ⟨hn', _, _, rfl⟩ := Value.number_cases hv
  · exact Gets.lift rfl rfl
  · exact Gets.lift rfl (hdouble hn' _)
  · exact Gets.lift rfl (hdouble hn _)
  · exact Gets.lift rfl (hdouble hn _)

end Numbers

theorem negativeVector_hasVector {x : Term} (hx : HasVector natives env bs x) :
    HasVector natives env bs (.new "NegativeVector" [x]) := by
  obtain ⟨k, hx⟩ := hx
  refine ⟨.any, .new (by decide) hx.single ?_⟩
  rintro vs ⟨_, rfl, ref, rfl⟩ w rfl
  exact ⟨_, _, rfl, ⟨_, rfl⟩, rfl⟩

theorem differs_null (w : World) (ref : Nat) :
    operate .ne .any .null w (.vector (some ref)) .null = .ok (.bool true) := by
  simp [operate, Static.equality, Static.operand, Value.opened, binary, equal, equalItems,
    numberPair?, countsAsNull, same, sameWith, unary, bind, Except.bind]

theorem notNull_has {a : Term}
    (ha : Has natives env bs a .any fun v => ∃ ref, v = .vector (some ref)) :
    Has natives env bs (notNull a) .bool fun v => ∃ c, v = .bool c ∧ True := by
  refine .strict rfl rfl (by decide) (by intro h; cases h) rfl ha .null ?_
  rintro v w ⟨ref, rfl⟩ rfl
  exact ⟨.bool true, ⟨true, rfl, trivial⟩, fun u => differs_null u ref⟩

/-- What a field holds can be divided by a number, unless an integer is divided by zero. -/
theorem divide_conforms {n : Numeric} {a b : Value} (ha : a.conforms (.scalar n) = true)
    (hown : a.isInteger = n.isIntegral) (hb : b.conforms (.scalar n) = true)
    (hzero : n.isIntegral = true → long b ≠ 0) :
    ∃ r, r.conforms (.scalar n) = true ∧ divide a b = .ok r := by
  unfold divide
  cases hn : n.isIntegral with
  | true =>
    -- both are integers, so the quotient is one and zero is the only obstacle
    have hinteger : (a.isInteger && b.isInteger) = true := by
      rw [hown, hn, Value.integer_of_conforms hn hb]
      rfl
    rw [if_pos hinteger, if_neg (hzero hn)]
    exact ⟨_, rfl, rfl⟩
  | false =>
    -- one of them is a double, and doubles are divided by anything
    obtain ⟨x, hx⟩ := Value.toDouble_of_conforms ha
    obtain ⟨y, hy⟩ := Value.toDouble_of_conforms hb
    have hinteger : ¬ (a.isInteger && b.isInteger) = true := by
      rw [hown, hn]
      simp
    rw [if_neg hinteger, hx, hy]
    exact ⟨_, by simp [Value.conforms, DataType.isNumeric, DataType.isIntegral, hn], rfl⟩

/-! ## Declarations -/

/-- A value of a type converts to a value of the type. -/
theorem convert_gets {t : DataType} {v : Value} (h : v.conforms t = true) :
    Gets bs (convert t.sourceName v) fun u => u.conforms t = true := by
  cases t with
  | scalar n =>
    obtain ⟨_, _, rfl⟩ | ⟨hn, _, _, rfl⟩ := Value.number_cases h
    · cases n <;> exact Gets.pure rfl
    · cases n with
      | int | long => cases hn
      | float | double => exact Gets.pure rfl
  | array n =>
    obtain ⟨ref, rfl⟩ := Value.vector_of_conforms h
    exact Gets.pure rfl
  | boolean =>
    obtain ⟨c, rfl⟩ := Value.bool_of_conforms h
    exact Gets.pure rfl
  | string =>
    obtain ⟨s, rfl⟩ := Value.text_of_conforms h
    exact Gets.pure rfl
  | localDate =>
    obtain ⟨d, rfl⟩ := Value.time_of_conforms h
    exact Gets.pure rfl
  | other name => exact (Value.not_conforms_other h).elim

theorem variable_has {name : String} {t : DataType} {v : Value}
    (hplain : name.toList.all isNameChar = true) (hv : v.conforms t = true) :
    Has natives ((name, v) :: env) bs (.ident name) .any fun v => v.conforms t = true := by
  refine (Has.ident hplain List.lookup_cons_self).mono ?_
  rintro u rfl
  exact hv

/-- Statements after a declaration see the variable. -/
theorem declare_safe {name : String} {t : DataType} {k : Static} {code : Term} {rest : List Stmt}
    (hcode : Has natives env bs code k fun v => v.conforms t = true)
    (hrest : ∀ v : Value, v.conforms t = true →
      Safe natives ((name, v) :: env) bs rest) :
    Safe natives env bs (.decl t.sourceName name code :: rest) :=
  works_decl hcode (fun _ => convert_gets) hrest

theorem nothing_safe : Safe natives env bs [] := works_nil (.refl bs)

/-- A change and what comes after it. -/
theorem change_safe {st : Stmt} {extra : List Stmt} (hs : SafeStep natives env bs st)
    (hextra : ∀ bs', Keeps bs bs' → Safe natives env bs' extra) :
    Safe natives env bs (st :: extra) :=
  works_then hs fun bs' hk => (hextra bs' hk).mono fun _ _ hk' => hk.trans hk'

theorem SafeStep.single {st : Stmt} (hs : SafeStep natives env bs st) : Safe natives env bs [st] :=
  change_safe hs fun _ _ => nothing_safe

/-- A condition and the branch that its truth value is for. -/
theorem cond_safe {c : Term} {t : Static} {C : Bool → Prop} {yes no : List Stmt}
    (hc : Has natives env bs c t fun v => ∃ b, v = .bool b ∧ C b)
    (hyes : C true → Safe natives env bs yes) (hno : C false → Safe natives env bs no) :
    Safe natives env bs [.cond c yes no] := by
  rw [Safe, exec_single]
  exact works_cond hc hyes hno

/-! ## Folding a number into a buffer -/

section Folding

variable (hb : Holds env b id) (hready : Ready l bs id) {n : Numeric}
  (ht : l[0]? = some (.scalar n)) {value : Term}
  (hv : Has natives env bs value .any fun v => v.conforms (.scalar n) = true)

include hb hready ht hv

/-- A number is written if the field is unset or the number is to replace the one there. -/
theorem keep_safe {sign : String} {op : BinaryOp} (hsign : BinaryOp.ofText? sign = some op)
    (hop : op = .lt ∨ op = .gt) (hdiv : sign ≠ "/") :
    Safe natives env bs [.cond (either (b.isNull 0) (.binary sign value (b.read 0 (.scalar n))))
        [b.write 0 value] []] := by
  have hnull : Has natives env bs (b.isNull 0) .any fun v => ∃ c, v = .bool c := by
    refine (isNull_has (i := 0) hb hready (by omega) ht).mono ?_
    rintro v ⟨c, rfl, -⟩
    exact ⟨c, rfl⟩
  have hread : Has natives env bs (b.read 0 (.scalar n)) .any _ :=
    read_has (i := 0) hb hready (by omega) ht
  have hcond : Has natives env bs
      (either (b.isNull 0) (.binary sign value (b.read 0 (.scalar n)))) .bool
        fun v => ∃ c, v = .bool c ∧ True := by
    refine (Has.either hsign hop hdiv hnull hv hread fun u v hu hv => ?_).mono ?_
    · have horder : op = .lt ∨ op = .le ∨ op = .gt ∨ op = .ge := by
        rcases hop with rfl | rfl <;> decide
      -- numbers are compared as they are, opened or not
      obtain ⟨c, hc⟩ := order_conforms horder hu hv
      refine ⟨c, fun w => ?_⟩
      rw [← hc w]
      have hu := operand_number .any hu
      have hv := operand_number .any hv
      rcases hop with rfl | rfl <;> simp only [operate, hu, hv]
    · rintro v ⟨c, rfl⟩
      exact ⟨c, rfl, trivial⟩
  refine cond_safe hcond (fun _ => ?_) fun _ => nothing_safe
  exact (write_safe (i := 0) hb hready (by omega) ht (.inl rfl) hv).single

/-- Folding a number works, as the smallest, the largest or a product. -/
theorem foldInto_safe (k : Combining) :
    Safe natives env bs (k.foldInto b (.scalar n) value) := by
  cases k with
  | min => exact keep_safe hb hready ht hv rfl (.inl rfl) (by decide)
  | max => exact keep_safe hb hready ht hv rfl (.inr rfl) (by decide)
  | product =>
    have hread : Has natives env bs (b.read 0 (.scalar n)) .any _ :=
      read_has (i := 0) hb hready (by omega) ht
    -- the read is no negation, as for additive kinds
    have hneg : ∀ z, b.read 0 (.scalar n) ≠ .unary "!" z := by
      simp [BufferRef.read, DataType.isArray, BufferRef.method]
    obtain ⟨k, -, hproduct⟩ := product_hasNumber hneg ⟨.any, rfl, hread⟩ ⟨.any, rfl, hv⟩
    refine cond_safe (isNull_has (i := 0) hb hready (by omega) ht) (fun _ => ?_) fun _ => ?_
    · exact (write_safe (i := 0) hb hready (by omega) ht (.inl rfl) hv).single
    · exact (write_safe (i := 0) hb hready (by omega) ht (.inl rfl) hproduct).single

end Folding

/-! ## Templates of rows -/

/-- Given code of a value that is of the type and has the property, the template is safe on a buffer
that is ready. -/
def Accepts (natives : Natives) (env : Env) (id : Nat) (l : Layout) (t : DataType)
    (P : Value → Prop) (template : Template) : Prop :=
  ∀ bs code k, Ready l bs id → k.fits t = true →
    Has natives env bs code k (fun v => v.conforms t = true ∧ P v) →
      Safe natives env bs (template code)

/-- What follows the change of the first field works on a buffer that is ready. -/
abbrev Follows (natives : Natives) (id : Nat) (l : Layout) (extra : List Stmt) : Prop :=
  ∀ env bs, Holds env agg id → Ready l bs id → Safe natives env bs extra

section Templates

variable {P : Value → Prop} {n : Numeric} (hb : Holds env agg id)

include hb

/-- Adding a number that is computed from the value. -/
theorem adding_accepts (ht : l[0]? = some (.scalar n)) {f : Term → Term}
    (hf : ∀ bs code, HasNumber natives env bs n code → HasNumber natives env bs n (f code))
    {extra : List Stmt} (hextra : Follows natives id l extra) :
    Accepts natives env id l (.scalar n) P fun value =>
      agg.add 0 (f value) (.scalar n) :: extra := by
  intro bs code k hready hfits hcode
  obtain ⟨k', -, hvalue⟩ := hf bs code ⟨k, hfits, hcode.mono fun v hv => hv.1⟩
  exact change_safe (add_safe (i := 0) hb hready (by omega) ht rfl hvalue)
    fun bs' hk => hextra env bs' hb (hready.keep hk)

theorem squaring_accepts (ht : l[0]? = some (.scalar n)) {f : Term → Term}
    (hf : ∀ env bs code, HasNumber natives env bs n code → HasNumber natives env bs n (f code)) :
    Accepts natives env id l (.scalar n) P fun value =>
      [declareValue (.scalar n) value, agg.add 0 (f (Kind.square valueVar)) (.scalar n)] := by
  intro bs code k hready hfits hcode
  refine declare_safe (hcode.mono fun v hv => hv.1) fun v hv => ?_
  have hvar : Has natives ((valueName, v) :: env) bs valueVar .any _ := variable_has (by decide) hv
  have hsquare : HasNumber natives ((valueName, v) :: env) bs n (Kind.square valueVar) :=
    product_hasNumber (by simp [valueVar]) ⟨.any, rfl, hvar⟩ ⟨.any, rfl, hvar⟩
  obtain ⟨k', -, hvalue⟩ := hf _ bs _ hsquare
  exact (add_safe (i := 0) (hb.cons (by decide) v) hready (by omega) ht rfl hvalue).single

theorem accumulating_accepts (ht : l[0]? = some (.array n)) {first : Term}
    (hfirst : ∀ env bs, HasVector natives env bs valueVar → HasVector natives env bs first)
    {method : String} (hmethod : method ∈ vectorChanges) {extra : List Stmt}
    (hextra : Follows natives id l extra) :
    Accepts natives env id l (.array n) P fun value => [declareValue (.array n) value,
      .cond (notNull valueVar) (Kind.accumulateVector 0 valueVar first method :: extra) []] := by
  intro bs code k hready hfits hcode
  refine declare_safe (hcode.mono fun v hv => hv.1) fun v hv => ?_
  have hvector : Has natives ((valueName, v) :: env) bs valueVar .any
      fun v => ∃ ref, v = .vector (some ref) :=
    (variable_has (by decide) hv).mono fun u hu => Value.vector_of_conforms hu
  obtain ⟨k', hvalue⟩ := hfirst _ bs ⟨.any, hvector⟩
  have hb' : Holds ((valueName, v) :: env) agg id := hb.cons (by decide) v
  refine cond_safe (notNull_has hvector) (fun _ => ?_) fun _ => nothing_safe
  exact change_safe (accumulate_safe (i := 0) hb' hready (by omega) ht rfl hmethod hvalue hvector)
    fun bs' hk => hextra _ bs' hb' (hready.keep hk)

theorem withdrawing_accepts (ht : l[0]? = some (.array n)) {method : String}
    (hmethod : method ∈ vectorChanges) {extra : List Stmt} (hextra : Follows natives id l extra) :
    Accepts natives env id l (.array n) P fun value => [declareValue (.array n) value,
      .cond (both (notNull valueVar) (agg.isSet 0))
        (agg.vector 0 method [valueVar] :: extra) []] := by
  intro bs code k hready hfits hcode
  refine declare_safe (hcode.mono fun v hv => hv.1) fun v hv => ?_
  have hvector : Has natives ((valueName, v) :: env) bs valueVar .any
      fun v => ∃ ref, v = .vector (some ref) :=
    (variable_has (by decide) hv).mono fun u hu => Value.vector_of_conforms hu
  have hb' : Holds ((valueName, v) :: env) agg id := hb.cons (by decide) v
  have hnull : Has natives ((valueName, v) :: env) bs (agg.isNull 0) .any _ :=
    isNull_has (i := 0) hb' hready (by omega) ht
  -- the second operand is evaluated only behind the first; both hold where the block is entered
  refine cond_safe (.both hvector .null hnull ?_) (fun hset => ?_) fun _ => nothing_safe
  · rintro v w ⟨ref, rfl⟩ rfl
    exact ⟨true, fun u => differs_null u ref⟩
  · exact change_safe (vector_safe (i := 0) hb' hready (by omega) ht rfl (hset rfl) hmethod hvector)
      fun bs' hk => hextra _ bs' hb' (hready.keep hk)

theorem folding_accepts (ht : l[0]? = some (.scalar n)) (k : Combining) :
    Accepts natives env id l (.scalar n) P fun value =>
      declareValue (.scalar n) value :: k.foldInto agg (.scalar n) valueVar := by
  intro bs code _ hready hfits hcode
  refine declare_safe (hcode.mono fun v hv => hv.1) fun v hv => ?_
  exact foldInto_safe (hb.cons (by decide) v) hready ht (variable_has (by decide) hv) k

/-- Dividing by the value, which must not be the integer zero. -/
theorem dividing_accepts (ht : l[0]? = some (.scalar n))
    (hP : ∀ v : Value, P v → n.isIntegral = true → long v ≠ 0) :
    Accepts natives env id l (.scalar n) P fun value =>
      [agg.write 0 (.binary "/" (agg.read 0 (.scalar n)) value)] := by
  intro bs code k hready hfits hcode
  have hread : Has natives env bs (agg.read 0 (.scalar n)) .any _ :=
    readOwn_has (i := 0) hb hready (by omega) ht
  have hquotient : Has natives env bs (.binary "/" (agg.read 0 (.scalar n)) code) .any
      fun v => v.conforms (.scalar n) = true := by
    refine hread.quotient hcode fun a v ha hv => ?_
    exact divide_conforms ha.1 ha.2 hv.1 (hP v hv.2)
  exact (write_safe (i := 0) hb hready (by omega) ht (.inl rfl) hquotient).single

end Templates

end Fold

end FactFold
