import FactFold.Proofs.Expr.Conventions
import FactFold.Proofs.Machine.Progress

/-!
# Lowered code is sound

An expression that has code has a value, and the value is of the type that lowering gave the
expression, on every row whose values are of the types of their columns. Types decide which operator
or method the code uses, and every one of them has a result on values of the types it was chosen for.

Expressions of simple types do not even look at the world: their value is a constant of the row. Only
vectors are made in the heap. `Computes x t` says both about a step, and `Lowers.computes` proves it
of the value of every sound expression.
-/

namespace FactFold

open Machine
open Number (wrap64)

/-! ## Values of types -/

/-- The value is one of the type's own. Integers stand for numbers of every type, and an absent
vector is no vector. -/
def Value.conforms (t : DataType) : Value → Bool
  | .scalar (.int ..) => t.isNumeric
  | .scalar (.float ..) => t.isNumeric && !t.isIntegral
  | .scalar (.bool _) => t = .boolean
  | .scalar (.text _) => t = .string
  | .scalar (.time _) => t = .localDate
  | .vector (some _) => t.isArray
  | _ => false

namespace Value

variable {v : Value} {n : Numeric}

theorem number_cases (h : v.conforms (.scalar n) = true) :
    (∃ k m, v = .scalar (.int k m)) ∨ n.isIntegral = false ∧ ∃ p x, v = .scalar (.float p x) := by
  unfold conforms at h
  split at h
  case h_1 => exact .inl ⟨_, _, rfl⟩
  case h_2 => exact .inr ⟨by simpa [DataType.isIntegral, DataType.isNumeric] using h, _, _, rfl⟩
  all_goals simp [DataType.isArray] at h

theorem integer_of_conforms (hn : n.isIntegral = true) (h : v.conforms (.scalar n) = true) :
    v.isInteger = true := by
  obtain ⟨k, m, rfl⟩ | ⟨hfloat, -⟩ := number_cases h
  · rfl
  · rw [hn] at hfloat
    cases hfloat

theorem bool_of_conforms (h : v.conforms .boolean = true) : ∃ b, v = .bool b := by
  unfold conforms at h
  split at h
  case h_3 => exact ⟨_, rfl⟩
  all_goals simp [DataType.isArray, DataType.isNumeric] at h

theorem text_of_conforms (h : v.conforms .string = true) : ∃ bs, v = .scalar (.text bs) := by
  unfold conforms at h
  split at h
  case h_4 => exact ⟨_, rfl⟩
  all_goals simp [DataType.isArray, DataType.isNumeric] at h

theorem time_of_conforms (h : v.conforms .localDate = true) : ∃ d, v = .scalar (.time d) := by
  unfold conforms at h
  split at h
  case h_5 => exact ⟨_, rfl⟩
  all_goals simp [DataType.isArray, DataType.isNumeric] at h

theorem vector_of_conforms (h : v.conforms (.array n) = true) : ∃ ref, v = .vector (some ref) := by
  unfold conforms at h
  split at h
  case h_6 => exact ⟨_, rfl⟩
  all_goals simp [DataType.isNumeric] at h

theorem not_conforms_other {name : String} (h : v.conforms (.other name) = true) : False := by
  unfold conforms at h
  split at h
  all_goals simp [DataType.isArray, DataType.isNumeric] at h

/-- Every number is a double. -/
theorem toDouble_of_conforms (h : v.conforms (.scalar n) = true) :
    ∃ x, v.operand.toDouble = .ok x := by
  obtain ⟨k, m, rfl⟩ | ⟨-, p, x, rfl⟩ := number_cases h
  · exact ⟨_, rfl⟩
  · exact ⟨_, rfl⟩

theorem opened_of_number (h : v.conforms (.scalar n) = true) : v.opened = v := by
  obtain ⟨k, m, rfl⟩ | ⟨-, p, x, rfl⟩ := number_cases h <;> rfl

end Value

/-! ## Operators on values of types -/

theorem Numeric.not_integral_wider {a b : Numeric} (h : a.isIntegral = false ∨ b.isIntegral = false) :
    (a.wider b).isIntegral = false := by
  cases a <;> cases b <;> simp_all [wider, rank, isIntegral]

/-- Values of the first type are values of the second, and both have the same templates. -/
inductive DataType.Widens : DataType → DataType → Prop
  | refl (t : DataType) : Widens t t
  | numbers {n m : Numeric} (h : n.isIntegral = false → m.isIntegral = false) :
      Widens (.scalar n) (.scalar m)
  | arrays (n m : Numeric) : Widens (.array n) (.array m)

namespace DataType

theorem Widens.trans {t u v : DataType} (h : t.Widens u) (h' : u.Widens v) : t.Widens v := by
  cases h with
  | refl => exact h'
  | numbers h =>
    cases h' with
    | refl => exact .numbers h
    | numbers h' => exact .numbers fun hn => h' (h hn)
  | arrays => cases h' <;> exact .arrays _ _

/-- Both branches of a choice widen to its type. -/
theorem promote?_widens {t u v : DataType} (h : promote? t u = some v) : t.Widens v ∧ u.Widens v := by
  unfold promote? at h
  split at h
  · obtain rfl := Option.some.inj h
    exact ⟨.numbers fun hn => Numeric.not_integral_wider (.inl hn),
      .numbers fun hn => Numeric.not_integral_wider (.inr hn)⟩
  · obtain rfl := Option.some.inj h
    exact ⟨.arrays _ _, .arrays _ _⟩
  · cases h

end DataType

theorem Value.conforms_widens {t u : DataType} {v : Value} (h : t.Widens u)
    (hv : v.conforms t = true) : v.conforms u = true := by
  cases h with
  | refl => exact hv
  | numbers h =>
    obtain ⟨k, m, rfl⟩ | ⟨hn, p, x, rfl⟩ := number_cases hv
    · rfl
    · simp [conforms, DataType.isNumeric, DataType.isIntegral, h hn]
  | arrays n m =>
    obtain ⟨ref, rfl⟩ := vector_of_conforms hv
    rfl

/-- Numbers add, subtract and multiply to numbers of the wider type. -/
theorem binary_conforms {op : BinaryOp} (hop : op = .add ∨ op = .sub ∨ op = .mul) {n k : Numeric}
    {a b : Value} (ha : a.conforms (.scalar n) = true) (hb : b.conforms (.scalar k) = true) :
    ∃ v, v.conforms (.scalar (n.wider k)) = true ∧ ∀ w, binary w op a b = .ok v := by
  have hdouble : (n.isIntegral = false ∨ k.isIntegral = false) → ∀ x,
      (Value.double x).conforms (.scalar (n.wider k)) = true := by
    intro h x
    simp [Value.conforms, DataType.isNumeric, DataType.isIntegral, Numeric.not_integral_wider h]
  obtain ⟨j, x, rfl⟩ | ⟨hn, p, x, rfl⟩ := Value.number_cases ha <;>
    obtain ⟨l, y, rfl⟩ | ⟨hk, q, y, rfl⟩ := Value.number_cases hb
  · -- two integers give an integer, which every type of numbers has; a float makes it a double
    rcases hop with rfl | rfl | rfl <;> exact ⟨_, rfl, fun _ => rfl⟩
  · rcases hop with rfl | rfl | rfl <;> exact ⟨_, hdouble (.inr hk) _, fun _ => rfl⟩
  · rcases hop with rfl | rfl | rfl <;> exact ⟨_, hdouble (.inl hn) _, fun _ => rfl⟩
  · rcases hop with rfl | rfl | rfl <;> exact ⟨_, hdouble (.inl hn) _, fun _ => rfl⟩

/-- Numbers have an order. -/
theorem order_conforms {op : BinaryOp} (hop : op = .lt ∨ op = .le ∨ op = .gt ∨ op = .ge)
    {n k : Numeric} {a b : Value} (ha : a.conforms (.scalar n) = true)
    (hb : b.conforms (.scalar k) = true) : ∃ c, ∀ w, binary w op a b = .ok (.bool c) := by
  obtain ⟨j, x, rfl⟩ | ⟨-, p, x, rfl⟩ := Value.number_cases ha <;>
    obtain ⟨l, y, rfl⟩ | ⟨-, q, y, rfl⟩ := Value.number_cases hb <;>
    rcases hop with rfl | rfl | rfl | rfl <;> exact ⟨_, fun _ => rfl⟩

/-- Division by a number, where one side at least is no integer, is done in doubles. -/
theorem divide_double {n : Numeric} {b : Value} (x : Float) (hb : b.conforms (.scalar n) = true) :
    ∃ y, divide (.double x) b = .ok (.double y) := by
  obtain ⟨y, hy⟩ := Value.toDouble_of_conforms hb
  exact ⟨x / y, by simp only [divide, hy]; rfl⟩

/-- Every number converts to a double. -/
theorem convert_double {n : Numeric} {a : Value} (ha : a.conforms (.scalar n) = true) :
    ∃ x, convert "double" a = pure (.double x) := by
  obtain ⟨x, hx⟩ := Value.toDouble_of_conforms ha
  refine ⟨x, ?_⟩
  show Value.double <$> Run.converted a.operand.toDouble = _
  rw [hx]
  rfl

/-- The quotient of two numbers is a double, since the first is made one. -/
theorem quotient_pure {n k : Numeric} {a b : Value} (ha : a.conforms (.scalar n) = true)
    (hb : b.conforms (.scalar k) = true) :
    ∃ q, (do
      let a ← convert "double" a
      liftM (divide a b) : Run Value) = pure (.double q) := by
  obtain ⟨x, hx⟩ := convert_double ha
  obtain ⟨q, hq⟩ := divide_double x hb
  refine ⟨q, ?_⟩
  rw [hx, pure_bind, hq]
  rfl

/-- Sameness and equality of scalars are in the scalars alone. -/
theorem same_scalar (w : World) (s t : Scalar) :
    same w (.scalar s) (.scalar t) = sameScalar s t := by
  simp [same, sameWith]

theorem equal_scalar (w : World) (s t : Scalar) :
    equal w (.scalar s) (.scalar t) = equal {} (.scalar s) (.scalar t) := by
  cases s <;> cases t <;> simp [equal, equalItems, numberPair?, countsAsNull, same_scalar]

/-- Texts and dates are compared by their methods. -/
theorem compareByMethod_pure {t : DataType} (ht : t = .string ∨ t = .localDate) (op : Comparison)
    {a b : Value} (ha : a.conforms t = true) (hb : b.conforms t = true) :
    ∃ c, Meaning.compareByMethod op a b = pure (.bool c) := by
  -- both methods have a result on values of the type
  obtain ⟨c, o, hequals, hcompare⟩ : ∃ c o, Machine.invoke a "equals" [b] = pure (.bool c) ∧
      Machine.invoke a "compareTo" [b] = pure (.long o) := by
    rcases ht with rfl | rfl
    · obtain ⟨s, rfl⟩ := Value.text_of_conforms ha
      obtain ⟨t, rfl⟩ := Value.text_of_conforms hb
      refine ⟨sameScalar (.text s) (.text t), _, look_lift fun w => ?_, rfl⟩
      rw [← same_scalar w]
      rfl
    · obtain ⟨s, rfl⟩ := Value.time_of_conforms ha
      obtain ⟨t, rfl⟩ := Value.time_of_conforms hb
      exact ⟨_, _, rfl, rfl⟩
  unfold Meaning.compareByMethod
  cases op with
  | eq => exact ⟨c, hequals⟩
  | ne => exact ⟨!c, by rw [hequals]; rfl⟩
  | lt | le | gt | ge =>
    rw [hcompare]
    exact ⟨_, rfl⟩

/-- Operands that operators compare are scalars. -/
theorem scalars_of_inline {t₁ t₂ : DataType} {a b : Value} (hin : comparesInline t₁ t₂ = true)
    (ha : a.conforms t₁ = true) (hb : b.conforms t₂ = true) :
    ∃ x y, a = .scalar x ∧ b = .scalar y := by
  unfold comparesInline at hin
  split at hin
  · obtain ⟨_, _, rfl⟩ | ⟨-, _, _, rfl⟩ := Value.number_cases ha <;>
      obtain ⟨_, _, rfl⟩ | ⟨-, _, _, rfl⟩ := Value.number_cases hb <;> exact ⟨_, _, rfl, rfl⟩
  · obtain ⟨_, rfl⟩ := Value.bool_of_conforms ha
    obtain ⟨_, rfl⟩ := Value.bool_of_conforms hb
    exact ⟨_, _, rfl, rfl⟩
  · cases hin

/-- The evaluator can tell whether two scalars are equal, if those it takes for its own integers are
such integers. -/
theorem machine_equality (natives : Natives) {k₁ k₂ : Static} {x y : Scalar} (htext : k₁ ≠ .text)
    (hown : k₁ = .int → k₂ = .int → ∃ i j, x = .int .int i ∧ y = .int .int j) :
    ∃ c, ∀ w, (Convention.machine natives).equality k₁ k₂ w (.scalar x) (.scalar y) =
      .ok (.bool c) := by
  by_cases hknown : (k₁ = k₂ && (k₁ = .int || k₁ = .text)) = true
  · have hint : k₁ = .int ∧ k₂ = .int := by
      cases k₁ <;> cases k₂ <;> simp_all
    obtain ⟨i, j, rfl, rfl⟩ := hown hint.1 hint.2
    refine ⟨decide (i = j), fun w => ?_⟩
    show (if _ then _ else _) = _
    rw [if_pos hknown, hint.1]
    rfl
  · refine ⟨equal {} (.scalar x) (.scalar y), fun w => ?_⟩
    show (if _ then _ else _) = _
    rw [if_neg hknown, ← equal_scalar w]
    rfl

/-- Numbers and truth values are compared by operators. Two operands known to be integers have to be
the evaluator's own. -/
theorem compareInline_pure {m : Meaning} {natives : Natives} (hm : m.convention = .machine natives)
    {op : Comparison} {k₁ k₂ : Static} {t₁ t₂ : DataType} {a b : Value}
    (hin : comparesInline t₁ t₂ = true) (hop : t₁ = .boolean → op = .eq ∨ op = .ne)
    (ha : a.conforms t₁ = true) (hb : b.conforms t₂ = true) (hk₁ : k₁.fits t₁ = true)
    (hown : op = .eq ∨ op = .ne → k₁ = .int → k₂ = .int →
      ∃ i j, a = .scalar (.int .int i) ∧ b = .scalar (.int .int j)) :
    ∃ c, m.compareInline op k₁ k₂ a b = pure (.bool c) := by
  obtain ⟨x, y, rfl, rfl⟩ := scalars_of_inline hin ha hb
  have htext : k₁ ≠ .text := by
    -- operators compare values of types that no text fits
    rintro rfl
    unfold comparesInline at hin
    split at hin <;> first | cases hk₁ | cases hin
  have hequality : op = .eq ∨ op = .ne → ∃ c, ∀ w,
      m.convention.equality k₁ k₂ w (.scalar x) (.scalar y) = .ok (.bool c) := by
    intro hop
    rw [hm]
    exact machine_equality natives htext (by simpa using hown hop)
  have horder : ∀ op' : BinaryOp, op' = .lt ∨ op' = .le ∨ op' = .gt ∨ op' = .ge → t₁ ≠ .boolean →
      ∃ c, (do liftM (binary (← get) op' (.scalar x) (.scalar y)) : Run Value) = pure (.bool c) := by
    intro op' hop' hne
    unfold comparesInline at hin
    split at hin
    · obtain ⟨c, hc⟩ := order_conforms hop' ha hb
      exact ⟨c, look_lift hc⟩
    · exact (hne rfl).elim
    · cases hin
  -- scalars are no buffers, so the convention takes them as they are
  have hopened : ∀ k z, m.convention.operand k (.scalar z) = .scalar z := by
    intro k z
    rw [hm]
    exact (Convention.machine_lawful natives).operand k _ rfl
  unfold Meaning.compareInline
  rw [hopened, hopened]
  cases op with
  | eq =>
    obtain ⟨c, hc⟩ := hequality (.inl rfl)
    exact ⟨c, look_lift hc⟩
  | ne =>
    obtain ⟨c, hc⟩ := hequality (.inr rfl)
    refine ⟨!c, ?_⟩
    have hlook : (do liftM (m.convention.equality k₁ k₂ (← get) (.scalar x) (.scalar y)) : Run Value) =
        pure (.bool c) := look_lift hc
    calc _ = (do liftM (m.convention.equality k₁ k₂ (← get) (.scalar x) (.scalar y)) : Run Value) >>=
          fun v => liftM (unary .not v) := by simp only [bind_assoc]
      _ = pure (.bool (!c)) := by rw [hlook]; rfl
  | lt | le | gt | ge => exact horder _ (by decide) fun h => by simpa using hop h

/-! ## Steps that compute values of types -/

/-- The step always succeeds, with a vector. -/
abbrev MakesVector (x : Run Value) : Prop :=
  Run.Succeeds (fun _ => True) x fun v => ∃ ref, v = .vector (some ref)

/-- The step computes a value of the type: one that is the same in every world, or a vector. -/
inductive Computes : Run Value → DataType → Prop
  | constant {v : Value} {t : DataType} (h : v.conforms t = true) : Computes (pure v) t
  | vector {x : Run Value} {n : Numeric} (h : MakesVector x) : Computes x (.array n)

namespace Computes

variable {x : Run Value} {t : DataType}

theorem makesVector {n : Numeric} (h : Computes x (.array n)) : MakesVector x := by
  cases h with
  | constant h => exact .pure (Value.vector_of_conforms h)
  | vector h => exact h

theorem succeeds (h : Computes x t) :
    Run.Succeeds (fun _ => True) x fun v => v.conforms t = true := by
  cases h with
  | constant h => exact .pure h
  | vector h =>
    refine h.mono ?_
    rintro v ⟨ref, rfl⟩
    rfl

/-- Only vectors are made in the heap. -/
theorem eq_pure (h : Computes x t) (ht : t.isArray = false) :
    ∃ v, v.conforms t = true ∧ x = pure v := by
  cases h with
  | constant h => exact ⟨_, h, rfl⟩
  | vector h => cases ht

theorem widen {u : DataType} (h : Computes x t) (hu : t.Widens u) : Computes x u := by
  cases h with
  | constant h => exact .constant (Value.conforms_widens hu h)
  | vector h => cases hu <;> exact .vector h

end Computes

/-! ## Vectors -/

/-- The static methods that generated code calls. -/
def generatedCalls : List String :=
  ["Math.min", "VectorOps.plus", "VectorOps.minus", "VectorOps.scale", "LocalDate.of"]

/-- No function given from outside takes the place of a method that generated code calls. -/
def Machine.Natives.KeepsGenerated (natives : Natives) : Prop :=
  ∀ name ∈ generatedCalls, natives.lookup name = none

variable {natives : Natives}

theorem static_generated (hnatives : natives.KeepsGenerated) {name : String}
    (h : name ∈ generatedCalls) (args : List Value) : static natives name args = static [] name args := by
  unfold static
  rw [hnatives name h]
  rfl

theorem plus_makesVector (a b : Nat) {name : String}
    (h : name = "VectorOps.plus" ∨ name = "VectorOps.minus") :
    MakesVector (static [] name [.vector (some a), .vector (some b)]) := by
  intro w _
  rcases h with rfl | rfl <;> exact ⟨_, _, rfl, trivial, _, rfl⟩

theorem scale_makesVector (a : Nat) {b : Value} {n : Numeric} (hb : b.conforms (.scalar n) = true) :
    MakesVector (static [] "VectorOps.scale" [.vector (some a), b]) := by
  intro w _
  obtain ⟨k, m, rfl⟩ | ⟨-, p, y, rfl⟩ := Value.number_cases hb <;>
    exact ⟨_, _, rfl, trivial, _, rfl⟩

theorem toDoubles_ok {items : List Value} (h : ∀ v ∈ items, v.conforms .double = true) :
    ∃ xs, Value.toDoubles items = .ok xs := by
  induction items with
  | nil => exact ⟨[], rfl⟩
  | cons v rest ih =>
    obtain ⟨x, hx⟩ := Value.toDouble_of_conforms (h v (by simp))
    obtain ⟨xs, hxs⟩ := ih fun u hu => h u (by simp [hu])
    exact ⟨x :: xs, by rw [Value.toDoubles, hx, hxs]; rfl⟩

theorem list_makesVector {items : List Value} (h : ∀ v ∈ items, v.conforms .double = true) :
    MakesVector (Meaning.vector items) := by
  obtain ⟨xs, hxs⟩ := toDoubles_ok h
  intro w _
  have hfresh : (Value.seq w.heap.lists items).asVector? = some (.ok (.fresh xs)) := by
    simp only [Value.asVector?, hxs]
    rfl
  simp only [Meaning.vector, Run.list, Run.runIn_bind, Run.runIn_modifyGet, Heap.number,
    Run.toVector, hfresh]
  exact ⟨_, _, rfl, trivial, _, rfl⟩

/-! ## Constants and columns -/

theorem constant_computes (hnatives : natives.KeepsGenerated) {m : Meaning}
    (hm : m.convention = .machine natives) (c : Constant) : Computes (m.constant c) c.type := by
  cases c with
  | int n | long n => exact .constant rfl
  | float x | double x => exact .constant rfl
  | string bs => exact .constant rfl
  | date d =>
    show Computes (m.convention.date d) _
    rw [hm]
    show Computes (static natives "LocalDate.of" _) _
    rw [static_generated hnatives (by decide)]
    exact .constant rfl
  | ints ns | longs ns =>
    refine .vector (list_makesVector fun v hv => ?_)
    obtain ⟨n, -, rfl⟩ := List.mem_map.1 hv
    rfl
  | floats xs | doubles xs =>
    refine .vector (list_makesVector fun v hv => ?_)
    obtain ⟨x, -, rfl⟩ := List.mem_map.1 hv
    rfl

/-- A value of a type can be read as the type. -/
theorem read_computes {t : DataType} {v : Value} (h : v.conforms t = true) :
    Computes (Meaning.read t v) t := by
  cases t with
  | scalar n =>
    unfold Meaning.read
    obtain ⟨k, m, rfl⟩ | ⟨hn, p, x, rfl⟩ := Value.number_cases h
    · cases n <;> exact .constant rfl
    · cases n with
      | int | long => cases hn
      | float | double => exact .constant rfl
  | array n =>
    obtain ⟨ref, rfl⟩ := Value.vector_of_conforms h
    exact .constant rfl
  | boolean =>
    obtain ⟨b, rfl⟩ := Value.bool_of_conforms h
    exact .constant rfl
  | string =>
    obtain ⟨bs, rfl⟩ := Value.text_of_conforms h
    exact .constant rfl
  | localDate =>
    obtain ⟨d, rfl⟩ := Value.time_of_conforms h
    exact .constant rfl
  | other name => exact (Value.not_conforms_other h).elim

/-- The row has a value of its type for every column that has one. -/
def RowFits (schema : List (String × DataType)) (columns : List String) (row : List Value) : Prop :=
  ∀ (i : Nat) name t, columns[i]? = some name → schema.lookup name = some t →
    ∃ v : Value, row[i]? = some v ∧ v.conforms t = true

/-! ## Sound expressions -/

namespace Node

/-- The expressions an expression is put together from. A condition is one of them. -/
def children : Node → List Node
  | .column _ | .constant _ => []
  | .arithmetic _ l r | .comparison _ l r => [l, r]
  | .guarded op l r body => [.comparison op l r, body]
  | .choice op l r yes no => [.comparison op l r, yes, no]
  | .call _ args => args

/-- The second expression is part of the first. -/
inductive Part (n : Node) : Node → Prop
  | self : Part n n
  | child {k c : Node} (hk : Part n k) (hc : c ∈ k.children) : Part n c

/-- The expression calls no function, its constants can be written, and no equality in it is between
operands that are only taken for the evaluator's own integers. -/
structure Sound (t : Typing) (n : Node) : Prop where
  calls : n.callees = []
  constants : ∀ c ∈ n.constants, c.isWritable = true
  settled : n.isSettled t = true

/-- What an expression is made of, the expressions it is put together from are made of. -/
theorem of_children {n c : Node} (hc : c ∈ n.children) (hn : n.callees = []) :
    c.callees = [] ∧ c.constants ⊆ n.constants ∧ c.equalities ⊆ n.equalities := by
  cases n with
  | column | constant => cases hc
  | call f args => cases hn
  | arithmetic op l r | comparison op l r =>
    simp only [callees, List.append_eq_nil_iff] at hn
    rcases List.mem_pair.1 hc with rfl | rfl <;> simp [hn, constants, equalities, List.subset_def] <;> tauto
  | guarded op l r body =>
    simp only [callees, List.append_eq_nil_iff] at hn
    rcases List.mem_pair.1 hc with rfl | rfl <;>
      simp [hn, callees, constants, equalities, List.subset_def] <;> tauto
  | choice op l r yes no =>
    simp only [callees, List.append_eq_nil_iff] at hn
    simp only [children, List.mem_cons, List.not_mem_nil, or_false] at hc
    rcases hc with rfl | rfl | rfl <;>
      simp [hn, callees, constants, equalities, List.subset_def] <;> tauto

theorem Sound.child {t : Typing} {n c : Node} (h : n.Sound t) (hc : c ∈ n.children) : c.Sound t := by
  obtain ⟨hcalls, hconstants, hequalities⟩ := of_children hc h.calls
  refine ⟨hcalls, fun k hk => h.constants k (hconstants hk), List.all_eq_true.2 fun p hp => ?_⟩
  exact List.all_eq_true.1 h.settled p (hequalities hp)

/-- The operands of an equality that are known to be integers are the evaluator's own. -/
theorem Sound.steady {t : Typing} {op : Comparison} {l r : Node} (h : (Node.comparison op l r).Sound t)
    (hop : op = .eq ∨ op = .ne) (hl : l.known t = .int) (hr : r.known t = .int) :
    l.isSteady = true ∧ r.isSteady = true := by
  have hpair : (l, r) ∈ (Node.comparison op l r).equalities := by
    rcases hop with rfl | rfl <;> simp [equalities, equalityOf]
  have hsettled : isSettledPair t l r = true := List.all_eq_true.1 h.settled _ hpair
  simpa [isSettledPair, hl, hr] using hsettled

theorem own_of_steady {m : Meaning} (hm : m.convention.Lawful) {n : Node} (hn : n.isSteady = true)
    {v : Value} (hv : n.value m = pure v) : ∃ i, v = .scalar (.int .int i) := by
  have hyields := yields_own hm hn
  rw [hv] at hyields
  exact hyields {} v {} rfl

theorem Sound.part {t : Typing} {n k : Node} (h : n.Sound t) (hk : n.Part k) : k.Sound t := by
  induction hk with
  | self => exact h
  | child _ hc ih => exact ih.child hc

end Node

namespace Lowering

variable {s : Site} {row : List Value}

/-- A column that has a type has a value of it in the record. -/
theorem column_computes (hcolumns : s.columns.length ≤ 2 ^ 63)
    (hrow : RowFits s.env.schema (s.columns.map Column.name) row) {name : String} {t : DataType}
    {i : Nat} (ht : s.env.schema.lookup name = some t)
    (hi : s.columns.findIdx? (fun d => d.name = name) = some i) :
    Computes (do
      let v ← liftM (recordField s.columns row name)
      Meaning.read t v) t := by
  obtain ⟨hlt, hfound, -⟩ := List.findIdx?_eq_some_iff_getElem.1 hi
  have hname : s.columns[i].name = name := of_decide_eq_true hfound
  obtain ⟨v, hv, hconforms⟩ := hrow i name t (by simp [hlt, hname]) ht
  have hwrap : wrap64 (i : Int) = i := Number.wrap64_of_range (by omega) (by omega)
  have hindex : (Value.scalar (.int .int (wrap64 i))).operand.toIndex = .ok (i : Int) := by
    show Except.ok (wrap64 (wrap64 i)) = _
    rw [hwrap, hwrap]
  have hfield : recordField s.columns row name = .ok v := by
    simp only [recordField, hi, factField, hindex, Int.toNat_natCast, hv]
    rw [if_neg (by omega)]
  rw [hfield]
  exact read_computes hconforms

section Operators

variable {m : Meaning} (hm : m.convention = .machine natives) {l r : Node} {x y : Run Value}
  (hx : Computes x (l.type m.typing)) (hy : Computes y (r.type m.typing))

include hm hx hy

/-- An arithmetic operation that has code computes a value of its type. -/
theorem arithmetic_computes (hnatives : m.natives.KeepsGenerated) {op : Arithmetic} {a b : Term}
    {e : Element} (he : Operators.arithmetic op a b (l.type m.typing) (r.type m.typing) = .ok e) :
    Computes (m.arithmetic op l r x y) (op.type (l.type m.typing) (r.type m.typing)) := by
  have hlawful := Convention.machine_lawful natives
  unfold Operators.arithmetic at he
  unfold Meaning.arithmetic
  generalize l.type m.typing = lt at hx he ⊢
  generalize r.type m.typing = rt at hy he ⊢
  split at he
  case h_1 n k =>
    obtain ⟨u, hu, rfl⟩ := hx.eq_pure rfl
    obtain ⟨v, hv, rfl⟩ := hy.eq_pure rfl
    obtain ⟨q, hq⟩ := quotient_pure hu hv
    have hvalue : Computes (pure (.double q)) .double := .constant rfl
    rw [← hq] at hvalue
    simp only [pure_bind]
    exact hvalue
  case h_2 n k hop =>
    obtain ⟨u, hu, rfl⟩ := hx.eq_pure rfl
    obtain ⟨v, hv, rfl⟩ := hy.eq_pure rfl
    have hmachine : op.machine = .add ∨ op.machine = .sub ∨ op.machine = .mul := by
      cases op <;> simp_all [Arithmetic.machine]
    obtain ⟨z, hz, hbinary⟩ := binary_conforms hmachine hu hv
    -- numbers are no buffers, so the convention does not open them
    have hresult : (do liftM (binary (← get) op.machine (m.convention.operand (l.known m.typing) u)
        (m.convention.operand (r.known m.typing) v)) : Run Value) = pure z := by
      rw [hm, hlawful.operand _ _ (Value.opened_of_number hu),
        hlawful.operand _ _ (Value.opened_of_number hv)]
      exact look_lift hbinary
    have hvalue : Computes (pure z) (.scalar (n.wider k)) := .constant hz
    rw [← hresult] at hvalue
    cases op with
    | div => exact (hop rfl).elim
    | mul | add | sub => exact hvalue
  case h_3 | h_4 =>
    refine .vector (hx.makesVector.bind ?_)
    rintro u ⟨a, rfl⟩
    refine hy.makesVector.bind ?_
    rintro v ⟨b, rfl⟩
    rw [static_generated hnatives (by decide)]
    exact plus_makesVector a b (by decide)
  case h_5 =>
    obtain ⟨v, hv, rfl⟩ := hy.eq_pure rfl
    refine .vector (hx.makesVector.bind ?_)
    rintro u ⟨a, rfl⟩
    rw [pure_bind, static_generated hnatives (by decide)]
    exact scale_makesVector a hv
  case h_6 =>
    obtain ⟨u, hu, rfl⟩ := hx.eq_pure rfl
    refine .vector (hy.makesVector.bind ?_)
    rintro v ⟨b, rfl⟩
    rw [pure_bind, static_generated hnatives (by decide)]
    exact scale_makesVector b hu
  case h_7 =>
    obtain ⟨v, hv, rfl⟩ := hy.eq_pure rfl
    obtain ⟨q, hq⟩ := divide_double 1 hv
    refine .vector (hx.makesVector.bind ?_)
    rintro u ⟨a, rfl⟩
    -- a vector is divided by scaling it with the reciprocal
    have hlift : (liftM (Except.ok (Value.double q) : Except Fault Value) : Run Value) =
        pure (.double q) := rfl
    have hnumber : (Value.double q).conforms .double = true := rfl
    rw [pure_bind, hq, hlift, pure_bind, static_generated hnatives (by decide)]
    exact scale_makesVector a hnumber
  case h_8 => cases he

/-- A comparison that has code computes a truth value. -/
theorem comparison_computes {op : Comparison} {a b : Term} {e : Element}
    (he : Operators.comparison op a b (l.type m.typing) (r.type m.typing) = .ok e)
    (hown : op = .eq ∨ op = .ne → l.known m.typing = .int → r.known m.typing = .int →
      ∀ u v, x = pure u → y = pure v →
        ∃ i j, u = .scalar (.int .int i) ∧ v = .scalar (.int .int j)) :
    ∃ c, m.comparison op l r x y = pure (.bool c) := by
  have hfits := Node.known_fits m.typing l
  unfold Meaning.comparison
  unfold Operators.comparison at he
  generalize l.type m.typing = lt at hx he hfits ⊢
  generalize r.type m.typing = rt at hy he ⊢
  split at he
  case h_1 n k =>
    obtain ⟨u, hu, rfl⟩ := hx.eq_pure rfl
    obtain ⟨v, hv, rfl⟩ := hy.eq_pure rfl
    have hnumbers : comparesInline (.scalar n) (.scalar k) = true := rfl
    exact compareInline_pure hm hnumbers (fun h => by cases h) hu hv hfits
      fun hop h₁ h₂ => hown hop h₁ h₂ u v rfl rfl
  case h_2 =>
    obtain ⟨u, hu, rfl⟩ := hx.eq_pure rfl
    obtain ⟨v, hv, rfl⟩ := hy.eq_pure rfl
    exact compareByMethod_pure (.inl rfl) op hu hv
  case h_3 =>
    obtain ⟨u, hu, rfl⟩ := hx.eq_pure rfl
    obtain ⟨v, hv, rfl⟩ := hy.eq_pure rfl
    exact compareByMethod_pure (.inr rfl) op hu hv
  case h_4 =>
    obtain ⟨u, hu, rfl⟩ := hx.eq_pure rfl
    obtain ⟨v, hv, rfl⟩ := hy.eq_pure rfl
    -- only equality has code for truth values
    have hop : op = .eq ∨ op = .ne := by
      split at he
      case isTrue h => simpa using h
      case isFalse => cases he
    exact compareInline_pure hm rfl (fun _ => hop) hu hv hfits
      fun hop h₁ h₂ => hown hop h₁ h₂ u v rfl rfl
  case h_5 => cases he

end Operators

/-- Values of the branches are values of the choice. -/
theorem ternary_widens {c y n e : Element} (h : Element.ternary c y (some n) = .ok e) :
    y.type.Widens e.type ∧ n.type.Widens e.type := by
  obtain ⟨-, -, ⟨hsame, ht⟩ | ⟨-, ht⟩⟩ := ternary_some_ok h
  · rw [ht, ← hsame]
    exact ⟨.refl _, .refl _⟩
  · exact DataType.promote?_widens ht

/-- **Lowered code computes values of the types it was given.** -/
theorem Lowers.computes (hnatives : natives.KeepsGenerated) (hcolumns : s.columns.length ≤ 2 ^ 63)
    (hrow : RowFits s.env.schema (s.columns.map Column.name) row) {n : Node} {e : Element}
    {code : Term} (hlower : Lowers s n e) (hv : e.value = .ok code) (h : n.Sound s.typing) :
    Computes (n.value (s.meaning natives row)) (n.type s.typing) := by
  induction hlower using Lowers.above_calls generalizing code with
  | column ht hi =>
    rw [Node.value]
    simp only [Node.type, Site.meaning, Site.typing, ht, Option.getD_some]
    exact column_computes hcolumns hrow ht hi
  | constant c =>
    rw [Node.value, Node.type]
    exact constant_computes hnatives rfl c
  | arithmetic hl hr ha hb he ihl ihr =>
    have hx := ihl ha (h.child (by simp [Node.children]))
    have hy := ihr hb (h.child (by simp [Node.children]))
    rw [hl.type_eq, hr.type_eq] at he
    rw [Node.value, Node.type]
    exact arithmetic_computes rfl hx hy hnatives he
  | @comparison op l r x y e a b hl hr ha hb he ihl ihr =>
    have hx := ihl ha (h.child (by simp [Node.children]))
    have hy := ihr hb (h.child (by simp [Node.children]))
    rw [hl.type_eq, hr.type_eq] at he
    have hlawful : (s.meaning natives row).convention.Lawful := Convention.machine_lawful natives
    obtain ⟨c, hc⟩ : ∃ c, (s.meaning natives row).comparison op l r _ _ = pure (.bool c) := by
      -- what is known to be an integer is the evaluator's own, since the expression is settled
      refine comparison_computes rfl hx hy he fun hop hlk hrk u v hu hv => ?_
      obtain ⟨hls, hrs⟩ := h.steady hop hlk hrk
      obtain ⟨i, hi⟩ := Node.own_of_steady hlawful hls hu
      obtain ⟨j, hj⟩ := Node.own_of_steady hlawful hrs hv
      exact ⟨i, j, hi, hj⟩
    rw [Node.value, Node.type, hc]
    exact .constant rfl
  | guarded => cases hv
  | @choice op l r yes no _ _ _ e hc hyes hno he ihc ihy ihn =>
    obtain ⟨cc, cy, cn, hcc, hcy, hcn, -⟩ := ternary_value_ok he hv
    have hcond := ihc hcc (h.child (by simp [Node.children]))
    have hy := ihy hcy (h.child (by simp [Node.children]))
    have hn := ihn hcn (h.child (by simp [Node.children]))
    obtain ⟨v, hbool, hpure⟩ := hcond.eq_pure (by rw [Node.type]; rfl)
    rw [Node.type] at hbool
    obtain ⟨b, rfl⟩ := Value.bool_of_conforms hbool
    rw [Node.value] at hpure
    rw [← (Lowers.choice hc hyes hno he).type_eq, Node.value, hpure]
    rw [← hyes.type_eq] at hy
    rw [← hno.type_eq] at hn
    -- the branch that is taken may have a narrower type than the choice
    obtain ⟨hyw, hnw⟩ := ternary_widens he
    cases b with
    | true => exact hy.widen hyw
    | false => exact hn.widen hnw
  | call => cases h.calls

/-- Where nothing is called, it does not matter what type calls have. -/
theorem Lowers.recalled {env : LoweringEnv} {columns : List Column} {calls calls' : CallTypes}
    {n : Node} {e : Element} (h : Lowers ⟨env, columns, calls⟩ n e) (hcalls : n.callees = []) :
    Lowers ⟨env, columns, calls'⟩ n e := by
  induction h using Lowers.above_calls with
  | column ht hi => exact .column ht hi
  | constant c => exact .constant c
  | arithmetic _ _ ha hb he ihl ihr =>
    obtain ⟨hln, hrn⟩ := List.append_eq_nil_iff.1 hcalls
    exact .arithmetic (ihl hln) (ihr hrn) ha hb he
  | comparison _ _ ha hb he ihl ihr =>
    obtain ⟨hln, hrn⟩ := List.append_eq_nil_iff.1 hcalls
    exact .comparison (ihl hln) (ihr hrn) ha hb he
  | guarded _ _ ihc ihb =>
    obtain ⟨hcn, hbn⟩ := List.append_eq_nil_iff.1 hcalls
    exact .guarded (ihc hcn) (ihb hbn)
  | choice _ _ _ he ihc ihy ihn =>
    obtain ⟨hcalls, hnn⟩ := List.append_eq_nil_iff.1 hcalls
    obtain ⟨hcn, hyn⟩ := List.append_eq_nil_iff.1 hcalls
    exact .choice (ihc hcn) (ihy hyn) (ihn hnn) he
  | call => cases hcalls

/-- **Lowered code has a value of the type it was given**, whatever the buffers hold. A value that is
no vector is the value of the expression. -/
theorem Lowers.has (hnatives : natives.KeepsGenerated) (hcolumns : s.columns.length ≤ 2 ^ 63)
    (hrow : RowFits s.env.schema (s.columns.map Column.name) row) {vars : Env}
    (hvars : s.Binds vars row) {n : Node} {e : Element} {code : Term} (hn : Lowers s n e)
    (hcode : e.value = .ok code) (h : n.Sound s.typing) (bs : List Memory) :
    Has natives vars bs code (n.known s.typing) fun v => v.conforms e.type = true ∧
      (e.type.isArray = false → n.value (s.meaning natives row) = pure v) := by
  have hquiet : Run.Quiet (n.value (s.meaning natives row)) :=
    Node.quiet_value (Convention.machine_lawful natives) n
  have hcomputes := hn.computes hnatives hcolumns hrow hcode h
  refine ⟨hn.passes hvars.plain hcolumns hcode h.constants, _, hn.runsAs hvars hcode, ?_⟩
  rintro w rfl
  rw [hn.type_eq]
  by_cases ht : (n.type s.typing).isArray = true
  · -- a vector is made in the heap, where the buffers are not
    obtain ⟨v, u, hrun, -, hv⟩ := hcomputes.succeeds w trivial
    have hbuffers := hquiet.buffers w
    rw [hrun] at hbuffers
    exact ⟨v, u, hrun, ⟨hv, fun hne => by simp [ht] at hne⟩, hbuffers⟩
  · obtain ⟨v, hv, hpure⟩ := hcomputes.eq_pure (by simpa using ht)
    exact ⟨v, w, by rw [hpure]; rfl, ⟨hv, fun _ => hpure⟩, rfl⟩

end Lowering

end FactFold
