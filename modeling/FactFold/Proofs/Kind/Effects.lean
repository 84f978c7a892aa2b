import FactFold.Proofs.Kind.Rendering

/-!
# Effects on buffers

What the routines of all kinds have in common: integers and their products, the change of one buffer
among several, and a variable in which a value is kept so that it is computed once.
-/

namespace FactFold.Fold

open Machine Lowering
open Machine.Run (Quiet Yields)
open Number (wrap64)

variable {natives : Natives} {env : Env} {id : Nat} {n : Numeric}

/-! ## Integers -/

theorem integer_cases {v : Value} (h : v.isInteger = true) : ∃ k n, v = .scalar (.int k n) := by
  unfold Value.isInteger at h
  split at h
  · exact ⟨_, _, rfl⟩
  · cases h

/-- The integer a value stands for. -/
abbrev long (v : Value) : Int := v.operand.longOrZero

@[simp] theorem long_int (k : IntKind) (n : Int) : long (.scalar (.int k n)) = wrap64 n := rfl

/-- A product of integers. -/
theorem operate_mul {s t : Static} {w : World} {a b : Value} (ha : a.isInteger = true)
    (hb : b.isInteger = true) : operate .mul s t w a b = .ok (intResult (long a * long b)) := by
  obtain ⟨k, n, rfl⟩ := integer_cases ha
  obtain ⟨l, m, rfl⟩ := integer_cases hb
  have hopen : ∀ (t : Static) k n, t.operand (.scalar (.int k n)) = .scalar (.int k n) := by
    intro t k n
    unfold Static.operand
    split <;> rfl
  simp only [operate, hopen, long_int]
  rfl

/-- A quotient of integers. -/
theorem divide_integer {a b : Value} (ha : a.isInteger = true) (hb : b.isInteger = true) :
    divide a b = if long b = 0 then .error .divisionByZero
      else .ok (.long (wrap64 ((long a).tdiv (long b)))) := by
  unfold divide
  rw [ha, hb]
  rfl

/-- A product of two steps that yield integers. -/
theorem operation_mul_ok {s t : Static} {x y : Run Value}
    (hx : Yields x fun v => v.isInteger = true) (hy : Yields y fun v => v.isInteger = true)
    {w u : World} {r : Value} (h : (operation .mul s t x y).runIn w = (.ok r, u)) :
    ∃ a b v, x.runIn w = (.ok a, v) ∧ y.runIn v = (.ok b, u) ∧ r = intResult (long a * long b) := by
  obtain ⟨a, v, ha, h⟩ := Run.runIn_bind_ok_iff.1 h
  obtain ⟨b, v', hb, h⟩ := Run.runIn_bind_ok_iff.1 h
  -- both operands are integers, so the operator multiplies them
  simp only [Run.runIn_bind, Run.runIn_get, operate_mul (hx _ _ _ ha) (hy _ _ _ hb),
    Run.runIn_lift, Prod.mk.injEq, Except.ok.injEq] at h
  obtain ⟨rfl, rfl⟩ := h
  exact ⟨a, b, v, ha, hb, rfl⟩

theorem quiet_mul {s t : Static} {x y : Run Value} (hx : Quiet x) (hy : Quiet y) :
    Quiet (operation .mul s t x y) :=
  hx.bind fun a => hy.bind fun b => quiet_binary .mul (s.operand a) (t.operand b)

/-! ## Routines that a kind has -/

theorem onNumeric_ok {α : Type} {kind : String} {t : DataType} {x : Except Failure α} {a : α}
    (h : Kind.onNumeric kind t x = .ok a) : x = .ok a ∧ (t.isNumeric = true ∨ t.isArray = true) := by
  unfold Kind.onNumeric at h
  split at h
  · exact ⟨h, Bool.or_eq_true_iff.1 ‹_›⟩
  · cases h

theorem onScalar_ok {α : Type} {kind : String} {t : DataType} {x : Except Failure α} {a : α}
    (h : Kind.onScalar kind t x = .ok a) : x = .ok a ∧ t.isNumeric = true := by
  unfold Kind.onScalar at h
  split at h
  · exact ⟨h, ‹_›⟩
  · cases h

theorem some_ok {x : Except Failure (List Stmt)} {body : List Stmt}
    (h : some <$> x = .ok (some body)) : x = .ok body := by
  cases x with
  | error e => cases h
  | ok b => exact congrArg Except.ok (Option.some.inj (Except.ok.inj h))

/-! ## One buffer among several -/

/-- The buffer of a number among buffers. -/
def bufferAt (buffers : List Memory) (id : Nat) : Memory := buffers.getD id ⟨[], []⟩

theorem buffer_eq (w : World) (id : Nat) : w.buffer id = bufferAt w.buffers id := rfl

theorem bufferAt_set_self {buffers : List Memory} {id : Nat} (h : id < buffers.length) (m : Memory) :
    bufferAt (buffers.set id m) id = m := by
  simp [bufferAt, h]

theorem set_bufferAt (buffers : List Memory) (id : Nat) :
    buffers.set id (bufferAt buffers id) = buffers := by
  by_cases h : id < buffers.length
  · simp [bufferAt, h]
  · exact List.set_eq_of_length_le (not_lt.1 h)

theorem bufferAt_set_ne {buffers : List Memory} {id j : Nat} (h : id ≠ j) (m : Memory) :
    bufferAt (buffers.set id m) j = bufferAt buffers j := by
  simp [bufferAt, h]

theorem bufferAt_of_le {buffers : List Memory} {id : Nat} (h : buffers.length ≤ id) :
    bufferAt buffers id = ⟨[], []⟩ := by
  simp [bufferAt, List.getElem?_eq_none h]

/-- A buffer with a field is among the buffers. -/
theorem lt_of_layout {buffers : List Memory} {id : Nat}
    (h : 0 < (bufferAt buffers id).layout.length) : id < buffers.length := by
  by_contra hge
  simp [bufferAt_of_le (not_lt.1 hge)] at h

/-- The effect of a value on one buffer of a layout: the buffer has a field, and changes by `F`. -/
def Changes (layout : Layout) (id : Nat) (F : Int → Memory → Memory) (v : Value)
    (before after : List Memory) : Prop :=
  0 < (bufferAt before id).layout.length ∧
    ((bufferAt before id).layout = layout →
      after = before.set id (F (long v) (bufferAt before id)))

theorem run_buffers {α : Type} {x : Run α} {a : α} {w u : World} (hx : Quiet x)
    (h : x.runIn w = (.ok a, u)) : u.buffers = w.buffers := by
  have := hx.buffers w
  rwa [h] at this

/-! ## Declared values -/

theorem convert_integer {v : Value} (hn : n.isIntegral = true) (hv : v.isInteger = true) :
    convert (DataType.scalar n).sourceName v = pure (.long (long v)) := by
  obtain ⟨k, m, rfl⟩ := integer_cases hv
  cases n <;> cases hn <;> rfl

/-- A value bound to a variable is computed once. -/
theorem declare_ok (hn : n.isIntegral = true) {name : String} {code : Term} {t : Static}
    {x : Run Value} (hcode : RunsAs natives env code t x) (hq : Quiet x)
    (hy : Yields x fun v => v.isInteger = true) {rest : List Stmt} {w w' : World} {f : Flow}
    (h : (exec natives env (.decl (DataType.scalar n).sourceName name code :: rest)).runIn w =
      (.ok f, w')) :
    ∃ v u w₁, x.runIn w = (.ok v, u) ∧ w₁.buffers = w.buffers ∧
      (exec natives ((name, .long (long v)) :: env) rest).runIn w₁ = (.ok f, w') := by
  obtain ⟨e, w₁, hs, hrest⟩ := exec_cons_ok h
  obtain ⟨v, a, w₂, heval, hconv, rfl⟩ := decl_ok hs
  obtain ⟨u, hu, -, hbuffers⟩ := evaluate_quiet hcode hq heval
  -- an integer is not changed by the conversion to the declared type
  rw [convert_integer hn (hy _ _ _ hu)] at hconv
  simp only [Run.runIn_pure, Prod.mk.injEq, Except.ok.injEq] at hconv
  obtain ⟨rfl, rfl⟩ := hconv
  exact ⟨v, u, w₂, hu, hbuffers, hrest⟩

theorem variable_runsAs {name : String} (hplain : name.toList.all isNameChar = true) (v : Value) :
    RunsAs natives ((name, v) :: env) (.ident name) .any (pure v) := by
  have h : RunsAs natives ((name, v) :: env) (.ident name) .any _ := RunsAs.ident hplain
  rw [List.lookup_cons_self, Option.getD_some] at h
  exact h

/-! ## Fields of a changed buffer -/

@[simp] theorem setAt_layout (m : Memory) (i : Nat) (v : Value) : (m.setAt i v).layout = m.layout := rfl

@[simp] theorem setAt_fields_length (m : Memory) (i : Nat) (v : Value) :
    (m.setAt i v).fields.length = m.fields.length := by
  simp [Memory.setAt]

theorem valueAt_setAt_self {m : Memory} {i : Nat} (hi : i < m.fields.length) (v : Value) :
    (m.setAt i v).valueAt i = v := by
  simp [Memory.setAt, Memory.valueAt, hi]

theorem valueAt_setAt_ne {m : Memory} {i j : Nat} (h : i ≠ j) (v : Value) :
    (m.setAt i v).valueAt j = m.valueAt j := by
  simp [Memory.setAt, Memory.valueAt, h]

@[simp] theorem bump_layout (m : Memory) (i : Nat) (d : Int) : (m.bump i d).layout = m.layout := rfl

@[simp] theorem bump_fields_length (m : Memory) (i : Nat) (d : Int) :
    (m.bump i d).fields.length = m.fields.length := by
  simp [Memory.bump]

theorem intAt_bump_self {m : Memory} {i : Nat} (hi : i < m.fields.length) (d : Int) :
    (m.bump i d).intAt i = wrap64 (m.intAt i + d) := by
  -- the field holds the wrapped sum, which reads as itself
  rw [Memory.intAt, Memory.bump, valueAt_setAt_self hi]
  exact Number.wrap64_wrap64 _

theorem intAt_bump_ne {m : Memory} {i j : Nat} (h : i ≠ j) (d : Int) :
    (m.bump i d).intAt j = m.intAt j := by
  rw [Memory.intAt, Memory.bump, valueAt_setAt_ne h, Memory.intAt]

end FactFold.Fold
