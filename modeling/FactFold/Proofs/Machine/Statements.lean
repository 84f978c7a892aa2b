import FactFold.Proofs.Machine.Terms

/-!
# Running statements

What is known when a statement has run to its end. Checking an expression adds to the remembered
sources, which nothing else looks at: two worlds are `Alike` when they differ in those only, and a
quiet step does the same in both.

The second half tells what the methods of a buffer do to it. All of them are about one field, and all
fail when the buffer has no such field.
-/

namespace FactFold

/-- A type of integers. -/
def DataType.isIntegral : DataType → Bool
  | .scalar n => n.isIntegral
  | _ => false

theorem DataType.isIntegral_scalar {t : DataType} (h : t.isIntegral = true) :
    ∃ n, t = .scalar n ∧ n.isIntegral = true := by
  cases t with
  | scalar n => exact ⟨n, rfl, h⟩
  | _ => cases h

/-- Adds to the integer at a place, where an unset field counts as zero. -/
def Memory.bump (m : Memory) (i : Nat) (d : Int) : Memory :=
  m.setAt i (.long (Number.wrap64 (m.intAt i + d)))

namespace Machine

open Run (Quiet Yields)

variable {natives : Natives} {env : Env} {w w' u : World}

/-! ## Worlds up to the remembered sources -/

/-- Two worlds with the same heap and the same buffers. -/
structure World.Alike (w u : World) : Prop where
  heap : w.heap = u.heap
  buffers : w.buffers = u.buffers

namespace World.Alike

theorem symm (h : w.Alike u) : u.Alike w := ⟨h.heap.symm, h.buffers.symm⟩

theorem buffer (h : w.Alike u) (id : Nat) : w.buffer id = u.buffer id := by
  rw [World.buffer, World.buffer, h.buffers]

theorem eq_with (h : w.Alike u) : u = { w with programs := u.programs } := by
  cases w
  cases u
  cases h.heap
  cases h.buffers
  rfl

theorem remember (w : World) (s : String) : (w.remember s).Alike w := by
  unfold World.remember
  split <;> exact ⟨rfl, rfl⟩

/-- A quiet step that succeeds in one world succeeds with the same result in one alike. -/
theorem run_quiet {α : Type} {x : Run α} {a : α} (h : w.Alike u) (hx : Quiet x)
    (hrun : x.runIn w = (.ok a, w')) :
    ∃ u', x.runIn u = (.ok a, u') ∧ w'.Alike u' ∧ w'.buffers = w.buffers := by
  refine ⟨{ w' with programs := u.programs }, ?_, ⟨rfl, rfl⟩, ?_⟩
  · rw [h.eq_with, hx.blind, hrun]
  · -- a quiet step leaves the buffers, in whatever world it runs
    have := hx.buffers w
    rwa [hrun] at this

end World.Alike

/-- Evaluating a term that runs as a quiet step: the step itself succeeds. -/
theorem evaluate_quiet {code : Term} {t : Static} {x : Run Value} {v : Value}
    (h : RunsAs natives env code t x) (hx : Quiet x)
    (hrun : (evaluate natives env code).runIn w = (.ok v, w')) :
    ∃ u, x.runIn w = (.ok v, u) ∧ w'.Alike u ∧ w'.buffers = w.buffers := by
  obtain ⟨s, hs⟩ := evaluate_ok h hrun
  obtain ⟨u, hu, halike, hbuffers⟩ := (World.Alike.remember w s).run_quiet hx hs
  exact ⟨u, hu, halike, hbuffers.trans (World.Alike.remember w s).buffers⟩

/-! ## Statements -/

theorem exec_nil_ok {f : Flow} (h : (exec natives env []).runIn w = (.ok f, w')) :
    f = .next env ∧ w' = w := by
  rw [exec] at h
  simp only [Run.runIn_pure, Prod.mk.injEq, Except.ok.injEq] at h
  exact ⟨h.1.symm, h.2.symm⟩

theorem exec_single (s : Stmt) : exec natives env [s] = execStmt natives env s := by
  rw [exec]
  refine (bind_congr fun f => ?_).trans (bind_pure _)
  cases f with
  | next env => exact exec.eq_1 natives env
  | done v => rfl

theorem exec_cons_ok {s : Stmt} {rest : List Stmt} {f : Flow}
    (h : (exec natives env (s :: rest)).runIn w = (.ok f, w')) :
    ∃ g u, (execStmt natives env s).runIn w = (.ok g, u) ∧
      match g with
      | .next env => (exec natives env rest).runIn u = (.ok f, w')
      | .done v => f = .done v ∧ w' = u := by
  rw [exec] at h
  obtain ⟨g, u, hs, h⟩ := Run.runIn_bind_ok_iff.1 h
  refine ⟨g, u, hs, ?_⟩
  cases g with
  | next env => exact h
  | done v =>
    simp only [Run.runIn_pure, Prod.mk.injEq, Except.ok.injEq] at h
    exact ⟨h.1.symm, h.2.symm⟩

theorem run_ok {x : Term} {f : Flow} (h : (execStmt natives env (.run x)).runIn w = (.ok f, w')) :
    f = .next env ∧ ∃ v, (evaluate natives env x).runIn w = (.ok v, w') := by
  rw [execStmt] at h
  obtain ⟨v, u, hx, h⟩ := Run.runIn_bind_ok_iff.1 h
  simp only [Run.runIn_pure, Prod.mk.injEq, Except.ok.injEq] at h
  obtain ⟨rfl, rfl⟩ := h
  exact ⟨rfl, v, hx⟩

theorem cond_ok {c : Term} {yes no : List Stmt} {f : Flow}
    (h : (execStmt natives env (.cond c yes no)).runIn w = (.ok f, w')) :
    ∃ v b u, (evaluate natives env c).runIn w = (.ok v, u) ∧ v.operand.toBool = .ok b ∧
      (exec natives env (if b then yes else no)).runIn u = (.ok f, w') := by
  rw [execStmt] at h
  obtain ⟨v, u, hc, h⟩ := Run.runIn_bind_ok_iff.1 h
  obtain ⟨b, u', hb, h⟩ := Run.runIn_bind_ok_iff.1 h
  -- the statement has run to its end, so the condition converted to a truth value
  cases hv : v.operand.toBool with
  | error e => simp [hv] at hb
  | ok b' =>
    simp only [hv, Run.converted_ok, Run.runIn_pure, Prod.mk.injEq, Except.ok.injEq] at hb
    obtain ⟨rfl, rfl⟩ := hb
    refine ⟨v, b', u, hc, hv, ?_⟩
    cases b' <;> exact h

/-- A step whose faults are reworded does the same otherwise. -/
theorem runIn_rethrow (x : Run Value) (g : Fault → Fault) (w : World) :
    (tryCatch x fun e => throw (g e) : Run Value).runIn w =
      match x.runIn w with
      | (.ok a, u) => (.ok a, u)
      | (.error e, u) => (.error (g e), u) := by
  simp only [Run.runIn, tryCatch, tryCatchThe, MonadExceptOf.tryCatch, ExceptT.tryCatch,
    ExceptT.run, StateT.run, ExceptT.mk, bind, StateT.bind]
  rcases x w with ⟨_ | _, _⟩ <;> rfl

theorem rethrow_ok {x : Run Value} {g : Fault → Fault} {v : Value}
    (h : (tryCatch x fun e => throw (g e) : Run Value).runIn w = (.ok v, w')) :
    x.runIn w = (.ok v, w') := by
  rw [runIn_rethrow] at h
  rcases hx : x.runIn w with ⟨e | a, u⟩ <;> simp_all

/-- A declaration runs the rest with one more variable. -/
theorem exec_decl (type name : String) (code : Term) (rest : List Stmt) :
    exec natives env (.decl type name code :: rest) = (do
      let v ← evaluate natives env code
      let a ← tryCatch (convert type v) fun e => throw (.declaration type name e)
      exec natives ((name, a) :: env) rest) := by
  rw [exec, execStmt]
  simp only [bind_assoc, pure_bind]

theorem decl_ok {type name : String} {x : Term} {f : Flow}
    (h : (execStmt natives env (.decl type name x)).runIn w = (.ok f, w')) :
    ∃ v a u, (evaluate natives env x).runIn w = (.ok v, u) ∧
      (convert type v).runIn u = (.ok a, w') ∧ f = .next ((name, a) :: env) := by
  rw [execStmt] at h
  obtain ⟨v, u, hx, h⟩ := Run.runIn_bind_ok_iff.1 h
  obtain ⟨a, u', ha, h⟩ := Run.runIn_bind_ok_iff.1 h
  simp only [Run.runIn_pure, Prod.mk.injEq, Except.ok.injEq] at h
  obtain ⟨rfl, rfl⟩ := h
  exact ⟨v, a, u, hx, rethrow_ok ha, rfl⟩

/-! ## Methods of buffers -/

/-- A field number as the evaluator passes it. -/
abbrev fieldValue (i : Nat) : Value := .scalar (.int .int (Number.wrap64 i))

variable {id : Nat} {v : Value}

theorem fieldValue_index {i : Nat} (hi : i ≤ 1) :
    (fieldValue i).operand.toIndex = .ok (i : Int) := by
  rcases Nat.le_one_iff_eq_zero_or_eq_one.1 hi with rfl | rfl <;> rfl

/-- A method only succeeds on a field that exists. -/
theorem bufferMethod_range {i : Nat} (hi : i ≤ 1) {method : String} {rest : List Value}
    (h : (bufferMethod id method (fieldValue i :: rest)).runIn w = (.ok v, w')) :
    i < (w.buffer id).layout.length := by
  simp only [bufferMethod, fieldValue_index hi, Run.converted_ok, pure_bind] at h
  obtain ⟨_, _, hget, h⟩ := Run.runIn_bind_ok_iff.1 h
  simp only [Run.runIn_get, Prod.mk.injEq, Except.ok.injEq] at hget
  obtain ⟨rfl, rfl⟩ := hget
  -- out of range the method fails before it looks at its name
  by_contra hrange
  rw [if_pos (by omega)] at h
  obtain ⟨_, _, hthrow, -⟩ := Run.runIn_bind_ok_iff.1 h
  simp at hthrow

section Fields

variable {i : Nat} (hi : i ≤ 1) (hrange : i < (w.buffer id).layout.length)

include hi hrange

theorem bufferMethod_isNull : (bufferMethod id "isNull" [fieldValue i]).runIn w =
    (.ok (.bool ((w.buffer id).valueAt i).isNull), w) := by
  simp only [bufferMethod, fieldValue_index hi, Run.converted_ok, pure_bind, Run.runIn_bind,
    Run.runIn_get]
  rw [if_neg (by omega)]
  rfl

theorem bufferMethod_read {n : Numeric} (hn : n.isIntegral = true) :
    (bufferMethod id ("read" ++ n.suffix) [fieldValue i]).runIn w =
      (.ok (.long ((w.buffer id).intAt i)), w) := by
  simp only [bufferMethod, fieldValue_index hi, Run.converted_ok, pure_bind, Run.runIn_bind,
    Run.runIn_get]
  rw [if_neg (by omega)]
  cases n <;> cases hn <;> rfl

theorem bufferMethod_write (value : Value) :
    (bufferMethod id "write" [fieldValue i, value]).runIn w =
      (bufferWrite id i value).runIn w := by
  simp only [bufferMethod, fieldValue_index hi, Run.converted_ok, pure_bind, Run.runIn_bind,
    Run.runIn_get]
  rw [if_neg (by omega)]
  rfl

theorem bufferMethod_add {n : Numeric} (delta : Value) :
    (bufferMethod id ("add" ++ n.suffix) [fieldValue i, delta]).runIn w =
      (bufferAdd id i delta).runIn w := by
  simp only [bufferMethod, fieldValue_index hi, Run.converted_ok, pure_bind, Run.runIn_bind,
    Run.runIn_get]
  rw [if_neg (by omega)]
  cases n <;> rfl

end Fields

variable {i : Nat} {n : Numeric}

/-- A value added to an integral field counts as the integer it converts to. -/
theorem bufferAdd_ok {delta r : Value} (ht : (w.buffer id).typeAt i = .scalar n)
    (hn : n.isIntegral = true) (h : (bufferAdd id i delta).runIn w = (.ok r, w')) :
    w' = w.setBuffer id ((w.buffer id).bump i delta.operand.longOrZero) := by
  simp only [bufferAdd, Run.runIn_bind, Run.runIn_get, Memory.addAt, ht, hn, if_true] at h
  -- what is no number fails, and so does the addition
  cases hd : delta.operand.toLong with
  | error e => simp [hd] at h
  | ok d =>
    simp only [hd, Run.runIn_bind, Run.runIn_set, Run.runIn_pure, Prod.mk.injEq] at h
    simp only [Memory.bump, Operand.longOrZero, hd, Except.toOption, Option.getD_some]
    exact h.2.symm

/-- A value written into an integral field is kept as the integer it converts to. -/
theorem bufferWrite_ok {value r : Value} (ht : (w.buffer id).typeAt i = .scalar n)
    (hn : n.isIntegral = true) (hv : value.isNull = false)
    (h : (bufferWrite id i value).runIn w = (.ok r, w')) :
    w' = w.setBuffer id ((w.buffer id).setAt i (.long value.operand.longOrZero)) := by
  have harray : ((w.buffer id).typeAt i).isArray = false := by rw [ht]; rfl
  -- on an integral field only the conversion decides
  have hwrite : (w.buffer id).writeAt w.heap i value =
      (value.operand.toLong.map fun x => ((w.buffer id).setAt i (.long x), w.heap)).mapError
        (.notNumber i (.scalar n)) := by
    cases value with
    | null => cases hv
    | _ =>
      unfold Memory.writeAt
      rw [ht]
      refine (if_pos hn).trans ?_
      cases (Value.operand _).toLong <;> rfl
  simp only [bufferWrite, Run.runIn_bind, Run.runIn_get, harray, Bool.false_eq_true, if_false,
    Run.runIn_pure, hwrite] at h
  cases hd : value.operand.toLong with
  | error e => simp [hd, Except.map, Except.mapError] at h
  | ok x =>
    simp only [hd, Except.map, Except.mapError, Run.runIn_bind, Run.runIn_set, Run.runIn_pure,
      Prod.mk.injEq] at h
    simp only [Operand.longOrZero, hd, Except.toOption, Option.getD_some]
    exact h.2.symm

/-! ## Statements on buffers -/

/-- The variable of a buffer holds the buffer of a number. -/
structure Holds (env : Env) (b : BufferRef) (id : Nat) : Prop where
  plain : b.name.toList.all isNameChar = true
  bound : env.lookup b.name = some (.buffer id)

variable {b : BufferRef}

/-- A variable of another name hides no buffer. -/
theorem Holds.cons (hb : Holds env b id) {name : String} (hne : b.name ≠ name) (v : Value) :
    Holds ((name, v) :: env) b id :=
  ⟨hb.plain, by rw [List.lookup_cons, beq_false_of_ne hne]; exact hb.bound⟩

/-- The term of a buffer's method runs as the method on the buffer. -/
theorem Holds.method (hb : Holds env b id) (name : String) (i : Nat) {args : List Term}
    {xs : Run (List Value)} (h : AllRunAs natives env args xs) :
    RunsAs natives env (b.method name i args) .any (do
      let vs ← xs
      bufferMethod id name (fieldValue i :: vs)) := by
  have hident : RunsAs natives env (.ident b.name) .any _ := RunsAs.ident hb.plain
  have h := RunsAs.invoke name hident ((RunsAs.int (i : Int)).cons h)
  -- the receiver is a variable, so calling the method is calling the buffer's
  simp only [hb.bound, Option.getD_some, invoke, pure_bind, bind_assoc] at h
  exact h

/-- The term that tells whether a field is unset. -/
theorem Holds.isNull (hb : Holds env b id) (i : Nat) :
    RunsAs natives env (b.isNull i) .any (bufferMethod id "isNull" [fieldValue i]) := by
  have h := hb.method "isNull" i (show AllRunAs natives env [] _ from .nil)
  rw [pure_bind] at h
  exact h

/-- The term that reads a field of a scalar type. -/
theorem Holds.read (hb : Holds env b id) (i : Nat) (n : Numeric) :
    RunsAs natives env (b.read i (.scalar n)) .any
      (bufferMethod id ("read" ++ n.suffix) [fieldValue i]) := by
  have h := hb.method ("read" ++ n.suffix) i (show AllRunAs natives env [] _ from .nil)
  rw [pure_bind] at h
  exact h

/-- A method that reads succeeds when the field exists, and changes nothing. -/
theorem bufferMethod_read_ok (hi : i ≤ 1) (hn : n.isIntegral = true)
    (h : (bufferMethod id ("read" ++ n.suffix) [fieldValue i]).runIn w = (.ok v, w')) :
    v = .long ((w.buffer id).intAt i) ∧ w' = w := by
  rw [bufferMethod_read hi (bufferMethod_range hi h) hn] at h
  simp only [Prod.mk.injEq, Except.ok.injEq] at h
  exact ⟨h.1.symm, h.2.symm⟩

theorem bufferMethod_isNull_ok (hi : i ≤ 1)
    (h : (bufferMethod id "isNull" [fieldValue i]).runIn w = (.ok v, w')) :
    v = .bool ((w.buffer id).valueAt i).isNull ∧ w' = w := by
  rw [bufferMethod_isNull hi (bufferMethod_range hi h)] at h
  simp only [Prod.mk.injEq, Except.ok.injEq] at h
  exact ⟨h.1.symm, h.2.symm⟩

/-- Reading from a buffer is quiet. -/
theorem quiet_bufferRead {method : String}
    (h : method = "isNull" ∨ method = "readInt" ∨ method = "readLong") (args : List Value) :
    Quiet (bufferMethod id method args) :=
  quiet_bufferMethod id args (by rcases h with rfl | rfl | rfl <;> simp)

/-- The world after a buffer has been replaced. -/
theorem setBuffer_buffers (w : World) (id : Nat) (m : Memory) :
    (w.setBuffer id m).buffers = w.buffers.set id m := rfl

/-- Running a method with one argument: the argument is computed, and then the method does its
work. -/
theorem Holds.run_method_ok (hb : Holds env b id) {name : String} {arg : Term} {t : Static}
    {x : Run Value} (hd : RunsAs natives env arg t x) {f : Flow}
    (h : (execStmt natives env (.run (b.method name i [arg]))).runIn w = (.ok f, w')) :
    f = .next env ∧ ∃ w₁ v u r, w₁.Alike w ∧ x.runIn w₁ = (.ok v, u) ∧
      (bufferMethod id name [fieldValue i, v]).runIn u = (.ok r, w') := by
  obtain ⟨rfl, r, heval⟩ := run_ok h
  -- evaluating first remembers the source of the whole statement
  obtain ⟨s, hs⟩ := evaluate_ok (hb.method name i (AllRunAs.single hd)) heval
  simp only [bind_assoc, pure_bind] at hs
  obtain ⟨v, u, hv, hmethod⟩ := Run.runIn_bind_ok_iff.1 hs
  exact ⟨rfl, w.remember s, v, u, r, World.Alike.remember w s, hv, hmethod⟩

/-- A quiet argument is computed where the statement starts, and leaves the buffers as they are. -/
theorem Holds.run_quiet_ok (hb : Holds env b id) (hi : i ≤ 1) {name : String} {arg : Term}
    {t : Static} {x : Run Value} (hd : RunsAs natives env arg t x) (hx : Quiet x) {f : Flow}
    (h : (execStmt natives env (.run (b.method name i [arg]))).runIn w = (.ok f, w')) :
    f = .next env ∧ i < (w.buffer id).layout.length ∧ ∃ v u w₁ r, x.runIn w = (.ok v, u) ∧
      w₁.Alike u ∧ w₁.buffer id = w.buffer id ∧
      (bufferMethod id name [fieldValue i, v]).runIn w₁ = (.ok r, w') := by
  obtain ⟨hf, w₀, v, w₁, r, halike, hv, hmethod⟩ := hb.run_method_ok hd h
  obtain ⟨u, hu, halike₁, hbuffers⟩ := halike.run_quiet hx hv
  -- the method still finds the buffer as it was at the start
  have hsame : w₁.buffer id = w.buffer id := by
    rw [World.buffer, World.buffer, hbuffers, halike.buffers]
  have hrange := bufferMethod_range hi hmethod
  rw [hsame] at hrange
  exact ⟨hf, hrange, v, u, w₁, r, hu, halike₁, hsame, hmethod⟩

/-- **Adding to an integral field**: the amount is computed, and the field grows by it. -/
theorem add_ok (hb : Holds env b id) (hi : i ≤ 1) {m : Numeric} {delta : Term} {t : Static}
    {x : Run Value} (hd : RunsAs natives env delta t x) (hx : Quiet x) {f : Flow}
    (h : (execStmt natives env (b.add i delta (.scalar m))).runIn w = (.ok f, w')) :
    f = .next env ∧ i < (w.buffer id).layout.length ∧ ∃ v u, x.runIn w = (.ok v, u) ∧
      (((w.buffer id).typeAt i).isIntegral = true →
        w'.Alike (u.setBuffer id ((w.buffer id).bump i v.operand.longOrZero))) := by
  obtain ⟨rfl, hrange, v, u, w₁, r, hu, halike, hsame, hmethod⟩ := hb.run_quiet_ok hi hd hx h
  have hadd : (bufferAdd id i v).runIn w₁ = (.ok r, w') :=
    (bufferMethod_add hi (by rw [hsame]; exact hrange) v).symm.trans hmethod
  refine ⟨rfl, hrange, v, u, hu, fun ht => ?_⟩
  obtain ⟨n, hn, hint⟩ := DataType.isIntegral_scalar ht
  rw [bufferAdd_ok (by rw [hsame]; exact hn) hint hadd, hsame]
  exact ⟨halike.heap, by rw [setBuffer_buffers, setBuffer_buffers, halike.buffers]⟩

/-- **Writing into an integral field**: the value is computed, and the field holds it. -/
theorem write_ok (hb : Holds env b id) (hi : i ≤ 1) {value : Term} {t : Static} {x : Run Value}
    (hd : RunsAs natives env value t x) (hx : Quiet x) (hnull : x.Yields fun v => v.isNull = false)
    {f : Flow} (h : (execStmt natives env (b.write i value)).runIn w = (.ok f, w')) :
    f = .next env ∧ i < (w.buffer id).layout.length ∧ ∃ v u, x.runIn w = (.ok v, u) ∧
      (((w.buffer id).typeAt i).isIntegral = true →
        w'.Alike (u.setBuffer id ((w.buffer id).setAt i (.long v.operand.longOrZero)))) := by
  obtain ⟨rfl, hrange, v, u, w₁, r, hu, halike, hsame, hwrite⟩ := hb.run_quiet_ok hi hd hx h
  rw [bufferMethod_write hi (by rw [hsame]; exact hrange)] at hwrite
  refine ⟨rfl, hrange, v, u, hu, fun ht => ?_⟩
  obtain ⟨n, hn, hint⟩ := DataType.isIntegral_scalar ht
  rw [bufferWrite_ok (by rw [hsame]; exact hn) hint (hnull _ _ _ hu) hwrite, hsame]
  exact ⟨halike.heap, by rw [setBuffer_buffers, setBuffer_buffers, halike.buffers]⟩

end Machine

end FactFold
