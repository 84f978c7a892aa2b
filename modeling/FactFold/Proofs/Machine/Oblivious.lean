import FactFold.Proofs.Machine.Statements

/-!
# Remembered sources do not show

The world remembers the source of every expression that was checked. Nothing that runs looks at
them: in two worlds that differ in the remembered sources only, a formula has the same value and
leaves worlds that again differ in nothing else (`eval_oblivious`), and so do statements
(`exec_oblivious`), although they add to what is remembered.

So it does not matter whether a condition is checked as a part of a larger expression or by itself.
-/

namespace FactFold.Machine

open Run (Quiet)

theorem World.Alike.refl (w : World) : w.Alike w := ⟨rfl, rfl⟩

theorem World.Alike.trans {w u v : World} (h : w.Alike u) (h' : u.Alike v) : w.Alike v :=
  ⟨h.heap.trans h'.heap, h.buffers.trans h'.buffers⟩

namespace Run

variable {α β : Type} {x : Run α} {w u w' : World}

/-- In two worlds that are alike the step has the same result, and the worlds it leaves are
alike. -/
def Oblivious (x : Run α) : Prop :=
  ∀ ⦃w u : World⦄, w.Alike u → (x.runIn w).1 = (x.runIn u).1 ∧ (x.runIn w).2.Alike (x.runIn u).2

/-- In worlds that are alike the step has one result. -/
theorem Oblivious.run (hx : Oblivious x) (h : w.Alike u) :
    ∃ r w' u', x.runIn w = (r, w') ∧ x.runIn u = (r, u') ∧ w'.Alike u' := by
  obtain ⟨hresult, hworld⟩ := hx h
  exact ⟨(x.runIn w).1, (x.runIn w).2, (x.runIn u).2, rfl, Prod.ext hresult.symm rfl, hworld⟩

/-- A step that succeeds in one world succeeds with the same result in one alike. -/
theorem Oblivious.run_ok (hx : Oblivious x) (h : w.Alike u) {a : α}
    (hrun : x.runIn w = (.ok a, w')) : ∃ u', x.runIn u = (.ok a, u') ∧ w'.Alike u' := by
  obtain ⟨r, w₁, u', hw, hu, hworld⟩ := hx.run h
  obtain ⟨rfl, rfl⟩ := Prod.mk.inj (hw.symm.trans hrun)
  exact ⟨u', hu, hworld⟩

/-- A step that carries the remembered sources along does not look at them. -/
theorem Oblivious.of_blind (h : ∀ w p, x.runIn { w with programs := p } =
    ((x.runIn w).1, { (x.runIn w).2 with programs := p })) : Oblivious x := by
  intro w u hwu
  rw [hwu.eq_with, h w u.programs]
  exact ⟨rfl, ⟨rfl, rfl⟩⟩

theorem Quiet.oblivious (hx : Quiet x) : Oblivious x := .of_blind hx.blind

namespace Oblivious

theorem pure (a : α) : Oblivious (pure a) := fun _ _ h => ⟨rfl, h⟩

theorem throw (e : Fault) : Oblivious (throw e : Run α) := fun _ _ h => ⟨rfl, h⟩

theorem lift (x : Except Fault α) : Oblivious (liftM x : Run α) := fun _ _ h => ⟨rfl, h⟩

theorem bind {k : α → Run β} (hx : Oblivious x) (hk : ∀ a, Oblivious (k a)) :
    Oblivious (x >>= k) := by
  intro w u h
  obtain ⟨r, w', u', hw, hu, hworld⟩ := hx.run h
  rw [runIn_bind, runIn_bind, hw, hu]
  cases r with
  | error e => exact ⟨rfl, hworld⟩
  | ok a => exact hk a hworld

/-- What comes after a value that is computed in one of two ways. -/
theorem either {c : Prop} [Decidable c] {y : Run α} {k : α → Run β} (hx : Oblivious x)
    (hy : Oblivious y) (hk : ∀ a, Oblivious (k a)) :
    Oblivious (if c then x >>= k else y >>= k) := by
  split
  · exact hx.bind hk
  · exact hy.bind hk

theorem map {f : α → β} (hx : Oblivious x) : Oblivious (f <$> x) := by
  rw [map_eq_pure_bind]
  exact hx.bind fun a => .pure (f a)

/-- A step that looks at the world, and goes on in the same way in worlds that are alike. -/
theorem get_bind {k : World → Run β} (hk : ∀ w, Oblivious (k w))
    (h : ∀ w p, k { w with programs := p } = k w) : Oblivious (get >>= k) := by
  intro w u hwu
  rw [runIn_bind, runIn_bind]
  show ((k w).runIn w).1 = ((k u).runIn u).1 ∧ ((k w).runIn w).2.Alike ((k u).runIn u).2
  have hsame : k u = k w := by
    rw [hwu.eq_with]
    exact h w _
  rw [hsame]
  exact hk w hwu

/-- Remembering a source makes no difference either. -/
theorem remember (s : String) : Oblivious (modify fun w => w.remember s) := fun w u h =>
  ⟨rfl, (World.Alike.remember w s).trans (h.trans (World.Alike.remember u s).symm)⟩

theorem rethrow {x : Run Value} (hx : Oblivious x) (g : Fault → Fault) :
    Oblivious (tryCatch x fun e => MonadExcept.throw (g e)) := by
  intro w u h
  obtain ⟨r, w', u', hw, hu, hworld⟩ := hx.run h
  rw [runIn_rethrow, runIn_rethrow, hw, hu]
  -- the fault is the same, and so is its new wording
  cases r with
  | error e => exact ⟨rfl, hworld⟩
  | ok a => exact ⟨rfl, hworld⟩

end Oblivious

end Run

open Run (Oblivious)

/-! ## Methods -/

theorem bufferAdd_oblivious (id i : Nat) (delta : Value) : Oblivious (bufferAdd id i delta) := by
  refine .of_blind fun w p => ?_
  have hbuffer : World.buffer { w with programs := p } id = w.buffer id := rfl
  simp only [bufferAdd, Run.runIn_bind, Run.runIn_get, hbuffer]
  -- the buffer is the same in both worlds, and so is whether adding succeeds
  cases (w.buffer id).addAt i delta with
  | error e => rfl
  | ok m => rfl

theorem bufferWrite_oblivious (id i : Nat) (value : Value) :
    Oblivious (bufferWrite id i value) := by
  unfold bufferWrite
  refine .get_bind (fun w => ?_) fun _ _ => rfl
  refine .either (Quiet.toVector value).oblivious.map (.pure value) fun value =>
    .of_blind fun w p => ?_
  have hbuffer : World.buffer { w with programs := p } id = w.buffer id := rfl
  simp only [Run.runIn_bind, Run.runIn_get, hbuffer]
  cases (w.buffer id).writeAt w.heap i value with
  | error e => rfl
  | ok stored => rfl

theorem bufferMethod_oblivious (id : Nat) (method : String) (args : List Value) :
    Oblivious (bufferMethod id method args) := by
  unfold bufferMethod
  cases args with
  | nil => exact .throw _
  | cons place rest =>
    refine .bind (Quiet.converted _).oblivious fun field => .get_bind (fun w => ?_) fun _ _ => rfl
    dsimp only
    by_cases hrange : field < 0 ∨ ((w.buffer id).layout.length : Int) ≤ field
    · -- there is no such field, and nothing is done
      rw [if_pos hrange]
      exact fun _ _ h => ⟨rfl, h⟩
    · rw [if_neg hrange]
      split
      -- two methods change the buffer, and the others read it or fail
      case h_8 => exact bufferWrite_oblivious ..
      case h_9 => split <;> first | exact bufferAdd_oblivious .. | exact .throw _
      all_goals first | exact .pure _ | exact .throw _

theorem invoke_oblivious (receiver : Value) (method : String) (args : List Value) :
    Oblivious (invoke receiver method args) := by
  unfold invoke
  split
  · exact .throw _
  · exact (quiet_factMethod _ _ _).oblivious
  · exact bufferMethod_oblivious _ _ _
  · exact (quiet_vectorMethod _ _ _).oblivious
  · exact (quiet_lookAndLift fun w p => valueMethod_blind w p _ _ _).oblivious

theorem newOf_oblivious (args : List Value) : Oblivious (newOf args) := by
  unfold newOf
  -- what is made is a vector, which is a copy, or a value
  split
  · refine .bind (Quiet.toVector _).oblivious fun v => ?_
    split
    · split
      · exact .throw _
      · exact .bind (Quiet.vectorAt _).oblivious fun _ =>
          .bind (Quiet.alloc _).oblivious fun _ => .pure _
    all_goals first | exact .pure _ | exact .throw _
  · exact .throw _

theorem routed_oblivious (natives : Natives) (f : Routed) (args : List Value) :
    Oblivious (routed natives f args) := by
  cases f with
  | call =>
    show Oblivious (invokeOf args)
    unfold invokeOf
    split
    · exact invoke_oblivious _ _ _
    · exact .throw _
  | static =>
    show Oblivious (staticOf natives args)
    unfold staticOf
    split
    · exact .throw _
    · exact (quiet_static natives _ _).oblivious
  | new => exact newOf_oblivious args
  | convert =>
    show Oblivious (convertOf args)
    unfold convertOf
    split
    · exact (quiet_convert _ _).oblivious
    · exact .throw _
  | quotient => exact .lift _

/-- Cutting a list to bounds that may be missing. -/
theorem cut_oblivious {α : Type} (bounds : Option (Nat × Nat)) (items : List α) :
    Oblivious (match bounds with
      | some (a, b) => pure ((items.take b).drop a)
      | none => throw .misfit : Run (List α)) := by
  cases bounds with
  | none => exact .throw _
  | some ab => exact .pure _

theorem sliceOf_oblivious (w : World) (v start : Value) (stop : Option Value) :
    Oblivious (sliceOf w v start stop) := by
  unfold sliceOf
  dsimp only
  split
  · exact (cut_oblivious _ _).map
  · exact .bind (cut_oblivious _ _) fun _ => (Quiet.list _).oblivious
  · exact (cut_oblivious _ _).map
  · exact (cut_oblivious _ _).map
  · exact .bind (cut_oblivious _ _) fun _ => (Quiet.alloc _).oblivious.map
  · exact .bind (cut_oblivious _ _) fun _ => (Quiet.alloc _).oblivious.map
  · exact .throw _

/-! ## Formulas -/

/-- An operator that looks at the world as equality does. -/
theorem equality_blind (x y : Formula) (w : World) (p : List String) :
    equality x y { w with programs := p } = equality x y w := by
  funext a b
  unfold equality
  split
  · rfl
  · exact binary_blind w p .eq a b

variable (natives : Natives) (env : Env)

mutual

/-- **The value of a formula does not depend on what is remembered.** -/
theorem eval_oblivious : ∀ f : Formula, Oblivious (eval natives env f)
  | .null | .bool _ | .int _ | .float _ | .text _ | .variable _ | .unbound => by
    rw [eval]
    exact .pure _
  | .oversized => by
    rw [eval]
    exact .throw _
  | .unary op x => by
    rw [eval]
    exact .bind (eval_oblivious x) fun _ => .lift _
  | .cond c yes no => by
    rw [eval]
    refine .bind (eval_oblivious c) fun _ => .bind (.lift _) fun b => ?_
    cases b with
    | true => exact eval_oblivious yes
    | false => exact eval_oblivious no
  | .list items => by
    rw [eval]
    exact .bind (evalAll_oblivious items) fun _ => (Quiet.list _).oblivious
  | .call f args => by
    rw [eval]
    exact .bind (evalAll_oblivious args) fun _ => routed_oblivious natives f _
  | .builtin f args => by
    rw [eval]
    refine .bind (evalAll_oblivious args) fun _ => .get_bind (fun w => ?_) fun _ _ => rfl
    split
    · exact .pure _
    · exact .throw _
  | .apply callee args => by
    rw [eval]
    exact .bind (evalAll_oblivious args) fun _ => .bind (eval_oblivious callee) fun _ => .throw _
  | .part x key => by
    rw [eval]
    refine .bind (eval_oblivious x) fun _ => .bind (eval_oblivious key) fun _ =>
      .get_bind (fun w => ?_) fun _ _ => rfl
    split
    · exact .pure _
    · exact .throw _
  | .slice x start stop => by
    rw [eval]
    exact .bind (eval_oblivious x) fun _ => .bind (eval_oblivious stop) fun _ =>
      .bind (eval_oblivious start) fun _ =>
      .get_bind (fun w => sliceOf_oblivious w _ _ _) fun _ _ => rfl
  | .tail x start => by
    rw [eval]
    exact .bind (eval_oblivious x) fun _ => .bind (eval_oblivious start) fun _ =>
      .get_bind (fun w => sliceOf_oblivious w _ _ _) fun _ _ => rfl
  | .truth x => by
    rw [eval]
    exact eval_oblivious x
  | .among x _ | .amongInts x _ => by
    rw [eval]
    exact .bind (eval_oblivious x) fun _ => .lift _
  -- the connectives may leave out their second operand
  | .binary .and x y => by
    rw [eval]
    refine .bind (eval_oblivious x) fun _ => .bind (.lift _) fun b => ?_
    cases b with
    | true => exact (eval_oblivious y).map
    | false => exact .pure _
  | .binary .or x y => by
    rw [eval]
    refine .bind (eval_oblivious x) fun _ => .bind (.lift _) fun b => ?_
    cases b with
    | true => exact .pure _
    | false => exact (eval_oblivious y).map
  | .binary .orElse x y => by
    rw [eval]
    refine .bind (eval_oblivious x) fun _ => ?_
    split
    · exact eval_oblivious y
    · exact .pure _
  -- equality compares vectors by what the heap holds
  | .binary .eq x y => by
    rw [eval]
    exact .bind (eval_oblivious x) fun _ => .bind (eval_oblivious y) fun _ =>
      .get_bind (fun _ => .lift _) fun w p => by rw [equality_blind]
  | .binary .ne x y => by
    rw [eval]
    exact .bind (eval_oblivious x) fun _ => .bind (eval_oblivious y) fun _ =>
      .get_bind (fun _ => .bind (.lift _) fun _ => .lift _) fun w p => by rw [equality_blind]
  | .binary .add x y | .binary .sub x y | .binary .mul x y | .binary .div x y | .binary .rem x y
  | .binary .pow x y | .binary .lt x y | .binary .le x y | .binary .gt x y | .binary .ge x y
  | .binary .isIn x y | .binary .contains x y | .binary .startsWith x y | .binary .endsWith x y
  | .binary .fits x y | .binary .range x y => by
    simp only [eval]
    exact .bind (eval_oblivious x) fun _ => .bind (eval_oblivious y) fun _ =>
      (quiet_binary _ _ _).oblivious

theorem evalAll_oblivious : ∀ fs : List Formula, Oblivious (evalAll natives env fs)
  | [] => by
    rw [evalAll]
    exact .pure _
  | f :: fs => by
    rw [evalAll]
    exact .bind (eval_oblivious f) fun _ => .bind (evalAll_oblivious fs) fun _ => .pure _

end

/-! ## Statements -/

theorem evaluate_oblivious (x : Term) : Oblivious (evaluate natives env x) := by
  unfold evaluate
  refine .bind (.lift _) fun s => ?_
  split
  · exact .throw _
  · exact .bind (.remember s) fun _ => eval_oblivious natives env _

mutual

theorem execStmt_oblivious (env : Env) : ∀ s : Stmt, Oblivious (execStmt natives env s)
  | .decl type name value => by
    rw [execStmt]
    exact .bind (evaluate_oblivious natives env value) fun v =>
      .bind ((quiet_convert type v).oblivious.rethrow _) fun _ => .pure _
  | .run x => by
    rw [execStmt]
    exact .bind (evaluate_oblivious natives env x) fun _ => .pure _
  | .cond c yes no => by
    rw [execStmt]
    refine .bind (evaluate_oblivious natives env c) fun _ =>
      .bind (Quiet.converted _).oblivious fun b => ?_
    cases b with
    | true => exact exec_oblivious env yes
    | false => exact exec_oblivious env no
  | .ret value => by
    rw [execStmt]
    exact (evaluate_oblivious natives env value).map
  | .raw _ | .hole => by
    rw [execStmt]
    exact .throw _

/-- **What statements do does not depend on what is remembered.** -/
theorem exec_oblivious (env : Env) : ∀ ss : List Stmt, Oblivious (exec natives env ss)
  | [] => by
    rw [exec]
    exact .pure _
  | s :: ss => by
    rw [exec]
    refine .bind (execStmt_oblivious env s) fun flow => ?_
    cases flow with
    | next env => exact exec_oblivious env ss
    | done v => exact .pure _

end

end FactFold.Machine
