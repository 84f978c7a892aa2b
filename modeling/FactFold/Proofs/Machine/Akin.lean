import FactFold.Proofs.Machine.Renaming

/-!
# Runs that are akin

Two runs are akin when they end in the same way in worlds that are alike: with related results, or
with the same fault. One fault quotes the source of an expression, that of an expression the evaluator
rejects; it counts as the same whatever source it quotes.

A renamed expression runs akin to the expression (`evaluate_rename`), and so do renamed statements
(`exec_rename`), as long as the environments agree on the names that are known. What else the
environments hold does not matter: an expression is compared with its renaming by way of an
environment that holds the known names only. Statements are tame when they mention nothing that a
declaration before them hides under its new name.
-/

namespace FactFold.Machine

open Run (Oblivious)

/-! ## Results -/

/-- Results that are related, or faults that are. -/
inductive Match {ε α β : Type} (Q : ε → ε → Prop) (P : α → β → Prop) :
    Except ε α → Except ε β → Prop
  | ok {a : α} {b : β} (h : P a b) : Match Q P (.ok a) (.ok b)
  | error {e e' : ε} (h : Q e e') : Match Q P (.error e) (.error e')

namespace Match

variable {ε α β : Type} {Q : ε → ε → Prop} {P P' : α → β → Prop}

theorem mono {r : Except ε α} {r' : Except ε β} (h : Match Q P r r') (hP : ∀ a b, P a b → P' a b) :
    Match Q P' r r' := by
  cases h with
  | ok h => exact .ok (hP _ _ h)
  | error h => exact .error h

theorem symm {R : β → α → Prop} {r : Except ε α} {r' : Except ε β} (h : Match Q P r r')
    (hQ : ∀ {e e'}, Q e e' → Q e' e) (hP : ∀ {a b}, P a b → R b a) : Match Q R r' r := by
  cases h with
  | ok h => exact .ok (hP h)
  | error h => exact .error (hQ h)

theorem trans {γ : Type} {P₁ : β → γ → Prop} {P₂ : α → γ → Prop} {r : Except ε α}
    {r' : Except ε β} {r'' : Except ε γ} (h : Match Q P r r') (h' : Match Q P₁ r' r'')
    (hQ : ∀ {e e' e''}, Q e e' → Q e' e'' → Q e e'')
    (hP : ∀ {a b c}, P a b → P₁ b c → P₂ a c) : Match Q P₂ r r'' := by
  cases h with
  | ok h =>
    cases h' with
    | ok h' => exact .ok (hP h h')
  | error h =>
    cases h' with
    | error h' => exact .error (hQ h h')

end Match

/-- The same fault, or an expression was rejected in both runs. -/
def Fault.Akin (e e' : Fault) : Prop := e = e' ∨ ∃ s s', e = .rejected s ∧ e' = .rejected s'

theorem Fault.Akin.symm {e e' : Fault} (h : e.Akin e') : e'.Akin e := by
  obtain rfl | ⟨s, s', rfl, rfl⟩ := h
  · exact .inl rfl
  · exact .inr ⟨s', s, rfl, rfl⟩

theorem Fault.Akin.trans {e e' e'' : Fault} (h : e.Akin e') (h' : e'.Akin e'') : e.Akin e'' := by
  obtain rfl | ⟨s, s', rfl, rfl⟩ := h
  · exact h'
  · -- which expressions were rejected does not matter
    obtain rfl | ⟨t, t', -, rfl⟩ := h'
    · exact .inr ⟨s, s', rfl, rfl⟩
    · exact .inr ⟨s, t', rfl, rfl⟩

namespace Run

variable {α β γ δ : Type} {P : α → β → Prop} {x : Run α} {y : Run β}

/-- From worlds that are alike both steps come to related results, or to faults that are akin, and
leave worlds that are alike. -/
def Akin (P : α → β → Prop) (x : Run α) (y : Run β) : Prop :=
  ∀ ⦃w u : World⦄, w.Alike u →
    Match Fault.Akin P (x.runIn w).1 (y.runIn u).1 ∧ (x.runIn w).2.Alike (y.runIn u).2

namespace Akin

theorem pure {a : α} {b : β} (h : P a b) : Akin P (pure a) (pure b) := fun _ _ hw => ⟨.ok h, hw⟩

theorem throw {e e' : Fault} (h : e.Akin e') : Akin P (throw e) (throw e') :=
  fun _ _ hw => ⟨.error h, hw⟩

theorem bind {Q : γ → δ → Prop} {k : α → Run γ} {l : β → Run δ} (hx : Akin P x y)
    (hk : ∀ a b, P a b → Akin Q (k a) (l b)) : Akin Q (x >>= k) (y >>= l) := by
  intro w u hw
  obtain ⟨hresult, hworld⟩ := hx hw
  rw [runIn_bind, runIn_bind]
  rcases hrun : x.runIn w with ⟨r, w'⟩
  rcases hrun' : y.runIn u with ⟨r', u'⟩
  rw [hrun, hrun'] at hresult hworld
  cases hresult with
  | ok h => exact hk _ _ h hworld
  | error h => exact ⟨.error h, hworld⟩

/-- A step that does not look at the remembered sources is akin to itself. -/
theorem of_oblivious {x : Run α} (hx : Oblivious x) : Akin (· = ·) x x := by
  intro w u hw
  obtain ⟨hresult, hworld⟩ := hx hw
  refine ⟨?_, hworld⟩
  rw [← hresult]
  cases (x.runIn w).1 with
  | ok a => exact .ok rfl
  | error e => exact .error (.inl rfl)

theorem symm {x y : Run α} (h : Akin (· = ·) x y) : Akin (· = ·) y x := by
  intro w u hw
  obtain ⟨hresult, hworld⟩ := h hw.symm
  exact ⟨hresult.symm .symm Eq.symm, hworld.symm⟩

theorem trans {x y z : Run α} (h : Akin (· = ·) x y) (h' : Akin (· = ·) y z) :
    Akin (· = ·) x z := by
  intro w u hw
  obtain ⟨hresult, hworld⟩ := h (.refl w)
  obtain ⟨hresult', hworld'⟩ := h' hw
  exact ⟨hresult.trans hresult' .trans Eq.trans, hworld.trans hworld'⟩

theorem mono {P' : α → β → Prop} (h : Akin P x y) (hP : ∀ a b, P a b → P' a b) : Akin P' x y :=
  fun _ _ hw => ⟨(h hw).1.mono hP, (h hw).2⟩

end Akin

end Run

open Run (Akin)

/-! ## Expressions -/

/-- Remembering different sources leaves worlds that are alike. -/
theorem remember_akin (s s' : String) :
    Akin (· = ·) (modify fun w => w.remember s : Run Unit) (modify fun w => w.remember s') :=
  fun w u hw => ⟨.ok rfl, (World.Alike.remember w s).trans (hw.trans (World.Alike.remember u s').symm)⟩

variable (natives : Natives) {σ : String → String} {env env' : Env}

/-- A renamed expression runs akin to the expression where every name stands for the same as its new
name. -/
theorem evaluate_akin (h : Reads σ env env') {scope : List String} {x : Term}
    (hdirect : Direct scope x)
    (hnew : ∀ name, .ident name ∈ x.parts → (σ name).toList.all isNameChar = true) :
    Akin (· = ·) (evaluate natives env x) (evaluate natives env' (x.rename σ)) := by
  have hsame := source_rename σ x
  unfold evaluate
  -- the two sources differ, but both are there or both fail in the same way
  cases hs : source x with
  | error e =>
    cases hs' : source (x.rename σ) with
    | error e' =>
      rw [hs, hs'] at hsame
      cases hsame
      exact .throw (.inl rfl)
    | ok s' =>
      rw [hs, hs'] at hsame
      cases hsame
  | ok s =>
    cases hs' : source (x.rename σ) with
    | error e' =>
      rw [hs, hs'] at hsame
      cases hsame
    | ok s' =>
      obtain ⟨f, hf⟩ := ofTerm?_of_source hs hdirect
      have hf' : Formula.ofTerm? (x.rename σ) = some (f.rename σ) := by
        rw [ofTerm?_rename x fun name hp => ⟨(hdirect.name hp).2, hnew name hp⟩, hf]
        rfl
      have hprogram : program? x s = if f.isAccepted then some f.simplify else none := by
        simp [program?, hf]
      have hprogram' : program? (x.rename σ) s' =
          if f.isAccepted then some (f.simplify.rename σ) else none := by
        simp [program?, hf', Formula.isAccepted_rename, Formula.simplify_rename]
      refine Akin.bind (P := fun a b => a = s ∧ b = s') (.pure ⟨rfl, rfl⟩) ?_
      rintro _ _ ⟨rfl, rfl⟩
      rw [hprogram, hprogram']
      -- the check looks at no name, so it accepts both or rejects both
      cases f.isAccepted with
      | false => exact .throw (.inr ⟨_, _, rfl, rfl⟩)
      | true =>
        refine .bind (remember_akin _ _) fun _ _ _ => ?_
        rw [eval_rename natives h]
        exact .of_oblivious (eval_oblivious natives env _)

/-- Some name is bound to nothing. -/
theorem exists_unbound (env : Env) : ∃ name, env.lookup name = none := by
  obtain ⟨name, hname⟩ := Infinite.exists_notMem_finset (env.map Prod.fst).toFinset
  refine ⟨name, List.lookup_eq_none_iff.2 fun p hp => bne_iff_ne.2 ?_⟩
  rintro rfl
  exact hname (by simpa using ⟨p.2, hp⟩)

theorem lookup_filter (scope : List String) (env : Env) (name : String) :
    List.lookup name (env.filter fun p => scope.contains p.1) =
      if name ∈ scope then env.lookup name else none := by
  induction env with
  | nil => simp
  | cons entry env ih =>
    obtain ⟨key, v⟩ := entry
    rw [List.filter_cons]
    -- an entry for another name is passed over, kept or not
    by_cases hname : name = key
    · subst hname
      by_cases hscope : name ∈ scope
      · simp [hscope]
      · simpa [hscope] using ih
    · have hne : (name == key) = false := beq_false_of_ne hname
      by_cases hkey : key ∈ scope
      · simpa [hkey, List.lookup_cons, hne] using ih
      · simpa [hkey, List.lookup_cons, hne] using ih

/-- The names of a scope stand for the same as their new names. -/
def ReadsIn (σ : String → String) (scope : List String) (env env' : Env) : Prop :=
  ∀ name ∈ scope, env.lookup name = env'.lookup (σ name)

/-- Plain names get plain names. -/
def KeepsPlain (σ : String → String) : Prop :=
  ∀ name, name.toList.all isNameChar = true → (σ name).toList.all isNameChar = true

/-- **A renamed expression runs akin to the expression** where the names it knows stand for the same
as their new names. -/
theorem evaluate_rename (hσ : KeepsPlain σ) {scope : List String} (h : ReadsIn σ scope env env')
    {x : Term} (hdirect : Direct scope x) :
    Akin (· = ·) (evaluate natives env x) (evaluate natives env' (x.rename σ)) := by
  obtain ⟨unbound, hunbound⟩ := exists_unbound env
  obtain ⟨unbound', hunbound'⟩ := exists_unbound env'
  -- in between there is an environment with nothing but the known names
  have hfirst : Reads (fun name => if name ∈ scope then name else unbound)
      (env.filter fun p => scope.contains p.1) env := by
    intro name
    rw [lookup_filter]
    by_cases hname : name ∈ scope <;> simp [hname, hunbound]
  have hsecond : Reads (fun name => if name ∈ scope then σ name else unbound')
      (env.filter fun p => scope.contains p.1) env' := by
    intro name
    rw [lookup_filter]
    by_cases hname : name ∈ scope
    · simp [hname, h name hname]
    · simp [hname, hunbound']
  -- on the names that occur both renamings are what they should be
  have hsame : x.rename (fun name => if name ∈ scope then name else unbound) = x :=
    (Term.rename_congr (τ := id) x fun name hp => if_pos (hdirect.name hp).1).trans (Term.rename_id x)
  have hrenamed : x.rename (fun name => if name ∈ scope then σ name else unbound') = x.rename σ :=
    Term.rename_congr x fun name hp => if_pos (hdirect.name hp).1
  have hleft := evaluate_akin natives hfirst hdirect fun name hp => by
    rw [if_pos (hdirect.name hp).1]
    exact (hdirect.name hp).2
  have hright := evaluate_akin natives hsecond hdirect fun name hp => by
    rw [if_pos (hdirect.name hp).1]
    exact hσ name (hdirect.name hp).2
  rw [hsame] at hleft
  rw [hrenamed] at hright
  exact hleft.symm.trans hright

theorem ReadsIn.mono {scope scope' : List String} (h : ReadsIn σ scope env env')
    (hsub : scope' ⊆ scope) : ReadsIn σ scope' env env' := fun name hname => h name (hsub hname)

/-- A local variable that keeps its name is known, and hides what has that name after renaming. -/
theorem ReadsIn.declare {scope : List String} {name : String} (h : ReadsIn σ scope env env')
    (hname : σ name = name) (v : Value) :
    ReadsIn σ (name :: Stmt.visible σ [name] scope) ((name, v) :: env) ((name, v) :: env') := by
  intro n hn
  rcases List.mem_cons.1 hn with rfl | hn
  · rw [hname, List.lookup_cons_self, List.lookup_cons_self]
  · obtain ⟨hscope, hhidden⟩ := Stmt.mem_visible.1 hn
    have hnew : σ n ≠ name := by simpa using hhidden
    -- what is still visible has another name, before and after
    have hold : n ≠ name := fun he => hnew (by rw [he, hname])
    rw [List.lookup_cons, beq_false_of_ne hold, List.lookup_cons, beq_false_of_ne hnew]
    exact h n hscope

/-! ## Statements -/

/-- Statements end alike: they return the same value, or go on in environments that agree on the
known names. -/
inductive Flow.Agree (σ : String → String) (scope : List String) : Flow → Flow → Prop
  | next {env env' : Env} (h : ReadsIn σ scope env env') : Agree σ scope (.next env) (.next env')
  | done (v : Value) : Agree σ scope (.done v) (.done v)

theorem Flow.Agree.mono {scope scope' : List String} (hsub : scope' ⊆ scope) (f g : Flow)
    (h : Agree σ scope f g) : Agree σ scope' f g := by
  cases h with
  | next h => exact .next (h.mono hsub)
  | done v => exact .done v

mutual

/-- The statement is written with known names, directly, and declares names that are kept. -/
def Tame (σ : String → String) (scope : List String) : Stmt → Prop
  | .decl _ name value => σ name = name ∧ Direct scope value
  | .run x => Direct scope x
  | .cond c yes no => Direct scope c ∧ TameAll σ scope yes ∧ TameAll σ scope no
  | .ret value => Direct scope value
  | .raw _ | .hole => True

/-- The same of statements, each of which knows the names that are not hidden where it stands. -/
def TameAll (σ : String → String) (scope : List String) : List Stmt → Prop
  | [] => True
  | s :: rest => Tame σ scope s ∧ TameAll σ (s.after σ scope) rest

end

attribute [simp] Tame TameAll

mutual

/-- A renamed statement runs akin to the statement. -/
theorem execStmt_rename (hσ : KeepsPlain σ) : ∀ (s : Stmt) {scope : List String} {env env' : Env},
    Tame σ scope s → ReadsIn σ scope env env' →
      Akin (Flow.Agree σ (s.after σ scope)) (execStmt natives env s)
        (execStmt natives env' (s.rename σ))
  | .decl type name value, scope, env, env', htame, h => by
    rw [Stmt.rename, execStmt, execStmt]
    refine .bind (evaluate_rename natives hσ h htame.2) ?_
    rintro v _ rfl
    refine .bind (.of_oblivious ((quiet_convert type v).oblivious.rethrow _)) ?_
    rintro v _ rfl
    exact .pure (.next (h.declare htame.1 v))
  | .run x, scope, env, env', htame, h => by
    rw [Stmt.rename, execStmt, execStmt]
    exact .bind (evaluate_rename natives hσ h htame) fun _ _ _ =>
      .pure (.next (h.mono (by simp [Stmt.visible])))
  | .cond c yes no, scope, env, env', ⟨hc, hyes, hno⟩, h => by
    rw [Stmt.rename, execStmt, execStmt]
    refine .bind (evaluate_rename natives hσ h hc) ?_
    rintro v _ rfl
    refine .bind (.of_oblivious (Run.Quiet.converted _).oblivious) ?_
    rintro b _ rfl
    cases b with
    | true =>
      -- names hidden in the branch that was not taken are given up as well
      refine (exec_rename hσ yes hyes h).mono
        (Flow.Agree.mono fun name hname => ?_)
      simp only [Stmt.after, Stmt.mem_visible, Stmt.locals, List.mem_append] at hname ⊢
      tauto
    | false =>
      refine (exec_rename hσ no hno h).mono
        (Flow.Agree.mono fun name hname => ?_)
      simp only [Stmt.after, Stmt.mem_visible, Stmt.locals, List.mem_append] at hname ⊢
      tauto
  | .ret value, scope, env, env', htame, h => by
    rw [Stmt.rename, execStmt, execStmt, map_eq_pure_bind, map_eq_pure_bind]
    refine .bind (evaluate_rename natives hσ h htame) ?_
    rintro v _ rfl
    exact .pure (.done v)
  | .raw _, _, _, _, _, _ | .hole, _, _, _, _, _ => by
    rw [Stmt.rename, execStmt, execStmt]
    exact .throw (.inl rfl)

/-- **Renamed statements run akin to the statements.** -/
theorem exec_rename (hσ : KeepsPlain σ) : ∀ (ss : List Stmt) {scope : List String}
    {env env' : Env}, TameAll σ scope ss → ReadsIn σ scope env env' →
      Akin (Flow.Agree σ (Stmt.visible σ (Stmt.localsAll ss) scope)) (exec natives env ss)
        (exec natives env' (Stmt.renameAll σ ss))
  | [], scope, env, env', _, h => by
    rw [Stmt.renameAll, exec, exec]
    exact .pure (.next (h.mono (by simp [Stmt.visible])))
  | s :: ss, scope, env, env', ⟨hs, hss⟩, h => by
    rw [Stmt.renameAll, exec, exec]
    refine .bind (execStmt_rename hσ s hs h) ?_
    rintro _ _ (⟨hnext⟩ | ⟨v⟩)
    · -- what is visible after all statements is visible after the first
      refine (exec_rename hσ ss hss hnext).mono
        (Flow.Agree.mono fun name hname => ?_)
      simp only [Stmt.mem_visible, Stmt.localsAll, List.mem_append, not_or] at hname ⊢
      exact ⟨Stmt.visible_subset_after σ scope s (Stmt.mem_visible.2 ⟨hname.1, hname.2.1⟩),
        hname.2.2⟩
    · exact .pure (.done v)

end

/-! ## Calls that end alike -/

/-- The same reason, or faults of the same routine that are akin. -/
inductive RunError.Akin : RunError → RunError → Prop
  | refl (e : RunError) : Akin e e
  | failed (routine : String) {f f' : Fault} (h : f.Akin f') :
      Akin (.failed routine f) (.failed routine f')
  | atFact (index : Nat) {e e' : RunError} (h : Akin e e') :
      Akin (.atFact index e) (.atFact index e')

theorem RunError.Akin.symm {e e' : RunError} (h : e.Akin e') : e'.Akin e := by
  induction h with
  | refl e => exact .refl e
  | failed routine h => exact .failed routine h.symm
  | atFact index _ ih => exact .atFact index ih

theorem RunError.Akin.trans {e e' e'' : RunError} (h : e.Akin e') (h' : e'.Akin e'') :
    e.Akin e'' := by
  induction h generalizing e'' with
  | refl e => exact h'
  | failed routine h =>
    cases h' with
    | refl => exact .failed routine h
    | failed _ h' => exact .failed routine (h.trans h')
  | atFact index h ih =>
    cases h' with
    | refl => exact .atFact index h
    | atFact _ h' => exact .atFact index (ih h')

/-- Two calls end alike: both succeed, or both fail for reasons that are akin, and the buffers they
leave are the same. -/
structure EndAlike (x y : Except RunError Unit × World) : Prop where
  result : Match RunError.Akin (· = ·) x.1 y.1
  world : x.2.Alike y.2

namespace EndAlike

variable {x y z : Except RunError Unit × World}

theorem symm (h : EndAlike x y) : EndAlike y x := ⟨h.result.symm .symm Eq.symm, h.world.symm⟩

theorem trans (h : EndAlike x y) (h' : EndAlike y z) : EndAlike x z :=
  ⟨h.result.trans h'.result .trans Eq.trans, h.world.trans h'.world⟩

end EndAlike

/-- A new record is the same in worlds that are alike. -/
theorem World.Alike.fact {w u : World} (h : w.Alike u) (row : List Value) :
    (w.fact row).1 = (u.fact row).1 ∧ (w.fact row).2.Alike (u.fact row).2 := by
  unfold World.fact
  rw [h.heap]
  exact ⟨rfl, rfl, h.buffers⟩

end FactFold.Machine
