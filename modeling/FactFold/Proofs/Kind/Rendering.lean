import FactFold.Kind.Builtin
import FactFold.Proofs.Expr.Values
import FactFold.Proofs.Lowering.Simulation
import FactFold.Proofs.Machine.Statements

/-!
# Routines rendered from templates

A kind of aggregation gives a template that consumes the code of one value. Rendering distributes it
over the conditions of an expression. What a template does to the buffers with any code at all
(`Consumes`) is therefore what the rendered routine does with the outcome of the expression
(`render_ok`): nothing where a guard fails, and the template's effect on the value elsewhere.
-/

namespace FactFold.Lowering

open Machine
open Machine.Run (Quiet Yields)

variable {s : Site} {natives : Natives} {env : Env} {fields : List Value}

/-- Given the code of any quiet step that yields integers, the template computes the value and has
the effect `E` of that value on the buffers. -/
def Consumes (natives : Natives) (env : Env) (template : Template)
    (E : Value → List Memory → List Memory → Prop) : Prop :=
  ∀ ⦃code : Term⦄ ⦃t : Static⦄ ⦃x : Run Value⦄, RunsAs natives env code t x → Quiet x →
    Yields x (fun v => v.isInteger = true) → ∀ ⦃w w' : World⦄ ⦃f : Flow⦄,
      (exec natives env (template code)).runIn w = (.ok f, w') →
        ∃ v u, x.runIn w = (.ok v, u) ∧ E v w.buffers w'.buffers

/-- The effect of an outcome: none without a value. -/
def effectOf (E : Value → List Memory → List Memory → Prop) :
    Option Value → List Memory → List Memory → Prop
  | none, before, after => after = before
  | some v, before, after => v.isInteger = true ∧ E v before after

/-- A conditional block that is all there is. -/
theorem exec_cond_ok {c : Term} {yes no : List Stmt} {f : Flow} {w w' : World}
    (h : (exec natives env [.cond c yes no]).runIn w = (.ok f, w')) :
    ∃ v b u g, (evaluate natives env c).runIn w = (.ok v, u) ∧ v.operand.toBool = .ok b ∧
      (exec natives env (if b then yes else no)).runIn u = (.ok g, w') := by
  obtain ⟨g, u, hs, hrest⟩ := exec_cons_ok h
  obtain ⟨v, b, u', hc, hb, hexec⟩ := cond_ok hs
  -- the block goes on or returns; nothing comes behind it either way
  cases g with
  | next env' =>
    obtain ⟨-, rfl⟩ := exec_nil_ok hrest
    exact ⟨v, b, u', _, hc, hb, hexec⟩
  | done r =>
    obtain ⟨-, rfl⟩ := hrest
    exact ⟨v, b, u', _, hc, hb, hexec⟩

/-- The condition of a rendered block decides as the comparison it is the code of. -/
theorem holds_of_evaluate (hb : s.Binds env fields) {op : Comparison} {l r : Node} {c : Element}
    {code : Term} (hc : Lowers s (.comparison op l r) c) (hv : c.value = .ok code) {v : Value}
    {b : Bool} {w u : World} (heval : (evaluate natives env code).runIn w = (.ok v, u))
    (hbool : v.operand.toBool = .ok b) :
    ∃ u', (Node.holds (s.meaning natives fields) op l r).runIn w = (.ok b, u') ∧ u.Alike u' ∧
      u.buffers = w.buffers := by
  have hm : (s.meaning natives fields).convention.Lawful := Convention.machine_lawful natives
  have hq := Node.quiet_value hm (.comparison op l r)
  have hy := Meaning.yields_comparison hm op l r (l.value (s.meaning natives fields))
    (r.value (s.meaning natives fields))
  obtain ⟨u', hu', halike, hbuffers⟩ := evaluate_quiet (hc.runsAs hb hv) hq heval
  -- a comparison yields a truth value, and it is the one the block has branched on
  rw [Node.value] at hu'
  obtain ⟨b', rfl⟩ := hy _ _ _ hu'
  obtain rfl : b' = b := Except.ok.inj hbool
  exact ⟨u', Run.runIn_bind_ok_iff.2 ⟨_, _, hu', rfl⟩, halike, hbuffers⟩

/-- A step that goes on after a condition, in a world alike. -/
theorem holds_then {m : Meaning} {op : Comparison} {l r : Node} {b : Bool} {w u u' v : World}
    {o : Option Value} {k : Bool → Run (Option Value)} (hk : Quiet (k b))
    (hh : (Node.holds m op l r).runIn w = (.ok b, u')) (halike : u.Alike u')
    (hrun : (k b).runIn u = (.ok o, v)) :
    ∃ v', (Node.holds m op l r >>= k).runIn w = (.ok o, v') := by
  obtain ⟨v', hv', -, -⟩ := halike.run_quiet hk hrun
  exact ⟨v', Run.runIn_bind_ok_iff.2 ⟨b, u', hh, hv'⟩⟩

/-- The element of an expression that is no condition is a single term. -/
theorem Lowers.single {n : Node} {e : Element} (h : Lowers s n e)
    (hguard : ∀ op l r body, n ≠ .guarded op l r body)
    (hchoice : ∀ op l r yes no, n ≠ .choice op l r yes no) : ∃ code t, e = .basic code t := by
  cases h with
  | column ht hi => exact ⟨_, _, rfl⟩
  | constant c => exact ⟨_, _, rfl⟩
  | arithmetic hl hr ha hb he =>
    unfold Operators.arithmetic at he
    split at he <;> cases he <;> exact ⟨_, _, rfl⟩
  | comparison hl hr ha hb he =>
    obtain ⟨-, -, rfl⟩ | ⟨-, rfl⟩ := comparison_code he <;> exact ⟨_, _, rfl⟩
  | guarded hc hb => exact (hguard _ _ _ _ rfl).elim
  | choice hc hy hn he => exact (hchoice _ _ _ _ _ rfl).elim
  | call ha => exact ⟨_, _, rfl⟩

/-- Induction on the conditions of an expression: it is a guard, a choice, or a single term. -/
@[elab_as_elim]
theorem Lowers.conditions {motive : ∀ (n : Node) (e : Element), Lowers s n e → Prop}
    (guarded : ∀ {op : Comparison} {l r body : Node} {c b : Element}
      (hc : Lowers s (.comparison op l r) c) (hb : Lowers s body b), motive body b hb →
        motive (.guarded op l r body) (.guarded c b) (.guarded hc hb))
    (choice : ∀ {op : Comparison} {l r yes no : Node} {c y n e : Element}
      (hc : Lowers s (.comparison op l r) c) (hy : Lowers s yes y) (hn : Lowers s no n)
      (he : Element.ternary c y (some n) = .ok e), motive yes y hy → motive no n hn →
        motive (.choice op l r yes no) e (.choice hc hy hn he))
    (single : ∀ {n : Node} {e : Element} (h : Lowers s n e),
      (∀ op l r body, n ≠ .guarded op l r body) →
        (∀ op l r yes no, n ≠ .choice op l r yes no) → motive n e h)
    {n : Node} {e : Element} (h : Lowers s n e) : motive n e h := by
  induction h using Lowers.above_calls with
  | column ht hi => exact single _ (by simp) (by simp)
  | constant c => exact single _ (by simp) (by simp)
  | arithmetic hl hr ha hb he => exact single _ (by simp) (by simp)
  | comparison hl hr ha hb he => exact single _ (by simp) (by simp)
  | guarded hc hb _ ih => exact guarded hc hb ih
  | choice hc hy hn he _ ihy ihn => exact choice hc hy hn he ihy ihn
  | call ha => exact single _ (by simp) (by simp)

/-- A single term of integral type is consumed by the template for numbers. -/
theorem render_single (hb : s.Binds env fields) {template : Template} {array : Option Template}
    {E : Value → List Memory → List Memory → Prop} (hT : Consumes natives env template E) {n : Node}
    {e : Element} {body : List Stmt} (hn : Lowers s n e)
    (hguard : ∀ op l r body, n ≠ .guarded op l r body)
    (hchoice : ∀ op l r yes no, n ≠ .choice op l r yes no)
    (ht : (n.type s.typing).isIntegral = true)
    (hf : Node.CallsIntegers natives n.callees)
    (hr : e.render (some template) array = .ok body) {w w' : World} {f : Flow}
    (h : (exec natives env body).runIn w = (.ok f, w')) :
    ∃ o u, (n.outcome (s.meaning natives fields)).runIn w = (.ok o, u) ∧
      effectOf E o w.buffers w'.buffers := by
  have hm : (s.meaning natives fields).convention.Lawful := Convention.machine_lawful natives
  obtain ⟨code, t, rfl⟩ := hn.single hguard hchoice
  -- the term has the type of the expression, so the template for numbers was taken
  have htype : t = n.type s.typing := hn.type_eq
  rw [← htype] at ht
  have hbody : template code = body := by
    cases t with
    | scalar k => exact Except.ok.inj hr
    | _ => cases ht
  rw [← hbody] at h
  have hy := Node.yields_integer hm n (by rwa [htype] at ht) hf
  obtain ⟨v, u, hv, hE⟩ := hT (hn.runsAs hb rfl) (Node.quiet_value hm n) hy h
  rw [Node.outcome_of_single _ hguard hchoice]
  exact ⟨some v, u, Run.runIn_map_ok_iff.2 ⟨v, hv, rfl⟩, hy _ _ _ hv, hE⟩

/-- **A rendered routine has the template's effect of the outcome of the expression.** -/
theorem render_ok (hb : s.Binds env fields) {template : Template} {array : Option Template}
    {E : Value → List Memory → List Memory → Prop} (hT : Consumes natives env template E) :
    ∀ {n : Node} {e : Element} {body : List Stmt}, Lowers s n e →
      (n.type s.typing).isIntegral = true →
      Node.CallsIntegers natives n.callees →
      e.render (some template) array = .ok body → ∀ {w w' : World} {f : Flow},
        (exec natives env body).runIn w = (.ok f, w') →
          ∃ o u, (n.outcome (s.meaning natives fields)).runIn w = (.ok o, u) ∧
            effectOf E o w.buffers w'.buffers := by
  intro n e body hn
  have hm : (s.meaning natives fields).convention.Lawful := Convention.machine_lawful natives
  induction hn using Lowers.conditions generalizing body with
  | @guarded op l r inner c e hc hin ih =>
    intro ht hf hr w w' f h
    obtain ⟨code, yes, hcode, hyes, rfl⟩ := render_guarded_ok hr
    obtain ⟨v, b, u, g, heval, hbool, hexec⟩ := exec_cond_ok h
    obtain ⟨u', hholds, halike, hbuffers⟩ := holds_of_evaluate hb hc hcode heval hbool
    rw [Node.outcome]
    cases b with
    | true =>
      rw [Node.type] at ht
      have hf' : Node.CallsIntegers natives inner.callees :=
        fun g hg => hf g (by simp [Node.callees, hg])
      -- the condition holds, and what remains is the routine of the guarded expression
      obtain ⟨o, u₂, ho, hE⟩ := ih ht hf' hyes hexec
      obtain ⟨v', hv'⟩ := holds_then
        (k := fun b => if b = true then inner.outcome (s.meaning natives fields) else pure none)
        (b := true) (Node.quiet_outcome hm inner) hholds halike ho
      exact ⟨o, v', hv', hbuffers ▸ hE⟩
    | false =>
      -- the guard fails, and the other block is empty
      obtain ⟨-, rfl⟩ := exec_nil_ok hexec
      exact ⟨none, u', Run.runIn_bind_ok_iff.2 ⟨false, u', hholds, rfl⟩, hbuffers⟩
  | @choice op l r yes no c y n e hc hyes hno he ihyes ihno =>
    intro ht hf hr w w' f h
    -- both branches are rendered with the same template, one into each block
    rw [(ternary_some_ok he).1] at hr
    obtain ⟨code, ys, ns, hcode, hys, hns, rfl⟩ := render_choice_ok hr
    obtain ⟨v, b, u, g, heval, hbool, hexec⟩ := exec_cond_ok h
    obtain ⟨u', hholds, halike, hbuffers⟩ := holds_of_evaluate hb hc hcode heval hbool
    rw [Node.outcome]
    rw [Node.type] at ht
    -- an integral choice has integral branches
    obtain ⟨hty, htn⟩ := integral_branches ht
    cases b with
    | true =>
      obtain ⟨o, u₂, ho, hE⟩ := ihyes hty (fun g hg => hf g (by simp [Node.callees, hg])) hys hexec
      obtain ⟨v', hv'⟩ := holds_then (k := fun b => if b = true then yes.outcome _ else no.outcome _)
        (b := true) (Node.quiet_outcome hm yes) hholds halike ho
      exact ⟨o, v', hv', hbuffers ▸ hE⟩
    | false =>
      obtain ⟨o, u₂, ho, hE⟩ := ihno htn (fun g hg => hf g (by simp [Node.callees, hg])) hns hexec
      obtain ⟨v', hv'⟩ := holds_then (k := fun b => if b = true then yes.outcome _ else no.outcome _)
        (b := false) (Node.quiet_outcome hm no) hholds halike ho
      exact ⟨o, v', hv', hbuffers ▸ hE⟩
  | single hn hguard hchoice =>
    intro ht hf hr w w' f h
    exact render_single hb hT hn hguard hchoice ht hf hr h

end FactFold.Lowering
