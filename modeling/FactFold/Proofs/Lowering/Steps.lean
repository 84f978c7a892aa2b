import FactFold.Proofs.Expr.Values
import FactFold.Proofs.Function.Caching

/-!
# The steps of a lowering

Lowering an expression is a sequence of a few sorts of steps: results and failures, imports that are
added, and calls that are resolved. A property of steps that is kept when steps follow one another
(`Compile.Sequential`) and that these sorts of steps have (`Lowering.Stepwise`) is therefore one of
every lowering (`Stepwise.node`). Properties of the workspace a lowering leaves, and relations between
two lowerings, are instances.
-/

namespace FactFold

namespace Compile

/-- A property of steps that holds of results and failures and is kept when steps follow one
another. -/
structure Sequential (P : ∀ {α : Type}, Compile α → Prop) : Prop where
  pure : ∀ {α : Type} (a : α), P (pure a : Compile α)
  throw : ∀ {α : Type} (e : Failure), P (throw e : Compile α)
  bind : ∀ {α β : Type} {x : Compile α} {k : α → Compile β}, P x → (∀ a, P (k a)) → P (x >>= k)

theorem Sequential.lift {P : ∀ {α : Type}, Compile α → Prop} (hP : Sequential P) {α : Type}
    (x : Except Failure α) : P (liftM x : Compile α) := by
  cases x with
  | error e => exact hP.throw e
  | ok a => exact hP.pure a

end Compile

namespace Lowering

open Compile (Sequential)

/-- Every sort of step of a lowering in the environment that calls only the given functions has the
property. -/
structure Stepwise (env : LoweringEnv) (functions : List Function)
    (P : ∀ {α : Type}, Compile α → Prop) : Prop extends Sequential P where
  addImport : ∀ name : String, P (Compile.accumulate fun a => a.addImport name)
  resolve : ∀ {f : Function} {service : Option MetadataService}, f ∈ functions →
    env.functions = some service → ∀ args : List TypedTerm, P (f.resolve service args)

namespace Stepwise

variable {env : LoweringEnv} {functions : List Function} {P : ∀ {α : Type}, Compile α → Prop}
  (hP : Stepwise env functions P)

include hP

theorem lift {α : Type} (x : Except Failure α) : P (liftM x : Compile α) := hP.toSequential.lift x

theorem constant (c : Constant) : P (Lowering.constant c) := by
  unfold Lowering.constant
  cases constantImport? c with
  | none => exact hP.pure _
  | some name => exact hP.bind (hP.addImport name) fun _ => hP.pure _

theorem column (columns : List Column) (c : Column) : P (Lowering.column env columns c) := by
  unfold Lowering.column
  cases env.schema.lookup c.name with
  | none => exact hP.throw _
  | some t =>
    simp only
    split
    · exact hP.throw _
    · exact hP.pure _

theorem operator (op : Operator) (x y : Element) : P (Lowering.operator op x y) := by
  unfold Lowering.operator
  -- the operator applies or fails; a call on vectors needs an import
  refine hP.bind (hP.lift _) fun e => ?_
  split
  · exact hP.bind (hP.addImport _) fun _ => hP.pure _
  · exact hP.pure _

variable (columns : List Column)

mutual

/-- **Lowering is nothing but such steps.** -/
theorem node : ∀ {n : Node}, n.callees ⊆ functions → P (Lowering.node env columns n)
  | .column c, _ => by
    rw [Lowering.node]
    exact hP.column columns c
  | .constant c, _ => by
    rw [Lowering.node]
    exact hP.constant c
  | .arithmetic op l r, hn => by
    obtain ⟨hl, hr⟩ := List.append_subset.1 hn
    rw [Lowering.node]
    exact hP.bind (node hl) fun x => hP.bind (node hr) fun y => hP.operator _ x y
  | .comparison op l r, hn => by
    obtain ⟨hl, hr⟩ := List.append_subset.1 hn
    rw [Lowering.node]
    exact hP.bind (node hl) fun x => hP.bind (node hr) fun y => hP.operator _ x y
  | .guarded op l r body, hn => by
    obtain ⟨hn, hbody⟩ := List.append_subset.1 hn
    obtain ⟨hl, hr⟩ := List.append_subset.1 hn
    rw [Lowering.node]
    exact hP.bind (node hl) fun x => hP.bind (node hr) fun y => hP.bind (hP.operator _ x y) fun _ =>
      hP.bind (node hbody) fun _ => hP.lift _
  | .choice op l r yes no, hn => by
    obtain ⟨hn, hno⟩ := List.append_subset.1 hn
    obtain ⟨hn, hyes⟩ := List.append_subset.1 hn
    obtain ⟨hl, hr⟩ := List.append_subset.1 hn
    rw [Lowering.node]
    exact hP.bind (node hl) fun x => hP.bind (node hr) fun y => hP.bind (hP.operator _ x y) fun _ =>
      hP.bind (node hyes) fun _ => hP.bind (node hno) fun _ => hP.lift _
  | .call f args, hn => by
    obtain ⟨hf, hargs⟩ := List.cons_subset.1 hn
    rw [Lowering.node]
    cases hservice : env.functions with
    | none => exact hP.throw _
    | some service =>
      exact hP.bind (arguments hargs) fun terms => hP.bind (hP.resolve hf hservice terms) fun _ =>
        hP.pure _

theorem arguments : ∀ {args : List Node}, Node.calleesOf args ⊆ functions →
    P (Lowering.arguments env columns args)
  | [], _ => by
    rw [Lowering.arguments]
    exact hP.pure _
  | n :: args, hn => by
    obtain ⟨hn, hargs⟩ := List.append_subset.1 hn
    rw [Lowering.arguments]
    exact hP.bind (node hn) fun _ => hP.bind (hP.lift _) fun _ => hP.bind (arguments hargs) fun _ =>
      hP.pure _

end

end Stepwise

end Lowering

end FactFold
