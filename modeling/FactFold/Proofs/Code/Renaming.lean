import FactFold.Proofs.Code.Parts

/-!
# Renaming parameters

Code can be given other names for its parameters. Only the names that it mentions matter for that
(`rename_congr`), and local variables keep theirs.

The new name of a parameter may be the name of a local variable. The declaration of the variable then
hides the parameter from what follows, also from what follows the block the declaration stands in,
since all variables of a routine share one environment. What can still be mentioned after a statement
is `Stmt.after`.
-/

namespace FactFold

namespace Term

mutual

/-- The expression with other names. -/
def rename (σ : String → String) : Term → Term
  | .ident name => .ident (σ name)
  | .lit type value => .lit type value
  | .null => .null
  | .binary op x y => .binary op (x.rename σ) (y.rename σ)
  | .unary op x => .unary op (x.rename σ)
  | .call f args => .call f (renameAll σ args)
  | .invoke receiver m args => .invoke (receiver.rename σ) m (renameAll σ args)
  | .new type args => .new type (renameAll σ args)
  | .newArray element items => .newArray element (renameAll σ items)
  | .cast type x => .cast type (x.rename σ)
  | .cond c yes no => .cond (c.rename σ) (yes.rename σ) (no.rename σ)
  | .hole => .hole

/-- Each expression with other names. -/
def renameAll (σ : String → String) : List Term → List Term
  | [] => []
  | x :: rest => x.rename σ :: renameAll σ rest

end

attribute [simp] rename renameAll

theorem renameAll_eq_map (σ : String → String) (xs : List Term) :
    renameAll σ xs = xs.map (rename σ) := by
  induction xs with
  | nil => rfl
  | cons x xs ih => simp [ih]

mutual

/-- Renamings that agree on the names of an expression rename it alike. -/
theorem rename_congr {σ τ : String → String} : ∀ x : Term,
    (∀ name, .ident name ∈ x.parts → σ name = τ name) → x.rename σ = x.rename τ
  | .ident name, h => by simp [h name (by simp)]
  | .lit .., _ | .null, _ | .hole, _ => by simp
  | .binary op x y, h => by
    simp only [rename, rename_congr x fun name hp => h name (by simp [hp]),
      rename_congr y fun name hp => h name (by simp [hp])]
  | .unary op x, h | .cast type x, h => by
    simp only [rename, rename_congr x fun name hp => h name (by simp [hp])]
  | .call f args, h | .new type args, h | .newArray element args, h => by
    simp only [rename, renameAll_congr args fun name hp => h name (by simp [hp])]
  | .invoke receiver m args, h => by
    simp only [rename, rename_congr receiver fun name hp => h name (by simp [hp]),
      renameAll_congr args fun name hp => h name (by simp [hp])]
  | .cond c yes no, h => by
    simp only [rename, rename_congr c fun name hp => h name (by simp [hp]),
      rename_congr yes fun name hp => h name (by simp [hp]),
      rename_congr no fun name hp => h name (by simp [hp])]

theorem renameAll_congr {σ τ : String → String} : ∀ xs : List Term,
    (∀ name, .ident name ∈ partsAll xs → σ name = τ name) → renameAll σ xs = renameAll τ xs
  | [], _ => rfl
  | x :: xs, h => by
    simp only [renameAll, rename_congr x fun name hp => h name (by simp [hp]),
      renameAll_congr xs fun name hp => h name (by simp [hp])]

end

mutual

theorem rename_id : ∀ x : Term, x.rename id = x
  | .ident _ | .lit .. | .null | .hole => by simp
  | .binary op x y => by simp [rename_id x, rename_id y]
  | .unary op x | .cast type x => by simp [rename_id x]
  | .call f args | .new type args | .newArray element args => by simp [renameAll_id args]
  | .invoke receiver m args => by simp [rename_id receiver, renameAll_id args]
  | .cond c yes no => by simp [rename_id c, rename_id yes, rename_id no]

theorem renameAll_id : ∀ xs : List Term, renameAll id xs = xs
  | [] => rfl
  | x :: xs => by simp [rename_id x, renameAll_id xs]

end

end Term

namespace Stmt

mutual

/-- The statement with other names. -/
def rename (σ : String → String) : Stmt → Stmt
  | .decl type name value => .decl type name (value.rename σ)
  | .run x => .run (x.rename σ)
  | .cond c yes no => .cond (c.rename σ) (renameAll σ yes) (renameAll σ no)
  | .ret value => .ret (value.rename σ)
  | .raw text => .raw text
  | .hole => .hole

/-- Each statement with other names. -/
def renameAll (σ : String → String) : List Stmt → List Stmt
  | [] => []
  | s :: rest => s.rename σ :: renameAll σ rest

end

mutual

/-- The names a statement declares, in its blocks too. -/
def locals : Stmt → List String
  | .decl _ name _ => [name]
  | .cond _ yes no => localsAll yes ++ localsAll no
  | _ => []

/-- The names that statements declare, in their blocks too. -/
def localsAll : List Stmt → List String
  | [] => []
  | s :: rest => s.locals ++ localsAll rest

end

/-- The names whose new ones declarations do not hide. -/
def visible (σ : String → String) (declared scope : List String) : List String :=
  scope.filter fun name => !declared.contains (σ name)

/-- The names known after a statement. -/
def after (σ : String → String) (scope : List String) : Stmt → List String
  | .decl _ name _ => name :: visible σ [name] scope
  | s => visible σ s.locals scope

attribute [simp] rename renameAll locals localsAll after

theorem mem_visible {σ : String → String} {declared scope : List String} {name : String} :
    name ∈ visible σ declared scope ↔ name ∈ scope ∧ σ name ∉ declared := by
  simp [visible]

/-- What no declaration in the statement hides is known after it. -/
theorem visible_subset_after (σ : String → String) (scope : List String) (s : Stmt) :
    visible σ s.locals scope ⊆ s.after σ scope := by
  cases s with
  | decl type name value => exact List.subset_cons_self _ _
  | _ => exact List.Subset.refl _

end Stmt

end FactFold
