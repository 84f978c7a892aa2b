import FactFold.Code.Term

/-!
# Parts of code

The parts of code are its expressions with all the expressions below them. What a routine calls,
which names it mentions and which fields it reads are questions about its parts.

Code is scoped when each of its names is known where it stands: as a parameter, or as a local
variable declared before it in the same block or in a block around it.
-/

namespace FactFold

namespace Term

mutual

/-- The expression and the expressions below it. -/
def parts : Term → List Term
  | .ident name => [.ident name]
  | .lit type value => [.lit type value]
  | .null => [.null]
  | .binary op x y => .binary op x y :: (x.parts ++ y.parts)
  | .unary op x => .unary op x :: x.parts
  | .call f args => .call f args :: partsAll args
  | .invoke receiver m args => .invoke receiver m args :: (receiver.parts ++ partsAll args)
  | .new type args => .new type args :: partsAll args
  | .newArray element items => .newArray element items :: partsAll items
  | .cast type x => .cast type x :: x.parts
  | .cond c yes no => .cond c yes no :: (c.parts ++ (yes.parts ++ no.parts))
  | .hole => [.hole]

/-- The parts of each expression. -/
def partsAll : List Term → List Term
  | [] => []
  | x :: rest => x.parts ++ partsAll rest

end

attribute [simp] parts partsAll

@[simp] theorem parts_int (n : Int) : (int n).parts = [int n] := by rw [int, parts]

@[simp] theorem parts_double (x : Float) : (double x).parts = [double x] := by rw [double, parts]

theorem self_mem_parts (x : Term) : x ∈ x.parts := by cases x <;> simp

theorem mem_partsAll {p : Term} {xs : List Term} : p ∈ partsAll xs ↔ ∃ x ∈ xs, p ∈ x.parts := by
  induction xs with
  | nil => simp
  | cons x xs ih => simp [ih]

/-- Every name of the expression is known. -/
def Scoped (scope : List String) (x : Term) : Prop := ∀ name, .ident name ∈ x.parts → name ∈ scope

end Term

namespace Stmt

mutual

/-- The parts of the expressions of a statement. -/
def parts : Stmt → List Term
  | .decl _ _ value => value.parts
  | .run x => x.parts
  | .cond c yes no => c.parts ++ (partsAll yes ++ partsAll no)
  | .ret value => value.parts
  | .raw _ | .hole => []

/-- The parts of the expressions of statements. -/
def partsAll : List Stmt → List Term
  | [] => []
  | s :: rest => s.parts ++ partsAll rest

end

attribute [simp] parts partsAll

/-- The names a statement makes known to those after it. -/
def declared : Stmt → List String
  | .decl _ name _ => [name]
  | _ => []

mutual

/-- Every name of the statement is known. Raw source and empty places are not looked into. -/
def Scoped : List String → Stmt → Prop
  | scope, .decl _ _ value => value.Scoped scope
  | scope, .run x => x.Scoped scope
  | scope, .cond c yes no => c.Scoped scope ∧ ScopedAll scope yes ∧ ScopedAll scope no
  | scope, .ret value => value.Scoped scope
  | _, .raw _ | _, .hole => False

/-- Every name of the statements is known where it stands. -/
def ScopedAll : List String → List Stmt → Prop
  | _, [] => True
  | scope, s :: rest => s.Scoped scope ∧ ScopedAll (s.declared ++ scope) rest

end

attribute [simp] declared Scoped ScopedAll

end Stmt

namespace Routine

/-- The parts of the expressions of a routine. -/
def parts (r : Routine) : List Term := Stmt.partsAll r.body

/-- The names of a routine's parameters. -/
def paramNames (r : Routine) : List String := r.params.map Param.name

/-- Every name in the routine is a parameter or a local variable declared before. -/
def Closed (r : Routine) : Prop := Stmt.ScopedAll r.paramNames r.body

end Routine

end FactFold
