import FactFold.Buffer.Access
import FactFold.Lowering.Element

/-!
# Kinds of aggregation

A kind of aggregation tells how the rows of an expression are folded: which fields the buffer has,
and the statements that take a row in, take it out again, fold one buffer into another and give the
result. Each part may find that the expression's type has no template. A kind that cannot take a row
out again has no statements for it.
-/

namespace FactFold

/-- The parts of a kind of aggregation. -/
structure Visitor where
  kind : String
  /-- The fields of the buffer. -/
  layout : DataType → Except Failure Layout
  /-- Takes a row in. -/
  contribute : Element → Except Failure (List Stmt)
  /-- Takes a row out again, where that is possible. -/
  decontribute : Element → Except Failure (Option (List Stmt))
  /-- Folds one buffer into another. -/
  merge : DataType → Except Failure (List Stmt)
  /-- Gives the result. -/
  terminate : DataType → Except Failure (List Stmt)
  /-- The type of the result. -/
  terminateType : DataType → Except Failure DataType
  /-- Imports of its own by the expression's type, for kinds that have any. -/
  imports : Option (DataType → List String) := none

namespace Kind

/-! ## Pieces of routines -/

/-- The buffer of a row's routines. -/
abbrev agg : BufferRef := .aggregation

/-- The buffer a merge reads. -/
abbrev source : BufferRef := .mergeInput

/-- The buffer a merge folds into. -/
abbrev target : BufferRef := .mergeOutput

/-- The local variable that holds a row's value. -/
def valueName : String := "value"

/-- The row's value in its variable. -/
def valueVar : Term := .ident valueName

/-- Binds the row's value to its variable, so that it is evaluated once. -/
def declareValue (t : DataType) (value : Term) : Stmt := .decl t.sourceName valueName value

/-- Minus one times a value. -/
def negate (x : Term) : Term := .binary "*" (.int (-1)) x

/-- A value is not null. -/
def notNull (x : Term) : Term := .binary "!=" x .null

/-- Both hold. -/
def both (x y : Term) : Term := .binary "&&" x y

/-- One of them holds. -/
def either (x y : Term) : Term := .binary "||" x y

/-- A zero of a scalar type. -/
def zero (t : DataType) : Term := .lit t.sourceName (.scalar (.int .int 0))

/-- Writes the first vector into an unset field, or else applies a method to the vector there. -/
def accumulateVector (field : Int) (value first : Term) (method : String) : Stmt :=
  .cond (agg.isNull field) [agg.write field first] [agg.vector field method [value]]

/-- Folds the source's vector into the target's by a method, and then runs `extra`, when the source
has a vector. -/
def mergeVector (method : String) (extra : List Stmt) : List Stmt :=
  [.cond (source.isSet 0)
    (.cond (target.isNull 0)
        [target.write 0 (source.readVector 0)]
        [target.vector 0 method [source.readVector 0]] :: extra)
    []]

/-! ## Types with templates -/

/-- The kind has no template for a type. -/
def unsupported {α : Type} (kind : String) (t : DataType) : Except Failure α :=
  .error (.kindWithoutTemplate kind t)

/-- Goes on for numbers only. -/
def onScalar {α : Type} (kind : String) (t : DataType) (x : Except Failure α) : Except Failure α :=
  if t.isNumeric then x else unsupported kind t

/-- Goes on for numbers and vectors only. -/
def onNumeric {α : Type} (kind : String) (t : DataType) (x : Except Failure α) : Except Failure α :=
  if t.isNumeric || t.isArray then x else unsupported kind t

end Kind

end FactFold
