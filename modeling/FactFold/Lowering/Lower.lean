import FactFold.Buffer.Access
import FactFold.Expr.Node
import FactFold.Function.Resolution
import FactFold.Lowering.Operators

/-!
# Lowering

Lowering turns an expression into typed code. A column is read from the fact record at its place
among the expression's columns, by the primitive of the type its schema gives it; constants become
literals; calls are resolved by the types of their arguments.
-/

namespace FactFold

/-- What lowering needs to know besides the expression. -/
structure LoweringEnv where
  /-- The types of the columns. -/
  schema : List (String × DataType) := []
  /-- The registered functions' metadata service; none when no functions are known. -/
  functions : Option (Option MetadataService) := none
  /-- The name of the fact record; the usual one when empty. -/
  fact : String := ""

/-- The name of the fact record in code. -/
def LoweringEnv.factName (env : LoweringEnv) : String :=
  if env.fact = "" then "fact" else env.fact

namespace Lowering

/-- The package of the vector classes. -/
def vectorPackage : String := "com.qfs.vector.array.impl."

/-- The vector class for elements of a type. -/
def vectorClass : Numeric → String
  | .int => "ArrayIntegerVector"
  | .long => "ArrayLongVector"
  | .float => "ArrayFloatVector"
  | .double => "ArrayDoubleVector"

/-- The code of an array constant. -/
def arrayTerm (n : Numeric) (items : List Scalar) : Term :=
  .new (vectorClass n) [.newArray n.name (items.map fun s => .lit n.name (.scalar s))]

/-- The code of a constant. -/
def constantTerm (c : Constant) : Term :=
  match c with
  | .date d => .call "LocalDate.of" [.int d.year, .int d.month, .int d.day]
  | .ints ns => arrayTerm .int (ns.map Scalar.long)
  | .longs ns => arrayTerm .long (ns.map Scalar.long)
  | .floats xs => arrayTerm .float (xs.map Scalar.double)
  | .doubles xs => arrayTerm .double (xs.map Scalar.double)
  | c => .lit c.type.sourceName c.datum

/-- The import a constant needs. -/
def constantImport? (c : Constant) : Option String :=
  match c.type with
  | .localDate => some "java.time.LocalDate"
  | .array n => some (vectorPackage ++ vectorClass n)
  | _ => none

/-- A constant. -/
def constant (c : Constant) : Compile Element := do
  match constantImport? c with
  | some name => Compile.accumulate fun a => a.addImport name
  | none => pure ()
  pure (.basic (constantTerm c) c.type)

/-- A column of the expression that reads `columns`. -/
def column (env : LoweringEnv) (columns : List Column) (c : Column) : Compile Element := do
  match env.schema.lookup c.name with
  | none => throw (.unknownColumn c.name)
  | some t =>
    match columns.findIdx? fun d => d.name = c.name with
    | none => throw (.unreferencedColumn c.name)
    | some i => pure (.basic (readColumn (.ident env.factName) i t) t)

/-- An operator on two elements; vectors need their helper class. -/
def operator (op : Operator) (left right : Element) : Compile Element := do
  let e ← liftM (Operators.apply op left right)
  if left.type.isArray || right.type.isArray then
    Compile.accumulate fun a => a.addImport Operators.vectorImport
  pure e

mutual

/-- Lowers an expression that is part of one reading `columns`. -/
def node (env : LoweringEnv) (columns : List Column) : Node → Compile Element
  | .column c => column env columns c
  | .constant c => constant c
  | .arithmetic op l r => do
    let left ← node env columns l
    let right ← node env columns r
    operator (.arithmetic op) left right
  | .comparison op l r => do
    let left ← node env columns l
    let right ← node env columns r
    operator (.comparison op) left right
  | .guarded op l r body => do
    let left ← node env columns l
    let right ← node env columns r
    let condition ← operator (.comparison op) left right
    let b ← node env columns body
    liftM (Element.ternary condition b none)
  | .choice op l r yes no => do
    let left ← node env columns l
    let right ← node env columns r
    let condition ← operator (.comparison op) left right
    let y ← node env columns yes
    let n ← node env columns no
    liftM (Element.ternary condition y (some n))
  | .call f args => do
    match env.functions with
    | none => throw (.noRegistry f.name)
    | some service =>
      let terms ← arguments env columns args
      let t ← f.resolve service terms
      pure (.basic t.code t.type)

/-- Lowers the arguments of a call, each of which must have a value. -/
def arguments (env : LoweringEnv) (columns : List Column) : List Node → Compile (List TypedTerm)
  | [] => pure []
  | n :: rest => do
    let e ← node env columns n
    let code ← liftM e.value
    let terms ← arguments env columns rest
    pure (⟨code, e.type⟩ :: terms)

end

end Lowering

/-- Lowers an expression. -/
def Node.lower (env : LoweringEnv) (n : Node) : Compile Element :=
  Lowering.node env n.columns n

/-- Lowers an expression that may be missing. -/
def lower? (env : LoweringEnv) : Option Node → Compile Element
  | some n => n.lower env
  | none => throw .nothingToLower

end FactFold
