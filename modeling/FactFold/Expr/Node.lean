import FactFold.Expr.Constant
import FactFold.Expr.Operator
import FactFold.Function.Basic

/-!
# Expression trees

An expression is built from columns and constants by arithmetic, comparisons, conditions and calls.
A condition is always a comparison; without an alternative it guards its value, which is then
missing whenever the comparison fails.
-/

namespace FactFold

/-- A column, possibly qualified by its table. -/
structure Column where
  name : String
  /-- The table; empty when the column is not qualified. -/
  table : String := ""
  deriving Repr, DecidableEq

/-- Table and name of a column. -/
def Column.text (c : Column) : String :=
  if c.table = "" then c.name else c.table ++ "." ++ c.name

/-- An expression. -/
inductive Node where
  | column (c : Column)
  | constant (c : Constant)
  | arithmetic (op : Arithmetic) (left right : Node)
  | comparison (op : Comparison) (left right : Node)
  /-- The body where `left op right` holds, and no value elsewhere. -/
  | guarded (op : Comparison) (left right body : Node)
  /-- One branch where `left op right` holds, the other elsewhere. -/
  | choice (op : Comparison) (left right yes no : Node)
  | call (f : Function) (args : List Node)

/-- The kinds of nodes a walk tells apart. -/
inductive NodeKind where
  | column
  | constant
  | binary
  | ternary
  | call
  deriving Repr, DecidableEq

/-- The name of a kind of nodes. -/
def NodeKind.name : NodeKind → String
  | .column => "column"
  | .constant => "constant"
  | .binary => "binary"
  | .ternary => "ternary"
  | .call => "call"

namespace Node

/-- The kind of a node. -/
def kind : Node → NodeKind
  | .column _ => .column
  | .constant _ => .constant
  | .arithmetic .. | .comparison .. => .binary
  | .guarded .. | .choice .. => .ternary
  | .call .. => .call

/-- The name of a node's type. -/
def typeName : Node → String
  | .column _ => "*expr.Column"
  | .constant _ => "*expr.Constant"
  | .arithmetic .. => "*expr.BinaryOp"
  | .comparison .. => "*expr.Condition"
  | .guarded .. | .choice .. => "*expr.Ternary"
  | .call .. => "*expr.Call"

/-- Operands around an infix operator, between parentheses. -/
def infixText (left symbol right : String) : String :=
  "(" ++ left ++ " " ++ symbol ++ " " ++ right ++ ")"

/-! ## Text -/

mutual

/-- The expression in infix form. -/
def text : Node → String
  | .column c => c.text
  | .constant c => c.text
  | .arithmetic op l r => infixText l.text op.symbol r.text
  | .comparison op l r => infixText l.text op.symbol r.text
  | .guarded op l r body =>
    "if(" ++ infixText l.text op.symbol r.text ++ ", " ++ body.text ++ ")"
  | .choice op l r yes no =>
    "if(" ++ infixText l.text op.symbol r.text ++ ", " ++ yes.text ++ ", " ++ no.text ++ ")"
  | .call f args => f.name ++ "(" ++ String.intercalate ", " (texts args) ++ ")"

/-- Every expression in infix form. -/
def texts : List Node → List String
  | [] => []
  | n :: rest => n.text :: texts rest

end

/-! ## Columns -/

/-- Keeps the first column of every name. -/
def firstByName (seen : List String) : List Column → List Column
  | [] => []
  | c :: rest =>
    if seen.contains c.name then firstByName seen rest
    else c :: firstByName (c.name :: seen) rest

/-- Joins lists of columns, keeping the first column of every name. -/
def mergeColumns (lists : List (List Column)) : List Column := firstByName [] lists.flatten

mutual

/-- The columns an expression reads, each name once, in the order in which they are met. -/
def columns : Node → List Column
  | .column c => [c]
  | .constant _ => []
  | .arithmetic _ l r => mergeColumns [l.columns, r.columns]
  | .comparison _ l r => mergeColumns [l.columns, r.columns]
  | .guarded _ l r body => mergeColumns [mergeColumns [l.columns, r.columns], body.columns]
  | .choice _ l r yes no =>
    mergeColumns [mergeColumns [l.columns, r.columns], yes.columns, no.columns]
  | .call _ args => mergeColumns (columnLists args)

/-- The columns of every expression. -/
def columnLists : List Node → List (List Column)
  | [] => []
  | n :: rest => n.columns :: columnLists rest

end

/-! ## Walks -/

mutual

/-- The nodes of an expression, a node before those below it; nothing below a node is visited that
`enter` refuses. -/
def walk (enter : Node → Bool) : Node → List Node
  | n@(.column _) => [n]
  | n@(.constant _) => [n]
  | n@(.arithmetic _ l r) => n :: if enter n then l.walk enter ++ r.walk enter else []
  | n@(.comparison _ l r) => n :: if enter n then l.walk enter ++ r.walk enter else []
  | n@(.guarded op l r body) =>
    n :: if enter n then
      (.comparison op l r :: if enter (.comparison op l r) then l.walk enter ++ r.walk enter else [])
        ++ body.walk enter
    else []
  | n@(.choice op l r yes no) =>
    n :: if enter n then
      (.comparison op l r :: if enter (.comparison op l r) then l.walk enter ++ r.walk enter else [])
        ++ yes.walk enter ++ no.walk enter
    else []
  | n@(.call _ args) => n :: if enter n then walkAll enter args else []

/-- The nodes of every expression. -/
def walkAll (enter : Node → Bool) : List Node → List Node
  | [] => []
  | n :: rest => n.walk enter ++ walkAll enter rest

end

end Node

end FactFold
