import FactFold.Expr.Node
import FactFold.Failure

/-!
# Measures

A measure is a quantity of a whole cube: a column aggregated over its table, the single value of a
column, a literal, or two measures joined by an operator. An aggregated column joins with neither
another one nor a literal, since such a combination would have to be evaluated row by row.
-/

namespace FactFold

/-- An aggregated quantity. -/
inductive Measure where
  | table (c : Column) (aggregation : String)
  | value (c : Column)
  | literal (d : Datum)
  | calculated (op : Operator) (left right : Measure)

namespace Measure

/-- The name of a measure's type. -/
def typeName : Measure → String
  | .table .. => "*expr.TableMeasure"
  | .value _ => "*expr.ValueMeasure"
  | .literal _ => "*expr.LiteralMeasure"
  | .calculated .. => "*expr.CalculatedMeasure"

/-- The measure in infix form. -/
def text : Measure → String
  | .table c aggregation => c.text ++ "." ++ aggregation
  | .value c => "value(" ++ c.text ++ ")"
  | .literal d => d.literalText
  | .calculated op l r => Node.infixText l.text op.symbol r.text

/-- Joins two measures by an operator. -/
def combine (op : Operator) : Measure → Measure → Except Failure Measure
  | .table .., .table .. => .error .twoTableColumns
  | .table .., .literal _ => .error .tableColumnAndConstant
  | .literal _, .table .. => .error .tableColumnAndConstant
  | l, r => .ok (.calculated op l r)

/-- The measure of a column: aggregated, or its single value when no aggregation is named. -/
def ofColumn (aggregation : String) (c : Column) : Measure :=
  if aggregation = "" then .value c else .table c aggregation

end Measure

/-- The measure an expression stands for. Conditions and calls stand for none. -/
def Node.toMeasure (aggregation : String) : Node → Except Failure Measure
  | .column c => .ok (.ofColumn aggregation c)
  | .constant c => .ok (.literal c.datum)
  | .arithmetic op l r => do
    let left ← l.toMeasure aggregation
    let right ← r.toMeasure aggregation
    Measure.combine (.arithmetic op) left right
  | .comparison op l r => do
    let left ← l.toMeasure aggregation
    let right ← r.toMeasure aggregation
    Measure.combine (.comparison op) left right
  | n => .error (.notMeasure n.text)

/-- The measure of an expression that may be missing. -/
def Measure.ofNode? (aggregation : String) : Option Node → Except Failure Measure
  | some n => n.toMeasure aggregation
  | none => .error (.notMeasure "%!s(<nil>)")

end FactFold
