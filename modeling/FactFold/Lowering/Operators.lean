import FactFold.Expr.Operator
import FactFold.Lowering.Element

/-!
# Operators on typed code

Numbers combine by infix operators on the wider type, and division always yields a double. Vectors
add and subtract item by item and scale by numbers through a helper class. Comparisons are infix on
numbers, and methods of the value on texts and dates.
-/

namespace FactFold.Operators

/-- The helper class for vectors. -/
def vectorClass : String := "VectorOps"

/-- The import of the helper class. -/
def vectorImport : String := "com.qfs.vector.impl.VectorOps"

/-- A call of the helper class. -/
def vectorCall (method : String) (args : List Term) : Term :=
  .call (vectorClass ++ "." ++ method) args

/-- An arithmetic operator on code of given types. -/
def arithmetic (op : Arithmetic) (l r : Term) (lt rt : DataType) : Except Failure Element :=
  match op, lt, rt with
  | .div, .scalar _, .scalar _ => .ok (.basic (.binary "/" (.cast "double" l) r) .double)
  | op, .scalar n, .scalar m => .ok (.basic (.binary op.symbol l r) (.scalar (n.wider m)))
  | .add, .array n, .array m => .ok (.basic (vectorCall "plus" [l, r]) (.array (n.wider m)))
  | .sub, .array n, .array m => .ok (.basic (vectorCall "minus" [l, r]) (.array (n.wider m)))
  | .mul, .array n, .scalar m => .ok (.basic (vectorCall "scale" [l, r]) (.array (n.wider m)))
  | .mul, .scalar n, .array m => .ok (.basic (vectorCall "scale" [r, l]) (.array (m.wider n)))
  | .div, .array _, .scalar _ =>
    .ok (.basic (vectorCall "scale" [l, .binary "/" (.double 1) r]) (.array .double))
  | op, lt, rt => .error (.undefinedOperator op.symbol lt rt)

/-- A comparison by methods of the left value. -/
def byMethod (op : Comparison) (l r : Term) : Term :=
  match op with
  | .eq => .invoke l "equals" [r]
  | .ne => .unary "!" (.invoke l "equals" [r])
  | op => .binary op.symbol (.invoke l "compareTo" [r]) (.int 0)

/-- A comparison on code of given types. -/
def comparison (op : Comparison) (l r : Term) (lt rt : DataType) : Except Failure Element :=
  let inline : Except Failure Element := .ok (.basic (.binary op.symbol l r) .boolean)
  match lt, rt with
  | .scalar _, .scalar _ => inline
  | .string, .string => .ok (.basic (byMethod op l r) .boolean)
  | .localDate, .localDate => .ok (.basic (byMethod op l r) .boolean)
  | .boolean, .boolean =>
    if op = .eq || op = .ne then inline else .error (.incomparable op.symbol lt rt)
  | lt, rt => .error (.incomparable op.symbol lt rt)

/-- An operator on two elements, both of which must have a value. -/
def apply (op : Operator) (left right : Element) : Except Failure Element := do
  let l ← left.value
  let r ← right.value
  match op with
  | .arithmetic op => arithmetic op l r left.type right.type
  | .comparison op => comparison op l r left.type right.type

end FactFold.Operators
