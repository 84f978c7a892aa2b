import FactFold.Expr.Node
import FactFold.Function.Metadata
import FactFold.Machine.Eval

/-!
# The meaning of expressions

An expression has a value on a row without any code in between: a column is looked up in the row by
its name, a constant is its own value, and every operator works on the values of its operands, chosen
by their types. This module defines that value by recursion over the expression.

Two conventions are kept apart. Under `Convention.plain` operators see the values alone. Under
`Convention.machine` they also see what the evaluator knows about the code of an operand before
running it (`Node.known`): two operands known to be integers compare as the evaluator's own integers
and as nothing else, and an operand about which nothing is known is opened if it is a buffer.

A guarded expression has no value where its condition fails. `Node.outcome` therefore yields an
optional value, while `Node.value` is meant for expressions that are used as operands, which always
have one.
-/

namespace FactFold

open Machine (Run Natives Fault Static BinaryOp asBool)

/-! ## Types -/

/-- The types of calls, by the types of the arguments. -/
abbrev CallTypes := Function → List DataType → DataType

/-- The types of calls as far as a cache of answers tells them. -/
def MetadataCache.callTypes (c : MetadataCache) : CallTypes
  | .custom f, _ => f.output
  | .existing f, args =>
    (c.outputs.lookup (outputKey f.qualifiedClass f.method args)).getD (.other "")
  | .foreign _, _ => .other ""

/-- The name under which a call finds its function. -/
def Function.callee : Function → String
  | .custom f => f.method
  | .existing f => f.call
  | .foreign f => f.name

/-- The type of an arithmetic operation on operands of two types. -/
def Arithmetic.type : Arithmetic → DataType → DataType → DataType
  | .div, .scalar _, .scalar _ => .double
  | _, .scalar n, .scalar m => .scalar (n.wider m)
  | .div, .array _, .scalar _ => .array .double
  | _, .array n, .scalar m => .array (n.wider m)
  | _, .scalar n, .array m => .array (m.wider n)
  | _, .array n, .array m => .array (n.wider m)
  | _, _, _ => .other ""

/-- What expressions are typed against. -/
structure Typing where
  /-- The types of the columns. -/
  schema : List (String × DataType)
  calls : CallTypes

namespace Node

mutual

/-- The type of an expression. -/
def type (t : Typing) : Node → DataType
  | .column c => (t.schema.lookup c.name).getD (.other "")
  | .constant c => c.type
  | .arithmetic op l r => op.type (l.type t) (r.type t)
  | .comparison .. => .boolean
  | .guarded _ _ _ body => body.type t
  | .choice _ _ _ yes no =>
    if yes.type t = no.type t then yes.type t
    else (DataType.promote? (yes.type t) (no.type t)).getD (.other "")
  | .call f args => t.calls f (types t args)

/-- The types of several expressions. -/
def types (t : Typing) : List Node → List DataType
  | [] => []
  | n :: rest => n.type t :: types t rest

end

end Node

/-! ## What is known before running -/

/-- The evaluator's operator for an arithmetic one. -/
def Arithmetic.machine : Arithmetic → BinaryOp
  | .mul => .mul
  | .div => .div
  | .add => .add
  | .sub => .sub

/-- The evaluator's operator for a comparison. -/
def Comparison.machine : Comparison → BinaryOp
  | .eq => .eq
  | .ne => .ne
  | .lt => .lt
  | .le => .le
  | .gt => .gt
  | .ge => .ge

/-- What is known about a constant's code. -/
def Constant.known : Constant → Static
  | .int _ | .long _ => .int
  | .float _ | .double _ => .float
  | .string _ => .text
  | _ => .any

/-- Values of the two types are compared by methods. -/
def comparesByMethod : DataType → DataType → Bool
  | .string, .string | .localDate, .localDate => true
  | _, _ => false

/-- Values of the two types are compared by operators. -/
def comparesInline : DataType → DataType → Bool
  | .scalar _, .scalar _ | .boolean, .boolean => true
  | _, _ => false

/-- What the evaluator knows about the code of an expression. -/
def Node.known (t : Typing) : Node → Static
  | .constant c => c.known
  | .arithmetic op l r =>
    match op, l.type t, r.type t with
    | .div, .scalar _, .scalar _ => .any
    | op, .scalar _, .scalar _ => (Static.binary? op.machine (l.known t) (r.known t)).getD .any
    | _, _, _ => .any
  | .comparison op l r =>
    if op = .eq && comparesByMethod (l.type t) (r.type t) then .any else .bool
  | .choice _ _ _ yes no => (Static.cond? .any (yes.known t) (no.known t)).getD .any
  | _ => .any

/-! ## Conventions -/

/-- How constants and operands are taken. -/
structure Convention where
  /-- The bytes of a text constant. -/
  text : Text.Bytes → Text.Bytes
  /-- The value of a date constant. -/
  date : Date → Run Value
  /-- An operand as its operator sees it, by what is known about it. -/
  operand : Static → Value → Value
  /-- Equality of two operands, by what is known about them. -/
  equality : Static → Static → Machine.World → Value → Value → Except Fault Value

namespace Convention

/-- Constants are their own values and operators see values alone. -/
def plain : Convention where
  text := id
  date d := pure (.scalar (.time (.ofDate d)))
  operand _ v := v
  equality _ _ w a b := Machine.binary w .eq a b

/-- The evaluator's own treatment. -/
def machine (natives : Natives) : Convention where
  text := Machine.literalText
  date d := Machine.static natives "LocalDate.of"
    ([d.year, d.month, d.day].map fun n => .scalar (.int .int (Number.wrap64 n)))
  operand t v := if t = .any then v.opened else v
  equality s t w a b :=
    if s = t && (s = .int || s = .text) then Machine.equalAs s a b else Machine.binary w .eq a b

end Convention

/-- What the value of an expression depends on. -/
structure Meaning where
  typing : Typing
  natives : Natives
  /-- The row, by the names of its columns. -/
  row : String → Except Fault Value
  convention : Convention

namespace Meaning

variable (m : Meaning)

/-- Reads a value as a type, the way columns are read. -/
def read (t : DataType) (v : Value) : Run Value :=
  match t with
  | .array _ => Run.boxed <$> Run.toVector v
  | .scalar n =>
    if n.isIntegral then .long <$> Run.converted v.operand.toLong
    else .double <$> Run.converted v.operand.toDouble
  | .boolean => .bool <$> Run.converted v.operand.toBool
  | t => if t.sourceName = "" then throw .convertArity else Machine.convert t.sourceName v

/-- A new vector made of a list of values. -/
def vector (items : List Value) : Run Value := do
  let v ← Run.list items
  Run.boxed <$> Run.toVector v

/-- The value of a constant. -/
def constant : Constant → Run Value
  | .int n | .long n => pure (.scalar (.int .int (Number.wrap64 n)))
  | .float x | .double x => pure (.double x)
  | .string bs => pure (.scalar (.text (m.convention.text bs)))
  | .date d => m.convention.date d
  | .ints ns | .longs ns => vector (ns.map fun n => .scalar (.int .int (Number.wrap64 n)))
  | .floats xs | .doubles xs => vector (xs.map .double)

/-- The value of a call; a function without a name takes the first argument for its name. -/
def call (natives : Natives) (name : String) (args : List Value) : Run Value :=
  if name = "" then Machine.staticOf natives args else Machine.static natives name args

/-- An arithmetic operation on two steps that compute the operands `l` and `r`. A scalar quotient
converts its left operand first, and a number that scales a vector is computed after the vector. -/
def arithmetic (op : Arithmetic) (l r : Node) (x y : Run Value) : Run Value :=
  match op, l.type m.typing, r.type m.typing with
  | .div, .scalar _, .scalar _ => do
    let a ← x
    let a ← Machine.convert "double" a
    let b ← y
    liftM (Machine.divide a b)
  | op, .scalar _, .scalar _ => do
    let a ← x
    let b ← y
    liftM (Machine.binary (← get) op.machine (m.convention.operand (l.known m.typing) a)
      (m.convention.operand (r.known m.typing) b))
  | .add, .array _, .array _ => do
    let a ← x
    let b ← y
    Machine.static m.natives "VectorOps.plus" [a, b]
  | .sub, .array _, .array _ => do
    let a ← x
    let b ← y
    Machine.static m.natives "VectorOps.minus" [a, b]
  | .mul, .array _, .scalar _ => do
    let a ← x
    let b ← y
    Machine.static m.natives "VectorOps.scale" [a, b]
  | .mul, .scalar _, .array _ => do
    let b ← y
    let a ← x
    Machine.static m.natives "VectorOps.scale" [b, a]
  | .div, .array _, .scalar _ => do
    let a ← x
    let b ← y
    let s ← liftM (Machine.divide (.double 1) b)
    Machine.static m.natives "VectorOps.scale" [a, s]
  | _, _, _ => throw .misfit

/-- A comparison of two values by an operator. -/
def compareInline (op : Comparison) (s t : Static) (a b : Value) : Run Value :=
  let a := m.convention.operand s a
  let b := m.convention.operand t b
  match op with
  | .eq => do liftM (m.convention.equality s t (← get) a b)
  | .ne => do
    let v ← liftM (m.convention.equality s t (← get) a b)
    liftM (Machine.unary .not v)
  | op => do liftM (Machine.binary (← get) op.machine a b)

/-- A comparison of two values by equality or by three-way order. -/
def compareByMethod (op : Comparison) (a b : Value) : Run Value :=
  match op with
  | .eq => Machine.invoke a "equals" [b]
  | .ne => do
    let v ← Machine.invoke a "equals" [b]
    liftM (Machine.unary .not v)
  | op => do
    let v ← Machine.invoke a "compareTo" [b]
    liftM (Machine.binary (← get) op.machine v (.scalar (.int .int 0)))

/-- A comparison of two steps that compute the operands `l` and `r`. -/
def comparison (op : Comparison) (l r : Node) (x y : Run Value) : Run Value := do
  let a ← x
  let b ← y
  if comparesByMethod (l.type m.typing) (r.type m.typing) then compareByMethod op a b
  else if comparesInline (l.type m.typing) (r.type m.typing) then
    m.compareInline op (l.known m.typing) (r.known m.typing) a b
  else throw .misfit

end Meaning

/-! ## Values -/

namespace Node

mutual

/-- The value of an expression that always has one. -/
def value (m : Meaning) : Node → Run Value
  | .column c => do
    let v ← liftM (m.row c.name)
    Meaning.read ((Node.column c).type m.typing) v
  | .constant c => m.constant c
  | .arithmetic op l r => m.arithmetic op l r (l.value m) (r.value m)
  | .comparison op l r => m.comparison op l r (l.value m) (r.value m)
  | .guarded .. => throw .misfit
  | .choice op l r yes no => do
    let c ← m.comparison op l r (l.value m) (r.value m)
    if ← liftM (asBool c) then yes.value m else no.value m
  | .call f args => do
    let vs ← values m args
    Meaning.call m.natives f.callee vs

/-- The values of several expressions in order. -/
def values (m : Meaning) : List Node → Run (List Value)
  | [] => pure []
  | n :: rest => do
    let v ← n.value m
    let vs ← values m rest
    pure (v :: vs)

end

/-- Whether a condition holds. -/
def holds (m : Meaning) (op : Comparison) (l r : Node) : Run Bool := do
  let c ← m.comparison op l r (l.value m) (r.value m)
  liftM (asBool c)

/-- The value of an expression, if it has one. -/
def outcome (m : Meaning) : Node → Run (Option Value)
  | .guarded op l r body => do
    if ← holds m op l r then body.outcome m else pure none
  | .choice op l r yes no => do
    if ← holds m op l r then yes.outcome m else no.outcome m
  | n => some <$> n.value m

end Node

end FactFold
