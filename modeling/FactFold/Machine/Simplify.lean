import FactFold.Machine.Check
import FactFold.Number.Binary
import FactFold.Text.Pattern.Reading

/-!
# Simplified formulas

A checked formula is simplified before it runs. Arithmetic on literals is done at once, and so are
some comparisons of them; a connective with a literal on either side gives way to the other side, or
to the literal that decides it, whatever the other side would have been. A list of text literals in
which a value is looked up becomes a set of texts, and one of integer literals a set of integers if
an integer is looked up; a range of literals becomes two comparisons then. A remainder of literals by zero and a malformed
pattern make the formula be rejected.
-/

namespace FactFold.Machine

open Number (wrap64 doubleOfInt)

/-- Two number literals brought to a common form. -/
inductive LiteralPair where
  | ints (a b : Int)
  | floats (x y : Float)

/-- Two formulas as number literals of a common form. -/
def literalPair? : Formula → Formula → Option LiteralPair
  | .int a, .int b => some (.ints a b)
  | .int a, .float y => some (.floats (doubleOfInt a) y)
  | .float x, .int b => some (.floats x (doubleOfInt b))
  | .float x, .float y => some (.floats x y)
  | _, _ => none

/-- The pattern a text writes, none when it is malformed. -/
def patternOf? (bs : Text.Bytes) : Option Text.Pattern :=
  bs.toText?.bind fun s => Text.Pattern.read? s.toList

namespace Formula

/-- A truth literal. -/
def boolLiteral? : Formula → Option Bool
  | .bool b => some b
  | _ => none

/-- A formula in the place of a truth value; a literal needs no mark. -/
def asTruth : Formula → Formula
  | .bool b => .bool b
  | x => .truth x

/-- The texts among formulas that are all text literals. -/
def literalTexts? (items : List Formula) : Option (List Text.Bytes) :=
  if items.isEmpty then none
  else items.mapM fun
    | .text bs => some bs
    | _ => none

/-- The integers among formulas that are all integer literals without a sign. -/
def literalInts? (items : List Formula) : Option (List Int) :=
  if items.isEmpty then none
  else items.mapM fun
    | .int n => if n < 0 then none else some n
    | _ => none

/-- The formula is known to be an integer. -/
def isInt (x : Formula) : Bool := x.static?.any (· = .int)

/-- Membership in a range, of simplified operands. -/
def inRange (x : Formula) : Formula → Formula
  | .binary .range (.int a) (.int b) =>
    if x.isInt then .binary .and (.binary .ge x (.int a)) (.binary .le x (.int b))
    else .binary .isIn x (.binary .range (.int a) (.int b))
  | y => .binary .isIn x y

/-- A connective that a literal equal to `unit` leaves to the other side, and any other literal
decides. -/
def connective (op : BinaryOp) (unit : Bool) (x y : Formula) : Formula :=
  if x.boolLiteral? = some unit then y.asTruth
  else if y.boolLiteral? = some unit then x.asTruth
  else if x.boolLiteral? = some (!unit) || y.boolLiteral? = some (!unit) then .bool (!unit)
  else .binary op x y

/-- A binary operation on simplified operands. -/
def binaryOn (op : BinaryOp) (x y : Formula) : Formula :=
  match op with
  | .add =>
    match x, y with
    | .text s, .text t => .text (s ++ t)
    | x, y =>
      match literalPair? x y with
      | some (.ints a b) => .int (wrap64 (a + b))
      | some (.floats a b) => .float (a + b)
      | none => .binary .add x y
  | .sub =>
    match literalPair? x y with
    | some (.ints a b) => .int (wrap64 (a - b))
    | some (.floats a b) => .float (a - b)
    | none => .binary .sub x y
  | .mul =>
    match literalPair? x y with
    | some (.ints a b) => .int (wrap64 (a * b))
    | some (.floats a b) => .float (a * b)
    | none => .binary .mul x y
  | .rem =>
    match x, y with
    | .int a, .int b => if b = 0 then .binary .rem x y else .int (Int.tmod a b)
    | x, y => .binary .rem x y
  | .and => connective .and true x y
  | .or => connective .or false x y
  | .eq =>
    match x, y with
    | .int a, .int b => .bool (a = b)
    | .text s, .text t => .bool (s = t)
    | .bool a, .bool b => .bool (a = b)
    | x, y => .binary .eq x y
  | op => .binary op x y

/-- A unary operation on a simplified operand. -/
def unaryOn (op : UnaryOp) (x : Formula) : Formula :=
  match op, x with
  | .minus, .int n => .int (wrap64 (-n))
  | .minus, .float x => .float (-x)
  | .plus, .int n => .int n
  | .plus, .float x => .float x
  | .not, .bool b => .bool (!b)
  | op, x => .unary op x

mutual

/-- The formula that runs in place of a checked one. -/
def simplify : Formula → Formula
  | .unary op x => unaryOn op (simplify x)
  | .binary .isIn x (.list items) =>
    match literalTexts? items, literalInts? items with
    | some texts, _ => .among (simplify x) texts
    | none, some ns =>
      if x.isInt then .amongInts (simplify x) ns
      else .binary .isIn (simplify x) (.list (simplifyAll items))
    | none, none => .binary .isIn (simplify x) (.list (simplifyAll items))
  | .binary .isIn x y => inRange (simplify x) (simplify y)
  | .binary op x y => binaryOn op (simplify x) (simplify y)
  | .cond c yes no => .cond (simplify c) (simplify yes) (simplify no)
  | .list items => .list (simplifyAll items)
  | .call f args => .call f (simplifyAll args)
  | .builtin f args => .builtin f (simplifyAll args)
  | .apply callee args => .apply (simplify callee) (simplifyAll args)
  | .part x key => .part (simplify x) (simplify key)
  | .slice x start stop => .slice (simplify x) (simplify start) (simplify stop)
  | .tail x start => .tail (simplify x) (simplify start)
  | .truth x => asTruth (simplify x)
  | .among x texts => .among (simplify x) texts
  | .amongInts x ns => .amongInts (simplify x) ns
  | f => f

/-- The formulas that run in place of checked ones. -/
def simplifyAll : List Formula → List Formula
  | [] => []
  | x :: rest => simplify x :: simplifyAll rest

end

/-- An operation on simplified operands that cannot be made ready to run: the remainder of a literal
integer by a literal zero, or a literal pattern that is malformed. -/
def isBroken : BinaryOp → Formula → Formula → Bool
  | .rem, .int _, .int 0 => true
  | .fits, _, .text bs => (patternOf? bs).isNone
  | _, _, _ => false

mutual

/-- Somewhere in the formula is an operation that cannot be made ready to run. -/
def hasBroken : Formula → Bool
  | .unary _ x => hasBroken x
  | .binary op x y => isBroken op (simplify x) (simplify y) || hasBroken x || hasBroken y
  | .cond c yes no => hasBroken c || hasBroken yes || hasBroken no
  | .list items => anyBroken items
  | .call _ args => anyBroken args
  | .builtin _ args => anyBroken args
  | .apply callee args => hasBroken callee || anyBroken args
  | .part x key => hasBroken x || hasBroken key
  | .slice x start stop => hasBroken x || hasBroken start || hasBroken stop
  | .tail x start => hasBroken x || hasBroken start
  | .truth x => hasBroken x
  | .among x _ => hasBroken x
  | .amongInts x _ => hasBroken x
  | _ => false

/-- In one of the formulas is an operation that cannot be made ready to run. -/
def anyBroken : List Formula → Bool
  | [] => false
  | x :: rest => hasBroken x || anyBroken rest

end

/-- The formula passes the check before it runs. -/
def isAccepted (f : Formula) : Bool := f.static?.isSome && !f.hasBroken

end Formula

end FactFold.Machine
