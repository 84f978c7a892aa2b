/-!
# Operators

Four arithmetic operators and six comparisons, with their names and symbols.
-/

namespace FactFold

/-- Operators that yield a value of their operands' kind. -/
inductive Arithmetic where
  | mul
  | div
  | add
  | sub
  deriving Repr, DecidableEq

/-- Operators that yield a truth value. -/
inductive Comparison where
  | eq
  | ne
  | lt
  | le
  | gt
  | ge
  deriving Repr, DecidableEq

/-- A binary operator. -/
inductive Operator where
  | arithmetic (op : Arithmetic)
  | comparison (op : Comparison)
  deriving Repr, DecidableEq

/-- The infix spelling of an arithmetic operator. -/
def Arithmetic.symbol : Arithmetic → String
  | .mul => "*"
  | .div => "/"
  | .add => "+"
  | .sub => "-"

/-- The infix spelling of a comparison. -/
def Comparison.symbol : Comparison → String
  | .eq => "=="
  | .ne => "!="
  | .lt => "<"
  | .le => "<="
  | .gt => ">"
  | .ge => ">="

namespace Operator

/-- All operators, arithmetic first. -/
def all : List Operator :=
  [.arithmetic .mul, .arithmetic .div, .arithmetic .add, .arithmetic .sub,
   .comparison .eq, .comparison .ne, .comparison .lt, .comparison .le, .comparison .gt,
   .comparison .ge]

/-- The name of an operator. -/
def name : Operator → String
  | .arithmetic .mul => "mul"
  | .arithmetic .div => "div"
  | .arithmetic .add => "add"
  | .arithmetic .sub => "sub"
  | .comparison .eq => "eq"
  | .comparison .ne => "ne"
  | .comparison .lt => "lt"
  | .comparison .le => "le"
  | .comparison .gt => "gt"
  | .comparison .ge => "ge"

/-- The infix spelling of an operator. -/
def symbol : Operator → String
  | .arithmetic op => op.symbol
  | .comparison op => op.symbol

/-- The operator yields a truth value. -/
def isComparison : Operator → Bool
  | .arithmetic _ => false
  | .comparison _ => true

/-- The operator of a name. -/
def ofName? (s : String) : Option Operator := all.find? fun op => op.name = s

end Operator

end FactFold
