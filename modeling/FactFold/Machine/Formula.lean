import FactFold.Machine.Source
import FactFold.Text.Letter

/-!
# Formulas

A formula is an expression as the evaluator understands its source. For almost every expression it
can be told directly: `ofTerm?` gives it when all names and operators are among those the evaluator
knows as such. Otherwise the source has to be read, since an odd name may hold anything.

The negation binds looser than a product. The source sets brackets around what is negated but not
around the negation, so that a negation to the left of a product takes the product in.
-/

namespace FactFold.Machine

-- powers are those of the core library, whatever other powers are in sight
attribute [local instance (2000)] instPowNat

/-- Operators on one operand. -/
inductive UnaryOp where
  | not
  | minus
  | plus
  deriving Repr, DecidableEq

/-- Operators on two operands. -/
inductive BinaryOp where
  | add
  | sub
  | mul
  | div
  | rem
  | pow
  | eq
  | ne
  | lt
  | le
  | gt
  | ge
  | and
  | or
  /-- Membership in a list. -/
  | isIn
  | contains
  | startsWith
  | endsWith
  /-- A text holds something that fits a pattern. -/
  | fits
  /-- The integers from one to another. -/
  | range
  /-- The first operand, or the second when the first is null. -/
  | orElse
  deriving Repr, DecidableEq

/-- The functions the evaluator offers. -/
inductive Routed where
  /-- A method of a value. -/
  | call
  /-- A static method. -/
  | static
  /-- A new object. -/
  | new
  | convert
  /-- Division. -/
  | quotient
  deriving Repr, DecidableEq

/-- The functions on plain values that the evaluator has by itself. -/
inductive Builtin where
  | len
  /-- The name of a value's sort. -/
  | type
  | abs
  | ceil
  | floor
  | round
  | int
  | float
  | string
  | trim
  | upper
  | lower
  | first
  | last
  | max
  | min
  | sum
  | bitnot
  deriving Repr, DecidableEq

/-- An expression as the evaluator understands it. -/
inductive Formula where
  | null
  | bool (b : Bool)
  | int (n : Int)
  | float (x : Float)
  | text (bytes : Text.Bytes)
  /-- An integer literal whose digits are out of range, which no check passes. -/
  | oversized
  /-- A variable of the routine. -/
  | variable (name : String)
  /-- A name that no variable of a routine has. -/
  | unbound
  | unary (op : UnaryOp) (x : Formula)
  | binary (op : BinaryOp) (x y : Formula)
  | cond (c yes no : Formula)
  | list (items : List Formula)
  /-- A call of one of the evaluator's functions. -/
  | call (function : Routed) (args : List Formula)
  /-- A call of a function the evaluator has by itself. -/
  | builtin (function : Builtin) (args : List Formula)
  /-- A call of anything else. -/
  | apply (callee : Formula) (args : List Formula)
  /-- A part of a value, by name or by index. -/
  | part (x key : Formula)
  /-- The items of a list from one index up to another, without the last. -/
  | slice (x start stop : Formula)
  /-- The items of a list from an index on. -/
  | tail (x start : Formula)
  /-- A formula that stands for a truth value in its place. -/
  | truth (x : Formula)
  /-- Membership in a set of texts. -/
  | among (x : Formula) (texts : List Text.Bytes)
  /-- Membership in a set of integers. -/
  | amongInts (x : Formula) (ns : List Int)

/-- The unary operator of a sign. -/
def UnaryOp.ofText? : String → Option UnaryOp
  | "!" => some .not
  | "-" => some .minus
  | "+" => some .plus
  | _ => none

/-- The binary operator of a sign that expressions of routines use. -/
def BinaryOp.ofText? : String → Option BinaryOp
  | "+" => some .add
  | "-" => some .sub
  | "*" => some .mul
  | "==" => some .eq
  | "!=" => some .ne
  | "<" => some .lt
  | "<=" => some .le
  | ">" => some .gt
  | ">=" => some .ge
  | "&&" => some .and
  | "||" => some .or
  | _ => none

/-- A character of the evaluator's names. -/
def isNameChar (c : Char) : Bool :=
  c = '_' || c = '$' || Text.isLetter c || Text.isDecimalDigit c

/-- A text as a literal denotes it: a byte that is no character stands for the character of its
number. -/
def literalText (bs : Text.Bytes) : Text.Bytes :=
  bs.pieces.flatMap fun
    | .char c => String.utf8EncodeChar c
    | .stray b => String.utf8EncodeChar (Char.ofNat b.toNat)

/-- The formula of a literal. The digits of the lowest integer are out of range without its sign. -/
def LiteralValue.formula : LiteralValue → Formula
  | .int n => if n = -(2 ^ (63 : Nat)) then .oversized else .int n
  | .double x => .float x
  | .bool b => .bool b
  | .text bs => .text (literalText bs)

namespace Formula

/-- A text literal. -/
def ofText (s : String) : Formula := .text (.ofText s)

/-- A name before the other arguments of a call; the empty name is left out. -/
def withName (name : String) (args : List Formula) : List Formula :=
  if name = "" then args else ofText name :: args

mutual

/-- The formula of an expression whose names and operators are all plain. -/
def ofTerm? : Term → Option Formula
  | .ident name => if name.toList.all isNameChar then some (.variable name) else none
  | .lit type value => (literalValue type value).toOption.map LiteralValue.formula
  | .null => some .null
  | .binary op x y => do
    let a ← ofTerm? x
    let b ← ofTerm? y
    if op = "/" then pure (.call .quotient [a, b])
    else
      let op ← BinaryOp.ofText? op
      match op, x, a with
      | .mul, .unary "!" _, .unary .not a => pure (.unary .not (.binary .mul a b))
      | op, _, a => pure (.binary op a b)
  | .unary op x => do
    let a ← ofTerm? x
    pure (.unary (← UnaryOp.ofText? op) a)
  | .call method args => do
    let as ← ofTerms? args
    pure (.call .static (withName method as))
  | .invoke receiver method args => do
    let r ← ofTerm? receiver
    let as ← ofTerms? args
    pure (.call .call (r :: ofText method :: as))
  | .new type args => do
    let as ← ofTerms? args
    pure (.call .new (withName type as))
  | .newArray _ items => do
    let as ← ofTerms? items
    pure (.list as)
  | .cast type x => do
    let a ← ofTerm? x
    pure (.call .convert (withName type [a]))
  | .cond c yes no => do
    let a ← ofTerm? c
    let y ← ofTerm? yes
    let n ← ofTerm? no
    pure (.cond a y n)
  | .hole => none

/-- The formulas of expressions whose names and operators are all plain. -/
def ofTerms? : List Term → Option (List Formula)
  | [] => some []
  | x :: rest => do
    let a ← ofTerm? x
    let as ← ofTerms? rest
    pure (a :: as)

end

end Formula

end FactFold.Machine
