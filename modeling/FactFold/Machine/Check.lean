import FactFold.Machine.Formula

/-!
# Checking formulas

A formula is checked before it runs. The types of literals and of operators on them are known, and
nothing about variables and calls. A formula is rejected when an operator can never fit its operands.
What is known also shows when the formula runs: two integers, or two texts, by what is known about
them compare as such and as nothing else.
-/

namespace FactFold.Machine

/-- What is known about a value before it is computed. -/
inductive Static where
  | any
  | null
  | bool
  | int
  | float
  | text
  | list
  /-- A list of integers. -/
  | ints
  deriving Repr, DecidableEq

namespace Static

/-- A number of either sort. -/
def isNumber : Static → Bool
  | .int | .float => true
  | _ => false

/-- A list of either sort. -/
def isList : Static → Bool
  | .list | .ints => true
  | _ => false

/-- Nothing is known about one of the two, and nothing or something fitting about the other. -/
def fit (p : Static → Bool) (a b : Static) : Bool :=
  (a = .any && (b = .any || p b)) || (b = .any && p a)

/-- Two values that can be compared. -/
def comparable (a b : Static) : Bool :=
  a = .any || b = .any || a = .null || b = .null || a = b || (a.isNumber && b.isNumber) ||
    (a.isList && b.isList)

/-- The type of a sum, difference or product of numbers. -/
def ofNumbers (a b : Static) : Static := if a = .int && b = .int then .int else .float

/-- The type of a binary operation, if it can fit its operands. -/
def binary? (op : BinaryOp) (a b : Static) : Option Static :=
  match op with
  | .add =>
    if a.isNumber && b.isNumber then some (ofNumbers a b)
    else if a = .text && b = .text then some .text
    else if fit (fun t => t.isNumber || t = .text) a b then some .any
    else none
  | .sub | .mul =>
    if a.isNumber && b.isNumber then some (ofNumbers a b)
    else if fit isNumber a b then some .any
    else none
  | .div | .pow =>
    if (a.isNumber && b.isNumber) || fit isNumber a b then some .float else none
  | .rem => if (a = .int && b = .int) || fit (· = .int) a b then some .int else none
  | .eq | .ne => if comparable a b then some .bool else none
  | .lt | .le | .gt | .ge =>
    if (a.isNumber && b.isNumber) || (a = .text && b = .text) ||
        fit (fun t => t.isNumber || t = .text) a b then
      some .bool
    else none
  | .and | .or =>
    if (a = .bool && b = .bool) || fit (· = .bool) a b then some .bool else none
  | .isIn =>
    if b = .ints then (if comparable a .int then some .bool else none)
    else if b = .list || b = .any || (a = .any && b = .text) then some .bool
    else none
  | .contains | .startsWith | .endsWith | .fits =>
    if (a = .text && b = .text) || fit (· = .text) a b then some .bool else none
  | .range => if (a = .int && b = .int) || fit (· = .int) a b then some .ints else none
  | .orElse =>
    some (if a = .null then b else if b = .null then a else if b = a || a = .any then b else .any)

/-- The type of a unary operation, if it can fit its operand. -/
def unary? (op : UnaryOp) (a : Static) : Option Static :=
  match op with
  | .not => if a = .bool || a = .any then some .bool else none
  | .minus | .plus => if a.isNumber || a = .any then some a else none

/-- The type of a choice, if its condition can be one. -/
def cond? (c yes no : Static) : Option Static :=
  if c = .bool || c = .any then
    some (if yes = .null then no else if no = .null || no = yes || no = .any then yes else .any)
  else none

/-- The type of a part of a value, if it can have one. -/
def part? (x key : Static) : Option Static :=
  match x with
  | .any => some .any
  | .list => if key = .int || key = .any then some .any else none
  | .ints => if key = .int || key = .any then some .int else none
  | _ => none

/-- The type of a part of a list, if there can be one. -/
def slice? (x start stop : Static) : Option Static :=
  if (x.isList || x = .text || x = .any) && (start = .int || start = .any) &&
      (stop = .int || stop = .any) then
    some x
  else none

/-- The type of a call of a function the evaluator has by itself, if its arguments can fit. -/
def builtin? (f : Builtin) (args : List Static) : Option Static :=
  match f, args with
  | .len, [a] => if a.isList || a = .text || a = .any then some .int else none
  | .type, [_] | .string, [_] => some .text
  | .abs, [a] => if a.isNumber || a = .any then some a else none
  | .ceil, [a] | .floor, [a] | .round, [a] => if a.isNumber || a = .any then some .float else none
  | .int, [a] => if a.isNumber || a = .text || a = .any then some .int else none
  | .float, [a] => if a.isNumber || a = .text || a = .any then some .float else none
  | .trim, [a] | .upper, [a] | .lower, [a] => if a = .text || a = .any then some .text else none
  | .first, [a] | .last, [a] => part? a .int
  | .max, a :: rest | .min, a :: rest => ofExtremum a (a :: rest)
  | .sum, [a] => if a.isList || a = .any then some .any else none
  | .bitnot, [a] => if a = .int || a = .any then some .int else none
  | _, _ => none
where
  /-- The type of the largest or smallest of numbers, of which `first` is the first. -/
  ofExtremum (first : Static) : List Static → Option Static
    | [] => some first
    | a :: rest =>
      if a = .any || a.isList then some .any
      else if a.isNumber then ofExtremum first rest
      else none

/-- What is known about all items of a list, if it is the same. -/
def common? : List Static → Option Static
  | [] => none
  | [a] => some a
  | a :: b :: rest => if a = .null || b = .null || a ≠ b then none else common? (b :: rest)

/-- A value can be among items of which something is known. -/
def canBeAmong (a : Static) (items : List Static) : Bool :=
  match common? items with
  | some item => comparable a item
  | none => true

end Static

namespace Formula

mutual

/-- What is known about a formula, none when it is rejected. -/
def static? : Formula → Option Static
  | .null => some .null
  | .bool _ => some .bool
  | .int _ => some .int
  | .float _ => some .float
  | .text _ => some .text
  | .oversized => none
  | .variable _ => some .any
  | .unbound => some .any
  | .unary op x => do
    let a ← static? x
    Static.unary? op a
  | .binary .isIn x (.list items) => do
    let a ← static? x
    let ts ← statics? items
    if a.canBeAmong ts then pure .bool else none
  | .binary op x y => do
    let a ← static? x
    let b ← static? y
    Static.binary? op a b
  | .cond c yes no => do
    let a ← static? c
    let y ← static? yes
    let n ← static? no
    Static.cond? a y n
  | .list items => do
    let _ ← statics? items
    pure .list
  | .call _ args => do
    let _ ← statics? args
    pure .any
  | .builtin f args => do
    let ts ← statics? args
    Static.builtin? f ts
  | .apply callee _ => do
    let _ ← static? callee
    pure .any
  | .part x key => do
    let a ← static? x
    let k ← static? key
    Static.part? a k
  | .slice x start stop => do
    let a ← static? x
    let s ← static? start
    let t ← static? stop
    Static.slice? a s t
  | .tail x start => do
    let a ← static? x
    let s ← static? start
    Static.slice? a s .int
  | .truth x => do
    let _ ← static? x
    pure .bool
  | .among x _ => do
    let _ ← static? x
    pure .bool
  | .amongInts x _ => do
    let _ ← static? x
    pure .bool

/-- What is known about each of several formulas, none when one is rejected. -/
def statics? : List Formula → Option (List Static)
  | [] => some []
  | x :: rest => do
    let t ← static? x
    let ts ← statics? rest
    pure (t :: ts)

end

/-- What is known about a formula that passed the check. -/
def static (f : Formula) : Static := f.static?.getD .any

end Formula

end FactFold.Machine
