import FactFold.Datum.Conversion

/-!
# Literals in source

A literal is written by the type it is given: integers and numbers convert the value and add the
mark of their type, numbers that are not finite are named by a constant of their class, and strings
are quoted with everything outside printable ASCII escaped as UTF-16 code units.
-/

namespace FactFold.Literal

open Text (hexDigits)

/-- A UTF-16 code unit as an escape. -/
def unitEscape (unit : Nat) : List Char := '\\' :: 'u' :: hexDigits 4 unit

/-- A character between the quotes of a string. -/
def stringChar (c : Char) : List Char :=
  match c.toNat with
  | 8 => ['\\', 'b']
  | 9 => ['\\', 't']
  | 10 => ['\\', 'n']
  | 12 => ['\\', 'f']
  | 13 => ['\\', 'r']
  | 34 => ['\\', '"']
  | 92 => ['\\', '\\']
  | n =>
    if 0x20 ≤ n ∧ n < 0x7f then [c]
    else if 0xffff < n then
      unitEscape (0xd800 + (n - 0x10000) / 0x400) ++ unitEscape (0xdc00 + (n - 0x10000) % 0x400)
    else unitEscape n

/-- A string between quotes. -/
def string (s : String) : String :=
  String.ofList ('"' :: (s.toList.flatMap stringChar ++ ['"']))

/-- The constant for a number that is not finite. -/
def nonFinite? (className : String) (x : Float) : Option String :=
  match Number.magnitude x with
  | .nan => some (className ++ ".NaN")
  | .infinite =>
    some (className ++ (if Number.isNegative x then ".NEGATIVE_INFINITY" else ".POSITIVE_INFINITY"))
  | .finite .. => none

/-- A number that shows a point or an exponent. -/
def pointed (s : String) : String :=
  if s.toList.any fun c => c = '.' || c = 'e' || c = 'E' then s else s ++ ".0"

/-- A value as a literal of a type. -/
def text (type : String) (value : Datum) : String :=
  match type with
  | "int" => Number.decimal value.operand.longOrZero
  | "long" => Number.decimal value.operand.longOrZero ++ "L"
  | "float" =>
    let x := value.operand.doubleOrZero
    (nonFinite? "Float" x).getD (pointed (Number.general .single x) ++ "f")
  | "double" =>
    let x := value.operand.doubleOrZero
    (nonFinite? "Double" x).getD (pointed (Number.general .double x))
  | "String" => string value.plainText
  | _ => value.plainText

/-- A value that cannot be written as a literal of a type: a truth value has to be one. -/
def isMismatch (type : String) (value : Datum) : Bool :=
  match type, value with
  | "boolean", .scalar (.bool _) => false
  | "boolean", _ => true
  | _, _ => false

end FactFold.Literal
