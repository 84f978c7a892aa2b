import FactFold.Number.Shortest

/-!
# Decimal notation of floating-point numbers

Two notations of the shortest decimal: `plain` writes every place, and `general` turns to an exponent
of at least two digits when the first digit stands for a power of ten below `generalFloor` or from
`generalLimit` on. Both exist for double and for single precision.
-/

namespace FactFold.Number

/-- Precision in which a number is written. -/
inductive Precision where
  | single
  | double
  deriving Repr, DecidableEq

/-- A decimal digit. -/
def digitChar (d : Nat) : Char := Char.ofNat (48 + d)

/-- Every place written out: zeros pad up to the point on either side. -/
def plainDigits (d : Digits) : List Char :=
  let whole :=
    if 0 < d.point then
      (List.range d.point.toNat).map fun i => digitChar (d.digits.getD i 0)
    else ['0']
  let fraction : List Nat :=
    if 0 ≤ d.point then d.digits.drop d.point.toNat
    else List.replicate (-d.point).toNat 0 ++ d.digits
  if fraction.isEmpty then whole else whole ++ '.' :: fraction.map digitChar

/-- First digit, point, remaining digits, and an exponent of at least two digits. -/
def scientificDigits (d : Digits) : List Char :=
  let head := (d.digits.take 1).map digitChar
  let tail := (d.digits.drop 1).map digitChar
  let e := d.point - 1
  let digits := Nat.toDigits 10 e.natAbs
  let padded := if digits.length < 2 then '0' :: digits else digits
  head ++ (if tail.isEmpty then [] else '.' :: tail) ++ 'e' :: (if e < 0 then '-' else '+') :: padded

/-- From this power of ten on `general` uses an exponent. -/
def generalLimit : Int := 6

/-- Below this power of ten `general` uses an exponent. -/
def generalFloor : Int := -4

/-- The magnitude of a number in the precision it is written in. -/
def Precision.magnitude (p : Precision) (x : Float) : Magnitude :=
  match p with
  | .double => Number.magnitude x
  | .single => singleMagnitude x

/-- The format of a precision. -/
def Precision.format : Precision → BinaryFormat
  | .double => .double
  | .single => .single

/-- A number in the notation that `write` gives to its digits. -/
def writeWith (write : Digits → List Char) (p : Precision) (x : Float) : String :=
  let sign := if isNegative x then "-" else ""
  match p.magnitude x with
  | .nan => "NaN"
  | .infinite => (if isNegative x then "-" else "+") ++ "Inf"
  | .finite 0 _ => sign ++ String.ofList (write ⟨[0], 1⟩)
  | .finite m q => sign ++ String.ofList (write (p.format.shortest m q))

/-- Every place written out. -/
def plain (p : Precision) (x : Float) : String := writeWith plainDigits p x

/-- The shorter of the two notations by the power of ten of the first digit. -/
def generalDigits (d : Digits) : List Char :=
  let e := d.point - 1
  if e < generalFloor || generalLimit ≤ e then scientificDigits d else plainDigits d

/-- General notation. -/
def general (p : Precision) (x : Float) : String := writeWith generalDigits p x

end FactFold.Number
