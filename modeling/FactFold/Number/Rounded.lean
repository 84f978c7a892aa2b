import FactFold.Number.Decimal
import FactFold.Number.Notation

/-!
# Numbers to a given precision

A finite number `m * 2 ^ q` in one of five styles, without its sign. A precision tells how many digits
are kept, and the number is then rounded to the nearest decimal of that many digits, a tie to the even
one; without a precision the shortest decimal is written. The two styles that are not decimal show
the binary digits themselves.
-/

namespace FactFold.Number

-- powers are those of the core library, whatever other powers are in sight
attribute [local instance (2000)] instPowNat

/-- How the digits of a number are laid out. -/
inductive Style where
  /-- One digit before the point, and an exponent. -/
  | scientific
  /-- Every place written out. -/
  | fixed
  /-- The shorter of the two. -/
  | general
  /-- Hexadecimal digits after a leading one, and a binary exponent. -/
  | hex
  /-- The whole mantissa in decimal, and a binary exponent. -/
  | binary
  deriving Repr, DecidableEq

/-- The digits of zero. -/
def zeroDigits : Digits := ⟨[0], 1⟩

/-- More digits than any number has. -/
def allDigits : Nat := 1100

/-- A positive number to `count` decimal digits, the zeros at the end dropped. -/
def roundedDigits (count : Nat) (m : Nat) (q : Int) : Digits :=
  let count := min count allDigits
  let (num, den) := binaryRatio m q
  let exponent := decimalExponent num den
  let (a, b) := decimalRatio 1 (count - exponent)
  let ds := digitList (roundDiv (num * a) (den * b))
  ⟨dropTrailingZeros ds, exponent + (ds.length - count : Int)⟩

/-- A number to a count of decimal digits, or to as few as read back. -/
def digitsOf (count : Option Nat) (p : Precision) (m : Nat) (q : Int) : Digits :=
  if m = 0 then zeroDigits
  else
    match count with
    | some count => roundedDigits count m q
    | none => p.format.shortest m q

/-- Zeros at the end up to a count of digits. -/
def Digits.extended (d : Digits) (count : Nat) : Digits :=
  { d with digits := d.digits ++ List.replicate (count - d.digits.length) 0 }

/-- A number with a fixed count of places after the point. -/
def fixedPlaces (places : Nat) (m : Nat) (q : Int) : List Char :=
  let (num, den) := binaryRatio m q
  let shown := min places allDigits
  let scaled := roundDiv (num * 10 ^ shown) den
  let whole := Nat.toDigits 10 (scaled / 10 ^ shown)
  let fraction := (padded shown (scaled % 10 ^ shown : Nat)).toList
  if places = 0 then whole
  else whole ++ '.' :: (fraction ++ List.replicate (places - shown) '0')

/-- The general layout of digits that were rounded to `count` of them: an exponent stands for a power
of ten from that count on, or from the number of digits left if the point is not beyond them. -/
def roundedGeneral (count : Nat) (d : Digits) : List Char :=
  let kept := d.digits.length
  let limit := if kept < count && d.point ≤ kept then kept else count
  let e := d.point - 1
  if e < generalFloor || limit ≤ e then scientificDigits d else plainDigits d

/-- A sign and at least two digits. -/
def exponentText (e : Int) : List Char :=
  (if e < 0 then '-' else '+') :: (padded 2 e.natAbs).toList

/-! ## Binary digits -/

/-- The bits of the widest fraction that `hex` shows. -/
def hexWidth : Nat := 60

/-- A mantissa between `2 ^ hexWidth` and its double, rounded to a count of hexadecimal digits. -/
def roundHex (precision : Option Nat) (m : Nat) : Nat :=
  match precision with
  | some places =>
    if 4 * places < hexWidth then
      let unit := 2 ^ (hexWidth - 4 * places)
      roundDiv m unit * unit
    else m
  | none => m

/-- Hexadecimal digits after the point: a count of them, or all up to the last that is not zero. -/
def hexFraction (precision : Option Nat) (fraction : Nat) : List Char :=
  let digits := (List.range (hexWidth / 4)).map fun i =>
    Nat.digitChar (fraction / 16 ^ (hexWidth / 4 - 1 - i) % 16)
  let shown :=
    match precision with
    | some places => digits.take places ++ List.replicate (places - digits.length) '0'
    | none => (digits.reverse.dropWhile (· = '0')).reverse
  if shown.isEmpty then [] else '.' :: shown

/-- The binary digits of a number in hexadecimal. -/
def hexDigitsOf (precision : Option Nat) (m : Nat) (q : Int) : List Char :=
  if m = 0 then ['0', 'x', '0'] ++ hexFraction precision 0 ++ 'p' :: exponentText 0
  else
    let rounded := roundHex precision (m * 2 ^ (hexWidth - m.log2))
    let e := q + m.log2
    let (rounded, e) := if rounded < 2 ^ (hexWidth + 1) then (rounded, e) else (rounded / 2, e + 1)
    ['0', 'x', '1'] ++ hexFraction precision (rounded % 2 ^ hexWidth) ++ 'p' :: exponentText e

/-- The mantissa of a number and the power of two it counts. -/
def binaryDigitsOf (m : Nat) (q : Int) : List Char :=
  (decimal m).toList ++ 'p' :: ((if q < 0 then [] else ['+']) ++ (decimal q).toList)

/-! ## Styles -/

/-- A number in a style, without its sign. -/
def styled (style : Style) (precision : Option Nat) (p : Precision) (m : Nat) (q : Int) :
    List Char :=
  match style, precision with
  | .scientific, some places =>
    scientificDigits ((digitsOf (some (places + 1)) p m q).extended (places + 1))
  | .scientific, none => scientificDigits (digitsOf none p m q)
  | .fixed, some places => fixedPlaces places m q
  | .fixed, none => plainDigits (digitsOf none p m q)
  | .general, some count =>
    let count := max count 1
    roundedGeneral count (digitsOf (some count) p m q)
  | .general, none => generalDigits (digitsOf none p m q)
  | .hex, precision => hexDigitsOf precision m q
  | .binary, _ => binaryDigitsOf m q

end FactFold.Number
