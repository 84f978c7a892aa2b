/-!
# Binary floating-point formats

A format fixes how many binary digits a number keeps and how small its last digit may be. A finite
number of the format is `m * 2 ^ q`. `roundRatio` gives the number nearest to a positive ratio, ties
to the even one. The two formats in use are `double` and `single`, whose bit patterns `Float` and
`Float32` show.
-/

namespace FactFold.Number

-- powers are those of the core library, whatever other powers are in sight
attribute [local instance (2000)] instPowNat

/-- A binary floating-point format. -/
structure BinaryFormat where
  /-- Binary digits of a number, the leading one included. -/
  digits : Nat
  /-- Exponent of the last digit of the smallest numbers. -/
  lowest : Int
  /-- Exponent of the last digit of the largest numbers. -/
  highest : Int
  deriving Repr, DecidableEq

/-- Double precision. -/
def BinaryFormat.double : BinaryFormat := ⟨53, -1074, 971⟩

/-- Single precision. -/
def BinaryFormat.single : BinaryFormat := ⟨24, -149, 104⟩

/-- A non-negative number of a binary format. -/
inductive Magnitude where
  /-- `m * 2 ^ q` -/
  | finite (m : Nat) (q : Int)
  | infinite
  | nan
  deriving Repr, DecidableEq

/-- The quotient rounded to the nearest integer, a tie to the even one. -/
def roundDiv (num den : Nat) : Nat :=
  let q := num / den
  let r := 2 * (num % den)
  if r < den then q else if den < r then q + 1 else if q % 2 = 0 then q else q + 1

/-- `num / den * 2 ^ (-q)` as a ratio of naturals. -/
def scaleRatio (num den : Nat) (q : Int) : Nat × Nat :=
  if 0 ≤ q then (num, den * 2 ^ q.toNat) else (num * 2 ^ (-q).toNat, den)

/-- The number of the format nearest to the ratio `num / den` of a positive `den`. -/
def BinaryFormat.roundRatio (f : BinaryFormat) (num den : Nat) : Magnitude :=
  if num = 0 then .finite 0 f.lowest
  else
    -- the exponent that leaves `digits` or `digits + 1` binary digits before the point
    let guess : Int := (num.log2 : Int) - den.log2 - f.digits
    let fit (q : Int) : Nat × Int :=
      let q := max q f.lowest
      let (n, d) := scaleRatio num den q
      (roundDiv n d, q)
    -- the smallest exponent whose rounded mantissa fits
    let candidates := [fit guess, fit (guess + 1), fit (guess + 2)]
    match candidates.find? fun c => c.1 < 2 ^ f.digits with
    | some (m, q) => if q ≤ f.highest then .finite m q else .infinite
    | none => .infinite

/-- Decimal ratio `n * 10 ^ e`. -/
def decimalRatio (n : Nat) (e : Int) : Nat × Nat :=
  if 0 ≤ e then (n * 10 ^ e.toNat, 1) else (n, 10 ^ (-e).toNat)

/-- Binary ratio `n * 2 ^ e`. -/
def binaryRatio (n : Nat) (e : Int) : Nat × Nat :=
  if 0 ≤ e then (n * 2 ^ e.toNat, 1) else (n, 2 ^ (-e).toNat)

/-! ## Bit patterns -/

/-- The double with the given sign and magnitude. -/
def doubleOf (negative : Bool) (x : Magnitude) : Float :=
  let sign : Nat := if negative then 2 ^ (63 : Nat) else 0
  match x with
  | .nan => Float.ofBits 0x7ff8000000000001
  | .infinite => Float.ofBits (UInt64.ofNat (sign + 0x7ff0000000000000))
  | .finite m q =>
    if m < 2 ^ (52 : Nat) then Float.ofBits (UInt64.ofNat (sign + m))
    else
      Float.ofBits
        (UInt64.ofNat (sign + (q + 1075).toNat * 2 ^ (52 : Nat) + (m - 2 ^ (52 : Nat))))

/-- Magnitude from the exponent field and the fraction field of a bit pattern. -/
def magnitudeOfFields (f : BinaryFormat) (top : Nat) (exponent fraction : Nat) : Magnitude :=
  if exponent = top then (if fraction = 0 then .infinite else .nan)
  else if exponent = 0 then .finite fraction f.lowest
  else .finite (fraction + 2 ^ (f.digits - 1)) (f.lowest + exponent - 1)

/-- Sign bit of a double. -/
def isNegative (x : Float) : Bool := x.toBits.toNat / 2 ^ (63 : Nat) % 2 = 1

/-- Magnitude of a double. -/
def magnitude (x : Float) : Magnitude :=
  let b := x.toBits.toNat
  magnitudeOfFields .double 2047 (b / 2 ^ (52 : Nat) % 2048) (b % 2 ^ (52 : Nat))

/-- Magnitude of a double rounded to single precision. -/
def singleMagnitude (x : Float) : Magnitude :=
  let b := x.toFloat32.toBits.toNat
  magnitudeOfFields .single 255 (b / 2 ^ (23 : Nat) % 256) (b % 2 ^ (23 : Nat))

/-- The double nearest to an integer of at most 64 bits. -/
def doubleOfInt (n : Int) : Float :=
  if n < 0 then (Int64.ofInt n).toFloat else (UInt64.ofNat n.toNat).toFloat

/-- The integer part of a double; the lowest 64-bit integer when 64 bits do not hold it. -/
def truncate (x : Float) : Int :=
  match magnitude x with
  | .finite m q =>
    let (num, den) := binaryRatio m q
    let n : Int := (num / den : Nat)
    let n := if isNegative x then -n else n
    if -(2 ^ (63 : Nat)) ≤ n ∧ n < 2 ^ (63 : Nat) then n else -(2 ^ (63 : Nat))
  | .infinite | .nan => -(2 ^ (63 : Nat))

end FactFold.Number
