import FactFold.Number.Binary

/-!
# Shortest decimals

`shortest` writes a finite positive binary number with the fewest decimal digits that read back as
that number, and among those the digits nearest to it. A decimal reads back when it lies between the
midpoints to the two neighbouring numbers, the midpoints included when the number is even.
-/

namespace FactFold.Number

-- powers are those of the core library, whatever other powers are in sight
attribute [local instance (2000)] instPowNat

/-- Decimal digits `d₁ d₂ ... dₙ` with the point before the digit of index `point`: the number
`0.d₁d₂...dₙ * 10 ^ point`. -/
structure Digits where
  digits : List Nat
  point : Int
  deriving Repr, DecidableEq

/-- The decimal digits of a natural number, the highest first. -/
def digitList (n : Nat) : List Nat :=
  (Nat.toDigits 10 n).map fun c => c.toNat - 48

/-- Drops the zeros at the end of a list of digits. -/
def dropTrailingZeros (ds : List Nat) : List Nat :=
  (ds.reverse.dropWhile (· = 0)).reverse

/-- The reals that round to a number: a positive denominator, the numerators of both ends, and
whether the ends belong to them. -/
structure Rounding where
  value : Nat
  low : Nat
  high : Nat
  den : Nat
  closed : Bool

/-- The reals that round to `m * 2 ^ q`. The lower neighbour of a power of two is half as far. -/
def BinaryFormat.rounding (f : BinaryFormat) (m : Nat) (q : Int) : Rounding :=
  let narrow := m = 2 ^ (f.digits - 1) ∧ f.lowest < q
  let (v, den) := binaryRatio (4 * m) q
  let (unit, _) := binaryRatio 1 q
  ⟨v, v - (if narrow then unit else 2 * unit), v + 2 * unit, 4 * den, m % 2 = 0⟩

/-- The ratio `n / den` lies among the reals that round to the number. -/
def Rounding.holds (r : Rounding) (n den : Nat) : Bool :=
  let x := n * r.den
  let low := r.low * den
  let high := r.high * den
  if r.closed then low ≤ x && x ≤ high else low < x && x < high

/-- The number of decimal digits before the point of `n / den`, zero or less for a fraction below
one tenth: the exponent `k` with `10 ^ (k - 1) ≤ n / den < 10 ^ k`. -/
def decimalExponent (n den : Nat) : Int :=
  let guess : Int := (Nat.toDigits 10 n).length - (Nat.toDigits 10 den).length
  let (a, b) := decimalRatio 1 guess
  if n * b < den * a then guess else guess + 1

/-- The decimal with `count` digits nearest to the number among those that read back as it. -/
def Rounding.withDigits? (r : Rounding) (exponent : Int) (count : Nat) : Option Nat :=
  -- grid points are `k / 10 ^ scale`
  let scale : Int := count - exponent
  let (a, b) := decimalRatio 1 scale
  let num := r.value * a
  let den := r.den * b
  let below := num / den
  let above := below + 1
  let reads (k : Nat) : Bool := r.holds (k * b) a
  let nearBelow := 2 * (num % den) < den || (2 * (num % den) = den && below % 2 = 0)
  match reads below && below ≠ 0, reads above with
  | true, true => some (if nearBelow then below else above)
  | true, false => some below
  | false, true => some above
  | false, false => none

/-- The fewest digits that read back as `m * 2 ^ q`, for a positive `m`. -/
def BinaryFormat.shortest (f : BinaryFormat) (m : Nat) (q : Int) : Digits :=
  let r := f.rounding m q
  let exponent := decimalExponent r.value r.den
  let hit := (List.range 20).findSome? fun i =>
    (r.withDigits? exponent (i + 1)).map fun k => (k, i + 1)
  match hit with
  | some (k, count) =>
    let ds := digitList k
    ⟨dropTrailingZeros ds, exponent + (ds.length - count : Int)⟩
  | none => ⟨[0], 1⟩

end FactFold.Number
