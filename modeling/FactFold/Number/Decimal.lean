/-!
# Decimal integers

Integers in decimal digits, and the integers of a machine word.
-/

namespace FactFold.Number

-- powers are those of the core library, whatever other powers are in sight
attribute [local instance (2000)] instPowNat

/-- An integer in decimal digits, zeros in front up to the width; the sign of a negative one comes
before the zeros. -/
def padded (width : Nat) (n : Int) : String :=
  let digits := Nat.toDigits 10 n.natAbs
  let zeros := List.replicate (width - digits.length) '0'
  String.ofList ((if n < 0 then ['-'] else []) ++ zeros ++ digits)

/-- An integer in decimal digits. -/
def decimal (n : Int) : String := padded 0 n

/-- The signed 64-bit integer that agrees with `n` modulo `2 ^ 64`. -/
def wrap64 (n : Int) : Int := Int.bmod n (2 ^ (64 : Nat))

end FactFold.Number
