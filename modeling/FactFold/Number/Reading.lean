import FactFold.Number.Binary
import FactFold.Text.Quoted

/-!
# Reading numbers

Integers may carry a sign, a base mark (`0x`, `0o`, `0b`, or a leading zero for octal) and
underscores between digits. Floating-point numbers are decimal, or hexadecimal with a binary
exponent, or one of the words for infinity and not-a-number. Reading fails on anything else and on
numbers out of range. Texts are given as characters; only the first 128 ever belong to a number.
-/

namespace FactFold.Number

-- powers are those of the core library, whatever other powers are in sight
attribute [local instance (2000)] instPowNat

open FactFold.Text

/-- The letter in lower case. -/
def asciiLower (c : Char) : Char :=
  if 'A' ≤ c ∧ c ≤ 'Z' then Char.ofNat (c.toNat + 32) else c

/-- Value of a digit or letter, letters counting from ten. -/
def alnumValue? (c : Char) : Option Nat :=
  let c := asciiLower c
  if '0' ≤ c ∧ c ≤ '9' then some (c.toNat - 48)
  else if 'a' ≤ c ∧ c ≤ 'z' then some (c.toNat - 87)
  else none

/-- A decimal digit. -/
def isDigit (c : Char) : Bool := '0' ≤ c && c ≤ '9'

/-- Splits off the sign. -/
def takeSign : List Char → Bool × List Char
  | '-' :: rest => (true, rest)
  | '+' :: rest => (false, rest)
  | cs => (false, cs)

/-! ## Underscores -/

/-- What stands before the next character when underscores are checked. -/
inductive UnderscoreSide where
  | start
  | digit
  | underscore
  | other
  deriving DecidableEq

/-- Underscores stand between digits only; the base mark counts as a digit. -/
def underscoresFit (hex : Bool) : UnderscoreSide → List Char → Bool
  | side, [] => side ≠ .underscore
  | side, c :: rest =>
    if isDigit c || (hex && 'a' ≤ asciiLower c && asciiLower c ≤ 'f') then
      underscoresFit hex .digit rest
    else if c = '_' then
      side = .digit && underscoresFit hex .underscore rest
    else side ≠ .underscore && underscoresFit hex .other rest

/-- Underscores of a number, read after the sign, stand where they may. -/
def underscoresAllowed (cs : List Char) : Bool :=
  match cs with
  | '0' :: b :: rest =>
    let b := asciiLower b
    if b = 'b' || b = 'o' || b = 'x' then underscoresFit (b = 'x') .digit rest
    else underscoresFit false .start cs
  | _ => underscoresFit false .start cs

/-! ## Integers -/

/-- The value of digits in a base; underscores are passed over. -/
def baseValue? (base : Nat) (cs : List Char) : Option Nat :=
  (cs.filter (· ≠ '_')).foldlM (fun n c => do
    let d ← alnumValue? c
    if d < base then pure (n * base + d) else none) 0

/-- The base a number's mark announces, and the digits after the mark. -/
def baseMark : List Char → Nat × List Char
  | '0' :: b :: d :: rest =>
    let m := asciiLower b
    if m = 'b' then (2, d :: rest)
    else if m = 'o' then (8, d :: rest)
    else if m = 'x' then (16, d :: rest)
    else (8, b :: d :: rest)
  | '0' :: rest => (8, rest)
  | cs => (10, cs)

/-- The integer lies in the signed 64-bit range. -/
def fits64 (n : Int) : Bool := -(2 ^ (63 : Nat)) ≤ n && n < 2 ^ (63 : Nat)

/-- A signed 64-bit integer in the base its mark announces. -/
def readInt? (cs : List Char) : Option Int := do
  let (negative, digits) := takeSign cs
  if digits.isEmpty then none
  let (base, body) := baseMark digits
  let n ← baseValue? base body
  if digits.contains '_' && !underscoresAllowed digits then none
  let v : Int := if negative then -(n : Int) else n
  if fits64 v then some v else none

/-- A signed 64-bit integer in decimal digits. -/
def readDecimalInt? (cs : List Char) : Option Int := do
  let (negative, digits) := takeSign cs
  if digits.isEmpty then none
  let n ← digits.foldlM (fun n c => if isDigit c then some (n * 10 + (c.toNat - 48)) else none) 0
  let v : Int := if negative then -(n : Int) else n
  if fits64 v then some v else none

/-! ## Floating-point numbers -/

/-- The digits of a mantissa without the point, and how many of them follow it. -/
structure Mantissa where
  digits : List Char
  places : Nat

/-- Splits a mantissa off a text: digits with at most one point among them. -/
def takeMantissa (isDig : Char → Bool) : (seenPoint : Bool) → List Char → Mantissa × List Char
  | _, [] => (⟨[], 0⟩, [])
  | seenPoint, c :: rest =>
    if c = '_' then takeMantissa isDig seenPoint rest
    else if c = '.' then
      if seenPoint then (⟨[], 0⟩, c :: rest) else takeMantissa isDig true rest
    else if isDig c then
      let (m, tail) := takeMantissa isDig seenPoint rest
      (⟨c :: m.digits, if seenPoint then m.places + 1 else m.places⟩, tail)
    else (⟨[], 0⟩, c :: rest)

/-- Largest exponent told apart from larger ones. -/
def exponentCap : Nat := 100000

/-- The exponent after its letter: an optional sign and at least one digit, to the end. -/
def readExponent? (cs : List Char) : Option Int := do
  let (negative, digits) := takeSign cs
  match digits with
  | c :: _ => if !isDigit c then none
  | [] => none
  let n ← (digits.filter (· ≠ '_')).foldlM
    (fun n c => if isDigit c then some (min (n * 10 + (c.toNat - 48)) exponentCap) else none) 0
  pure (if negative then -(n : Int) else n)

/-- The double nearest to `n * 10 ^ e`, none when it is too large. Exponents far outside the range
are settled by the number of digits alone. -/
def nearestDecimal? (n : Nat) (e : Int) : Option Magnitude :=
  let size := (Nat.toDigits 10 n).length + e
  if n = 0 || size < -400 then some (.finite 0 (-1074))
  else if size > 400 then none
  else
    let (a, b) := decimalRatio n e
    match BinaryFormat.double.roundRatio a b with
    | .finite m q => some (.finite m q)
    | _ => none

/-- The double nearest to `n * 2 ^ e`, none when it is too large. -/
def nearestBinary? (n : Nat) (e : Int) : Option Magnitude :=
  let size := (n.log2 : Int) + e
  if n = 0 || size < -1200 then some (.finite 0 (-1074))
  else if size > 1200 then none
  else
    let (a, b) := binaryRatio n e
    match BinaryFormat.double.roundRatio a b with
    | .finite m q => some (.finite m q)
    | _ => none

/-- The words for infinity and not-a-number, in any letter case. -/
def readWord? (cs : List Char) : Option Float :=
  let (negative, body) := takeSign cs
  let word := String.ofList (body.map asciiLower)
  if word = "inf" || word = "infinity" then some (doubleOf negative .infinite)
  else if String.ofList (cs.map asciiLower) = "nan" then some (doubleOf false .nan)
  else none

/-- A hexadecimal digit. -/
def isHexDigit (c : Char) : Bool := (hexValue? c).isSome

/-- A floating-point number in digits. -/
def readDigits? (cs : List Char) : Option Float := do
  let (negative, body) := takeSign cs
  let hex : Bool := match body with
    | '0' :: x :: _ :: _ => asciiLower x = 'x'
    | _ => false
  let (m, tail) := takeMantissa (if hex then isHexDigit else isDigit) false
    (if hex then body.drop 2 else body)
  if m.digits.isEmpty then none
  let n ← baseValue? (if hex then 16 else 10) m.digits
  let e ← match tail with
    | [] => if hex then none else some 0
    | c :: rest =>
      if asciiLower c = (if hex then 'p' else 'e') then readExponent? rest else none
  if body.contains '_' && !underscoresAllowed body then none
  let x ← if hex then nearestBinary? n (e - 4 * m.places) else nearestDecimal? n (e - m.places)
  pure (doubleOf negative x)

/-- A double from its text. -/
def readFloat? (cs : List Char) : Option Float :=
  (readWord? cs).or (readDigits? cs)

/-- A truth value: one of the short words for true and false. -/
def readBool? (s : String) : Option Bool :=
  if ["1", "t", "T", "true", "TRUE", "True"].contains s then some true
  else if ["0", "f", "F", "false", "FALSE", "False"].contains s then some false
  else none

end FactFold.Number
