import FactFold.Calendar

/-!
# Spans of time

A span is a whole number of nanoseconds that fits 64 bits. Instants differ by a span, as far as one
reaches, and a span moves an instant. Its text counts hours, minutes and seconds; below a second it
is written in the largest smaller unit that leaves a whole part.
-/

namespace FactFold

-- powers are those of the core library, whatever other powers are in sight
attribute [local instance (2000)] instPowNat

/-- A length of time in nanoseconds. -/
structure Span where
  nanos : Int
  deriving Repr, DecidableEq

namespace Span

/-- The name of the type of spans. -/
def typeName : String := "time.Duration"

/-- Nanoseconds in a second. -/
def second : Nat := 1000000000

/-- The span of a number of nanoseconds, wrapped to 64 bits. -/
def wrapped (n : Int) : Span := ⟨Number.wrap64 n⟩

/-- The longest span. -/
def longest : Int := 2 ^ (63 : Nat) - 1

/-- The span nearest to a number of nanoseconds. -/
def nearest (n : Int) : Span := ⟨max (-longest - 1) (min longest n)⟩

/-- A number of units with `places` decimal places, of which zeros at the end are dropped. -/
def unitText (places : Nat) (n : Nat) : String :=
  let digits := (Number.padded places (n % 10 ^ places : Nat)).toList
  let fraction := (digits.reverse.dropWhile (· = '0')).reverse
  Number.decimal (n / 10 ^ places : Nat) ++
    (if n % 10 ^ places = 0 then "" else "." ++ String.ofList fraction)

/-- The text of a span that is not negative. -/
def positiveText (n : Nat) : String :=
  if n = 0 then "0s"
  else if n < 1000 then unitText 0 n ++ "ns"
  else if n < 1000000 then unitText 3 n ++ "µs"
  else if n < second then unitText 6 n ++ "ms"
  else
    let minutes := n / (60 * second)
    let rest := unitText 9 (n % (60 * second)) ++ "s"
    if minutes = 0 then rest
    else
      let rest := Number.decimal (minutes % 60 : Nat) ++ "m" ++ rest
      if minutes < 60 then rest else Number.decimal (minutes / 60 : Nat) ++ "h" ++ rest

/-- The text of a span. -/
def text (t : Span) : String :=
  (if t.nanos < 0 then "-" else "") ++ positiveText t.nanos.natAbs

end Span

namespace Instant

/-- Nanoseconds from 1970-01-01. -/
def totalNanos (t : Instant) : Int := t.seconds * Span.second + t.nanos

/-- The instant a span later. -/
def plus (t : Instant) (s : Span) : Instant :=
  let n := t.totalNanos + s.nanos
  { t with seconds := Int.fdiv n Span.second, nanos := (Int.fmod n Span.second).toNat }

/-- The instant a span earlier. -/
def minus (t : Instant) (s : Span) : Instant := t.plus ⟨-s.nanos⟩

/-- The span from another instant to this one, as far as one reaches. -/
def since (t earlier : Instant) : Span := .nearest (t.totalNanos - earlier.totalNanos)

end Instant

end FactFold
