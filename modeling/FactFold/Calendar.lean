import FactFold.Number.Decimal
import FactFold.Number.Reading

/-!
# Dates and instants

Dates of the proleptic Gregorian calendar are counted in days from 1970-01-01, and instants in
seconds from the start of that day. A date may be given by a month or day outside its range; it is
then carried over into the neighbouring months and years. An instant remembers the zone it was
written in, which decides the date and the clock it shows, but not how it compares.
-/

namespace FactFold

-- powers are those of the core library, whatever other powers are in sight
attribute [local instance (2000)] instPowNat

open Number (decimal padded)

/-- A calendar date. -/
structure Date where
  year : Int
  month : Int
  day : Int
  deriving Repr, DecidableEq

namespace Date

/-- Days before the first of a month, counted from the first of March. -/
def daysBeforeMonth (monthFromMarch : Int) : Int := (153 * monthFromMarch + 2) / 5

/-- Days from 1970-01-01 to a date. The year is taken to start in March, so that a leap day is its
last; months outside 1 to 12 count into other years and days outside the month into other months. -/
def toDays (d : Date) : Int :=
  let months := d.year * 12 + (d.month - 3)
  let year := Int.fdiv months 12
  let leapDays := Int.fdiv year 4 - Int.fdiv year 100 + Int.fdiv year 400
  year * 365 + leapDays + daysBeforeMonth (months - year * 12) + (d.day - 1) - 719468

/-- The date a number of days from 1970-01-01. -/
def ofDays (days : Int) : Date :=
  let n := days + 719468
  let era := Int.fdiv n 146097
  let dayOfEra := n - era * 146097
  let yearOfEra := (dayOfEra - dayOfEra / 1460 + dayOfEra / 36524 - dayOfEra / 146096) / 365
  let dayOfYear := dayOfEra - (365 * yearOfEra + yearOfEra / 4 - yearOfEra / 100)
  let fromMarch := (5 * dayOfYear + 2) / 153
  let month := if fromMarch < 10 then fromMarch + 3 else fromMarch - 9
  let year := yearOfEra + era * 400 + (if month ≤ 2 then 1 else 0)
  ⟨year, month, dayOfYear - daysBeforeMonth fromMarch + 1⟩

end Date

/-- `YYYY-MM-DD` -/
def Date.text (d : Date) : String :=
  padded 4 d.year ++ "-" ++ padded 2 d.month ++ "-" ++ padded 2 d.day

/-- A point in time, with the offset from universal time of the zone it was written in; none is
universal time itself. -/
structure Instant where
  seconds : Int
  nanos : Nat
  offset : Option Int
  deriving Repr, DecidableEq

namespace Instant

/-- Midnight of a date in universal time. -/
def ofDate (d : Date) : Instant := ⟨d.toDays * 86400, 0, none⟩

/-- Seconds shown by calendar and clock in the instant's zone. -/
def localSeconds (t : Instant) : Int := t.seconds + t.offset.getD 0

/-- The date shown in the instant's zone. -/
def date (t : Instant) : Date := .ofDays (Int.fdiv t.localSeconds 86400)

/-- Seconds since midnight shown in the instant's zone. -/
def clock (t : Instant) : Int := Int.fmod t.localSeconds 86400

/-- Instants compare by their place in time alone. -/
def compare (a b : Instant) : Ordering :=
  if a.seconds < b.seconds then .lt
  else if b.seconds < a.seconds then .gt
  else Ord.compare a.nanos b.nanos

/-- Midnight in universal time, written in universal time. -/
def isMidnight (t : Instant) : Bool :=
  t.offset.isNone && t.nanos == 0 && Int.fmod t.seconds 86400 == 0

/-- `HH:MM:SS` -/
def clockText (t : Instant) : String :=
  let s := t.clock
  padded 2 (s / 3600) ++ ":" ++ padded 2 (s / 60 % 60) ++ ":" ++ padded 2 (s % 60)

/-- An offset as sign, hours and minutes. -/
def offsetText (separator : String) (offset : Int) : String :=
  let minutes := (offset.natAbs / 60 : Nat)
  (if offset < 0 then "-" else "+") ++ padded 2 (minutes / 60 : Nat) ++ separator ++
    padded 2 (minutes % 60 : Nat)

/-- The fraction of a second after its point, without zeros at its end. -/
def fractionText (nanos : Nat) : String :=
  if nanos = 0 then ""
  else
    let digits := (padded 9 nanos).toList
    "." ++ String.ofList (digits.reverse.dropWhile (· = '0')).reverse

/-- Date, clock, offset and zone; a zone known only by its offset is named by it. -/
def text (t : Instant) : String :=
  let offset := t.offset.getD 0
  let sign := offsetText "" offset
  t.date.text ++ " " ++ t.clockText ++ fractionText t.nanos ++ " " ++ sign ++ " " ++
    (if offset = 0 then "UTC" else sign)

/-- The instant in the internet format, to the second. -/
def stamp (t : Instant) : String :=
  let offset := t.offset.getD 0
  t.date.text ++ "T" ++ t.clockText ++ (if offset = 0 then "Z" else offsetText ":" offset)

/-- The names of the months. -/
def monthNames : List String :=
  ["January", "February", "March", "April", "May", "June", "July", "August", "September", "October",
   "November", "December"]

/-- The expression that makes the instant: date, clock, nanoseconds and zone. -/
def sourceText (t : Instant) : String :=
  let d := t.date
  let s := t.clock
  let zone :=
    match t.offset with
    | none => "time.UTC"
    | some 0 => "time.Local"
    | some _ => "time.Location(\"\")"
  "time.Date(" ++ String.intercalate ", "
    [decimal d.year, "time." ++ monthNames.getD (d.month - 1).toNat "", decimal d.day,
     decimal (s / 3600), decimal (s / 60 % 60), decimal (s % 60), decimal t.nanos, zone] ++ ")"

/-- Seconds from the start of the year 1 in universal time. -/
def secondsOfEra (t : Instant) : Int := t.seconds - (Date.toDays ⟨1, 1, 1⟩) * 86400

/-! ## Reading -/

/-- A number of exactly `width` digits at the front of a text. -/
def takeNumber? (width : Nat) (cs : List Char) : Option (Nat × List Char) :=
  let ds := cs.take width
  if ds.length = width && ds.all Number.isDigit then
    some (ds.foldl (fun n c => n * 10 + (c.toNat - 48)) 0, cs.drop width)
  else none

/-- The given character at the front of a text. -/
def takeChar? (c : Char) : List Char → Option (List Char)
  | d :: rest => if c = d then some rest else none
  | [] => none

/-- A date `YYYY-MM-DD` at the front of a text. -/
def takeDate? (cs : List Char) : Option (Date × List Char) := do
  let (year, cs) ← takeNumber? 4 cs
  let cs ← takeChar? '-' cs
  let (month, cs) ← takeNumber? 2 cs
  let cs ← takeChar? '-' cs
  let (day, cs) ← takeNumber? 2 cs
  pure (⟨year, month, day⟩, cs)

/-- Midnight of the date written `YYYY-MM-DD`. -/
def readDate? (s : String) : Option Instant := do
  match ← takeDate? s.toList with
  | (d, []) => pure (ofDate d)
  | _ => none

/-- The zone at the end of an internet time: `Z` or a signed offset. -/
def readZone? : List Char → Option (Option Int)
  | ['Z'] => some none
  | sign :: cs => do
    let (hours, cs) ← takeNumber? 2 cs
    let cs ← takeChar? ':' cs
    let (minutes, _) ← takeNumber? 2 cs
    let offset : Int := hours * 3600 + minutes * 60
    if sign = '+' then pure (some offset) else if sign = '-' then pure (some (-offset)) else none
  | [] => none

/-- Splits off the fraction of a second, in nanoseconds. -/
def takeFraction : List Char → Nat × List Char
  | '.' :: cs =>
    let ds := (cs.takeWhile Number.isDigit).take 9
    let n := ds.foldl (fun n c => n * 10 + (c.toNat - 48)) 0
    (n * 10 ^ (9 - ds.length), cs.dropWhile Number.isDigit)
  | cs => (0, cs)

/-- The instant written in the internet format. -/
def readStamp? (s : String) : Option Instant := do
  let (d, cs) ← takeDate? s.toList
  let cs ← takeChar? 'T' cs
  let (hours, cs) ← takeNumber? 2 cs
  let cs ← takeChar? ':' cs
  let (minutes, cs) ← takeNumber? 2 cs
  let cs ← takeChar? ':' cs
  let (seconds, cs) ← takeNumber? 2 cs
  let (nanos, cs) := takeFraction cs
  let offset ← readZone? cs
  pure ⟨d.toDays * 86400 + hours * 3600 + minutes * 60 + seconds - offset.getD 0, nanos, offset⟩

end Instant

end FactFold
