import FactFold.Calendar
import FactFold.Number.Notation
import FactFold.Text.Bytes

/-!
# Scalars

A scalar is an integer of some width, a floating-point number of either precision, a byte string, a
truth value or an instant. The width of an integer and the precision of a number belong to the
scalar, since they show in its type name and in the way a constant is classified.
-/

namespace FactFold

-- powers are those of the core library, whatever other powers are in sight
attribute [local instance (2000)] instPowNat

open Number (Precision)
open Text (Bytes)

/-- The widths of integers. -/
inductive IntKind where
  | int
  | int8
  | int16
  | int32
  | int64
  | uint8
  | uint16
  | uint32
  | uint64
  | uint
  deriving Repr, DecidableEq

namespace IntKind

/-- The name of a width. -/
def name : IntKind → String
  | .int => "int"
  | .int8 => "int8"
  | .int16 => "int16"
  | .int32 => "int32"
  | .int64 => "int64"
  | .uint8 => "uint8"
  | .uint16 => "uint16"
  | .uint32 => "uint32"
  | .uint64 => "uint64"
  | .uint => "uint"

/-- Number of bits of a width. -/
def bits : IntKind → Nat
  | .int8 | .uint8 => 8
  | .int16 | .uint16 => 16
  | .int32 | .uint32 => 32
  | .int | .int64 | .uint64 | .uint => 64

/-- Integers of this width have a sign. -/
def signed : IntKind → Bool
  | .int | .int8 | .int16 | .int32 | .int64 => true
  | .uint8 | .uint16 | .uint32 | .uint64 | .uint => false

/-- The integer of this width that agrees with `n` modulo its number of values. -/
def wrap (k : IntKind) (n : Int) : Int :=
  if k.signed then Int.bmod n (2 ^ k.bits) else n % 2 ^ k.bits

end IntKind

/-- The name of a precision. -/
def Number.Precision.name : Precision → String
  | .single => "float32"
  | .double => "float64"

/-- A value without parts. -/
inductive Scalar where
  | int (kind : IntKind) (n : Int)
  | float (precision : Precision) (x : Float)
  | text (bytes : Bytes)
  | bool (b : Bool)
  | time (t : Instant)

namespace Scalar

/-- A signed 64-bit integer. -/
abbrev long (n : Int) : Scalar := .int .int64 n

/-- A number in double precision. -/
abbrev double (x : Float) : Scalar := .float .double x

/-- The name of a scalar's type. -/
def typeName : Scalar → String
  | .int k _ => k.name
  | .float p _ => p.name
  | .text _ => "string"
  | .bool _ => "bool"
  | .time _ => "time.Time"

/-- A truth value as a word. -/
def boolText (b : Bool) : String := if b then "true" else "false"

/-- The plain text of a scalar. -/
def plainText : Scalar → String
  | .int _ n => Number.decimal n
  | .float p x => Number.general p x
  | .text bs => bs.lossy
  | .bool b => boolText b
  | .time t => t.text

end Scalar

end FactFold
