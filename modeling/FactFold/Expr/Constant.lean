import FactFold.DataType
import FactFold.Datum.Conversion

/-!
# Constants

The literals of expressions. `Constant.ofDatum` infers the type of a literal from the width and
precision of the value given: integers up to 32 bits are `int`, wider ones `long`, and a value of
the machine's own integer width is `int` when it fits into 32 bits. A sequence becomes an array when
its elements all have one numeric type.
-/

namespace FactFold

-- powers are those of the core library, whatever other powers are in sight
attribute [local instance (2000)] instPowNat

open Text (Bytes)

/-- A literal. -/
inductive Constant where
  | int (n : Int)
  | long (n : Int)
  | float (x : Float)
  | double (x : Float)
  | string (bytes : Bytes)
  | date (d : Date)
  | ints (ns : List Int)
  | longs (ns : List Int)
  | floats (xs : List Float)
  | doubles (xs : List Float)

/-- Why a value is no literal. -/
inductive ConstantError where
  | unsupported (typeName : String)
  | emptySequence
  | notNumeric (index : Nat) (typeName : String)
  | mixed (first second : Numeric)
  deriving Repr, DecidableEq

/-- The wording of the reason. -/
def ConstantError.message : ConstantError → String
  | .unsupported typeName => "unsupported constant type " ++ typeName
  | .emptySequence => "cannot infer the type of an empty sequence"
  | .notNumeric i typeName =>
    "sequence element " ++ Number.decimal i ++ " is not numeric: " ++ typeName
  | .mixed a b => "sequence is not homogeneous: " ++ a.name ++ " and " ++ b.name

/-- The integer fits into 32 bits. -/
def fits32 (n : Int) : Bool := -(2 ^ (31 : Nat)) ≤ n && n < 2 ^ (31 : Nat)

/-- The numeric type of a constant of this integer width; none when no type holds all of them. -/
def IntKind.numeric? (k : IntKind) (n : Int) : Option Numeric :=
  match k with
  | .int8 | .int16 | .int32 | .uint8 | .uint16 => some .int
  | .int | .uint32 => some (if fits32 n then .int else .long)
  | .int64 => some .long
  | .uint64 | .uint => none

/-- The values as plain text in a literal's own spelling. -/
def commaList (items : List String) : String := "[" ++ String.intercalate ", " items ++ "]"

/-- The spelling of a value as a literal: texts are quoted, instants show their date, numbers are
written with every place, and a value that has no spelling is empty. -/
def Datum.literalText : Datum → String
  | .scalar (.text bs) => Text.quote bs
  | .scalar (.time t) => t.date.text
  | .ints .int64 ns => commaList (ns.map Number.decimal)
  | .floats .double xs => commaList (xs.map (Number.general .double))
  | d => d.operand.textOrEmpty.lossy

namespace Constant

/-- The type of a literal. -/
def type : Constant → DataType
  | .int _ => .scalar .int
  | .long _ => .scalar .long
  | .float _ => .scalar .float
  | .double _ => .scalar .double
  | .string _ => .string
  | .date _ => .localDate
  | .ints _ => .array .int
  | .longs _ => .array .long
  | .floats _ => .array .float
  | .doubles _ => .array .double

/-- The value of a literal. -/
def datum : Constant → Datum
  | .int n | .long n => .scalar (.long n)
  | .float x | .double x => .scalar (.double x)
  | .string bs => .scalar (.text bs)
  | .date d => .scalar (.time (.ofDate d))
  | .ints ns | .longs ns => .ints .int64 ns
  | .floats xs | .doubles xs => .floats .double xs

/-- The spelling of a literal. -/
def text (c : Constant) : String := c.datum.literalText

/-- The literal of a scalar. -/
def ofScalar? : Scalar → Option Constant
  | .int k n =>
    match k.numeric? n with
    | some .int => some (.int n)
    | some _ => some (.long n)
    | none => none
  | .float .single x => some (.float x)
  | .float .double x => some (.double x)
  | .text bs => some (.string bs)
  | .bool _ => none
  | .time t => some (.date t.date)

/-- The numeric type of a sequence element. -/
def numericOf? : Datum → Option Numeric
  | .scalar (.int k n) => k.numeric? n
  | .scalar (.float .single _) => some .float
  | .scalar (.float .double _) => some .double
  | _ => none

/-- The one numeric type of the elements of a sequence, counted from `index`; `first` is the type of
those before. -/
def elementType (index : Nat) (first : Option Numeric) :
    List Datum → Except ConstantError Numeric
  | [] =>
    match first with
    | some n => .ok n
    | none => .error .emptySequence
  | d :: rest =>
    match numericOf? d, first with
    | none, _ => .error (.notNumeric index d.typeName)
    | some n, none => elementType (index + 1) (some n) rest
    | some n, some m => if n = m then elementType (index + 1) first rest else .error (.mixed m n)

/-- The literal of a sequence. -/
def ofSequence (items : List Datum) : Except ConstantError Constant :=
  match elementType 0 none items with
  | .error e => .error e
  | .ok .int => .ok (.ints (items.map fun d => d.operand.longOrZero))
  | .ok .long => .ok (.longs (items.map fun d => d.operand.longOrZero))
  | .ok .float => .ok (.floats (items.map fun d => d.operand.doubleOrZero))
  | .ok .double => .ok (.doubles (items.map fun d => d.operand.doubleOrZero))

/-- The literal of a value. -/
def ofDatum (d : Datum) : Except ConstantError Constant :=
  match d with
  | .scalar s =>
    match ofScalar? s with
    | some c => .ok c
    | none => .error (.unsupported d.typeName)
  | .ints .int ns => .ok (if ns.all fits32 then .ints ns else .longs ns)
  | .ints .int32 ns => .ok (.ints ns)
  | .ints .int64 ns => .ok (.longs ns)
  | .floats .single xs => .ok (.floats xs)
  | .floats .double xs => .ok (.doubles xs)
  | .seq items => ofSequence items
  | _ => .error (.unsupported d.typeName)

end Constant

end FactFold
