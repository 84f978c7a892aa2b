import FactFold.Datum.Basic
import FactFold.Number.Reading
import FactFold.Span
import FactFold.Text.Quoted

/-!
# Conversions between scalars

Integers, numbers, texts and truth values convert into one another. A conversion looks only at
scalars, at spans of time and at null, which stands for zero, false or the empty text; every other
value is refused by the name of its type. Texts are read as numbers or truth values, and refused when
they are none; a span is true unless it is empty, and has a text.
-/

namespace FactFold

open Text (Bytes)

/-- What a conversion sees of a value. -/
inductive Operand where
  | null
  | scalar (s : Scalar)
  | span (t : Span)
  /-- Anything else, known by its type name. -/
  | other (typeName : String)

/-- What a conversion sees of a datum. -/
def Datum.operand : Datum → Operand
  | .null => .null
  | .scalar s => .scalar s
  | d => .other d.typeName

/-- A conversion that failed. -/
inductive ConversionError where
  /-- A text that cannot be read as the wanted type. -/
  | unreadable (bytes : Bytes) (target : String)
  /-- A value of a type that does not convert to the wanted type. -/
  | unrelated (typeName target : String)
  /-- A text that is no truth value. -/
  | notBool (bytes : Bytes)

namespace ConversionError

/-- The wording of a failed conversion. -/
def message : ConversionError → String
  | .unreadable bs target =>
    "unable to cast " ++ Text.quote bs ++ " of type string to " ++ target
  | .unrelated typeName target =>
    "unable to cast <value> of type " ++ typeName ++ " to " ++ target
  | .notBool bs => "strconv.ParseBool: parsing " ++ Text.quote bs ++ ": invalid syntax"

end ConversionError

/-- Drops a decimal point and the zeros after it from the end of a number written backwards; none
when the text does not end so. -/
def cutZeroDecimals (seenZero : Bool) : List Char → Option (List Char)
  | '0' :: rest => cutZeroDecimals true rest
  | '.' :: rest => if seenZero then some rest else cutZeroDecimals false rest
  | _ => none

/-- A text without a decimal part that consists of zeros. -/
def trimZeroDecimals (cs : List Char) : List Char :=
  match cutZeroDecimals false cs.reverse with
  | some rest => rest.reverse
  | none => cs

namespace Operand

/-- The signed 64-bit integer a value stands for; `target` names the wanted type in errors, except
those about texts, which are always read as 64-bit integers. -/
def toIntAs (target : String) : Operand → Except ConversionError Int
  | .null => .ok 0
  | .scalar (.int _ n) => .ok (Number.wrap64 n)
  | .scalar (.float _ x) => .ok (Number.truncate x)
  | .scalar (.bool b) => .ok (if b then 1 else 0)
  | .scalar (.text bs) =>
    match Number.readInt? (trimZeroDecimals bs.lossy.toList) with
    | some n => .ok n
    | none => .error (.unreadable bs "int64")
  | .scalar (.time t) => .error (.unrelated (Scalar.time t).typeName target)
  | .span _ => .error (.unrelated Span.typeName target)
  | .other typeName => .error (.unrelated typeName target)

/-- The 64-bit integer a value stands for. -/
def toLong (v : Operand) : Except ConversionError Int := v.toIntAs "int64"

/-- The integer a value stands for as an index. -/
def toIndex (v : Operand) : Except ConversionError Int := v.toIntAs "int"

/-- The double a value stands for. -/
def toDouble : Operand → Except ConversionError Float
  | .null => .ok 0
  | .scalar (.int _ n) => .ok (Number.doubleOfInt n)
  | .scalar (.float _ x) => .ok x
  | .scalar (.bool b) => .ok (if b then 1 else 0)
  | .scalar (.text bs) =>
    match Number.readFloat? bs.lossy.toList with
    | some x => .ok x
    | none => .error (.unreadable bs "float64")
  | .scalar (.time t) => .error (.unrelated (Scalar.time t).typeName "float64")
  | .span _ => .error (.unrelated Span.typeName "float64")
  | .other typeName => .error (.unrelated typeName "float64")

/-- The truth value a value stands for: numbers are true unless zero. -/
def toBool : Operand → Except ConversionError Bool
  | .null => .ok false
  | .scalar (.int _ n) => .ok (n != 0)
  | .scalar (.float _ x) => .ok (x != 0)
  | .scalar (.bool b) => .ok b
  | .scalar (.text bs) =>
    match bs.toText?.bind Number.readBool? with
    | some b => .ok b
    | none => .error (.notBool bs)
  | .scalar (.time t) => .error (.unrelated (Scalar.time t).typeName "bool")
  | .span t => .ok (t.nanos != 0)
  | .other typeName => .error (.unrelated typeName "bool")

/-- The text a value stands for: numbers are written with every place. -/
def toText : Operand → Except ConversionError Bytes
  | .null => .ok []
  | .scalar (.text bs) => .ok bs
  | .scalar (.float p x) => .ok (.ofText (Number.plain p x))
  | .scalar s => .ok (.ofText s.plainText)
  | .span t => .ok (.ofText t.text)
  | .other typeName => .error (.unrelated typeName "string")

/-- The integer a value stands for, zero when there is none. -/
def longOrZero (v : Operand) : Int := v.toLong.toOption.getD 0

/-- The double a value stands for, zero when there is none. -/
def doubleOrZero (v : Operand) : Float := v.toDouble.toOption.getD 0

/-- The text a value stands for, empty when there is none. -/
def textOrEmpty (v : Operand) : Bytes := v.toText.toOption.getD []

end Operand

end FactFold
