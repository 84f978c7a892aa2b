import FactFold.Datum.Scalar

/-!
# Data

The values that rows, literals and log messages are made of: scalars, lists of numbers of one width,
vectors, sequences of data, lists of texts, and null. A vector may itself be absent, which is not the
same as null: it has a type.
-/

namespace FactFold

open Number (Precision)

/-- A value. -/
inductive Datum where
  | null
  | scalar (s : Scalar)
  /-- A list of integers of one width. -/
  | ints (kind : IntKind) (ns : List Int)
  /-- A list of numbers of one precision. -/
  | floats (precision : Precision) (xs : List Float)
  /-- A vector, possibly absent. -/
  | vector (v : Option (List Float))
  | seq (items : List Datum)
  | texts (ss : List String)

namespace Datum

/-- The name of the type of an absent value. -/
def nullTypeName : String := "<nil>"

/-- The name of a vector's type. -/
def vectorTypeName : String := "buffer.Vector"

/-- The name of a sequence's type. -/
def seqTypeName : String := "[]interface {}"

/-- The name of the type of a list of texts. -/
def textsTypeName : String := "[]string"

/-- The name of a value's type. -/
def typeName : Datum → String
  | .null => nullTypeName
  | .scalar s => s.typeName
  | .ints k _ => "[]" ++ k.name
  | .floats p _ => "[]" ++ p.name
  | .vector _ => vectorTypeName
  | .seq _ => seqTypeName
  | .texts _ => textsTypeName

/-- Items between brackets, one blank between them. -/
def bracketed (items : List String) : String :=
  "[" ++ String.intercalate " " items ++ "]"

/-- The plain text of a value. -/
def plainText : Datum → String
  | .null => "<nil>"
  | .scalar s => s.plainText
  | .ints _ ns => bracketed (ns.map Number.decimal)
  | .floats p xs => bracketed (xs.map (Number.general p))
  | .vector v => bracketed ((v.getD []).map (Number.general .double))
  | .seq items => bracketed (items.map plainText)
  | .texts ss => bracketed ss

end Datum

end FactFold
