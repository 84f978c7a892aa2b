import FactFold.Datum.Basic

/-!
# Arguments of messages

An argument is seen by the directives of a message as a value of a named type. Data are arguments, and
so are texts of other types and things that know their own text.
-/

namespace FactFold.Log

open Text (Bytes)

/-- An argument of a message. -/
inductive Arg where
  | null
  | bool (b : Bool)
  | int (kind : IntKind) (n : Int)
  | float (precision : Number.Precision) (x : Float)
  | text (typeName : String) (bytes : Bytes)
  | time (t : Instant)
  /-- A list, possibly absent. -/
  | list (typeName : String) (items : Option (List Arg))
  /-- Something that knows its own text. -/
  | shown (typeName text : String)

namespace Arg

/-- The name of an argument's type. -/
def typeName : Arg → String
  | .null => Datum.nullTypeName
  | .bool b => (Scalar.bool b).typeName
  | .int k n => (Scalar.int k n).typeName
  | .float p x => (Scalar.float p x).typeName
  | .text typeName _ => typeName
  | .time t => (Scalar.time t).typeName
  | .list typeName _ => typeName
  | .shown typeName _ => typeName

/-- A text as an argument. -/
def ofText (s : String) : Arg := .text "string" (.ofText s)

/-- A count as an argument. -/
def ofNat (n : Nat) : Arg := .int .int n

/-- A text of a named type as an argument. -/
def ofNamed (typeName s : String) : Arg := .text typeName (.ofText s)

/-- A scalar as an argument. -/
def ofScalar : Scalar → Arg
  | .int k n => .int k n
  | .float p x => .float p x
  | .text bs => .text "string" bs
  | .bool b => .bool b
  | .time t => .time t

/-- A datum as an argument. -/
def ofDatum (d : Datum) : Arg :=
  match d with
  | .null => .null
  | .scalar s => ofScalar s
  | .ints k ns => .list d.typeName (some (ns.map (.int k)))
  | .floats p xs => .list d.typeName (some (xs.map (.float p)))
  | .vector v => .list d.typeName (v.map fun xs => xs.map (.float .double))
  | .seq items => .list d.typeName (some (items.map ofDatum))
  | .texts ss => .list d.typeName (some (ss.map ofText))

end Arg

end FactFold.Log
