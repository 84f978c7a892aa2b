import FactFold.Buffer.Access
import FactFold.Datum.Conversion

/-!
# Values in memory

While routines run, vectors are shared: they live in a heap, and a value refers to its vector by the
place it has there, so that a change made through one value shows in all others that refer to the
same vector. Other lists never change, but those that may hold numbers are numbered as they are made,
since a list always equals itself while a number that is none does not. Besides data there are fact
records and buffers, which routines receive as arguments, and spans of time between instants.
-/

namespace FactFold

/-- Vectors by place, and the count of numbered lists. -/
structure Heap where
  cells : List (List Float) := []
  /-- How many numbered lists have been made. -/
  lists : Nat := 0

namespace Heap

/-- The vector at a place; there is an empty one at places not in use. -/
def get (h : Heap) (ref : Nat) : List Float := h.cells.getD ref []

/-- Puts a vector in a new place. -/
def alloc (h : Heap) (v : List Float) : Nat × Heap :=
  (h.cells.length, { h with cells := h.cells ++ [v] })

/-- Replaces the vector at a place. -/
def set (h : Heap) (ref : Nat) (v : List Float) : Heap := { h with cells := h.cells.set ref v }

/-- The number of a new list. -/
def number (h : Heap) : Nat × Heap := (h.lists, { h with lists := h.lists + 1 })

end Heap

/-- A value in memory. -/
inductive Value where
  | null
  | scalar (s : Scalar)
  /-- The time between two instants. -/
  | span (t : Span)
  /-- A list of integers of one width. -/
  | ints (kind : IntKind) (ns : List Int)
  /-- A numbered list of numbers in single precision. -/
  | singles (number : Nat) (xs : List Float)
  /-- A list of doubles, by its place in the heap. -/
  | doubles (ref : Nat)
  /-- A vector by its place in the heap, possibly absent. -/
  | vector (ref : Option Nat)
  /-- A numbered list of values. -/
  | seq (number : Nat) (items : List Value)
  | texts (ss : List String)
  /-- A fact record, numbered like a list. -/
  | fact (number : Nat) (fields : List Value)
  /-- A buffer, by its number. -/
  | buffer (id : Nat)
  /-- What a buffer holds, by the buffer's number; it is no buffer to work on. -/
  | content (id : Nat)

namespace Value

/-- A signed 64-bit integer. -/
abbrev long (n : Int) : Value := .scalar (.long n)

/-- A double. -/
abbrev double (x : Float) : Value := .scalar (.double x)

/-- A truth value. -/
abbrev bool (b : Bool) : Value := .scalar (.bool b)

/-- The name of the type of what a buffer holds. -/
def contentTypeName : String := "buffer.Memory"

/-- The name of a value's type. -/
def typeName : Value → String
  | .null => Datum.nullTypeName
  | .scalar s => s.typeName
  | .span _ => Span.typeName
  | .ints k _ => "[]" ++ k.name
  | .singles .. => "[]float32"
  | .doubles _ => "[]float64"
  | .vector _ => Datum.vectorTypeName
  | .seq .. => Datum.seqTypeName
  | .texts _ => Datum.textsTypeName
  | .fact .. => "sim.Fact"
  | .buffer _ => "*" ++ contentTypeName
  | .content _ => contentTypeName

/-- What a conversion sees of a value. -/
def operand : Value → Operand
  | .null => .null
  | .scalar s => .scalar s
  | .span t => .span t
  | .buffer _ => .other contentTypeName
  | v => .other v.typeName

/-- A buffer gives way to what it holds; every other value stays. -/
def opened : Value → Value
  | .buffer id => .content id
  | v => v

/-- The value is null. -/
def isNull : Value → Bool
  | .null => true
  | _ => false

/-- The value is an integer of some width. -/
def isInteger : Value → Bool
  | .scalar (.int ..) => true
  | _ => false

mutual

/-- Brings a datum into memory. -/
def ofDatum : Datum → Heap → Value × Heap
  | .null, h => (.null, h)
  | .scalar s, h => (.scalar s, h)
  | .ints k ns, h => (.ints k ns, h)
  | .floats .single xs, h =>
    let (number, h) := h.number
    (.singles number xs, h)
  | .floats .double xs, h =>
    let (ref, h) := h.alloc xs
    (.doubles ref, h)
  | .vector none, h => (.vector none, h)
  | .vector (some xs), h =>
    let (ref, h) := h.alloc xs
    (.vector (some ref), h)
  | .seq items, h =>
    let (vs, h) := ofData items h
    let (number, h) := h.number
    (.seq number vs, h)
  | .texts ss, h => (.texts ss, h)

/-- Brings data into memory in order. -/
def ofData : List Datum → Heap → List Value × Heap
  | [], h => ([], h)
  | d :: rest, h =>
    let (v, h) := ofDatum d h
    let (vs, h) := ofData rest h
    (v :: vs, h)

end

/-- The vector a value can be used as. -/
inductive AsVector where
  /-- The value is null or an absent vector. -/
  | absent
  /-- The value refers to a vector. -/
  | shared (ref : Nat)
  /-- The value is another list of numbers, of which a new vector is made. -/
  | fresh (items : List Float)

/-- The double of every value. -/
def toDoubles : List Value → Except ConversionError (List Float)
  | [] => .ok []
  | v :: rest => do
    let x ← v.operand.toDouble
    let xs ← toDoubles rest
    pure (x :: xs)

/-- A value as a vector; none when it is no list of numbers. -/
def asVector? : Value → Option (Except ConversionError AsVector)
  | .null => some (.ok .absent)
  | .vector none => some (.ok .absent)
  | .vector (some ref) => some (.ok (.shared ref))
  | .doubles ref => some (.ok (.shared ref))
  | .singles _ xs => some (.ok (.fresh xs))
  | .ints _ ns => some (.ok (.fresh (ns.map Number.doubleOfInt)))
  | .seq _ items => some (AsVector.fresh <$> toDoubles items)
  | _ => none

end Value

end FactFold
