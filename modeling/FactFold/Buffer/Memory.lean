import FactFold.Buffer.Value
import FactFold.Buffer.Vector

/-!
# Buffers in memory

A buffer has one field per type of its layout. A field is unset or holds a value of its type:
integers are kept as 64-bit integers and other numbers as doubles, and an array field has a vector of
its own, which writing copies. Fields of other types keep what is written.
-/

namespace FactFold

/-- A buffer. An unset field is null. -/
structure Memory where
  layout : Layout
  fields : List Value

/-- Why an operation on a buffer failed. -/
inductive MemoryError where
  /-- The field does not exist, which the caller had to make sure of. -/
  | outOfRange (field : Int) (layout : Layout)
  | notVector (field : Int) (type : DataType) (typeName : String)
  | notNumber (field : Int) (type : DataType) (e : ConversionError)
  | notAddable (field : Int) (type : DataType)
  | badDelta (e : ConversionError)

/-- The wording of the reason. -/
def MemoryError.message : MemoryError → String
  | .outOfRange field layout =>
    "buffer: field " ++ Number.decimal field ++ " out of range for layout [" ++ layout.text ++ "]"
  | .notVector field type typeName =>
    "field " ++ Number.decimal field ++ " holds " ++ type.name ++ ", cannot write " ++ typeName
  | .notNumber field type e =>
    "field " ++ Number.decimal field ++ " holds " ++ type.name ++ ": " ++ e.message
  | .notAddable field type =>
    "field " ++ Number.decimal field ++ " holds " ++ type.name ++ ", cannot add"
  | .badDelta e => e.message

namespace Memory

/-- A buffer with every field unset. -/
def unset (layout : Layout) : Memory := ⟨layout, layout.map fun _ => .null⟩

/-- The place of a field that exists. -/
def index (m : Memory) (field : Int) : Except MemoryError Nat :=
  if 0 ≤ field ∧ field < m.fields.length then .ok field.toNat
  else .error (.outOfRange field m.layout)

/-- The value at a place. -/
def valueAt (m : Memory) (i : Nat) : Value := m.fields.getD i .null

/-- The type at a place. -/
def typeAt (m : Memory) (i : Nat) : DataType := m.layout.getD i (.other "")

/-- Replaces the value at a place. -/
def setAt (m : Memory) (i : Nat) (v : Value) : Memory := { m with fields := m.fields.set i v }

/-- The value as an integer, zero when it is none. -/
def intAt (m : Memory) (i : Nat) : Int := (m.valueAt i).operand.longOrZero

/-- The value as a double, zero when it is none. -/
def doubleAt (m : Memory) (i : Nat) : Float := (m.valueAt i).operand.doubleOrZero

/-- The place in the heap of the vector at a place. -/
def vectorAt (m : Memory) (i : Nat) : Option Nat :=
  match m.valueAt i with
  | .vector ref => ref
  | _ => none

/-- Writes a value at a place, converted to the type there; null unsets the field. -/
def writeAt (m : Memory) (h : Heap) (i : Nat) (v : Value) : Except MemoryError (Memory × Heap) :=
  match v with
  | .null => .ok (m.setAt i .null, h)
  | v =>
    match m.typeAt i with
    | .array n =>
      match v with
      | .vector none => .ok (m.setAt i .null, h)
      | .vector (some ref) =>
        let (copy, h) := h.alloc (h.get ref)
        .ok (m.setAt i (.vector (some copy)), h)
      | v => .error (.notVector i (.array n) v.typeName)
    | .scalar n =>
      if n.isIntegral then
        match v.operand.toLong with
        | .ok x => .ok (m.setAt i (.long x), h)
        | .error e => .error (.notNumber i (.scalar n) e)
      else
        match v.operand.toDouble with
        | .ok x => .ok (m.setAt i (.double x), h)
        | .error e => .error (.notNumber i (.scalar n) e)
    | _ => .ok (m.setAt i v, h)

/-- Adds a value at a place, where an unset field counts as zero. -/
def addAt (m : Memory) (i : Nat) (delta : Value) : Except MemoryError Memory :=
  match m.typeAt i with
  | .scalar n =>
    if n.isIntegral then
      match delta.operand.toLong with
      | .ok d => .ok (m.setAt i (.long (Number.wrap64 (m.intAt i + d))))
      | .error e => .error (.badDelta e)
    else
      match delta.operand.toDouble with
      | .ok d => .ok (m.setAt i (.double (m.doubleAt i + d)))
      | .error e => .error (.badDelta e)
  | t => .error (.notAddable i t)

/-- Writes a value into a field. -/
def write (m : Memory) (h : Heap) (field : Int) (v : Value) :
    Except MemoryError (Memory × Heap) := do
  let i ← m.index field
  m.writeAt h i v

/-- Adds a value to a field. -/
def add (m : Memory) (field : Int) (delta : Value) : Except MemoryError Memory := do
  let i ← m.index field
  m.addAt i delta

/-- Copies the vectors among values. -/
def copyFields : List Value → Heap → List Value × Heap
  | [], h => ([], h)
  | .vector (some ref) :: rest, h =>
    let (copy, h) := h.alloc (h.get ref)
    let (vs, h) := copyFields rest h
    (.vector (some copy) :: vs, h)
  | v :: rest, h =>
    let (vs, h) := copyFields rest h
    (v :: vs, h)

/-- A copy that shares no vector with the buffer. -/
def clone (m : Memory) (h : Heap) : Memory × Heap :=
  let (fields, h) := copyFields m.fields h
  (⟨m.layout, fields⟩, h)

end Memory

end FactFold
