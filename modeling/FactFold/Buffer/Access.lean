import FactFold.Code.Term

/-!
# Access to buffers and facts in code

Generated routines read a row through a fact record and keep their running state in a buffer. Both
are addressed by position. Reading and adding are named for the type of the field; fields that hold
vectors have primitives of their own.
-/

namespace FactFold

/-- The fields of a buffer, by their types. -/
abbrev Layout := List DataType

/-- The types of a layout, separated by commas. -/
def Layout.text (l : Layout) : String := DataType.listText l

/-- A buffer variable of a routine. -/
structure BufferRef where
  name : String
  deriving Repr, DecidableEq

namespace BufferRef

/-- The buffer a routine keeps its state in. -/
def aggregation : BufferRef := ⟨"aggregationBuffer"⟩

/-- The buffer a merge reads. -/
def mergeInput : BufferRef := ⟨"inputAggregationBuffer"⟩

/-- The buffer a merge folds into. -/
def mergeOutput : BufferRef := ⟨"outputAggregationBuffer"⟩

/-- A method of the buffer on one of its fields. -/
def method (b : BufferRef) (name : String) (field : Int) (args : List Term) : Term :=
  .invoke (.ident b.name) name (.int field :: args)

/-- The field is unset. -/
def isNull (b : BufferRef) (field : Int) : Term := b.method "isNull" field []

/-- The field is set. -/
def isSet (b : BufferRef) (field : Int) : Term := .unary "!" (b.isNull field)

/-- The vector in a field. -/
def readVector (b : BufferRef) (field : Int) : Term := b.method "readVector" field []

/-- The vector in a field, to be changed in place. -/
def readWritableVector (b : BufferRef) (field : Int) : Term :=
  b.method "readWritableVector" field []

/-- The value in a field of a type. -/
def read (b : BufferRef) (field : Int) (t : DataType) : Term :=
  if t.isArray then b.readVector field else b.method ("read" ++ t.suffix) field []

/-- Writes a value into a field. -/
def write (b : BufferRef) (field : Int) (value : Term) : Stmt :=
  .run (b.method "write" field [value])

/-- Adds a value to a field of a type. -/
def add (b : BufferRef) (field : Int) (delta : Term) (t : DataType) : Stmt :=
  .run (b.method ("add" ++ t.suffix) field [delta])

/-- Calls a method of the vector in a field. -/
def vector (b : BufferRef) (field : Int) (method : String) (args : List Term) : Stmt :=
  .run (.invoke (b.readWritableVector field) method args)

end BufferRef

/-- Reads a field of a fact record that holds a value of a type. -/
def readColumn (fact : Term) (index : Int) (t : DataType) : Term :=
  match t with
  | .array _ => .invoke fact "readVector" [.int index]
  | .scalar n => .invoke fact ("read" ++ n.suffix) [.int index]
  | .boolean => .invoke fact "readBoolean" [.int index]
  | t => .cast t.sourceName (.invoke fact "read" [.int index])

end FactFold
