import FactFold.Machine.Fault

/-!
# The state of running routines

Routines run in a world: the vectors in the heap, the buffers by number, and the sources of the
expressions checked so far, the latest last. The world keeps its changes also when a routine fails.
-/

namespace FactFold.Machine

/-- What routines work on. -/
structure World where
  heap : Heap := {}
  buffers : List Memory := []
  /-- Sources of the expressions checked so far, in order. -/
  programs : List String := []

/-- A step of a run. -/
abbrev Run := ExceptT Fault (StateM World)

/-- What a function given from outside yields. -/
inductive Answer where
  /-- A value it was given. -/
  | value (v : Value)
  /-- Data of its own, made anew by every call. -/
  | datum (d : Datum)

/-- A function given from outside. -/
abbrev Native := List Value → Except Fault Answer

/-- Functions given from outside, by name. -/
abbrev Natives := List (String × Native)

namespace World

/-- The buffer of a number. -/
def buffer (w : World) (id : Nat) : Memory := w.buffers.getD id ⟨[], []⟩

/-- Replaces the buffer of a number. -/
def setBuffer (w : World) (id : Nat) (m : Memory) : World :=
  { w with buffers := w.buffers.set id m }

/-- Adds a buffer. -/
def addBuffer (w : World) (m : Memory) : Nat × World :=
  (w.buffers.length, { w with buffers := w.buffers ++ [m] })

/-- Remembers the source of a checked expression. -/
def remember (w : World) (source : String) : World :=
  if w.programs.contains source then w else { w with programs := w.programs ++ [source] }

/-- Brings a datum into memory. -/
def load (w : World) (d : Datum) : Value × World :=
  let (v, h) := Value.ofDatum d w.heap
  (v, { w with heap := h })

/-- Brings data into memory in order. -/
def loadAll (w : World) (ds : List Datum) : List Value × World :=
  let (vs, h) := Value.ofData ds w.heap
  (vs, { w with heap := h })

/-- A fact record of values. -/
def fact (w : World) (fields : List Value) : Value × World :=
  let (number, h) := w.heap.number
  (.fact number fields, { w with heap := h })

end World

namespace Run

/-- Runs a step in a world. -/
def runIn {α : Type} (step : Run α) (w : World) : Except Fault α × World :=
  StateT.run (ExceptT.run step) w

/-- The result of a conversion. -/
def converted {α : Type} (x : Except ConversionError α) : Run α :=
  match x with
  | .ok a => pure a
  | .error e => throw (.conversion e)

/-- Brings a datum into memory. -/
def load (d : Datum) : Run Value := modifyGet fun w => w.load d

/-- A new list of values. -/
def list (items : List Value) : Run Value :=
  modifyGet fun w =>
    let (number, h) := w.heap.number
    (.seq number items, { w with heap := h })

/-- Puts a vector in a new place of the heap. -/
def alloc (v : List Float) : Run Nat :=
  modifyGet fun w =>
    let (ref, h) := w.heap.alloc v
    (ref, { w with heap := h })

/-- The vector at a place of the heap. -/
def vectorAt (ref : Nat) : Run (List Float) := do
  let w ← get
  pure (w.heap.get ref)

/-- Changes the vector at a place of the heap. -/
def update (ref : Nat) (f : List Float → List Float) : Run Unit :=
  modify fun w => { w with heap := w.heap.set ref (f (w.heap.get ref)) }

/-- The place of the vector a value can be used as; none when the value is null. -/
def toVector (v : Value) : Run (Option Nat) :=
  match v.asVector? with
  | none => throw (.notVector v.typeName)
  | some (.error e) => throw (.conversion e)
  | some (.ok .absent) => pure none
  | some (.ok (.shared ref)) => pure (some ref)
  | some (.ok (.fresh xs)) => some <$> alloc xs

/-- A vector as a value; an absent one is null. -/
def boxed (ref : Option Nat) : Value :=
  match ref with
  | some ref => .vector (some ref)
  | none => .null

end Run

end FactFold.Machine
