import FactFold.Function.Accumulator
import FactFold.Kind.Builtin

/-!
# Known kinds

The built-in kinds by name, and kinds registered beside or over them.
-/

namespace FactFold

/-- The built-in kinds. -/
def builtinKinds : List Visitor :=
  [Kind.max, Kind.mean, Kind.min, Kind.multiply, Kind.short, Kind.squareSum, Kind.sum]

/-- Kinds registered under a name, over the built-in ones. -/
structure KindTable where
  registered : List (String × Visitor) := []

namespace KindTable

/-- The kind of a name. -/
def get (k : KindTable) (kind : String) : Except Failure Visitor :=
  match k.registered.lookup kind with
  | some v => .ok v
  | none =>
    match builtinKinds.find? fun v => v.kind = kind with
    | some v => .ok v
    | none => .error (.unknownKind kind)

/-- Registers a kind under a name. -/
def register (k : KindTable) (name : String) (v : Visitor) : KindTable :=
  ⟨(name, v) :: k.registered.filter fun entry => entry.1 ≠ name⟩

/-- Removes a registered kind. -/
def unregister (k : KindTable) (name : String) : KindTable :=
  ⟨k.registered.filter fun entry => entry.1 ≠ name⟩

/-- The names of all kinds in increasing order. -/
def names (k : KindTable) : List String :=
  (builtinKinds.map Visitor.kind ++ k.registered.map Prod.fst).foldl (fun l s => insertText s l) []

end KindTable

/-- The parts of a kind that may be made to fail. -/
inductive Stage where
  | buffer
  | terminateType
  | contribute
  | decontribute
  | merge
  | terminate
  deriving Repr, DecidableEq

namespace Stage

/-- The name of a part. -/
def name : Stage → String
  | .buffer => "buffer"
  | .terminateType => "terminate_type"
  | .contribute => "contribute"
  | .decontribute => "decontribute"
  | .merge => "merge"
  | .terminate => "terminate"

/-- All parts. -/
def all : List Stage := [.buffer, .terminateType, .contribute, .decontribute, .merge, .terminate]

/-- The part of a name. -/
def ofName? (s : String) : Option Stage := all.find? fun stage => stage.name = s

end Stage

/-- A kind of which one part always fails. -/
def Visitor.failingAt (v : Visitor) (stage : Stage) : Visitor :=
  let e : Failure := .stageFailed stage.name
  match stage with
  | .buffer => { v with layout := fun _ => .error e }
  | .terminateType => { v with terminateType := fun _ => .error e }
  | .contribute => { v with contribute := fun _ => .error e }
  | .decontribute => { v with decontribute := fun _ => .error e }
  | .merge => { v with merge := fun _ => .error e }
  | .terminate => { v with terminate := fun _ => .error e }

end FactFold
