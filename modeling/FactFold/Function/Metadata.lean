import FactFold.Function.Matching

/-!
# Metadata of engine methods

A service tells the signatures of the engine's methods and their output types; asking it may fail. A
cache keeps its answers: signatures by class and method, output types by the argument types as well.
Failures are not kept. The cache counts how often it could answer and how often the service was
asked.
-/

namespace FactFold

/-- Answers questions about the engine's methods; a failure comes with its text. -/
structure MetadataService where
  /-- The parameter types of every overload of a class's method. -/
  signatures : (className method : String) → Except String (List (List DataType))
  /-- The type a class's method yields for argument types. -/
  output : (className method : String) → List DataType → Except String DataType

/-- Answers of a service kept for later. -/
structure MetadataCache where
  signatures : List (String × List (List DataType)) := []
  outputs : List (String × DataType) := []
  /-- Whether hits and misses are counted. -/
  counting : Bool := true
  hits : Nat := 0
  misses : Nat := 0
  /-- How often the service was asked for signatures. -/
  signatureCalls : Nat := 0
  /-- How often the service was asked for an output type. -/
  outputCalls : Nat := 0

namespace MetadataCache

/-- Number of answers kept. -/
def size (c : MetadataCache) : Nat := c.signatures.length + c.outputs.length

/-- Counts a question the cache could answer. -/
def hit (c : MetadataCache) : MetadataCache :=
  if c.counting then { c with hits := c.hits + 1 } else c

/-- Counts a question the cache could not answer. -/
def miss (c : MetadataCache) : MetadataCache :=
  if c.counting then { c with misses := c.misses + 1 } else c

/-- The key under which signatures are kept. -/
def signatureKey (className method : String) : String := className ++ "#" ++ method

/-- The key under which an output type is kept. -/
def outputKey (className method : String) (args : List DataType) : String :=
  className ++ "#" ++ method ++ "(" ++ String.intercalate "," (args.map DataType.name) ++ ")"

/-- The signatures of a method, from the cache or else from the service. -/
def signaturesOf (c : MetadataCache) (service : MetadataService) (className method : String) :
    Except String (List (List DataType)) × MetadataCache :=
  let key := signatureKey className method
  match c.signatures.lookup key with
  | some s => (.ok s, c.hit)
  | none =>
    let c := { c.miss with signatureCalls := c.signatureCalls + 1 }
    match service.signatures className method with
    | .ok s => (.ok s, { c with signatures := (key, s) :: c.signatures })
    | .error e => (.error e, c)

/-- The output type of a method for argument types, from the cache or else from the service. -/
def outputOf (c : MetadataCache) (service : MetadataService) (className method : String)
    (args : List DataType) : Except String DataType × MetadataCache :=
  let key := outputKey className method args
  match c.outputs.lookup key with
  | some t => (.ok t, c.hit)
  | none =>
    let c := { c.miss with outputCalls := c.outputCalls + 1 }
    match service.output className method args with
    | .ok t => (.ok t, { c with outputs := (key, t) :: c.outputs })
    | .error e => (.error e, c)

end MetadataCache

end FactFold
