import FactFold.Function.Basic
import FactFold.Number.Decimal

/-!
# Registered functions

A registry knows functions by name, whatever the letter case. It gives every function defined with a
body a method name of its own: the function's name, a separator and a number that is used only once.
-/

namespace FactFold

/-- Why a function was not registered. -/
inductive RegistryError where
  | duplicate (name : String)
  | badName (name : String)
  | badOutput (name : String) (output : DataType)
  | noSignature (name : String)
  | badParameter (name parameter : String)
  | badParameterType (name : String) (type : DataType)
  | badCall (call : String)
  deriving Repr, DecidableEq

/-- The wording of the reason. -/
def RegistryError.message : RegistryError → String
  | .duplicate name => "function " ++ name ++ " already registered"
  | .badName name => "invalid function name " ++ Text.quoteText name
  | .badOutput name output =>
    "function " ++ name ++ ": unsupported output type " ++ Text.quoteText output.name
  | .noSignature name => "function " ++ name ++ " requires at least one signature"
  | .badParameter name parameter =>
    "function " ++ name ++ ": invalid or duplicate parameter " ++ Text.quoteText parameter
  | .badParameterType name type =>
    "function " ++ name ++ ": unsupported parameter type " ++ Text.quoteText type.name
  | .badCall call => "method call must look like Class.method, got " ++ Text.quoteText call

/-- Functions by name. -/
structure Registry where
  /-- Functions under their names in lower case. -/
  functions : List (String × Function) := []
  /-- Stands between a function's name and the number of its method name. -/
  separator : String := "_"
  /-- The last number given to a method name. -/
  issued : Nat := 0

/-- A definition of a function with a body. -/
structure Definition where
  name : String
  body : String
  output : DataType
  imports : List String
  signatures : List Signature
  deriving Repr, DecidableEq

/-- A letter, an underscore or a dollar sign, and then digits as well. -/
def isPlainName (s : String) : Bool :=
  let letter (c : Char) := c = '_' || c = '$' || ('a' ≤ c && c ≤ 'z') || ('A' ≤ c && c ≤ 'Z')
  match s.toList with
  | [] => false
  | c :: rest => letter c && rest.all fun d => letter d || ('0' ≤ d && d ≤ '9')

namespace Definition

/-- The first fault among parameters after those named in `seen`. -/
def parameterFault? (name : String) (seen : List String) : Signature → Option RegistryError
  | [] => none
  | p :: rest =>
    if !isPlainName p.name || seen.contains p.name then some (.badParameter name p.name)
    else if !p.type.isKnown then some (.badParameterType name p.type)
    else parameterFault? name (p.name :: seen) rest

/-- The first fault of a definition. -/
def fault? (d : Definition) : Option RegistryError :=
  if !isPlainName d.name then some (.badName d.name)
  else if !d.output.isKnown then some (.badOutput d.name d.output)
  else if d.signatures.isEmpty then some (.noSignature d.name)
  else d.signatures.findSome? (parameterFault? d.name [])

end Definition

namespace Registry

/-- The empty registry; an empty separator is none. -/
def empty (separator : String) : Registry :=
  if separator = "" then {} else { separator := separator }

/-- The function of a name. -/
def get? (r : Registry) (name : String) : Option Function := r.functions.lookup (Text.lower name)

/-- Adds a function under its name, which must be new. -/
def register (r : Registry) (f : Function) : Except RegistryError Registry :=
  if (r.get? f.name).isSome then .error (.duplicate f.name)
  else .ok { r with functions := (Text.lower f.name, f) :: r.functions }

/-- Removes the function of a name. -/
def unregister (r : Registry) (name : String) : Registry :=
  { r with functions := r.functions.filter fun entry => entry.1 ≠ Text.lower name }

/-- The function of a definition under the next method name. -/
def define (r : Registry) (d : Definition) : CustomFunction :=
  { name := d.name
    method := d.name ++ r.separator ++ Number.decimal (r.issued + 1 : Nat)
    signatures := d.signatures
    body := d.body
    output := d.output
    imports := d.imports }

/-- Defines a function and registers it. The number of its method name is used up even when the
function cannot be registered. -/
def addCustom (r : Registry) (d : Definition) : Except RegistryError Function × Registry :=
  match d.fault? with
  | some e => (.error e, r)
  | none =>
    let f := Function.custom (r.define d)
    let r := { r with issued := r.issued + 1 }
    match r.register f with
    | .ok r => (.ok f, r)
    | .error e => (.error e, r)

/-- Registers a method of the engine. -/
def addExisting (r : Registry) (call package : String) :
    Except RegistryError Function × Registry :=
  match ExistingFunction.ofCall? call package with
  | none => (.error (.badCall call), r)
  | some f =>
    match r.register (.existing f) with
    | .ok r => (.ok (.existing f), r)
    | .error e => (.error e, r)

/-- Registers a function implemented elsewhere. -/
def addForeign (r : Registry) (f : ForeignFunction) : Except RegistryError Function × Registry :=
  match r.register (.foreign f) with
  | .ok r => (.ok (.foreign f), r)
  | .error e => (.error e, r)

end Registry

end FactFold
