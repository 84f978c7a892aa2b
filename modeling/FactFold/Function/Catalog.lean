import FactFold.Datum.Basic
import FactFold.Function.Metadata

/-!
# Catalogs

A catalog describes the engine's methods without asking the engine: classes, their methods, and the
overloads of each method with the names of parameter and return types. A checked catalog names known
types only, and serves as a metadata service.
-/

namespace FactFold

/-- One parameter list with its return type, by name. -/
structure Overload where
  params : List String
  returns : String
  deriving Repr, DecidableEq

/-- A method with its overloads in order. -/
structure CatalogMethod where
  name : String
  overloads : List Overload
  deriving Repr, DecidableEq

/-- A class with its methods. -/
structure CatalogClass where
  name : String
  methods : List CatalogMethod
  deriving Repr, DecidableEq

/-- Classes in order. -/
structure Catalog where
  classes : List CatalogClass
  deriving Repr, DecidableEq

namespace Overload

/-- The type of a name, or the wording for one that is no type. -/
def typeOf (name : String) : Except String DataType :=
  match DataType.parse? name with
  | some t => .ok t
  | none => .error (DataType.unsupportedMessage name)

/-- The first name that is no type, parameters before the return type. -/
def badType? (o : Overload) : Option String :=
  (o.params ++ [o.returns]).find? fun name => (DataType.parse? name).isNone

/-- The parameter types of an overload whose names are types. -/
def paramTypes (o : Overload) : List DataType := o.params.filterMap DataType.parse?

end Overload

namespace CatalogMethod

/-- The wording for the first overload that names no type, counted from `index`. -/
def firstFault? (className method : String) (index : Nat) : List Overload → Option String
  | [] => none
  | o :: rest =>
    match o.badType? with
    | some name =>
      some (className ++ "." ++ method ++ " overload " ++ Number.decimal index ++ ": " ++
        DataType.unsupportedMessage name)
    | none => firstFault? className method (index + 1) rest

end CatalogMethod

namespace Catalog

/-- The wording for the first name in a catalog that is no type. -/
def fault? (c : Catalog) : Option String :=
  c.classes.findSome? fun cls => cls.methods.findSome? fun m =>
    CatalogMethod.firstFault? cls.name m.name 0 m.overloads

/-- The first method of a name in the classes of a name. -/
def method? (c : Catalog) (className method : String) : Option CatalogMethod :=
  c.classes.findSome? fun cls =>
    if cls.name = className then cls.methods.find? fun m => m.name = method else none

/-- The method of a name, or the wording for a missing one. -/
def method (c : Catalog) (className method : String) : Except String CatalogMethod :=
  match c.method? className method with
  | some m => .ok m
  | none => .error ("unknown method " ++ className ++ "." ++ method)

/-- The parameter types of a method's overloads. -/
def signatures (c : Catalog) (className method : String) :
    Except String (List (List DataType)) := do
  let m ← c.method className method
  pure (m.overloads.map Overload.paramTypes)

/-- The return type of the first overload that fits the arguments. -/
def output (c : Catalog) (className method : String) (args : List DataType) :
    Except String DataType := do
  let m ← c.method className method
  match matchSignature? (m.overloads.map Overload.paramTypes) args with
  | some i =>
    match m.overloads[i]? with
    | some o => Overload.typeOf o.returns
    | none => .error (noOverload className method args)
  | none => .error (noOverload className method args)
where
  /-- The wording for arguments that fit no overload. -/
  noOverload (className method : String) (args : List DataType) : String :=
    className ++ "." ++ method ++ " has no overload for " ++
      Datum.bracketed (args.map DataType.name)

/-- The catalog as a metadata service. -/
def service (c : Catalog) : MetadataService := ⟨c.signatures, c.output⟩

end Catalog

end FactFold
