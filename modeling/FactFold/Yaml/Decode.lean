import FactFold.Config
import FactFold.Function.Catalog
import FactFold.Yaml.Document

/-!
# Reading configurations and catalogs

A mapping fills the fields its keys name; other keys are passed over, but no key may come twice. A
value that stands for nothing leaves a text or a group of fields as it is, and makes a list missing.
Scalars are read as texts however they look.
-/

namespace FactFold.Yaml

namespace Tree

/-- The value stands for nothing. -/
def isNothing (t : Tree) : Bool := t.content? = some none

/-- The value as a text, where `old` stays when there is none. -/
def text? (old : String) (t : Tree) : Option String := t.content?.map fun s => s.getD old

/-- The entries of a mapping by key; a value that stands for nothing has none. -/
def fields? (t : Tree) : Option (List (String × Tree)) :=
  if t.isNothing then some [] else t.entries?

/-- A field that is a text. -/
def textField? (fields : List (String × Tree)) (name old : String) : Option String :=
  match fields.lookup name with
  | some t => t.text? old
  | none => some old

/-- Reads the items of a list, passing over those that stand for nothing. -/
def items? {α : Type} (item : Tree → Option α) : List Tree → Option (List α)
  | [] => some []
  | t :: rest => do
    let xs ← items? item rest
    if t.isNothing then pure xs
    else
      let x ← item t
      pure (x :: xs)

/-- A list, missing when the value stands for nothing. -/
def list? {α : Type} (item : Tree → Option α) (t : Tree) : Option (Option (List α)) :=
  match t.resolved? with
  | some (.list items) => some <$> items? item items
  | _ => if t.isNothing then some none else none

/-- A field that is a list. -/
def listField? {α : Type} (fields : List (String × Tree)) (name : String)
    (item : Tree → Option α) (old : Option (List α)) : Option (Option (List α)) :=
  match fields.lookup name with
  | some t => t.list? item
  | none => some old

/-- The names and imports of routines, over given ones. -/
def codegen? (old : CodegenConfig) (t : Tree) : Option CodegenConfig := do
  let fields ← t.fields?
  pure
    { factParameter := ← textField? fields "factParameter" old.factParameter
      factType := ← textField? fields "factType" old.factType
      bufferType := ← textField? fields "bufferType" old.bufferType
      defaultImports := ← listField? fields "defaultImports" (text? "") old.defaultImports
      methodNameSeparator := ← textField? fields "methodNameSeparator" old.methodNameSeparator }

/-- A configuration, over a given one. -/
def config? (old : Config) (t : Tree) : Option Config := do
  let fields ← t.fields?
  let codegen ←
    match fields.lookup "codegen" with
    | some t => t.codegen? old.codegen
    | none => some old.codegen
  pure
    { codegen := codegen
      catalogPath := ← textField? fields "catalogPath" old.catalogPath
      logLevel := ← textField? fields "logLevel" old.logLevel }

/-- An overload. -/
def overload? (t : Tree) : Option Overload := do
  let fields ← t.fields?
  pure
    { params := (← listField? fields "params" (text? "") none).getD []
      returns := ← textField? fields "returns" "" }

/-- A method. -/
def method? (t : Tree) : Option CatalogMethod := do
  let fields ← t.fields?
  pure
    { name := ← textField? fields "name" ""
      overloads := (← listField? fields "overloads" overload? none).getD [] }

/-- A class. -/
def class? (t : Tree) : Option CatalogClass := do
  let fields ← t.fields?
  pure
    { name := ← textField? fields "name" ""
      methods := (← listField? fields "methods" method? none).getD [] }

/-- A catalog. -/
def catalog? (t : Tree) : Option Catalog := do
  let fields ← t.fields?
  pure { classes := (← listField? fields "classes" class? none).getD [] }

end Tree

end FactFold.Yaml

namespace FactFold

/-- The configuration written in a text, over the standard one; none when it cannot be read. -/
def Config.read? (s : String) : Option Config := do
  let t ← Yaml.read? s
  let c ← t.config? .standard
  pure c.filled

/-- The wording for a configuration that cannot be read. -/
def Config.unreadable : String := "failed to decode config"

/-- Why a catalog could not be loaded. -/
inductive CatalogError where
  /-- The text cannot be read. -/
  | unreadable
  /-- A name in the catalog is no type. -/
  | badType (message : String)
  /-- There is no such file. -/
  | missingFile (path : String)
  deriving Repr, DecidableEq

/-- The wording of the reason. -/
def CatalogError.message : CatalogError → String
  | .unreadable => "decode catalog"
  | .badType message => message
  | .missingFile path => "open " ++ path ++ ": no such file or directory"

/-- The checked catalog written in a text. -/
def Catalog.load (s : String) : Except CatalogError Catalog :=
  match (Yaml.read? s).bind Yaml.Tree.catalog? with
  | none => .error .unreadable
  | some c =>
    match c.fault? with
    | some message => .error (.badType message)
    | none => .ok c

/-- The checked catalog in a file, by its content if it exists. -/
def Catalog.loadFile (path : String) (content : Option String) : Except CatalogError Catalog :=
  match content with
  | some s => Catalog.load s
  | none => .error (.missingFile path)

end FactFold
