/-!
# Configuration

How generated routines name things, where the catalog of engine methods is, and how much is logged.
-/

namespace FactFold

/-- Names and imports of generated routines. -/
structure CodegenConfig where
  /-- Name of the fact record. -/
  factParameter : String := ""
  /-- Type of the fact record. -/
  factType : String := ""
  /-- Type of the buffers. -/
  bufferType : String := ""
  /-- Imports every artifact needs; none when they are not given. -/
  defaultImports : Option (List String) := none
  /-- Stands between a function's name and the number of its method name. -/
  methodNameSeparator : String := ""
  deriving Repr, DecidableEq

/-- A configuration. -/
structure Config where
  codegen : CodegenConfig := {}
  /-- The catalog of engine methods; empty when there is none. -/
  catalogPath : String := ""
  logLevel : String := ""
  deriving Repr, DecidableEq

namespace CodegenConfig

/-- The engine's usual names. -/
def standard : CodegenConfig where
  factParameter := "fact"
  factType := "IArrayReader"
  bufferType := "IWritableBuffer"
  defaultImports := some
    ["com.qfs.store.record.IArrayReader",
     "com.qfs.store.record.IWritableBuffer",
     "com.qfs.vector.IVector"]
  methodNameSeparator := "_"

/-- The first text unless it is empty. -/
def orElse (s fallback : String) : String := if s = "" then fallback else s

/-- Fills empty names with the usual ones. -/
def fillNames (c : CodegenConfig) : CodegenConfig :=
  { c with
    factParameter := orElse c.factParameter standard.factParameter
    factType := orElse c.factType standard.factType
    bufferType := orElse c.bufferType standard.bufferType }

/-- Fills empty names and missing imports with the usual ones. -/
def filled (c : CodegenConfig) : CodegenConfig :=
  { c.fillNames with defaultImports := c.defaultImports.or standard.defaultImports }

end CodegenConfig

/-- The configuration used when none is given. -/
def Config.standard : Config where
  codegen := .standard
  logLevel := "info"

/-- Fills the names a written configuration leaves empty. -/
def Config.filled (c : Config) : Config :=
  { c with
    codegen :=
      { c.codegen.fillNames with
        methodNameSeparator :=
          CodegenConfig.orElse c.codegen.methodNameSeparator
            CodegenConfig.standard.methodNameSeparator } }

end FactFold
