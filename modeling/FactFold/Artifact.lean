import FactFold.Config
import FactFold.Kind.Table
import FactFold.Lowering.Lower

/-!
# Artifacts

Distilling an expression for a kind of aggregation gives an artifact: the routines of the kind over
the lowered expression, with the imports and methods they need.
-/

namespace FactFold

/-- The source of an aggregation. -/
structure Artifact where
  kind : String
  /-- The type of the aggregated expression. -/
  output : DataType
  /-- The type of the result. -/
  terminateType : DataType
  /-- The columns of the fact record, in its order. -/
  columns : List String
  imports : List String
  methods : List String
  layout : Layout
  contribute : Routine
  /-- Missing when the kind cannot take a row out again. -/
  decontribute : Option Routine
  merge : Routine
  terminate : Routine

namespace Artifact

/-- The routines in the engine's order. -/
def routines (a : Artifact) : List Routine :=
  a.contribute :: a.decontribute.toList ++ [a.merge, a.terminate]

/-- Imports, methods and routines as source. -/
def source (a : Artifact) : String :=
  String.join (a.imports.map fun s => "import " ++ s ++ ";\n") ++
    String.join (a.methods.map fun s => "\n" ++ s) ++
    String.join (a.routines.map fun r => "\n" ++ r.text)

end Artifact

/-- What a distillation needs to know besides the expression and the kind. -/
structure DistillEnv where
  schema : List (String × DataType) := []
  /-- The registered functions' metadata service; none when no functions are known. -/
  functions : Option (Option MetadataService) := none
  config : CodegenConfig := {}
  kinds : KindTable := {}

/-- Texts in increasing order, each once and none empty. -/
def sortedTexts (texts : List String) : List String :=
  (texts.filter (· ≠ "")).foldl (fun l s => insertText s l) []

/-- The routines of a kind over an element. -/
def Visitor.artifact (v : Visitor) (kind : String) (config : CodegenConfig) (columns : List String)
    (e : Element) (acc : Accumulator) : Except Failure Artifact := do
  let layout ← v.layout e.type
  let terminateType ← v.terminateType e.type
  let rowParams : List Param :=
    [⟨config.factType, config.factParameter⟩, ⟨config.bufferType, BufferRef.aggregation.name⟩]
  let contribute ← v.contribute e
  let decontribute ← v.decontribute e
  let merge ← v.merge e.type
  let terminate ← v.terminate e.type
  pure
    { kind := kind
      output := e.type
      terminateType := terminateType
      columns := columns
      imports := sortedTexts
        (config.defaultImports.getD [] ++ acc.imports ++ (v.imports.map (· e.type)).getD [])
      methods := acc.methods
      layout := layout
      contribute := ⟨"void", "contribute", rowParams, contribute⟩
      decontribute := decontribute.map fun body => ⟨"void", "decontribute", rowParams, body⟩
      merge := ⟨"void", "merge",
        [⟨config.bufferType, BufferRef.mergeInput.name⟩,
         ⟨config.bufferType, BufferRef.mergeOutput.name⟩], merge⟩
      terminate := ⟨terminateType.sourceName, "terminate",
        [⟨config.bufferType, BufferRef.aggregation.name⟩], terminate⟩ }

/-- Distills an expression for a kind of aggregation. The imports and methods start out empty. -/
def Node.distill (env : DistillEnv) (kind : String) (n : Node) : Compile Artifact := do
  let config := env.config.filled
  let v ← liftM (env.kinds.get kind)
  Compile.accumulate fun _ => {}
  let e ← n.lower ⟨env.schema, env.functions, config.factParameter⟩
  let w ← get
  liftM (v.artifact kind config (n.columns.map Column.name) e w.accumulator)

/-- Distills an expression that may be missing. -/
def distill? (env : DistillEnv) (kind : String) : Option Node → Compile Artifact
  | some n => n.distill env kind
  | none => throw .nothingToDistill

end FactFold
