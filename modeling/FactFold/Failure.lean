import FactFold.Report

/-!
# Failures of a compilation

The reasons for which an expression is not compiled. Those that concern types carry them, so that
the report can list them.
-/

namespace FactFold

/-- Why a compilation failed. -/
inductive Failure where
  | nothingToLower
  | nothingToDistill
  | unknownColumn (name : String)
  /-- A column that the expression being lowered does not read. -/
  | unreferencedColumn (name : String)
  /-- A call where no functions are known. -/
  | noRegistry (function : String)
  /-- A registered function that is neither defined here nor a method of the engine. -/
  | foreignFunction (implementation : String)
  | unknownKind (kind : String)
  /-- A kind's own routine generator gave up. -/
  | stageFailed (stage : String)
  | noTemplate (t : DataType)
  | kindWithoutTemplate (kind : String) (t : DataType)
  | conditionNotBoolean (t : DataType)
  | branchesDisagree (yes no : DataType)
  /-- A guarded value was used where it might be missing. -/
  | noValue (t : DataType)
  | undefinedOperator (symbol : String) (left right : DataType)
  | incomparable (symbol : String) (left right : DataType)
  | noSignature (function : String) (args : List DataType)
  | outputWithoutTemplate (function : String) (output : DataType)
  | twoTableColumns
  | tableColumnAndConstant
  | notMeasure (expression : String)
  /-- The metadata service could not be asked. -/
  | transport (doing : String) (cause : String)
  deriving Repr, DecidableEq

namespace Failure

/-- The report of a failure. -/
def report : Failure → Report
  | .nothingToLower => .plain "nothing to lower"
  | .nothingToDistill => .plain "nothing to distill"
  | .unknownColumn name => .plain ("unknown column " ++ name)
  | .unreferencedColumn name =>
    .plain ("column " ++ name ++ " is not referenced by the lowered tree")
  | .noRegistry f => .plain ("cannot resolve " ++ f ++ " without a function registry")
  | .foreignFunction implementation =>
    .plain ("unsupported function implementation " ++ implementation)
  | .unknownKind kind => .plain ("unsupported aggregation kind: " ++ kind)
  | .stageFailed stage => .plain (stage ++ " failed")
  | .noTemplate t =>
    .fault .unsupportedOutputType ("no template matches the output type " ++ t.name) [t]
  | .kindWithoutTemplate kind t =>
    .fault .unsupportedOutputType (kind ++ " aggregation has no template for " ++ t.name) [t]
  | .conditionNotBoolean t => .fault .unsupportedOutputType "a condition must be boolean" [t]
  | .branchesDisagree yes no =>
    .fault .ambiguousTernaryTypes "both branches of a condition must have compatible types"
      [yes, no]
  | .noValue t =>
    .fault .unsupportedOutputType "a condition without false branch has no value" [t]
  | .undefinedOperator symbol l r =>
    .fault .unsupportedOutputType
      ("operator " ++ symbol ++ " is not defined between " ++ l.name ++ " and " ++ r.name) [l, r]
  | .incomparable symbol l r =>
    .fault .unsupportedOutputType
      ("cannot compare " ++ l.name ++ " " ++ symbol ++ " " ++ r.name) [l, r]
  | .noSignature f args =>
    .fault .noMatchingSignature ("no signature of " ++ f ++ " accepts the arguments") args
  | .outputWithoutTemplate f output =>
    .fault .unsupportedOutputType (f ++ " returns a type with no template") [output]
  | .twoTableColumns =>
    .fault .unsupportedCombination
      ("it is not possible to create a measure by combining 2 table columns, " ++
        "create a new table column instead") []
  | .tableColumnAndConstant =>
    .fault .unsupportedCombination
      ("it is not possible to create a measure by combining a table column and a constant, " ++
        "create a new table column instead") []
  | .notMeasure expression =>
    .fault .unsupportedCombination (expression ++ " cannot be converted to a measure") []
  | .transport doing cause => .caused .metadataTransport doing [] (.plain cause)

/-- The wording of a failure. -/
def message (f : Failure) : String := f.report.text

end Failure

end FactFold
