import FactFold.DataType

/-!
# Reports of failures

A report is either a plain text, or it names a category and may list the types involved and the
report of what caused it. The text of a report runs through its causes.
-/

namespace FactFold

/-- The categories of failed compilations. -/
inductive Category where
  | unsupportedCombination
  | noMatchingSignature
  | unsupportedOutputType
  | ambiguousTernaryTypes
  | metadataTransport
  /-- A category outside the known ones, by its number. -/
  | unknown (code : Int)
  deriving Repr, DecidableEq

namespace Category

/-- The known categories in the order of their numbers. -/
def known : List Category :=
  [.unsupportedCombination, .noMatchingSignature, .unsupportedOutputType, .ambiguousTernaryTypes,
   .metadataTransport]

/-- The category with a number. -/
def ofCode (code : Int) : Category :=
  if code < 0 then .unknown code else (known[code.toNat]?).getD (.unknown code)

/-- The name of a category. -/
def name : Category → String
  | .unsupportedCombination => "UNSUPPORTED_COMBINATION"
  | .noMatchingSignature => "NO_MATCHING_SIGNATURE"
  | .unsupportedOutputType => "UNSUPPORTED_OUTPUT_TYPE"
  | .ambiguousTernaryTypes => "AMBIGUOUS_TERNARY_TYPES"
  | .metadataTransport => "METADATA_TRANSPORT"
  | .unknown _ => "UNKNOWN_ERROR"

end Category

/-- A report of a failure. -/
inductive Report where
  | plain (text : String)
  /-- A categorised report without a cause. -/
  | fault (category : Category) (message : String) (types : List DataType)
  /-- A categorised report with its cause. -/
  | caused (category : Category) (message : String) (types : List DataType) (cause : Report)
  deriving Repr, DecidableEq

namespace Report

/-- The category, message and types of a report before its cause. -/
def headText (category : Category) (message : String) (types : List DataType) : String :=
  "[" ++ category.name ++ "] " ++ message ++
    (if types.isEmpty then "" else " (types: " ++ DataType.listText types ++ ")")

/-- The text of a report, causes included. -/
def text : Report → String
  | .plain s => s
  | .fault c m ts => headText c m ts
  | .caused c m ts cause => headText c m ts ++ ": " ++ cause.text

/-- The outermost category and the types listed with it. -/
def category? : Report → Option (Category × List DataType)
  | .plain _ => none
  | .fault c _ ts | .caused c _ ts _ => some (c, ts)

/-- The report has a cause. -/
def hasCause : Report → Bool
  | .caused .. => true
  | _ => false

/-- A category occurs in the report or in one of its causes. -/
def mentions (wanted : Category) : Report → Bool
  | .plain _ => false
  | .fault c _ _ => c = wanted
  | .caused c _ _ cause => c = wanted || cause.mentions wanted

end Report

end FactFold
