import FactFold.Buffer.Memory

/-!
# Faults of running routines

What can go wrong while an expression of a routine is evaluated. Three faults stand out: a null value
where a vector or a receiver is needed, an expression that the evaluator rejects before running it,
and an operator that does not fit its operands. The wording of the last two is the evaluator's own
and stands as a placeholder here.
-/

namespace FactFold.Machine

/-- Why an expression could not be evaluated. -/
inductive Fault where
  /-- An expression with an empty place. -/
  | emptyTerm
  /-- A literal of a number that is not finite. -/
  | nonFiniteLiteral (x : Float)
  | unknownLiteral (type : String)
  /-- An expression rejected before it runs, by its source. -/
  | rejected (source : String)
  /-- An operator or access that does not fit its operands. -/
  | misfit
  /-- Null where a value is needed; the text tells where. -/
  | nullPointer (place : String)
  | conversion (e : ConversionError)
  | memory (e : MemoryError)
  | factArity (method : String)
  | factRange (field : Int) (size : Nat)
  | unknownFactMethod (method : String)
  | bufferArity (method : String)
  | bufferRange (field : Int) (layout : Layout)
  | unknownBufferMethod (method : String) (args : Nat)
  | vectorArity (method : String)
  | unknownVectorMethod (method : String)
  | valueArity (typeName method : String)
  | dateCompare (typeName : String)
  | unknownMethod (method typeName : String)
  | callArity
  | quotientArity
  | noFunctionName
  | unknownFunction (name : String)
  | twoOperands (name : String)
  | dateArity
  | convertArity
  | newArity
  | unknownClass (name : String)
  | divisionByZero
  | notVector (typeName : String)
  | notDate (typeName : String)
  /-- A function given from outside failed with this text. -/
  | native (text : String)
  /-- A declaration whose value does not fit its type. -/
  | declaration (type name : String) (cause : Fault)
  | rawStatement
  | emptyStatement

namespace Fault

/-- Stands for the evaluator's own wording. -/
def placeholder : String := "<expr>"

/-- The wording of a fault. -/
def message : Fault → String
  | .emptyTerm => "cannot simulate expression <nil>"
  | .nonFiniteLiteral x => "cannot simulate literal " ++ Number.general .double x
  | .unknownLiteral type => "cannot simulate " ++ type ++ " literal"
  | .rejected source => "compile " ++ Text.quoteText source ++ ": " ++ placeholder
  | .misfit => placeholder
  | .nullPointer place => place ++ ": null pointer"
  | .conversion e => e.message
  | .memory e => e.message
  | .factArity method => "fact." ++ method ++ " expects one argument"
  | .factRange field size =>
    "fact field " ++ Number.decimal field ++ " out of range (" ++ Number.decimal size ++ " fields)"
  | .unknownFactMethod method => "unknown fact method " ++ method
  | .bufferArity method => "buffer." ++ method ++ " expects a field"
  | .bufferRange field layout =>
    "buffer field " ++ Number.decimal field ++ " out of range for layout [" ++ layout.text ++ "]"
  | .unknownBufferMethod method args =>
    "unknown buffer method " ++ method ++ "/" ++ Number.decimal args
  | .vectorArity method => "vector." ++ method ++ " expects one argument"
  | .unknownVectorMethod method => "unknown vector method " ++ method
  | .valueArity typeName method => typeName ++ "." ++ method ++ " expects one argument"
  | .dateCompare typeName => "cannot compare date with " ++ typeName
  | .unknownMethod method typeName => "unknown method " ++ method ++ " on " ++ typeName
  | .callArity => "call expects a receiver and a method"
  | .quotientArity => "quo expects two operands"
  | .noFunctionName => "callStatic expects a function name"
  | .unknownFunction name => "unknown function " ++ name
  | .twoOperands name => name ++ " expects two operands"
  | .dateArity => "LocalDate.of expects year, month and day"
  | .convertArity => "convert expects a type and a value"
  | .newArity => "newObject expects a class and one argument"
  | .unknownClass name => "cannot instantiate " ++ name
  | .divisionByZero => "/ by zero"
  | .notVector typeName => typeName ++ " is not a vector"
  | .notDate typeName => typeName ++ " is not a date"
  | .native text => text
  | .declaration type name cause => type ++ " " ++ name ++ ": " ++ cause.message
  | .rawStatement => "cannot simulate statement *codegen.Raw"
  | .emptyStatement => "cannot simulate statement <nil>"

/-- The fault is a null where a value is needed. -/
def isNullPointer : Fault → Bool
  | .nullPointer _ => true
  | .declaration _ _ cause => cause.isNullPointer
  | _ => false

/-- The fault is worded by the evaluator. -/
def isMisfit : Fault → Bool
  | .rejected _ | .misfit => true
  | .declaration _ _ cause => cause.isMisfit
  | _ => false

end Fault

end FactFold.Machine
