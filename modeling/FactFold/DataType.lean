import FactFold.Text.Blank
import FactFold.Text.Case
import FactFold.Text.Quoted

/-!
# Data types

The types an expression can have. Numeric types widen from `int` over `long` and `float` to
`double`, and arrays of them widen along with their elements. Besides these there are `boolean`,
`String` and `LocalDate`. Any other name is a type too, but an unknown one, which nothing accepts.
-/

namespace FactFold

/-- Numeric types, from the narrowest to the widest. -/
inductive Numeric where
  | int
  | long
  | float
  | double
  deriving Repr, DecidableEq

namespace Numeric

/-- Place in the order of widening. -/
def rank : Numeric → Nat
  | .int => 0
  | .long => 1
  | .float => 2
  | .double => 3

/-- The name of a numeric type. -/
def name : Numeric → String
  | .int => "int"
  | .long => "long"
  | .float => "float"
  | .double => "double"

/-- The wider of two numeric types. -/
def wider (a b : Numeric) : Numeric := if b.rank ≤ a.rank then a else b

/-- The part of a buffer primitive's name that tells the type it reads or adds. -/
def suffix : Numeric → String
  | .int => "Int"
  | .long => "Long"
  | .float => "Float"
  | .double => "Double"

/-- Values of the type are integers. -/
def isIntegral : Numeric → Bool
  | .int | .long => true
  | .float | .double => false

end Numeric

/-- A type of values. -/
inductive DataType where
  | scalar (n : Numeric)
  | array (n : Numeric)
  | boolean
  | string
  | localDate
  /-- A type known by name only. -/
  | other (name : String)
  deriving Repr, DecidableEq

namespace DataType

/-- 32-bit integers. -/
abbrev int : DataType := .scalar .int

/-- Double-precision numbers. -/
abbrev double : DataType := .scalar .double

/-- The interface through which generated code sees every numeric array. -/
def vectorInterface : String := "IVector"

/-- The name of a type. -/
def name : DataType → String
  | .scalar n => n.name
  | .array n => n.name ++ "[]"
  | .boolean => "boolean"
  | .string => "String"
  | .localDate => "LocalDate"
  | .other s => s

/-- The known types. -/
def known : List DataType :=
  [.scalar .int, .scalar .long, .scalar .float, .scalar .double,
   .array .int, .array .long, .array .float, .array .double, .boolean, .string, .localDate]

/-- The type of a name. -/
def ofName (s : String) : DataType := (known.find? fun t => t.name = s).getD (.other s)

/-- A type named other than by its own name, in lower case. -/
def aliases : List (String × DataType) :=
  [("int", .scalar .int), ("integer", .scalar .int), ("java.lang.integer", .scalar .int),
   ("long", .scalar .long), ("java.lang.long", .scalar .long),
   ("float", .scalar .float), ("java.lang.float", .scalar .float),
   ("double", .scalar .double), ("java.lang.double", .scalar .double),
   ("int[]", .array .int), ("long[]", .array .long),
   ("float[]", .array .float), ("double[]", .array .double),
   ("boolean", .boolean), ("java.lang.boolean", .boolean),
   ("string", .string), ("java.lang.string", .string),
   ("localdate", .localDate), ("java.time.localdate", .localDate)]

/-- The type an engine reports under a name, whatever its letter case and the blanks around it. -/
def parse? (s : String) : Option DataType := aliases.lookup (Text.lower (Text.trim s))

/-- The wording for a name that is no type. -/
def unsupportedMessage (s : String) : String := "unsupported data type " ++ Text.quoteText s

/-- A numeric scalar. -/
def isNumeric : DataType → Bool
  | .scalar _ => true
  | _ => false

/-- A numeric array. -/
def isArray : DataType → Bool
  | .array _ => true
  | _ => false

/-- The type of an array's elements; every other type is its own. -/
def element : DataType → DataType
  | .array n => .scalar n
  | t => t

/-- The array of a numeric scalar. -/
def arrayOf? : DataType → Option DataType
  | .scalar n => some (.array n)
  | _ => none

/-- The spelling of a type in generated source. -/
def sourceName : DataType → String
  | .array _ => vectorInterface
  | t => t.name

/-- The part of a buffer primitive's name that tells the type; only numeric scalars have one. -/
def suffix : DataType → String
  | .scalar n => n.suffix
  | _ => ""

/-- A parameter of the first type can receive an argument of the second. -/
def accepts : DataType → DataType → Bool
  | .scalar n, .scalar m => m.rank ≤ n.rank
  | .array n, .array m => m.rank ≤ n.rank
  | .boolean, .boolean => true
  | .string, .string => true
  | .localDate, .localDate => true
  | _, _ => false

/-- The type is known. -/
def isKnown (t : DataType) : Bool := t.accepts t

/-- The wider of two numeric scalars or of two numeric arrays. -/
def promote? : DataType → DataType → Option DataType
  | .scalar n, .scalar m => some (.scalar (n.wider m))
  | .array n, .array m => some (.array (n.wider m))
  | _, _ => none

/-- Several types, separated by commas. -/
def listText (ts : List DataType) : String := String.intercalate ", " (ts.map name)

end DataType

end FactFold
