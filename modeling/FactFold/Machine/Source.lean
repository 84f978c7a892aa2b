import FactFold.Code.Term
import FactFold.Machine.Fault

/-!
# Evaluator source

Before an expression runs it is written in the evaluator's own language: names carry a mark that
keeps them clear of its words, division and every access become calls, and literals are converted to
their types. Writing fails at the first place that has no such form.
-/

namespace FactFold.Machine

/-- A name as the evaluator sees it. -/
def variableText (name : String) : String := "v_" ++ name

/-- A call in the evaluator's language. -/
def callText (function : String) (args : List String) : String :=
  function ++ "(" ++ String.intercalate ", " args ++ ")"

/-- A name before the other arguments of a call; the empty name is left out. -/
def named (name : String) (args : List String) : List String :=
  if name = "" then args else Text.quoteText name :: args

/-- A double with a point in it. -/
def doubleText (x : Float) : String :=
  let s := Number.plain .double x
  if s.toList.contains '.' then s else s ++ ".0"

/-- The value a literal stands for. -/
inductive LiteralValue where
  | int (n : Int)
  | double (x : Float)
  | bool (b : Bool)
  | text (bytes : Text.Bytes)

/-- The value of a literal by its type. -/
def literalValue (type : String) (value : Datum) : Except Fault LiteralValue :=
  let converted {α : Type} (x : Except ConversionError α) : Except Fault α :=
    x.mapError Fault.conversion
  match type with
  | "int" | "long" => LiteralValue.int <$> converted value.operand.toLong
  | "float" | "double" => do
    let x ← converted value.operand.toDouble
    if x.isNaN || x.isInf then .error (.nonFiniteLiteral x) else pure (.double x)
  | "boolean" => LiteralValue.bool <$> converted value.operand.toBool
  | "String" => .ok (.text value.operand.textOrEmpty)
  | type => .error (.unknownLiteral type)

/-- A literal's value in the evaluator's language. -/
def LiteralValue.source : LiteralValue → String
  | .int n => Number.decimal n
  | .double x => doubleText x
  | .bool b => Scalar.boolText b
  | .text bs => Text.quote bs

mutual

/-- An expression in the evaluator's language. -/
def source : Term → Except Fault String
  | .ident name => .ok (variableText name)
  | .lit type value => LiteralValue.source <$> literalValue type value
  | .null => .ok "nil"
  | .binary op x y => do
    let a ← source x
    let b ← source y
    pure (if op = "/" then callText "quo" [a, b] else "(" ++ a ++ " " ++ op ++ " " ++ b ++ ")")
  | .unary op x => do
    let a ← source x
    pure (op ++ "(" ++ a ++ ")")
  | .call method args => do
    let as ← sources args
    pure (callText "callStatic" (named method as))
  | .invoke receiver method args => do
    let r ← source receiver
    let as ← sources args
    pure (callText "call" (r :: Text.quoteText method :: as))
  | .new type args => do
    let as ← sources args
    pure (callText "newObject" (named type as))
  | .newArray _ items => do
    let as ← sources items
    pure ("[" ++ String.intercalate ", " as ++ "]")
  | .cast type x => do
    let a ← source x
    pure (callText "convert" (named type [a]))
  | .cond c yes no => do
    let a ← source c
    let y ← source yes
    let n ← source no
    pure ("(" ++ a ++ " ? " ++ y ++ " : " ++ n ++ ")")
  | .hole => .error .emptyTerm

/-- Expressions in the evaluator's language. -/
def sources : List Term → Except Fault (List String)
  | [] => .ok []
  | x :: rest => do
    let a ← source x
    let as ← sources rest
    pure (a :: as)

end

end FactFold.Machine
