import FactFold.Code.Literal
import FactFold.Code.Term
import FactFold.Text.Blank

/-!
# Printing code

Code is printed as Java source. An operand that is itself compound stands in parentheses, so that no
reading depends on precedence. Printing stops at the first place that cannot be printed; `text` is
the text of code in which there is no such place, and `faults` lists the places in the order in which
they are met.
-/

namespace FactFold

/-- What cannot be printed. -/
inductive PrintFault where
  | emptyTerm
  | emptyStmt
  /-- A literal whose value is not of its type. -/
  | badLiteral
  deriving Repr, DecidableEq

/-- The wording of a fault; a bad literal has none. -/
def PrintFault.message? : PrintFault → Option String
  | .emptyTerm => some "codegen: unknown expression <nil>"
  | .emptyStmt => some "codegen: unknown statement <nil>"
  | .badLiteral => none

namespace Term

/-- The expression stands in parentheses when it is an operand. -/
def isCompound : Term → Bool
  | .binary .. | .unary .. | .cast .. | .cond .. => true
  | _ => false

/-- An operand in parentheses if need be. -/
def enclose (compound : Bool) (s : String) : String := if compound then "(" ++ s ++ ")" else s

/-- The expression is a literal that starts with a minus. -/
def isNegativeLiteral : Term → Bool
  | .lit type value => (Literal.text type value).toList.head? = some '-'
  | _ => false

mutual

/-- The source of an expression. -/
def text : Term → String
  | .ident name => name
  | .lit type value => Literal.text type value
  | .null => "null"
  | .binary op x y => enclose x.isCompound x.text ++ " " ++ op ++ " " ++ enclose y.isCompound y.text
  | .unary op x => op ++ enclose (x.isCompound || x.isNegativeLiteral) x.text
  | .call method args => method ++ "(" ++ String.intercalate ", " (texts args) ++ ")"
  | .invoke receiver method args =>
    enclose receiver.isCompound receiver.text ++ "." ++ method ++ "(" ++
      String.intercalate ", " (texts args) ++ ")"
  | .new type args => "new " ++ type ++ "(" ++ String.intercalate ", " (texts args) ++ ")"
  | .newArray element items =>
    "new " ++ element ++ "[] \x7b" ++ String.intercalate ", " (texts items) ++ "\x7d"
  | .cast type x => "(" ++ type ++ ") " ++ enclose x.isCompound x.text
  | .cond c yes no =>
    enclose c.isCompound c.text ++ " ? " ++ enclose yes.isCompound yes.text ++ " : " ++
      enclose no.isCompound no.text
  | .hole => ""

/-- The sources of expressions. -/
def texts : List Term → List String
  | [] => []
  | x :: rest => x.text :: texts rest

end

mutual

/-- What cannot be printed in an expression. -/
def faults : Term → List PrintFault
  | .ident _ | .null => []
  | .lit type value => if Literal.isMismatch type value then [.badLiteral] else []
  | .binary _ x y => x.faults ++ y.faults
  | .unary _ x => x.faults
  | .call _ args => faultsAll args
  | .invoke receiver _ args => receiver.faults ++ faultsAll args
  | .new _ args => faultsAll args
  | .newArray _ items => faultsAll items
  | .cast _ x => x.faults
  | .cond c yes no => c.faults ++ yes.faults ++ no.faults
  | .hole => [.emptyTerm]

/-- What cannot be printed in expressions. -/
def faultsAll : List Term → List PrintFault
  | [] => []
  | x :: rest => x.faults ++ faultsAll rest

end

/-- The source of an expression, or what cannot be printed in it. -/
def print (x : Term) : Except PrintFault String :=
  match x.faults with
  | [] => .ok x.text
  | e :: _ => .error e

end Term

namespace Stmt

/-- Indentation. -/
def indent (depth : Nat) : String := String.ofList (List.replicate (4 * depth) ' ')

/-- The lines of source given as it is, each without the blanks around it. -/
def rawLines (text : String) : List String :=
  ((Text.trimChars text.toList).splitOnP (· = '\n')).map fun line =>
    String.ofList (Text.trimChars line)

mutual

/-- The source of a statement at a depth of indentation. -/
def text (depth : Nat) : Stmt → String
  | .decl type name value => indent depth ++ type ++ " " ++ name ++ " = " ++ value.text ++ ";\n"
  | .run x => indent depth ++ x.text ++ ";\n"
  | .cond c yes no =>
    indent depth ++ "if (" ++ c.text ++ ") \x7b\n" ++ textAll (depth + 1) yes ++
      (if no.isEmpty then "" else indent depth ++ "\x7d else \x7b\n" ++ textAll (depth + 1) no) ++
      indent depth ++ "\x7d\n"
  | .ret value => indent depth ++ "return " ++ value.text ++ ";\n"
  | .raw s => String.join ((rawLines s).map fun line => indent depth ++ line ++ "\n")
  | .hole => ""

/-- The source of statements. -/
def textAll (depth : Nat) : List Stmt → String
  | [] => ""
  | s :: rest => s.text depth ++ textAll depth rest

end

mutual

/-- What cannot be printed in a statement. -/
def faults : Stmt → List PrintFault
  | .decl _ _ value => value.faults
  | .run x => x.faults
  | .cond c yes no => c.faults ++ faultsAll yes ++ faultsAll no
  | .ret value => value.faults
  | .raw _ => []
  | .hole => [.emptyStmt]

/-- What cannot be printed in statements. -/
def faultsAll : List Stmt → List PrintFault
  | [] => []
  | s :: rest => s.faults ++ faultsAll rest

end

/-- The source of statements, or what cannot be printed in them. -/
def print (depth : Nat) (ss : List Stmt) : Except PrintFault String :=
  match faultsAll ss with
  | [] => .ok (textAll depth ss)
  | e :: _ => .error e

end Stmt

namespace Routine

/-- The source of a routine. -/
def text (r : Routine) : String :=
  "public " ++ r.returns ++ " " ++ r.name ++ "(" ++
    String.intercalate ", " (r.params.map fun p => p.type ++ " " ++ p.name) ++ ") \x7b\n" ++
    Stmt.textAll 1 r.body ++ "\x7d\n"

/-- The source of a routine, or what cannot be printed in it. -/
def print (r : Routine) : Except PrintFault String :=
  match Stmt.faultsAll r.body with
  | [] => .ok r.text
  | e :: _ => .error e

end Routine

end FactFold
