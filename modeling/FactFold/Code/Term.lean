import FactFold.DataType
import FactFold.Datum.Basic

/-!
# Code

The expressions, statements and routines of generated Java source, before they are printed. Every
place for an expression or a statement may be left empty; an empty place cannot be printed or run.
-/

namespace FactFold

/-- An expression of generated code. -/
inductive Term where
  /-- A parameter or a local variable. -/
  | ident (name : String)
  /-- A literal of a type given by its spelling. -/
  | lit (type : String) (value : Datum)
  | null
  | binary (op : String) (x y : Term)
  | unary (op : String) (x : Term)
  /-- A static method, or one of the class itself. -/
  | call (method : String) (args : List Term)
  /-- A method of an object. -/
  | invoke (receiver : Term) (method : String) (args : List Term)
  | new (type : String) (args : List Term)
  | newArray (element : String) (items : List Term)
  | cast (type : String) (x : Term)
  | cond (c yes no : Term)
  /-- An empty place. -/
  | hole

namespace Term

/-- An integer literal. -/
def int (n : Int) : Term := .lit "int" (.scalar (.long n))

/-- A double literal. -/
def double (x : Float) : Term := .lit "double" (.scalar (.double x))

end Term

/-- A statement of generated code. -/
inductive Stmt where
  /-- Declares a local variable with its value. -/
  | decl (type name : String) (value : Term)
  /-- Evaluates an expression for its effect. -/
  | run (x : Term)
  /-- A conditional block; the alternative may be empty. -/
  | cond (c : Term) (yes no : List Stmt)
  | ret (value : Term)
  /-- Source text given as it is. -/
  | raw (text : String)
  /-- An empty place. -/
  | hole

/-- A parameter of a routine: its type and its name. -/
structure Param where
  type : String
  name : String
  deriving Repr, DecidableEq

/-- A routine. -/
structure Routine where
  returns : String
  name : String
  params : List Param
  body : List Stmt

end FactFold
