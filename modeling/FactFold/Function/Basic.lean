import FactFold.DataType

/-!
# Functions

A call in an expression refers to a function of one of three sorts: one defined with its own body
and signatures, a static method of the engine, or one implemented elsewhere, about which nothing but
its name is known.
-/

namespace FactFold

/-- A parameter of a function defined here. -/
structure Parameter where
  name : String
  type : DataType
  deriving Repr, DecidableEq

/-- Parameters in order. -/
abbrev Signature := List Parameter

/-- The parameter types in order. -/
def Signature.types (s : Signature) : List DataType := s.map Parameter.type

/-- Parameters between parentheses, each as type and name. -/
def Signature.text (s : Signature) : String :=
  "(" ++ String.intercalate ", " (s.map fun p => p.type.name ++ " " ++ p.name) ++ ")"

/-- A function with a body of its own. Every signature in use becomes a method under the same method
name, so the body has to fit them all. -/
structure CustomFunction where
  name : String
  method : String
  signatures : List Signature
  body : String
  output : DataType
  imports : List String
  deriving Repr, DecidableEq

/-- The name of a function with that of its method. -/
def CustomFunction.text (f : CustomFunction) : String := f.name ++ "[" ++ f.method ++ "]"

/-- A static method of the engine. -/
structure ExistingFunction where
  /-- Name of the class, without its package. -/
  className : String
  method : String
  /-- Package of the class; empty when the class needs no import. -/
  package : String
  deriving Repr, DecidableEq

namespace ExistingFunction

/-- The class and the method, as a call spells them. -/
def call (f : ExistingFunction) : String := f.className ++ "." ++ f.method

/-- The class with its package. -/
def qualifiedClass (f : ExistingFunction) : String :=
  if f.package = "" then f.className else f.package ++ "." ++ f.className

/-- The method a call such as `Math.abs` names: two non-empty names joined by one point. -/
def ofCall? (call package : String) : Option ExistingFunction :=
  match call.toList.splitOnP (· = '.') with
  | [c, m] =>
    if c.isEmpty || m.isEmpty then none else some ⟨String.ofList c, String.ofList m, package⟩
  | _ => none

end ExistingFunction

/-- A function implemented elsewhere. -/
structure ForeignFunction where
  name : String
  /-- The name of what implements it. -/
  implementation : String
  deriving Repr, DecidableEq

/-- A function. -/
inductive Function where
  | custom (f : CustomFunction)
  | existing (f : ExistingFunction)
  | foreign (f : ForeignFunction)
  deriving Repr, DecidableEq

namespace Function

/-- The name a function is registered and called under. -/
def name : Function → String
  | .custom f => f.name
  | .existing f => f.call
  | .foreign f => f.name

/-- The name of a function's sort. -/
def sort : Function → String
  | .custom _ => "custom"
  | .existing _ => "existing"
  | .foreign _ => "foreign"

end Function

end FactFold
