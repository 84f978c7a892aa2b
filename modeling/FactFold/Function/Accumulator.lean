/-!
# Accumulated imports and methods

Compiling one expression collects the imports and the method declarations its calls need. Both are
kept in strictly increasing order, so that nothing is listed twice and the order of the calls does
not show.
-/

namespace FactFold

/-- Inserts a text into a strictly increasing list, unless it is there already. -/
def insertText (s : String) : List String → List String
  | [] => [s]
  | t :: rest =>
    if s < t then s :: t :: rest else if s = t then t :: rest else t :: insertText s rest

/-- Imports and method declarations, each in increasing order. -/
structure Accumulator where
  imports : List String := []
  methods : List String := []
  deriving Repr, DecidableEq

namespace Accumulator

/-- Adds an import; the empty one is none. -/
def addImport (a : Accumulator) (name : String) : Accumulator :=
  if name = "" then a else { a with imports := insertText name a.imports }

/-- Adds several imports. -/
def addImports (a : Accumulator) (names : List String) : Accumulator :=
  names.foldl addImport a

/-- Adds a method declaration. -/
def addMethod (a : Accumulator) (source : String) : Accumulator :=
  { a with methods := insertText source a.methods }

end Accumulator

end FactFold
