import FactFold.Function.Basic

/-!
# Matching signatures

A signature fits arguments when it has as many parameters and each accepts its argument. Of several
signatures the first that fits is taken.
-/

namespace FactFold

/-- Every parameter accepts its argument, and there are as many of the one as of the other. -/
def fitsArguments : List DataType → List DataType → Bool
  | [], [] => true
  | p :: params, a :: args => p.accepts a && fitsArguments params args
  | _, _ => false

/-- The place of the first parameter list that fits the arguments. -/
def matchSignature? (candidates : List (List DataType)) (args : List DataType) : Option Nat :=
  candidates.findIdx? fun params => fitsArguments params args

end FactFold
