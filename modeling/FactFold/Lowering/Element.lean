import FactFold.Code.Term
import FactFold.Failure

/-!
# Elements

An element is an expression turned into typed code: a single term, a guarded element, which has no
value where its condition fails, or a choice between two elements. An element is consumed either as
a value or by templates, one for numbers and one for vectors, which a condition distributes over its
branches.
-/

namespace FactFold

/-- Turns the code of a value into the statements that consume it. -/
abbrev Template := Term → List Stmt

/-- Typed code of an expression. -/
inductive Element where
  | basic (code : Term) (type : DataType)
  | guarded (condition body : Element)
  | choice (condition yes no : Element) (type : DataType)

namespace Element

/-- The type of an element's value. -/
def type : Element → DataType
  | .basic _ t => t
  | .guarded _ body => body.type
  | .choice _ _ _ t => t

/-- A condition over its branches, of which the second may be missing. The branches must agree on a
type: numbers and vectors widen, anything else must be the same. -/
def ternary (condition yes : Element) (no : Option Element) : Except Failure Element :=
  if condition.type ≠ .boolean then .error (.conditionNotBoolean condition.type)
  else
    match no with
    | none => .ok (.guarded condition yes)
    | some no =>
      if yes.type = no.type then .ok (.choice condition yes no yes.type)
      else
        match DataType.promote? yes.type no.type with
        | some t => .ok (.choice condition yes no t)
        | none => .error (.branchesDisagree yes.type no.type)

/-- The element as the code of a value. -/
def value : Element → Except Failure Term
  | .basic code _ => .ok code
  | .guarded _ body => .error (.noValue body.type)
  | .choice condition yes no _ => do
    let c ← condition.value
    let y ← yes.value
    let n ← no.value
    pure (.cond c y n)

/-- The template for a type: numbers and vectors have one each, where they are given. -/
def templateFor (numeric array : Option Template) : DataType → Option Template
  | .scalar _ => numeric
  | .array _ => array
  | _ => none

/-- The statements that consume an element by templates. -/
def render (numeric array : Option Template) : Element → Except Failure (List Stmt)
  | .basic code t =>
    match templateFor numeric array t with
    | some template => .ok (template code)
    | none => .error (.noTemplate t)
  | .guarded condition body => do
    let c ← condition.value
    let yes ← body.render numeric array
    pure [.cond c yes []]
  | .choice condition yes no _ => do
    let c ← condition.value
    let y ← yes.render numeric array
    let n ← no.render numeric array
    pure [.cond c y n]

end Element

end FactFold
