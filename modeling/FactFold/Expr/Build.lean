import FactFold.Expr.Measure

/-!
# Building expressions

Operands of an expression under construction are nodes, plain values or measures, or are missing.
Values become constants where a type can be inferred; measures and missing operands do not combine.
-/

namespace FactFold

/-- What may be offered as an operand. -/
inductive Part where
  | missing
  | node (n : Node)
  | value (d : Datum)
  | measure (m : Measure)

namespace Part

/-- The name of the type of what is offered. -/
def typeName : Part → String
  | .missing => Datum.nullTypeName
  | .node n => n.typeName
  | .value d => d.typeName
  | .measure m => m.typeName

/-- The operand as a node, if it can take part in an expression. -/
def toNode? : Part → Option Node
  | .missing => none
  | .node n => some n
  | .value d => (Constant.ofDatum d).toOption.map .constant
  | .measure _ => none

end Part

/-- Why an expression could not be built. -/
inductive BuildError where
  /-- An operand does not combine, where another combination may be tried. -/
  | notCombinable
  /-- An operand does not combine, where it had to. -/
  | refused (op : Operator) (left right : String)
  | noCondition
  | yesBranch (typeName : String)
  | noBranch (typeName : String)
  | noFunction
  | argument (index : Nat) (function typeName : String)
  deriving Repr, DecidableEq

/-- The wording of the reason. -/
def BuildError.message : BuildError → String
  | .notCombinable => "not combinable"
  | .refused op l r =>
    "expr: cannot " ++ (if op.isComparison then "compare " else "combine ") ++ l ++ " " ++ op.symbol
      ++ " " ++ r
  | .noCondition => "ternary requires a condition"
  | .yesBranch t => "unsupported true branch " ++ t
  | .noBranch t => "unsupported false branch " ++ t
  | .noFunction => "call requires a function"
  | .argument i f t =>
    "argument " ++ Number.decimal i ++ " of " ++ f ++ ": unsupported operand " ++ t

namespace Node

/-- Two nodes joined by an operator. -/
def ofOperator : Operator → Node → Node → Node
  | .arithmetic op, l, r => .arithmetic op l r
  | .comparison op, l, r => .comparison op l r

/-- Two operands joined by an operator, if both combine. -/
def join? (op : Operator) (left right : Part) : Option Node := do
  let l ← left.toNode?
  let r ← right.toNode?
  pure (ofOperator op l r)

/-- Two operands joined by an operator; it is an error when they do not combine. -/
def join (op : Operator) (left right : Part) : Except BuildError Node :=
  match join? op left right with
  | some n => .ok n
  | none => .error (.refused op left.typeName right.typeName)

/-- A condition with its branches; the false branch may be missing. A missing condition is an error;
the condition is given as a comparison's operator and operands. -/
def conditional (condition : Option (Comparison × Node × Node)) (yes no : Part) :
    Except BuildError Node :=
  match condition with
  | none => .error .noCondition
  | some (op, l, r) =>
    match yes.toNode? with
    | none => .error (.yesBranch yes.typeName)
    | some y =>
      match no with
      | .missing | .value .null => .ok (.guarded op l r y)
      | no =>
        match no.toNode? with
        | none => .error (.noBranch no.typeName)
        | some n => .ok (.choice op l r y n)

/-- The operands of a call as nodes, counted from `index`. -/
def arguments (function : String) (index : Nat) : List Part → Except BuildError (List Node)
  | [] => .ok []
  | p :: rest =>
    match p.toNode? with
    | none => .error (.argument index function p.typeName)
    | some n => do
      let ns ← arguments function (index + 1) rest
      pure (n :: ns)

/-- A call of a function, which may be missing. -/
def ofCall (f : Option Function) (args : List Part) : Except BuildError Node :=
  match f with
  | none => .error .noFunction
  | some f => do
    let ns ← arguments f.name 0 args
    pure (.call f ns)

end Node

end FactFold
