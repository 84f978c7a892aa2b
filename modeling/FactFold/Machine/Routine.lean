import FactFold.Artifact
import FactFold.Machine.Eval

/-!
# Running routines

Statements run in order and share one set of local variables, also across blocks. A routine binds its
parameters to arguments and yields the value it returns, if any. The routines of an artifact take
rows in and out, merge buffers and give the result.
-/

namespace FactFold.Machine

/-- How statements end. -/
inductive Flow where
  /-- They ran to their end, with these variables. -/
  | next (env : Env)
  /-- They returned a value. -/
  | done (v : Value)

mutual

/-- Runs a statement. -/
def execStmt (natives : Natives) (env : Env) : Stmt → Run Flow
  | .decl type name value => do
    let v ← evaluate natives env value
    let v ← tryCatch (convert type v) fun e => throw (.declaration type name e)
    pure (.next ((name, v) :: env))
  | .run x => do
    let _ ← evaluate natives env x
    pure (.next env)
  | .cond c yes no => do
    let v ← evaluate natives env c
    if ← Run.converted v.operand.toBool then exec natives env yes else exec natives env no
  | .ret value => .done <$> evaluate natives env value
  | .raw _ => throw .rawStatement
  | .hole => throw .emptyStatement

/-- Runs statements in order until one returns. -/
def exec (natives : Natives) (env : Env) : List Stmt → Run Flow
  | [] => pure (.next env)
  | s :: rest => do
    match ← execStmt natives env s with
    | .next env => exec natives env rest
    | .done v => pure (.done v)

end

/-- Why a routine could not be run to its end. -/
inductive RunError where
  | noRoutine
  | arity (routine : String) (expected got : Nat)
  | failed (routine : String) (e : Fault)
  /-- The kind cannot take a row out again. -/
  | noDecontribute
  /-- The row of a number among several could not be taken in. -/
  | atFact (index : Nat) (e : RunError)

namespace RunError

/-- The wording of the reason. -/
def message : RunError → String
  | .noRoutine => "no routine to run"
  | .arity routine expected got =>
    routine ++ " expects " ++ Number.decimal expected ++ " arguments, got " ++ Number.decimal got
  | .failed routine e => routine ++ ": " ++ e.message
  | .noDecontribute => "aggregation has no decontribute routine"
  | .atFact i e => "fact " ++ Number.decimal i ++ ": " ++ e.message

/-- The fault behind the reason, if it is one. -/
def fault? : RunError → Option Fault
  | .failed _ e => some e
  | .atFact _ e => e.fault?
  | _ => none

end RunError

/-- Runs a routine on arguments. -/
def run (natives : Natives) (r : Routine) (args : List Value) (w : World) :
    Except RunError Value × World :=
  if args.length ≠ r.params.length then (.error (.arity r.name r.params.length args.length), w)
  else
    let env : Env := ((r.params.map Param.name).zip args).reverse
    match (exec natives env r.body).runIn w with
    | (.ok (.done v), w) => (.ok v, w)
    | (.ok (.next _), w) => (.ok .null, w)
    | (.error e, w) => (.error (.failed r.name e), w)

/-- Runs a routine that may be missing. -/
def run? (natives : Natives) (r : Option Routine) (args : List Value) (w : World) :
    Except RunError Value × World :=
  match r with
  | some r => run natives r args w
  | none => (.error .noRoutine, w)

/-! ## Lifecycle -/

/-- A result without its value. -/
def ignored {α : Type} (r : Except RunError α × World) : Except RunError Unit × World :=
  (r.1.map fun _ => (), r.2)

/-- Takes a row into a buffer. -/
def contribute (natives : Natives) (a : Artifact) (row : List Value) (id : Nat) (w : World) :
    Except RunError Unit × World :=
  let (fact, w) := w.fact row
  ignored (run natives a.contribute [fact, .buffer id] w)

/-- Takes a row out of a buffer. -/
def decontribute (natives : Natives) (a : Artifact) (row : List Value) (id : Nat) (w : World) :
    Except RunError Unit × World :=
  match a.decontribute with
  | some r =>
    let (fact, w) := w.fact row
    ignored (run natives r [fact, .buffer id] w)
  | none => (.error .noDecontribute, w)

/-- Folds one buffer into another. -/
def merge (natives : Natives) (a : Artifact) (source target : Nat) (w : World) :
    Except RunError Unit × World :=
  ignored (run natives a.merge [.buffer source, .buffer target] w)

/-- The result a buffer holds. -/
def terminate (natives : Natives) (a : Artifact) (id : Nat) (w : World) :
    Except RunError Value × World :=
  run natives a.terminate [.buffer id] w

/-- Takes rows, counted from `index`, into a buffer until one fails. -/
def contributeAll (natives : Natives) (a : Artifact) (id : Nat) (index : Nat) :
    List (List Value) → World → Except RunError Unit × World
  | [], w => (.ok (), w)
  | row :: rest, w =>
    match contribute natives a row id w with
    | (.ok _, w) => contributeAll natives a id (index + 1) rest w
    | (.error e, w) => (.error (.atFact index e), w)

/-- Takes rows into a new buffer and yields its number. -/
def aggregate (natives : Natives) (a : Artifact) (rows : List (List Value)) (w : World) :
    Except RunError Nat × World :=
  let (id, w) := w.addBuffer (.unset a.layout)
  match contributeAll natives a id 0 rows w with
  | (.ok _, w) => (.ok id, w)
  | (.error e, w) => (.error e, w)

end FactFold.Machine
