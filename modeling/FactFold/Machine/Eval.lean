import FactFold.Machine.Builtin
import FactFold.Machine.Grammar
import FactFold.Machine.Methods
import FactFold.Machine.Simplify

/-!
# Evaluating expressions

Formulas evaluate from left to right, and operands before the operation; only the connectives, the
choice and the operator for null leave operands out. An operator opens a buffer about which nothing
is known beforehand. Before an expression runs, its formula is checked and simplified, and its source
is remembered.
-/

namespace FactFold.Machine

/-- Parameters and local variables, the latest first. A name without a value is null. -/
abbrev Env := List (String × Value)

/-- A truth value where one is needed. -/
def asBool : Value → Except Fault Bool
  | .scalar (.bool b) => .ok b
  | _ => .error .misfit

/-- The value of an operand as its operator sees it. -/
def Formula.operand (x : Formula) (v : Value) : Value := if x.static = .any then v.opened else v

/-- Two formulas that compare as integers or as texts, by what is known about both. -/
def sharedType? (x y : Formula) : Option Static :=
  let t := x.static
  if t = y.static && (t = .int || t = .text) then some t else none

/-- The truth value of an equality of two operands. -/
def equality (x y : Formula) (w : World) (a b : Value) : Except Fault Value :=
  match sharedType? x y with
  | some t => equalAs t a b
  | none => binary w .eq a b

/-- Membership of a value in a set of texts, where null stands for the empty text. -/
def isAmongTexts (texts : List Text.Bytes) : Value → Except Fault Value
  | .scalar (.text s) => .ok (.bool (texts.contains s))
  | .null => .ok (.bool (texts.contains []))
  | _ => .error .misfit

/-- Membership of a value in a set of integers, where null stands for zero. -/
def isAmongInts (ns : List Int) : Value → Except Fault Value
  | .scalar (.int .int n) => .ok (.bool (ns.contains n))
  | .null => .ok (.bool (ns.contains 0))
  | _ => .error .misfit

/-- Some of the items of a list or of the bytes of a text. -/
def sliceOf (w : World) (v : Value) (start : Value) (stop : Option Value) : Run Value := do
  let bounds (length : Nat) : Option (Nat × Nat) := do
    let a ← wholeNumber? start
    let b ← (stop.map wholeNumber?).getD (some length)
    let a := if a < 0 then max 0 (a + length) else a
    let b := if b < 0 then b + length else min b length
    if b < 0 then none else pure ((min a b).toNat, b.toNat)
  let cut {α : Type} (items : List α) : Run (List α) :=
    match bounds items.length with
    | some (a, b) => pure ((items.take b).drop a)
    | none => throw .misfit
  match v with
  | .scalar (.text s) => (fun s => .scalar (.text s)) <$> cut s
  | .seq _ items => cut items >>= Run.list
  | .ints k ns => .ints k <$> cut ns
  | .texts ss => .texts <$> cut ss
  | .vector (some ref) => do
    let items ← cut (w.heap.get ref)
    (fun ref => .vector (some ref)) <$> Run.alloc items
  | .doubles ref => do
    let items ← cut (w.heap.get ref)
    .doubles <$> Run.alloc items
  | _ => throw .misfit

/-- A call of one of the evaluator's functions. -/
def routed (natives : Natives) (f : Routed) (args : List Value) : Run Value :=
  match f with
  | .call => invokeOf args
  | .static => staticOf natives args
  | .new => newOf args
  | .convert => convertOf args
  | .quotient => liftM (divideOf args)

mutual

/-- The value of a formula. -/
def eval (natives : Natives) (env : Env) : Formula → Run Value
  | .null => pure .null
  | .bool b => pure (.bool b)
  | .int n => pure (.scalar (.int .int n))
  | .float x => pure (.double x)
  | .text bs => pure (.scalar (.text bs))
  | .oversized => throw .misfit
  | .variable name => pure ((env.lookup name).getD .null)
  | .unbound => pure .null
  | .unary op x => do
    let a ← eval natives env x
    liftM (unary op (x.operand a))
  | .binary .and x y => do
    let a := x.operand (← eval natives env x)
    if ← liftM (asBool a) then y.operand <$> eval natives env y else pure a
  | .binary .or x y => do
    let a := x.operand (← eval natives env x)
    if ← liftM (asBool a) then pure a else y.operand <$> eval natives env y
  | .binary .orElse x y => do
    let a ← eval natives env x
    if countsAsNull a then eval natives env y else pure a
  | .binary .eq x y => do
    let a := x.operand (← eval natives env x)
    let b := y.operand (← eval natives env y)
    liftM (equality x y (← get) a b)
  | .binary .ne x y => do
    let a := x.operand (← eval natives env x)
    let b := y.operand (← eval natives env y)
    let v ← liftM (equality x y (← get) a b)
    liftM (unary .not v)
  | .binary op x y => do
    let a := x.operand (← eval natives env x)
    let b := y.operand (← eval natives env y)
    liftM (binary (← get) op a b)
  | .cond c yes no => do
    let a ← eval natives env c
    if ← liftM (asBool a) then eval natives env yes else eval natives env no
  | .list items => do
    let vs ← evalAll natives env items
    Run.list vs
  | .call f args => do
    let vs ← evalAll natives env args
    routed natives f vs
  | .builtin f args => do
    let vs ← evalAll natives env args
    match builtin? (← get).heap f (vs.map Value.opened) with
    | some v => pure v
    | none => throw .misfit
  | .apply callee args => do
    let _ ← evalAll natives env args
    let _ ← eval natives env callee
    throw .misfit
  | .part x key => do
    let a ← eval natives env x
    let k ← eval natives env key
    match part? (← get).heap a k with
    | some v => pure v
    | none => throw .misfit
  | .slice x start stop => do
    let a ← eval natives env x
    let t ← eval natives env stop
    let s ← eval natives env start
    sliceOf (← get) a s (some t)
  | .tail x start => do
    let a ← eval natives env x
    let s ← eval natives env start
    sliceOf (← get) a s none
  | .truth x => eval natives env x
  | .among x texts => do
    let a := x.operand (← eval natives env x)
    liftM (isAmongTexts texts a)
  | .amongInts x ns => do
    let a := x.operand (← eval natives env x)
    liftM (isAmongInts ns a)

/-- The values of formulas in order. -/
def evalAll (natives : Natives) (env : Env) : List Formula → Run (List Value)
  | [] => pure []
  | x :: rest => do
    let v ← eval natives env x
    let vs ← evalAll natives env rest
    pure (v :: vs)

end

/-- The formula that runs for an expression with the given source, none when it is rejected. -/
def program? (x : Term) (source : String) : Option Formula := do
  let f ← (Formula.ofTerm? x).or (Formula.parse? source)
  if f.isAccepted then pure f.simplify else none

/-- Checks an expression and then evaluates it. -/
def evaluate (natives : Natives) (env : Env) (x : Term) : Run Value := do
  let s ← liftM (source x)
  match program? x s with
  | none => throw (.rejected s)
  | some f =>
    modify fun w => w.remember s
    eval natives env f

end FactFold.Machine
