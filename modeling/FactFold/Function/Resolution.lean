import FactFold.Code.Printer
import FactFold.Failure
import FactFold.Function.Accumulator
import FactFold.Function.Metadata
import FactFold.Log.Logger

/-!
# Resolving calls

A call is resolved against the types of its arguments: a function with a body by its own signatures,
a method of the engine by those the metadata service tells. Resolving adds the imports and the method
declarations the call needs, and keeps a record of what was done. All of this lives in a workspace,
which keeps what it has also when the compilation fails.
-/

namespace FactFold

/-- What a compilation works on besides its input. -/
structure Workspace where
  accumulator : Accumulator := {}
  cache : MetadataCache := {}
  /-- Messages so far, the first first. -/
  events : List Log.Event := []

/-- A compilation step. -/
abbrev Compile := ExceptT Failure (StateM Workspace)

namespace Compile

/-- Runs a step in a workspace. -/
def runIn {α : Type} (step : Compile α) (w : Workspace) : Except Failure α × Workspace :=
  StateT.run (ExceptT.run step) w

/-- Adds to the imports and methods. -/
def accumulate (f : Accumulator → Accumulator) : Compile Unit :=
  modify fun w => { w with accumulator := f w.accumulator }

/-- Notes a message. -/
def note (level : Log.Level) (template : String) (args : List Log.Arg) : Compile Unit :=
  modify fun w => { w with events := w.events ++ [⟨level, template, args⟩] }

/-- Asks the cache. -/
def ask {α : Type} (question : MetadataCache → Except String α × MetadataCache) :
    Compile (Except String α) :=
  modifyGet fun w =>
    let (answer, cache) := question w.cache
    (answer, { w with cache := cache })

end Compile

/-- The code of an argument with its type. -/
structure TypedTerm where
  code : Term
  type : DataType

/-- The method that carries a function's body for one of its signatures. -/
def CustomFunction.declaration (f : CustomFunction) (s : Signature) : Routine :=
  { returns := f.output.sourceName
    name := f.method
    params := s.map fun p => ⟨p.type.sourceName, p.name⟩
    body := [.raw f.body] }

/-- The signature of a function taken for argument types. -/
def CustomFunction.select? (f : CustomFunction) (args : List DataType) : Option Signature :=
  (matchSignature? (f.signatures.map Signature.types) args).bind fun i => f.signatures[i]?

namespace Resolution

/-- Several types between brackets, as a message argument. -/
def typesArg (ts : List DataType) : Log.Arg :=
  .list "[]types.DataType" (some (ts.map fun t => .ofNamed "types.DataType" t.name))

/-- A call of a function with a body. -/
def custom (f : CustomFunction) (args : List TypedTerm) : Compile TypedTerm := do
  let types := args.map TypedTerm.type
  match f.select? types with
  | none => throw (.noSignature f.name types)
  | some s =>
    Compile.accumulate fun a => (a.addImports f.imports).addMethod (f.declaration s).text
    Compile.note .debug "resolved %s%s as %s"
      [.ofText f.name, .shown "functions.Signature" s.text, .ofText f.method]
    pure ⟨.call f.method (args.map TypedTerm.code), f.output⟩

/-- What the service is asked about a method, when an answer fails to come. -/
def failedToFetch (what : String) (f : ExistingFunction) (cause : String) : Compile TypedTerm := do
  Compile.note .error ("fetching " ++ what ++ " of %s.%s: %v")
    [.ofText f.qualifiedClass, .ofText f.method, .shown "*errors.errorString" cause]
  throw (.transport ("fetching " ++ what ++ " of " ++ f.qualifiedClass ++ "." ++ f.method) cause)

/-- The cause reported when there is no service to ask. -/
def noService : String := "no metadata service configured"

/-- A call of a method of the engine. -/
def existing (service : Option MetadataService) (f : ExistingFunction) (args : List TypedTerm) :
    Compile TypedTerm := do
  let types := args.map TypedTerm.type
  match service with
  | none => throw (.transport ("cannot resolve " ++ f.call) noService)
  | some service =>
    match ← Compile.ask fun c => c.signaturesOf service f.qualifiedClass f.method with
    | .error cause => failedToFetch "signatures" f cause
    | .ok signatures =>
      if (matchSignature? signatures types).isNone then throw (.noSignature f.call types)
      else
        match ← Compile.ask fun c => c.outputOf service f.qualifiedClass f.method types with
        | .error cause => failedToFetch "output type" f cause
        | .ok output =>
          if !output.isKnown then throw (.outputWithoutTemplate f.call output)
          else
            if f.package ≠ "" then
              Compile.accumulate fun a => a.addImport f.qualifiedClass
            Compile.note .debug "resolved %s%v -> %s"
              [.ofText f.call, typesArg types, .ofNamed "types.DataType" output.name]
            pure ⟨.call f.call (args.map TypedTerm.code), output⟩

end Resolution

/-- The code and the type of a call. -/
def Function.resolve (service : Option MetadataService) (f : Function) (args : List TypedTerm) :
    Compile TypedTerm :=
  match f with
  | .custom f => Resolution.custom f args
  | .existing f => Resolution.existing service f args
  | .foreign f => throw (.foreignFunction f.implementation)

end FactFold
