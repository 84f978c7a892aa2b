import FactFold.Failure
import FactFold.Function.Metadata
import FactFold.Kind.Table

/-!
# Metrics

A compiler counts its distillations by kind and by outcome, and the questions its metadata cache
could and could not answer. A failure counts under its category when it has one.
-/

namespace FactFold

/-- How a distillation ended. -/
inductive Outcome where
  | success
  | failed (category : Category)
  /-- A failure without a category. -/
  | error
  deriving Repr, DecidableEq

namespace Outcome

/-- The label under which an outcome is counted. -/
def label : Outcome → String
  | .success => "success"
  | .failed category => category.name
  | .error => "error"

/-- The outcome of a failure. -/
def ofFailure (f : Failure) : Outcome :=
  match f.report.category? with
  | some (category, _) => .failed category
  | none => .error

/-- The outcome of a result. -/
def ofResult {α : Type} : Except Failure α → Outcome
  | .ok _ => .success
  | .error f => ofFailure f

end Outcome

/-- The distillations so far: the kind of each with the label of its outcome. -/
structure Metrics where
  observed : List (String × String) := []
  deriving Repr, DecidableEq

namespace Metrics

/-- Counts a distillation. -/
def observe (m : Metrics) (kind : String) (outcome : Outcome) : Metrics :=
  ⟨m.observed ++ [(kind, outcome.label)]⟩

/-- How many distillations of a kind there were. -/
def durations (m : Metrics) (kind : String) : Nat := m.observed.countP fun o => o.1 = kind

/-- How many distillations of a kind ended under a label. -/
def distillations (m : Metrics) (kind label : String) : Nat := m.observed.count (kind, label)

/-- A sample: the name of the quantity, its labels and its value. -/
def sampleText (name labels : String) (value : Nat) : String :=
  name ++ "\x7b" ++ labels ++ "\x7d " ++ Number.decimal value

/-- All samples in increasing order, with the counts of a cache. -/
def samples (m : Metrics) (cache : MetadataCache) : List String :=
  let byKind := m.observed.map fun o =>
    sampleText "udaf_distillation_duration_seconds" ("kind=" ++ o.1) (m.durations o.1)
  let byOutcome := m.observed.map fun o =>
    sampleText "udaf_distillations_total" ("kind=" ++ o.1 ++ ",outcome=" ++ o.2)
      (m.distillations o.1 o.2)
  let ofCache :=
    [sampleText "udaf_metadata_cache_hits_total" "" cache.hits,
     sampleText "udaf_metadata_cache_misses_total" "" cache.misses]
  (byKind ++ byOutcome ++ ofCache).foldl (fun l s => insertText s l) []

end Metrics

end FactFold
