import FactFold.Proofs.Compiler.Independence
import FactFold.Proofs.Kind.Methods

/-!
# What resolved calls leave behind

Calls are resolved one after the other in one workspace, some of them in vain. What they need is
collected on the way, and exactly the calls that succeed contribute to it: a function with a body the
declaration of the first of its signatures that accepts the arguments, and its imports; a method of
the engine its class, if it has a package (`Invocation.runs`). A call that fails leaves nothing.

Both lists are strictly increasing, so that they are known by their members, and these are the
contributions of the calls that succeed (`collected_exactly`). Whether a call succeeds depends on the
calls before it through the cache alone. With one service the cache gives the same answers from the
first call to the last (`MetadataCache.SameAnswers`), so the order of the calls does not matter.
-/

namespace FactFold

/-! ## The signature taken -/

/-- There are as many parameters as arguments, and each accepts its own. -/
def Signature.Accepts (s : Signature) (types : List DataType) : Prop :=
  List.Forall₂ (fun p t => p.accepts t = true) s.types types

/-- The first signature of the function that accepts the arguments. -/
def CustomFunction.Selects (f : CustomFunction) (types : List DataType) (s : Signature) : Prop :=
  ∃ before after, f.signatures = before ++ s :: after ∧ s.Accepts types ∧
    ∀ t ∈ before, ¬ t.Accepts types

theorem fitsArguments_iff {params args : List DataType} :
    fitsArguments params args = true ↔ List.Forall₂ (fun p t => p.accepts t = true) params args := by
  fun_induction fitsArguments params args with
  | case1 => simp
  | case2 p params a args ih => simp [ih]
  | case3 params args hnil hcons =>
    refine iff_of_false (by simp) fun h => ?_
    cases h with
    | nil => exact hnil rfl rfl
    | cons _ _ => exact hcons _ _ _ _ rfl rfl

theorem CustomFunction.select?_eq_some_iff {f : CustomFunction} {types : List DataType}
    {s : Signature} : f.select? types = some s ↔ f.Selects types s := by
  have hfind : f.select? types = f.signatures.find? fun s => fitsArguments s.types types := by
    rw [select?, matchSignature?, List.findIdx?_map, List.find?_eq_bind_findIdx?_getElem?]
    rfl
  -- the index that is found is only used to look the signature up again
  rw [hfind, List.find?_eq_some_iff_append]
  constructor
  · rintro ⟨haccepts, before, after, hsplit, hbefore⟩
    refine ⟨before, after, hsplit, fitsArguments_iff.1 haccepts, fun t ht h => ?_⟩
    simpa [fitsArguments_iff.2 h] using hbefore t ht
  · rintro ⟨before, after, hsplit, haccepts, hbefore⟩
    refine ⟨fitsArguments_iff.2 haccepts, before, after, hsplit, fun t ht => ?_⟩
    simpa using fun h => hbefore t ht (fitsArguments_iff.1 h)

/-! ## Answers that do not change -/

namespace MetadataCache

variable {service : MetadataService} {c d e : MetadataCache} {cl m : String} {args : List DataType}

/-- The service gives the same answers through both caches, to the questions that are asked. -/
structure SameAnswers (service : MetadataService) (c d : MetadataCache) : Prop where
  signatures : ∀ cl m, PlainMethod m →
    (d.signaturesOf service cl m).1 = (c.signaturesOf service cl m).1
  output : ∀ cl m args, PlainMethod m → (∀ a ∈ args, a ∈ DataType.known) →
    (d.outputOf service cl m args).1 = (c.outputOf service cl m args).1

theorem signaturesOf_fst (c : MetadataCache) (service : MetadataService) (cl m : String) :
    (c.signaturesOf service cl m).1 =
      ((c.signatures.lookup (signatureKey cl m)).map .ok).getD (service.signatures cl m) := by
  unfold signaturesOf
  dsimp only
  cases c.signatures.lookup (signatureKey cl m) with
  | some s => rfl
  | none => cases service.signatures cl m <;> rfl

theorem outputOf_fst (c : MetadataCache) (service : MetadataService) (cl m : String)
    (args : List DataType) :
    (c.outputOf service cl m args).1 =
      ((c.outputs.lookup (outputKey cl m args)).map .ok).getD (service.output cl m args) := by
  unfold outputOf
  dsimp only
  cases c.outputs.lookup (outputKey cl m args) with
  | some t => rfl
  | none => cases service.output cl m args <;> rfl

namespace SameAnswers

theorem trans (h : SameAnswers service c d) (h' : SameAnswers service d e) :
    SameAnswers service c e where
  signatures cl m hm := (h'.signatures cl m hm).trans (h.signatures cl m hm)
  output cl m args hm hargs := (h'.output cl m args hm hargs).trans (h.output cl m args hm hargs)

theorem of_entries (hs : d.signatures = c.signatures) (ho : d.outputs = c.outputs) :
    SameAnswers service c d where
  signatures cl m _ := by rw [signaturesOf_fst, signaturesOf_fst, hs]
  output cl m args _ _ := by rw [outputOf_fst, outputOf_fst, ho]

/-- The signatures that are kept answer the question they were fetched for, as the service did. -/
theorem after_signaturesOf (c : MetadataCache) (service : MetadataService) (cl : String)
    (hm : PlainMethod m) : SameAnswers service c (c.signaturesOf service cl m).2 := by
  obtain ⟨s, -, heq⟩ | ⟨hq, ⟨e, -, heq⟩ | ⟨s, hs, heq⟩⟩ := c.signaturesOf_cases service cl m
  · rw [heq]
    exact .of_entries (by simp) (by simp)
  · rw [heq]
    exact .of_entries (by simp [asking]) (by simp [asking])
  · rw [heq]
    refine ⟨fun cl' m' hm' => ?_, fun cl' m' args _ _ => ?_⟩
    · rw [signaturesOf_fst, signaturesOf_fst]
      simp only [keepSignatures, asking, miss_signatures, List.lookup_cons]
      split
      case h_1 hkey =>
        -- the key tells the question, so the new entry answers what the service was asked
        obtain ⟨rfl, rfl⟩ := signatureKey_injective hm' hm (by simpa using hkey)
        have hnone : c.signatures.lookup (signatureKey cl' m') = none := by
          simpa only [knows, Option.isSome_eq_false_iff, Option.isNone_iff_eq_none] using hq
        rw [hnone, hs]
        rfl
      case h_2 => rfl
    · rw [outputOf_fst, outputOf_fst]
      simp [keepSignatures, asking]

theorem after_outputOf (c : MetadataCache) (service : MetadataService) (cl : String)
    (hm : PlainMethod m) (hargs : ∀ a ∈ args, a ∈ DataType.known) :
    SameAnswers service c (c.outputOf service cl m args).2 := by
  obtain ⟨t, -, heq⟩ | ⟨hq, ⟨e, -, heq⟩ | ⟨t, ht, heq⟩⟩ := c.outputOf_cases service cl m args
  · rw [heq]
    exact .of_entries (by simp) (by simp)
  · rw [heq]
    exact .of_entries (by simp [asking]) (by simp [asking])
  · rw [heq]
    refine ⟨fun cl' m' _ => ?_, fun cl' m' args' hm' hargs' => ?_⟩
    · rw [signaturesOf_fst, signaturesOf_fst]
      simp [keepOutput, asking]
    · rw [outputOf_fst, outputOf_fst]
      simp only [keepOutput, asking, miss_outputs, List.lookup_cons]
      split
      case h_1 hkey =>
        obtain ⟨rfl, rfl, rfl⟩ := outputKey_injective hm' hm hargs' hargs (by simpa using hkey)
        have hnone : c.outputs.lookup (outputKey cl' m' args') = none := by
          simpa only [knows, Option.isSome_eq_false_iff, Option.isNone_iff_eq_none] using hq
        rw [hnone, ht]
        rfl
      case h_2 => rfl

end SameAnswers

end MetadataCache

/-! ## Imports and methods in order -/

namespace Accumulator

theorem methods_addImport (a : Accumulator) (name : String) :
    (a.addImport name).methods = a.methods := by
  unfold addImport
  split_ifs <;> rfl

theorem methods_addImports (a : Accumulator) (names : List String) :
    (a.addImports names).methods = a.methods := by
  unfold addImports
  induction names generalizing a with
  | nil => rfl
  | cons name names ih => rw [List.foldl_cons, ih, methods_addImport]

theorem mem_addImports {a : Accumulator} {names : List String} {s : String} :
    s ∈ (a.addImports names).imports ↔ s ∈ a.imports ∨ s ∈ names ∧ s ≠ "" := by
  unfold addImports
  induction names generalizing a with
  | nil => simp
  | cons name names ih =>
    rw [List.foldl_cons, ih]
    by_cases hname : name = ""
    · -- the empty name is none
      rw [addImport, if_pos hname, List.mem_cons]
      grind
    · rw [mem_addImport hname, List.mem_cons]
      grind

/-- Both lists are strictly increasing. -/
structure Increasing (a : Accumulator) : Prop where
  methods : a.methods.Pairwise (· < ·)
  imports : a.imports.Pairwise (· < ·)

namespace Increasing

variable {a b : Accumulator}

theorem addImport (h : a.Increasing) (name : String) : (a.addImport name).Increasing := by
  unfold Accumulator.addImport
  split_ifs
  · exact h
  · exact ⟨h.methods, pairwise_insertText h.imports⟩

theorem addImports (h : a.Increasing) (names : List String) : (a.addImports names).Increasing := by
  unfold Accumulator.addImports
  induction names generalizing a with
  | nil => exact h
  | cons name names ih => exact ih (h.addImport name)

/-- Increasing lists are known by their members. -/
theorem ext (ha : a.Increasing) (hb : b.Increasing) (hmethods : ∀ t, t ∈ a.methods ↔ t ∈ b.methods)
    (himports : ∀ t, t ∈ a.imports ↔ t ∈ b.imports) : a = b := by
  obtain ⟨imports, methods⟩ := a
  obtain ⟨imports', methods'⟩ := b
  obtain rfl : methods = methods' := ha.methods.eq_of_mem_iff hb.methods hmethods
  obtain rfl : imports = imports' := ha.imports.eq_of_mem_iff hb.imports himports
  rfl

end Increasing

end Accumulator

/-- A class with a package has a name. -/
theorem ExistingFunction.qualifiedClass_ne_empty (f : ExistingFunction) (h : f.package ≠ "") :
    f.qualifiedClass ≠ "" := by
  simp [qualifiedClass, h]

/-! ## One call -/

namespace CallSite

open MetadataCache (PlainMethod SameAnswers)

variable {r : CallSite} {c d : MetadataCache}

/-- Whether a method of the engine is resolved, and the cache afterwards. -/
def verdict (r : CallSite) (c : MetadataCache) : Bool × MetadataCache :=
  match r.signatures c with
  | .error _ => (false, (r.signatureLookup c).after)
  | .ok s =>
    if (matchSignature? s r.types).isNone then (false, (r.signatureLookup c).after)
    else ((r.output c).toOption.any DataType.isKnown, (r.outputLookup c).after)

theorem sameAnswers_signatureLookup (c : MetadataCache) (hm : PlainMethod r.function.method) :
    SameAnswers r.service c (r.signatureLookup c).after :=
  .after_signaturesOf c r.service r.function.qualifiedClass hm

theorem sameAnswers_verdict (c : MetadataCache) (hm : PlainMethod r.function.method) :
    SameAnswers r.service c (r.verdict c).2 := by
  have hfirst := sameAnswers_signatureLookup c hm
  unfold verdict
  split
  · exact hfirst
  · split_ifs with hmatch
    · exact hfirst
    · have hknown := types_known (Bool.eq_false_of_not_eq_true hmatch)
      exact hfirst.trans (.after_outputOf _ r.service r.function.qualifiedClass hm hknown)

/-- The verdict rests on the answers alone. -/
theorem verdict_congr (h : SameAnswers r.service c d) (hm : PlainMethod r.function.method) :
    (r.verdict d).1 = (r.verdict c).1 := by
  have hsignatures : r.signatures d = r.signatures c := h.signatures _ _ hm
  unfold verdict
  rw [hsignatures]
  split
  · rfl
  · split_ifs with hmatch
    · rfl
    · have hknown := types_known (Bool.eq_false_of_not_eq_true hmatch)
      have houtput : ∀ c, r.output c = (c.outputOf r.service r.function.qualifiedClass
          r.function.method r.types).1 := fun c =>
        (sameAnswers_signatureLookup c hm).output _ _ _ hm hknown
      show (r.output d).toOption.any _ = (r.output c).toOption.any _
      rw [houtput, houtput, h.output _ _ _ hm hknown]

end CallSite

/-- A call to be resolved, with the service there is at that moment. -/
structure Invocation where
  service : Option MetadataService
  function : Function
  args : List TypedTerm

namespace Invocation

/-- The types a call is resolved for. -/
def types (r : Invocation) : List DataType := r.args.map TypedTerm.type

/-- Resolves a call in a workspace. -/
def resolve (r : Invocation) (ws : Workspace) : Except Failure TypedTerm × Workspace :=
  (r.function.resolve r.service r.args).runIn ws

/-- Whether a call succeeds, and the cache afterwards. -/
def verdict (r : Invocation) (c : MetadataCache) : Bool × MetadataCache :=
  match r.function, r.service with
  | .custom f, _ => ((f.select? r.types).isSome, c)
  | .existing f, some service => CallSite.verdict ⟨service, f, r.args, {}⟩ c
  | .existing _, none | .foreign _, _ => (false, c)

/-- What a call that succeeds adds. -/
def gain (r : Invocation) (a : Accumulator) : Accumulator :=
  match r.function with
  | .custom f =>
    let a := a.addImports f.imports
    match f.select? r.types with
    | some s => a.addMethod (f.declaration s).text
    | none => a
  | .existing f => if f.package ≠ "" then a.addImport f.qualifiedClass else a
  | .foreign _ => a

/-- The call succeeds by its verdict, leaves the cache of the verdict, and adds its gain exactly when
it succeeds. -/
structure Runs (r : Invocation) (ws : Workspace) : Prop where
  isOk : (r.resolve ws).1.isOk = (r.verdict ws.cache).1
  cache : (r.resolve ws).2.cache = (r.verdict ws.cache).2
  accumulator : (r.resolve ws).2.accumulator =
    if (r.verdict ws.cache).1 then r.gain ws.accumulator else ws.accumulator

namespace Runs

variable {r : Invocation} {ws : Workspace} {c : MetadataCache}

theorem of_error (hverdict : r.verdict ws.cache = (false, c))
    (h : ∃ e v, r.resolve ws = (.error e, v) ∧ v.cache = c ∧ v.accumulator = ws.accumulator) :
    r.Runs ws := by
  obtain ⟨e, v, hrun, rfl, ha⟩ := h
  constructor
  all_goals rw [hrun, hverdict]
  · rfl
  · exact ha

theorem of_ok (hverdict : r.verdict ws.cache = (true, c))
    (h : ∃ x v, r.resolve ws = (.ok x, v) ∧ v.cache = c ∧ v.accumulator = r.gain ws.accumulator) :
    r.Runs ws := by
  obtain ⟨x, v, hrun, rfl, ha⟩ := h
  constructor
  all_goals rw [hrun, hverdict]
  · rfl
  · exact ha

end Runs

theorem runs_custom {r : Invocation} {f : CustomFunction} (hf : r.function = .custom f)
    (ws : Workspace) : r.Runs ws := by
  obtain ⟨service, _, args⟩ := r
  obtain rfl := hf
  cases hs : f.select? (args.map TypedTerm.type) with
  | none =>
    refine .of_error (c := ws.cache) (by simp [verdict, types, hs]) ?_
    simp only [resolve, Function.resolve, Resolution.custom, hs]
    exact ⟨_, _, rfl, rfl, rfl⟩
  | some s =>
    refine .of_ok (c := ws.cache) (by simp [verdict, types, hs]) ?_
    simp only [resolve, gain, types, Function.resolve, Resolution.custom, hs]
    exact ⟨_, _, rfl, rfl, rfl⟩

theorem runs_existing {r : Invocation} {f : ExistingFunction} {service : MetadataService}
    (hf : r.function = .existing f) (hservice : r.service = some service) (ws : Workspace) :
    r.Runs ws := by
  obtain ⟨_, _, args⟩ := r
  obtain rfl := hf
  obtain rfl := hservice
  -- the two questions and their answers, as they stand in the steps and in the verdict
  obtain ⟨asked, hasked⟩ : ∃ x, x = ws.cache.signaturesOf service f.qualifiedClass f.method :=
    ⟨_, rfl⟩
  obtain ⟨told, htold⟩ : ∃ x, x =
      asked.2.outputOf service f.qualifiedClass f.method (args.map TypedTerm.type) := ⟨_, rfl⟩
  have hverdict : verdict ⟨some service, .existing f, args⟩ ws.cache =
      match asked.1 with
      | .error _ => (false, asked.2)
      | .ok s =>
        if (matchSignature? s (args.map TypedTerm.type)).isNone then (false, asked.2)
        else (told.1.toOption.any DataType.isKnown, told.2) := by
    subst htold hasked
    rfl
  have hrun := Eq.refl (resolve ⟨some service, .existing f, args⟩ ws)
  conv at hrun =>
    rhs
    simp only [resolve, Function.resolve, Resolution.existing, Compile.runIn_bind,
      Compile.runIn_ask, ← hasked]
  obtain ⟨cause | signatures, c⟩ := asked
  · exact .of_error hverdict ⟨_, _, hrun, rfl, rfl⟩
  dsimp only at hverdict hrun htold
  split_ifs at hverdict with hmatch
  · rw [if_pos hmatch] at hrun
    exact .of_error hverdict ⟨_, _, hrun, rfl, rfl⟩
  rw [if_neg hmatch, Compile.runIn_bind, Compile.runIn_ask, ← htold] at hrun
  obtain ⟨cause | output, d⟩ := told
  · exact .of_error hverdict ⟨_, _, hrun, rfl, rfl⟩
  dsimp only [Except.toOption, Option.any_some] at hverdict hrun
  cases hknown : output.isKnown with
  | false =>
    rw [hknown] at hverdict hrun
    exact .of_error hverdict ⟨_, _, hrun, rfl, rfl⟩
  | true =>
    rw [hknown] at hverdict hrun
    rw [if_neg (by decide)] at hrun
    -- the class is imported when it has a package
    by_cases hpackage : f.package ≠ ""
    · rw [if_pos hpackage] at hrun
      exact .of_ok hverdict ⟨_, _, hrun, rfl, by simp [gain, hpackage]⟩
    · rw [if_neg hpackage] at hrun
      exact .of_ok hverdict ⟨_, _, hrun, rfl, by simp [gain, hpackage]⟩

/-- **What a call does**, whatever its function is. -/
theorem runs (r : Invocation) (ws : Workspace) : r.Runs ws := by
  cases hf : r.function with
  | custom f => exact runs_custom hf ws
  | existing f =>
    cases hservice : r.service with
    | none =>
      obtain ⟨_, _, args⟩ := r
      obtain rfl := hf
      obtain rfl := hservice
      exact ⟨rfl, rfl, rfl⟩
    | some service => exact runs_existing hf hservice ws
  | foreign f =>
    obtain ⟨service, _, args⟩ := r
    obtain rfl := hf
    exact ⟨rfl, rfl, rfl⟩

open MetadataCache (SameAnswers)

variable {r : Invocation} {c d : MetadataCache}

/-- A call leaves a cache that answers as the one it finds. -/
theorem sameAnswers_verdict (r : Invocation) (hplain : r.function.IsPlain) :
    ∀ s ∈ r.service, SameAnswers s c (r.verdict c).2 := by
  obtain ⟨service, function, args⟩ := r
  rintro s rfl
  cases function with
  | custom f => exact .of_entries rfl rfl
  | existing f => exact CallSite.sameAnswers_verdict (r := ⟨s, f, args, {}⟩) c hplain
  | foreign f => exact .of_entries rfl rfl

theorem verdict_congr (r : Invocation) (hplain : r.function.IsPlain)
    (h : ∀ s ∈ r.service, SameAnswers s c d) : (r.verdict d).1 = (r.verdict c).1 := by
  obtain ⟨service, function, args⟩ := r
  cases function with
  | custom f => rfl
  | existing f =>
    cases service with
    | none => rfl
    | some s => exact CallSite.verdict_congr (h s rfl) hplain
  | foreign f => rfl

/-- A function with a body is resolved when one of its signatures accepts the arguments. -/
theorem isOk_custom {f : CustomFunction} (hf : r.function = .custom f) (ws : Workspace) :
    (r.resolve ws).1.isOk = true ↔ ∃ s, f.Selects r.types s := by
  rw [(r.runs ws).isOk, verdict, hf]
  simp only [Option.isSome_iff_exists, CustomFunction.select?_eq_some_iff]

/-- A call that fails adds nothing. -/
theorem accumulator_of_error {ws : Workspace} {e : Failure} (h : (r.resolve ws).1 = .error e) :
    (r.resolve ws).2.accumulator = ws.accumulator := by
  have hfails : (r.verdict ws.cache).1 = false := by
    rw [← (r.runs ws).isOk, h]
    rfl
  rw [(r.runs ws).accumulator, hfails, if_neg (by decide)]

/-! ## What a call adds -/

/-- The call adds this declaration when it succeeds. -/
def Declares (r : Invocation) (text : String) : Prop :=
  ∃ f s, r.function = .custom f ∧ f.Selects r.types s ∧ text = (f.declaration s).text

/-- The call adds this import when it succeeds. -/
def Requires (r : Invocation) (name : String) : Prop :=
  (∃ f, r.function = .custom f ∧ name ∈ f.imports ∧ name ≠ "") ∨
    ∃ f, r.function = .existing f ∧ f.package ≠ "" ∧ name = f.qualifiedClass

theorem mem_gain_methods {r : Invocation} {a : Accumulator} {text : String} :
    text ∈ (r.gain a).methods ↔ text ∈ a.methods ∨ r.Declares text := by
  unfold gain Declares
  cases r.function with
  | custom f =>
    dsimp only
    cases hs : f.select? r.types with
    | none =>
      have hnone : ∀ s, ¬ f.Selects r.types s := fun s h => by
        simp [CustomFunction.select?_eq_some_iff.2 h] at hs
      simp [Accumulator.methods_addImports, hnone]
    | some s =>
      have hsome : ∀ t, f.Selects r.types t ↔ t = s := fun t => by
        rw [← CustomFunction.select?_eq_some_iff, hs, Option.some.injEq, eq_comm]
      simp [Accumulator.addMethod, mem_insertText, Accumulator.methods_addImports, hsome, or_comm]
  | existing f =>
    dsimp only
    split_ifs <;> simp [Accumulator.methods_addImport]
  | foreign f => simp

theorem mem_gain_imports {r : Invocation} {a : Accumulator} {name : String} :
    name ∈ (r.gain a).imports ↔ name ∈ a.imports ∨ r.Requires name := by
  unfold gain Requires
  cases r.function with
  | custom f =>
    dsimp only
    cases hs : f.select? r.types with
    | none => simp [Accumulator.mem_addImports]
    | some s => simp [Accumulator.addMethod, Accumulator.mem_addImports]
  | existing f =>
    dsimp only
    split_ifs with hpackage
    · simp [mem_addImport (f.qualifiedClass_ne_empty hpackage), hpackage]
    · simp [hpackage]
  | foreign f => simp

theorem increasing_gain {a : Accumulator} (h : a.Increasing) (r : Invocation) :
    (r.gain a).Increasing := by
  unfold gain
  split
  · have himports := h.addImports
    dsimp only
    split
    · exact ⟨pairwise_insertText (himports _).methods, (himports _).imports⟩
    · exact himports _
  · split_ifs
    · exact h.addImport _
    · exact h
  · exact h

end Invocation

/-! ## Calls one after the other -/

/-- Resolves calls in order, whether they succeed or fail. -/
def collect (ws : Workspace) (calls : List Invocation) : Workspace :=
  calls.foldl (fun ws r => (r.resolve ws).2) ws

/-- The calls that succeed when they are resolved in order. -/
def succeeded (ws : Workspace) : List Invocation → List Invocation
  | [] => []
  | r :: rest =>
    if (r.resolve ws).1.isOk then r :: succeeded (r.resolve ws).2 rest
    else succeeded (r.resolve ws).2 rest

variable {ws : Workspace} {calls : List Invocation}

/-- What is collected is what the calls that succeed add, one after the other. -/
theorem collect_accumulator (ws : Workspace) (calls : List Invocation) :
    (collect ws calls).accumulator =
      (succeeded ws calls).foldl (fun a r => r.gain a) ws.accumulator := by
  induction calls generalizing ws with
  | nil => rfl
  | cons r rest ih =>
    obtain ⟨hok, -, hacc⟩ := r.runs ws
    show (collect (r.resolve ws).2 rest).accumulator = _
    rw [ih, hacc, succeeded, hok]
    split_ifs
    · rfl
    · rfl

theorem increasing_collect (h : ws.accumulator.Increasing) :
    (collect ws calls).accumulator.Increasing := by
  rw [collect_accumulator]
  generalize ws.accumulator = a at h
  induction succeeded ws calls generalizing a with
  | nil => exact h
  | cons r rest ih => exact ih _ (r.increasing_gain h)

/-- What every gain adds to, the gains of several calls add to. -/
theorem foldl_gain_iff {P : Accumulator → Prop} {Q : Invocation → Prop}
    (hgain : ∀ r a, P (Invocation.gain r a) ↔ P a ∨ Q r) (calls : List Invocation)
    (a : Accumulator) :
    P (calls.foldl (fun a r => r.gain a) a) ↔ P a ∨ ∃ r ∈ calls, Q r := by
  induction calls generalizing a with
  | nil => simp
  | cons r rest ih =>
    rw [List.foldl_cons, ih, hgain, or_assoc]
    simp

theorem mem_collect_methods {text : String} :
    text ∈ (collect ws calls).accumulator.methods ↔
      text ∈ ws.accumulator.methods ∨ ∃ r ∈ succeeded ws calls, r.Declares text := by
  rw [collect_accumulator]
  exact foldl_gain_iff (P := fun a => text ∈ a.methods) (fun r a => r.mem_gain_methods) _ _

theorem mem_collect_imports {name : String} :
    name ∈ (collect ws calls).accumulator.imports ↔
      name ∈ ws.accumulator.imports ∨ ∃ r ∈ succeeded ws calls, r.Requires name := by
  rw [collect_accumulator]
  exact foldl_gain_iff (P := fun a => name ∈ a.imports) (fun r a => r.mem_gain_imports) _ _

/-! ## The order of the calls -/

/-- With one service, the answers that there are at the beginning decide which calls succeed. -/
theorem mem_succeeded {service : Option MetadataService} {c : MetadataCache}
    (hanswers : ∀ s ∈ service, MetadataCache.SameAnswers s c ws.cache)
    (hcalls : ∀ r ∈ calls, r.service = service ∧ r.function.IsPlain) {r : Invocation} :
    r ∈ succeeded ws calls ↔ r ∈ calls ∧ (r.verdict c).1 = true := by
  induction calls generalizing ws with
  | nil => simp [succeeded]
  | cons q rest ih =>
    obtain ⟨⟨hservice, hplain⟩, hrest⟩ := List.forall_mem_cons.1 hcalls
    obtain ⟨hok, hcache, -⟩ := q.runs ws
    have hafter : ∀ s ∈ service, MetadataCache.SameAnswers s c (q.resolve ws).2.cache := by
      intro s hs
      rw [hcache]
      exact (hanswers s hs).trans (q.sameAnswers_verdict hplain s (hservice ▸ hs))
    -- whatever the calls before it have put into the cache, the verdict is that of the first cache
    have hverdict : (q.verdict ws.cache).1 = (q.verdict c).1 :=
      q.verdict_congr hplain fun s hs => hanswers s (hservice ▸ hs)
    rw [succeeded, hok, hverdict]
    split_ifs with hq
    · rw [List.mem_cons, ih hafter hrest]
      grind
    · rw [ih hafter hrest]
      grind

/-- **What is collected, exactly.** Calls of any functions are resolved one after the other, with any
cache, any services and nothing collected at the beginning. The methods are the declarations of the
functions with a body that were resolved, each for the first of its signatures that accepts the
arguments, and the imports are those of these functions and the classes of the engine's methods that
were resolved; both are in strictly increasing order. A call that fails leaves them unchanged. The
order of the calls does not matter when they have one service and the names of the engine's methods
can stand in keys. -/
theorem collected_exactly (c : MetadataCache) (events : List Log.Event) (calls : List Invocation) :
    let start : Workspace := { cache := c, events := events }
    let collected := (collect start calls).accumulator
    collected.methods.Pairwise (· < ·) ∧
    (∀ text, text ∈ collected.methods ↔ ∃ r ∈ succeeded start calls, r.Declares text) ∧
    collected.imports.Pairwise (· < ·) ∧
    (∀ name, name ∈ collected.imports ↔ ∃ r ∈ succeeded start calls, r.Requires name) ∧
    (∀ (r : Invocation) ws f, r.function = .custom f →
      ((r.resolve ws).1.isOk = true ↔ ∃ s, f.Selects r.types s)) ∧
    (∀ (r : Invocation) ws e, (r.resolve ws).1 = .error e →
      (r.resolve ws).2.accumulator = ws.accumulator) ∧
    (∀ service, (∀ r ∈ calls, r.service = service ∧ r.function.IsPlain) →
      ∀ reordered, reordered.Perm calls → (collect start reordered).accumulator = collected) := by
  intro start collected
  have hincreasing : ∀ calls, (collect start calls).accumulator.Increasing := fun calls =>
    increasing_collect ⟨.nil, .nil⟩
  have hmethods : ∀ calls text, text ∈ (collect start calls).accumulator.methods ↔
      ∃ r ∈ succeeded start calls, r.Declares text := fun calls text => by
    simp [mem_collect_methods, start]
  have himports : ∀ calls name, name ∈ (collect start calls).accumulator.imports ↔
      ∃ r ∈ succeeded start calls, r.Requires name := fun calls name => by
    simp [mem_collect_imports, start]
  refine ⟨(hincreasing calls).methods, hmethods calls, (hincreasing calls).imports, himports calls,
    fun r ws f hf => r.isOk_custom hf ws, fun r ws e h => r.accumulator_of_error h, ?_⟩
  intro service hcalls reordered hperm
  -- the same calls succeed in both orders
  have hsame : ∀ r, r ∈ succeeded start reordered ↔ r ∈ succeeded start calls := by
    intro r
    have hstart : ∀ s ∈ service, MetadataCache.SameAnswers s c start.cache :=
      fun s _ => .of_entries rfl rfl
    have hcalls' : ∀ r ∈ reordered, r.service = service ∧ r.function.IsPlain :=
      fun r hr => hcalls r (hperm.mem_iff.1 hr)
    rw [mem_succeeded hstart hcalls', mem_succeeded hstart hcalls, hperm.mem_iff]
  refine (hincreasing reordered).ext (hincreasing calls) (fun text => ?_) fun name => ?_
  · simp only [collected, hmethods, hsame]
  · simp only [collected, himports, hsame]

/-- Two calls that succeed and two that fail, in one direction and in the other. The function is
declared for the second of its signatures, since the first accepts no double. -/
theorem collected_exactly_reordered :
    let service : MetadataService := ⟨fun _ _ => .ok [[.scalar .double]], fun _ _ _ => .ok .boolean⟩
    let half : CustomFunction := ⟨"half", "half_1", [[⟨"n", .scalar .int⟩], [⟨"x", .scalar .double⟩]],
      "return x / 2;", .scalar .double, ["java.util.List", ""]⟩
    let call (f : Function) (types : List DataType) : Invocation :=
      ⟨some service, f, types.map (⟨.ident "a", ·⟩)⟩
    let calls : List Invocation :=
      [call (.custom half) [], call (.custom half) [.scalar .double],
        call (.foreign ⟨"g", "test"⟩) [],
        call (.existing ⟨"Checks", "holds", "engine"⟩) [.scalar .int]]
    (collect {} calls.reverse).accumulator = (collect {} calls).accumulator ∧
      (half.declaration [⟨"x", .scalar .double⟩]).text ∈ (collect {} calls).accumulator.methods ∧
      "engine.Checks" ∈ (collect {} calls).accumulator.imports := by
  intro service half call calls
  have h := collected_exactly {} [] calls
  have hdone : succeeded {} calls = [call (.custom half) [.scalar .double],
    call (.existing ⟨"Checks", "holds", "engine"⟩) [.scalar .int]] := rfl
  refine ⟨h.2.2.2.2.2.2 (some service) ?_ calls.reverse calls.reverse_perm, (h.2.1 _).2 ?_,
    (h.2.2.2.1 _).2 ?_⟩
  · have hservice : ∀ r ∈ calls, r.service = some service := by simp [calls, call]
    have hplain : ∀ r ∈ calls, r.function.IsPlain := by decide
    exact fun r hr => ⟨hservice r hr, hplain r hr⟩
  · rw [hdone]
    exact ⟨_, List.mem_cons_self, half, _, rfl, CustomFunction.select?_eq_some_iff.1 rfl, rfl⟩
  · rw [hdone]
    exact ⟨_, List.mem_cons_of_mem _ List.mem_cons_self, .inr ⟨_, rfl, by decide, rfl⟩⟩

end FactFold
