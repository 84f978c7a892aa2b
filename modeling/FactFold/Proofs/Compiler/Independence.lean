import FactFold.Compiler.Basic
import FactFold.Proofs.Expr.Taken
import FactFold.Proofs.Lowering.Steps

/-!
# Calls of one compiler do not influence each other

A compiler keeps three things from one call to the next: its functions, which calls only read, the
cache of metadata, and the counts. Every call begins with nothing collected. So what a call returns
could depend on earlier calls by way of the cache alone, and it does not: as long as the entries of a
cache are answers of the service (`MetadataCache.Sound`), asking it is asking the service.

That is a relation between two runs. `Compile.Independent` says that a step which is run in two
workspaces with sound caches, alike in everything else, ends alike; it holds of each sort of step, so
of every lowering and every distillation. The calls of a history then find sound caches one after the
other, and each of them returns what it returns to a compiler that has not been called before
(`calls_independent`).
-/

namespace FactFold

/-! ## Asking a sound cache -/

theorem MetadataService.AnswersAs.refl (s : MetadataService) : s.AnswersAs s :=
  ⟨fun _ _ _ h => h, fun _ _ _ _ h => h⟩

namespace MetadataCache.Sound

variable {c : MetadataCache} {service : MetadataService} {m : String}

/-- A sound cache answers for the service, a failure included, and stays sound. -/
theorem signaturesOf_eq (h : c.Sound service) (cl : String) (hm : PlainMethod m) :
    (c.signaturesOf service cl m).1 = service.signatures cl m ∧
      (c.signaturesOf service cl m).2.Sound service := by
  refine ⟨?_, (h.signaturesOf (.refl service) cl hm).1⟩
  obtain ⟨x, hx, heq⟩ | ⟨-, ⟨e, he, heq⟩ | ⟨x, hx, heq⟩⟩ := c.signaturesOf_cases service cl m
  · rw [heq, h.signatures cl m x hm hx]
  · rw [heq, he]
  · rw [heq, hx]

theorem outputOf_eq (h : c.Sound service) (cl : String) (hm : PlainMethod m)
    {args : List DataType} (hargs : ∀ a ∈ args, a ∈ DataType.known) :
    (c.outputOf service cl m args).1 = service.output cl m args ∧
      (c.outputOf service cl m args).2.Sound service := by
  refine ⟨?_, (h.outputOf (.refl service) cl hm hargs).1⟩
  obtain ⟨t, ht, heq⟩ | ⟨-, ⟨e, he, heq⟩ | ⟨t, ht, heq⟩⟩ := c.outputOf_cases service cl m args
  · rw [heq, h.output cl m args t hm hargs ht]
  · rw [heq, he]
  · rw [heq, ht]

end MetadataCache.Sound

/-- The cache is sound for the service, if there is one. -/
def MetadataCache.SoundFor (c : MetadataCache) (service : Option MetadataService) : Prop :=
  ∀ s ∈ service, c.Sound s

theorem MetadataCache.soundFor_some {c : MetadataCache} {s : MetadataService} :
    c.SoundFor (some s) ↔ c.Sound s := by
  simp [SoundFor]

/-- Two workspaces that differ in nothing but what their caches know, and both of these are sound. -/
structure Workspace.Similar (service : Option MetadataService) (w v : Workspace) : Prop where
  accumulator : w.accumulator = v.accumulator
  events : w.events = v.events
  first : w.cache.SoundFor service
  second : v.cache.SoundFor service

/-! ## Steps that end alike -/

namespace Compile

/-- The step ends alike in workspaces that differ in their caches alone. -/
def Independent (service : Option MetadataService) {α : Type} (x : Compile α) : Prop :=
  ∀ ⦃w v : Workspace⦄, w.Similar service v →
    (x.runIn w).1 = (x.runIn v).1 ∧ (x.runIn w).2.Similar service (x.runIn v).2

namespace Independent

variable {α β : Type} {service : Option MetadataService}

theorem pure (a : α) : Independent service (pure a : Compile α) := fun _ _ h => ⟨rfl, h⟩

theorem throw (e : Failure) : Independent service (throw e : Compile α) := fun _ _ h => ⟨rfl, h⟩

theorem bind {x : Compile α} {k : α → Compile β} (hx : Independent service x)
    (hk : ∀ a, Independent service (k a)) : Independent service (x >>= k) := by
  intro w v h
  obtain ⟨hresult, hsimilar⟩ := hx h
  rw [runIn_bind, runIn_bind]
  rcases hw : x.runIn w with ⟨r, w'⟩
  rcases hv : x.runIn v with ⟨r', v'⟩
  rw [hw, hv] at hresult hsimilar
  obtain rfl : r = r' := hresult
  cases r with
  | error e => exact ⟨rfl, hsimilar⟩
  | ok a => exact hk a hsimilar

theorem sequential : Sequential fun {α} x => @Independent service α x :=
  ⟨fun a => .pure a, fun e => .throw e, fun hx hk => hx.bind hk⟩

theorem accumulate (f : Accumulator → Accumulator) : Independent service (accumulate f) := by
  intro w v h
  refine ⟨rfl, ?_, h.events, h.first, h.second⟩
  show f w.accumulator = f v.accumulator
  rw [h.accumulator]

theorem note (level : Log.Level) (template : String) (args : List Log.Arg) :
    Independent service (note level template args) := by
  intro w v h
  refine ⟨rfl, h.accumulator, ?_, h.first, h.second⟩
  show w.events ++ _ = v.events ++ _
  rw [h.events]

/-- Asking ends alike when every sound cache gives the same answer and stays sound. -/
theorem ask {question : MetadataCache → Except String α × MetadataCache} {answer : Except String α}
    (hquestion : ∀ c : MetadataCache, c.SoundFor service →
      (question c).1 = answer ∧ (question c).2.SoundFor service) :
    Independent service (ask question) := by
  intro w v h
  obtain ⟨hw, hfirst⟩ := hquestion w.cache h.first
  obtain ⟨hv, hsecond⟩ := hquestion v.cache h.second
  refine ⟨?_, h.accumulator, h.events, hfirst, hsecond⟩
  simp only [runIn_ask, hw, hv]

/-- A look at the workspace tells what is collected. -/
theorem get_bind {k : Accumulator → Compile β} (hk : ∀ a, Independent service (k a)) :
    Independent service (get >>= fun w => k w.accumulator) := by
  intro w v h
  rw [runIn_bind, runIn_bind, runIn_get, runIn_get]
  dsimp only
  rw [h.accumulator]
  exact hk _ h

end Independent

end Compile

open Compile (Independent)

/-! ## Resolving, lowering and distilling -/

/-- A method of the engine has a name that keys can hold. -/
def Function.IsPlain : Function → Prop
  | .existing f => MetadataCache.PlainMethod f.method
  | _ => True

instance (f : Function) : Decidable f.IsPlain :=
  match f with
  | .existing f => inferInstanceAs (Decidable (MetadataCache.PlainMethod f.method))
  | .custom _ => isTrue trivial
  | .foreign _ => isTrue trivial

theorem resolve_existing_independent {service : MetadataService} {f : ExistingFunction}
    (hf : MetadataCache.PlainMethod f.method) (args : List TypedTerm) :
    Independent (some service) (Resolution.existing (some service) f args) := by
  have hfailed : ∀ what cause,
      Independent (some service) (Resolution.failedToFetch what f cause) :=
    fun _ _ => (Independent.note ..).bind fun _ => .throw _
  unfold Resolution.existing
  have hsignatures : ∀ c : MetadataCache, c.SoundFor (some service) →
      (c.signaturesOf service f.qualifiedClass f.method).1 =
        service.signatures f.qualifiedClass f.method ∧
      (c.signaturesOf service f.qualifiedClass f.method).2.SoundFor (some service) := by
    intro c hc
    rw [MetadataCache.soundFor_some] at hc ⊢
    exact hc.signaturesOf_eq f.qualifiedClass hf
  refine (Independent.ask hsignatures).bind fun signatures => ?_
  cases signatures with
  | error cause => exact hfailed _ cause
  | ok signatures =>
    simp only
    split
    · exact .throw _
    · rename_i hmatch
      -- only now the types are known to be ones a key can hold
      have hsome : (matchSignature? signatures (args.map TypedTerm.type)).isNone = false := by
        rwa [Bool.eq_false_iff]
      have hknown : ∀ t ∈ args.map TypedTerm.type, t ∈ DataType.known :=
        CallSite.types_known (r := ⟨service, f, args, {}⟩) hsome
      have houtput : ∀ c : MetadataCache, c.SoundFor (some service) →
          (c.outputOf service f.qualifiedClass f.method (args.map TypedTerm.type)).1 =
            service.output f.qualifiedClass f.method (args.map TypedTerm.type) ∧
          (c.outputOf service f.qualifiedClass f.method
            (args.map TypedTerm.type)).2.SoundFor (some service) := by
        intro c hc
        rw [MetadataCache.soundFor_some] at hc ⊢
        exact hc.outputOf_eq f.qualifiedClass hf hknown
      refine (Independent.ask houtput).bind fun output => ?_
      cases output with
      | error cause => exact hfailed _ cause
      | ok output =>
        simp only
        split
        · exact .throw _
        · split
          · exact (Independent.accumulate _).bind fun _ => (Independent.note ..).bind fun _ => .pure _
          · exact (Independent.note ..).bind fun _ => .pure _

theorem resolve_independent {service : Option MetadataService} {f : Function} (hf : f.IsPlain)
    (args : List TypedTerm) : Independent service (f.resolve service args) := by
  cases f with
  | custom f =>
    unfold Function.resolve Resolution.custom
    simp only
    split
    · exact .throw _
    · exact (Independent.accumulate _).bind fun _ => (Independent.note ..).bind fun _ => .pure _
  | existing f =>
    cases service with
    | none => exact .throw _
    | some service => exact resolve_existing_independent hf args
  | foreign f => exact .throw _

/-- What a lowering that calls plain functions gives does not depend on the cache. Lowering resolves
its calls with the service the caches are sound for. -/
theorem lower_independent {service : Option MetadataService} {env : LoweringEnv}
    (henv : env.functions = some service) {n : Node} (hn : ∀ f ∈ n.callees, f.IsPlain) :
    Independent service (n.lower env) := by
  have hsteps : Lowering.Stepwise env n.callees fun {α} x => @Independent service α x :=
    { Independent.sequential with
      addImport := fun name => .accumulate _
      resolve := by
        intro f service' hf hservice args
        obtain rfl : service = service' := Option.some.inj (henv.symm.trans hservice)
        exact resolve_independent (hn f hf) args }
  exact hsteps.node n.columns (List.Subset.refl _)

/-- The same for a distillation, which begins with nothing collected. -/
theorem distill_independent {service : Option MetadataService} {env : DistillEnv}
    (henv : env.functions = some service) {n : Option Node}
    (hn : ∀ f ∈ n.elim [] Node.callees, f.IsPlain) (kind : String) :
    Independent service (distill? env kind n) := by
  cases n with
  | none => exact .throw _
  | some n =>
    have hlower : Independent service
        (n.lower ⟨env.schema, env.functions, env.config.filled.factParameter⟩) :=
      lower_independent henv hn
    exact (Independent.sequential.lift _).bind fun v => (Independent.accumulate _).bind fun _ =>
      hlower.bind fun e => .get_bind fun acc => Independent.sequential.lift _

/-! ## Calls of a compiler -/

namespace Compiler

/-- A call of a compiler. -/
inductive Call where
  | distill (r : Request) (n : Option Node)
  | compile (r : Request) (text : String)

namespace Call

/-- What is asked for. -/
def request : Call → Request
  | .distill r _ | .compile r _ => r

/-- The functions in the expression that is handed over. -/
def callees : Call → List Function
  | .distill _ n => n.elim [] Node.callees
  | .compile .. => []

/-- The call is not cancelled, and its text, if it has one, is an expression. -/
def isAdmitted (lookup : Lookup) : Call → Bool
  | .distill r _ => !r.cancelled
  | .compile r text => !r.cancelled && (Node.parse lookup text).isOk

end Call

/-- Makes a call. -/
def perform (c : Compiler) : Call → Reply
  | .distill r n => c.distill r n
  | .compile r text => c.compile r text

/-- The replies to calls made one after the other. -/
def replies (c : Compiler) : List Call → List Reply
  | [] => []
  | k :: ks => c.perform k :: (c.perform k).compiler.replies ks

/-- The compiler after calls made one after the other. -/
def afterAll (c : Compiler) (ks : List Call) : Compiler :=
  ks.foldl (fun c k => (c.perform k).compiler) c

/-- The label a result is counted under: success, the outermost category of its failure, or just
that there was an error. -/
def resultLabel : Except CompilerError Artifact → String
  | .ok _ => "success"
  | .error e =>
    match e.report.category? with
    | some (category, _) => category.name
    | none => "error"

/-! ### What is counted -/

theorem label_ofResult (x : Except Failure Artifact) :
    (Outcome.ofResult x).label = resultLabel (x.mapError .failed) := by
  cases x with
  | ok a => rfl
  | error f =>
    simp only [Outcome.ofResult, Outcome.ofFailure, Except.mapError, resultLabel,
      CompilerError.report]
    cases f.report.category? with
    | none => rfl
    | some p => rfl

theorem distill_observed (c : Compiler) (r : Request) (n : Option Node) :
    (c.distill r n).compiler.metrics.observed = c.metrics.observed ++
      if r.cancelled then [] else [(r.kind, resultLabel (c.distill r n).result)] := by
  unfold distill
  cases r.cancelled with
  | true => simp
  | false => simp [Metrics.observe, label_ofResult]

/-- A call adds its outcome to the counts, unless it ends before it has begun. -/
theorem perform_observed (c : Compiler) (k : Call) :
    (c.perform k).compiler.metrics.observed = c.metrics.observed ++
      if k.isAdmitted c.registry.get? then [(k.request.kind, resultLabel (c.perform k).result)]
      else [] := by
  cases k with
  | distill r n =>
    show (c.distill r n).compiler.metrics.observed = _
    rw [distill_observed]
    cases hcancelled : r.cancelled <;> simp [Call.isAdmitted, hcancelled, Call.request, perform]
  | compile r text =>
    show (c.compile r text).compiler.metrics.observed = c.metrics.observed ++
      if _ then [(_, resultLabel (c.compile r text).result)] else []
    unfold compile
    cases hparse : Node.parse c.registry.get? text with
    | error e => simp [Call.isAdmitted, hparse, Except.isOk, Except.toBool]
    | ok n =>
      simp only
      rw [distill_observed]
      cases hcancelled : r.cancelled <;>
        simp [Call.isAdmitted, hparse, hcancelled, Except.isOk, Except.toBool, Call.request]

/-- A call leaves everything but the cache and the counts as it is. -/
theorem perform_setup (c : Compiler) (k : Call) : (c.perform k).compiler =
    { c with
      cache := (c.perform k).compiler.cache
      metrics := (c.perform k).compiler.metrics } := by
  have hdistill : ∀ r n, (c.distill r n).compiler =
      { c with
        cache := (c.distill r n).compiler.cache
        metrics := (c.distill r n).compiler.metrics } := by
    intro r n
    unfold distill
    cases r.cancelled <;> rfl
  cases k with
  | distill r n => exact hdistill r n
  | compile r text =>
    show (c.compile r text).compiler = { c with
      cache := (c.compile r text).compiler.cache
      metrics := (c.compile r text).compiler.metrics }
    unfold compile
    cases Node.parse c.registry.get? text with
    | error e => rfl
    | ok n => exact hdistill r (some n)

/-- After a history the counts are those before it and the outcomes of the calls that were
admitted. -/
theorem afterAll_observed (c : Compiler) (ks : List Call) :
    (c.afterAll ks).metrics.observed = c.metrics.observed ++
      ((ks.zip (c.replies ks)).filter fun p => p.1.isAdmitted c.registry.get?).map
        fun p => (p.1.request.kind, resultLabel p.2.result) := by
  induction ks generalizing c with
  | nil => simp [afterAll, replies]
  | cons k ks ih =>
    have hregistry : (c.perform k).compiler.registry = c.registry := by rw [perform_setup]
    show ((c.perform k).compiler.afterAll ks).metrics.observed = _
    rw [ih, perform_observed, hregistry, replies, List.zip_cons_cons, List.append_assoc]
    cases hadmitted : k.isAdmitted c.registry.get? <;> simp [hadmitted]

/-! ### What is returned -/

section Alike

variable {c d : Compiler}

/-- Two compilers that differ in their past alone: in the counts, and in what their caches know,
which in both cases is what the service answers. -/
structure Alike (c d : Compiler) : Prop where
  setup : d = { c with cache := d.cache, metrics := d.metrics }
  first : c.cache.SoundFor c.service
  second : d.cache.SoundFor c.service

/-- Calls that end alike, on compilers that stay alike. -/
structure EndsAlike (c d : Compiler) (r r' : Reply) : Prop where
  result : r'.result = r.result
  messages : r'.messages = r.messages
  next : Alike c r'.compiler

theorem distill_alike (h : Alike c d) (r : Request) {n : Option Node}
    (hn : ∀ f ∈ n.elim [] Node.callees, f.IsPlain) :
    EndsAlike c d (c.distill r n) (d.distill r n) := by
  obtain ⟨hsetup, hfirst, hsecond⟩ := h
  generalize d.cache = cache at hsetup hsecond
  generalize d.metrics = metrics at hsetup
  subst hsetup
  unfold distill
  cases hcancelled : r.cancelled with
  | true => exact ⟨rfl, rfl, rfl, hfirst, hsecond⟩
  | false =>
    have hsimilar : Workspace.Similar c.service { cache := c.cache } { cache := cache } :=
      ⟨rfl, rfl, hfirst, hsecond⟩
    have henv : (c.distillEnv r.schema).functions = some c.service := rfl
    obtain ⟨hresult, hspaces⟩ := distill_independent henv hn r.kind hsimilar
    rcases hrun : (distill? (c.distillEnv r.schema) r.kind n).runIn { cache := c.cache } with ⟨x, w⟩
    rcases hrun' : (distill? (c.distillEnv r.schema) r.kind n).runIn { cache := cache } with ⟨y, v⟩
    rw [hrun, hrun'] at hresult hspaces
    obtain rfl : x = y := hresult
    have henv' : distillEnv { c with cache := cache, metrics := metrics } r.schema =
        c.distillEnv r.schema := rfl
    have hevents : w.events = v.events := hspaces.events
    simp only [Bool.false_eq_true, if_false, henv', hrun', hevents]
    exact ⟨rfl, rfl, rfl, hfirst, hspaces.second⟩

theorem perform_alike (h : Alike c d)
    (hfunctions : ∀ name f, c.registry.get? name = some f → f.IsPlain) {k : Call}
    (hk : ∀ f ∈ k.callees, f.IsPlain) : EndsAlike c d (c.perform k) (d.perform k) := by
  cases k with
  | distill r n => exact distill_alike h r hk
  | compile r text =>
    have hregistry : d.registry = c.registry := by rw [h.setup]
    have hlogger : d.logger = c.logger := by rw [h.setup]
    show EndsAlike c d (c.compile r text) (d.compile r text)
    unfold compile
    rw [hregistry, hlogger]
    cases hparse : Node.parse c.registry.get? text with
    | error e => exact ⟨rfl, rfl, h⟩
    | ok n =>
      -- what a text calls has been found among the registered functions
      have hresolved : Grammar.Resolved c.registry.get? n.callees := Grammar.parse_callees hparse
      refine distill_alike h r fun f hf => ?_
      obtain ⟨name, hname⟩ := hresolved f hf
      exact hfunctions name f hname

/-- Every call of a history ends as it does on the compiler the history begins with. -/
theorem replies_alike (hfunctions : ∀ name f, c.registry.get? name = some f → f.IsPlain)
    {ks : List Call} (hks : ∀ k ∈ ks, ∀ f ∈ k.callees, f.IsPlain) (h : Alike c d) :
    (d.replies ks).map Reply.result = ks.map (fun k => (c.perform k).result) ∧
      (d.replies ks).map Reply.messages = ks.map fun k => (c.perform k).messages := by
  induction ks generalizing d with
  | nil => exact ⟨rfl, rfl⟩
  | cons k ks ih =>
    have hends := perform_alike h hfunctions (hks k (by simp))
    obtain ⟨hresults, hmessages⟩ := ih (fun k' hk' => hks k' (by simp [hk'])) hends.next
    constructor
    · rw [replies, List.map_cons, List.map_cons, hends.result, hresults]
    · rw [replies, List.map_cons, List.map_cons, hends.messages, hmessages]

end Alike

/-- **Calls of one compiler do not influence each other.** Let a compiler be called for the first
time, with functions whose methods have names that keys can hold, and then again and again: with
expressions or texts, with any kinds and schemas, cancelled or not. Each call returns what it would
return as the first call, and logs the same. Afterwards there are as many distillations under a kind
and a label as calls of that kind that were not cancelled and had no text that is not an expression,
and whose result has that label. -/
theorem calls_independent {c : Compiler} (hcache : c.cache = {}) (hmetrics : c.metrics = {})
    (hfunctions : ∀ entry ∈ c.registry.functions, entry.2.IsPlain) {ks : List Call}
    (hks : ∀ k ∈ ks, ∀ f ∈ k.callees, f.IsPlain) :
    (c.replies ks).map Reply.result = ks.map (fun k => (c.perform k).result) ∧
    (c.replies ks).map Reply.messages = ks.map (fun k => (c.perform k).messages) ∧
    ∀ kind label, (c.afterAll ks).metrics.distillations kind label =
      (ks.zip (c.replies ks)).countP fun p => p.1.isAdmitted c.registry.get? &&
        p.1.request.kind = kind && resultLabel p.2.result = label := by
  have hsound : c.cache.SoundFor c.service := by
    rw [hcache]
    exact fun s _ => .empty s
  have hregistered : ∀ name f, c.registry.get? name = some f → f.IsPlain := by
    intro name f hname
    obtain ⟨front, back, hentries, -⟩ := List.lookup_eq_some_iff.1 hname
    exact hfunctions (Text.lower name, f) (by simp [hentries])
  obtain ⟨hresults, hmessages⟩ := replies_alike hregistered hks ⟨rfl, hsound, hsound⟩
  refine ⟨hresults, hmessages, fun kind label => ?_⟩
  rw [Metrics.distillations, afterAll_observed, hmetrics, List.nil_append, List.count_eq_countP,
    List.countP_map, List.countP_filter]
  refine List.countP_congr fun p _ => ?_
  simp only [Function.comp_apply, beq_iff_eq, Prod.mk.injEq, Bool.and_eq_true, decide_eq_true_eq]
  tauto

/-- A compiler that knows one method of the engine. -/
def ofSqrt : Compiler where
  config := .standard
  logger := .silent
  service := some ⟨fun _ _ => .ok [[.double]], fun _ _ _ => .ok .double⟩
  registry := { functions := [("math.sqrt", .existing ⟨"Math", "sqrt", ""⟩)] }

/-- Six calls: one that succeeds, one that is cancelled, a text that is no expression, nothing to
distill, a column without a type, and the first call once more. -/
def retried : List Call :=
  let r : Request := { kind := "sum", schema := [("a", .int)] }
  [.compile r "Math.sqrt(a)", .compile { r with cancelled := true } "Math.sqrt(a)",
   .compile r "a +", .distill r none, .compile { r with schema := [] } "Math.sqrt(a)",
   .compile r "Math.sqrt(a)"]

theorem calls_independent_retried :
    (ofSqrt.replies retried).map Reply.result = retried.map (fun k => (ofSqrt.perform k).result) ∧
      (ofSqrt.afterAll retried).metrics.distillations "sum" "success" = 2 ∧
      (ofSqrt.afterAll retried).metrics.distillations "sum" "error" = 2 := by
  have hfunctions : ∀ entry ∈ ofSqrt.registry.functions, entry.2.IsPlain := by decide +kernel
  have hks : ∀ k ∈ retried, ∀ f ∈ k.callees, f.IsPlain := by decide +kernel
  obtain ⟨hresults, -, hcounts⟩ := calls_independent rfl rfl hfunctions hks
  refine ⟨hresults, (hcounts "sum" "success").trans ?_, (hcounts "sum" "error").trans ?_⟩
  · decide +kernel
  · decide +kernel

end Compiler

end FactFold
