import FactFold.Machine.Routine
import FactFold.Proofs.Kind.Effects

/-!
# Runs of an aggregation

A run takes rows into buffers, takes rows out of them and merges buffers, in any order. Beside the
buffers a ledger is kept of the values that have reached each of them: directly, or through buffers
merged into it. A law of a kind of aggregation compares the two at the end of every run.

* `Step`, `Step.perform`: one call of a routine.
* `Ledger`, `Step.record`: what the call does to the ledger. The value of a row is the outcome of the
  expression on it, in the world in which the call is made; a row whose guard fails leaves no trace.
* `Runs`: calls that all succeed, one after the other.
* `Runs.invariant`: a property of each buffer and its account that every step keeps holds after every
  run.
-/

namespace FactFold.Fold

open Machine Lowering
open Machine.Run (Quiet Yields)
open Number (wrap64)

/-! ## Steps -/

/-- A call of one of an artifact's routines. -/
inductive Step where
  /-- Takes a row into a buffer. -/
  | contribute (row : List Value) (id : Nat)
  /-- Takes a row out of a buffer. -/
  | decontribute (row : List Value) (id : Nat)
  /-- Folds one buffer into another. -/
  | merge (source target : Nat)

namespace Step

/-- Makes the call. -/
def perform (natives : Natives) (a : Artifact) : Step → World → Except RunError Unit × World
  | .contribute row id, w => Machine.contribute natives a row id w
  | .decontribute row id, w => Machine.decontribute natives a row id w
  | .merge source target, w => Machine.merge natives a source target w

/-- A merge is between two different buffers. -/
def Proper : Step → Prop
  | .merge source target => source ≠ target
  | _ => True

/-- The call takes no row out. -/
def Forward : Step → Prop
  | .decontribute .. => False
  | _ => True

end Step

/-! ## The ledger -/

/-- The values of rows that have been taken into a buffer and out of it. -/
structure Account where
  taken : Multiset Int := 0
  returned : Multiset Int := 0

/-- The accounts of all buffers. -/
abbrev Ledger := Nat → Account

namespace Account

/-- Enters a row's value, if there is one, as taken. -/
def take (a : Account) (value : Option Int) : Account :=
  { a with taken := Multiset.ofList value.toList + a.taken }

/-- Enters a row's value, if there is one, as returned. -/
def giveBack (a : Account) (value : Option Int) : Account :=
  { a with returned := Multiset.ofList value.toList + a.returned }

/-- How many rows the account counts: those taken less those returned. -/
def rows (a : Account) : Int := a.taken.card - a.returned.card

/-- Both accounts in one. -/
def join (a b : Account) : Account := ⟨a.taken + b.taken, a.returned + b.returned⟩

end Account

/-- The value of a row, if it has one: the outcome of the expression on the record of the row. -/
def rowValue (natives : Natives) (s : Site) (n : Node) (row : List Value) (w : World) : Option Int :=
  match ((n.outcome (s.meaning natives row)).runIn (w.fact row).2).1 with
  | .ok (some v) => some (long v)
  | _ => none

/-- The ledger after a call, where `value` tells the values of rows. -/
def Step.record (value : List Value → Option Int) : Step → Ledger → Ledger
  | .contribute row id, l => Function.update l id ((l id).take (value row))
  | .decontribute row id, l => Function.update l id ((l id).giveBack (value row))
  | .merge source target, l => Function.update l target ((l target).join (l source))

/-- What runs of an aggregation depend on: the routines, and the expression they aggregate with the
site it has been lowered at. -/
structure Aggregation where
  natives : Natives
  artifact : Artifact
  site : Site
  node : Node

/-- Calls that all succeed, and the world and the ledger they lead to. -/
inductive Runs (g : Aggregation) : World → Ledger → List Step → World → Ledger → Prop
  | done (w : World) (l : Ledger) : Runs g w l [] w l
  | step {w w' w'' : World} {l l' : Ledger} {s : Step} {rest : List Step}
      (hs : s.perform g.natives g.artifact w = (.ok (), w'))
      (hr : Runs g w' (s.record (fun row => rowValue g.natives g.site g.node row w) l) rest w'' l') :
      Runs g w l (s :: rest) w'' l'

theorem ok_of_isOk {x : Except RunError Unit} (h : x.isOk = true) : x = .ok () := by
  cases x with
  | error e => cases h
  | ok u => rfl

/-- A call that succeeds goes on in the world it leaves. -/
theorem Runs.call {g : Aggregation} {w w' : World} {l l' : Ledger} {s : Step} {rest : List Step}
    (hs : (s.perform g.natives g.artifact w).1.isOk = true)
    (hr : Runs g (s.perform g.natives g.artifact w).2
      (s.record (fun row => rowValue g.natives g.site g.node row w) l) rest w' l') :
    Runs g w l (s :: rest) w' l' :=
  .step (Prod.ext (ok_of_isOk hs) rfl) hr

/-! ## Invariants of runs -/

/-- A property of every buffer and its account; a number without a buffer has an empty account. -/
def Each (P : Memory → Account → Prop) (buffers : List Memory) (l : Ledger) : Prop :=
  ∀ id, (id < buffers.length → P (bufferAt buffers id) (l id)) ∧ (buffers.length ≤ id → l id = {})

theorem Each.set {P : Memory → Account → Prop} {buffers : List Memory} {l : Ledger} {id : Nat}
    {m : Memory} {a : Account} (h : Each P buffers l) (hid : id < buffers.length) (hm : P m a) :
    Each P (buffers.set id m) (Function.update l id a) := by
  -- the buffer that is set agrees by `hm`, every other one as before
  intro j
  rw [List.length_set]
  by_cases hj : j = id
  · subst hj
    rw [bufferAt_set_self hid, Function.update_self]
    exact ⟨fun _ => hm, fun hge => by omega⟩
  · rw [bufferAt_set_ne (Ne.symm hj), Function.update_of_ne hj]
    exact h j

/-- A property of a fresh buffer and the empty account holds at the start of a run. -/
theorem Each.start {P : Memory → Account → Prop} {buffers : List Memory} {m : Memory}
    (hfresh : ∀ b ∈ buffers, b = m) (hm : P m {}) : Each P buffers fun _ => {} := by
  refine fun id => ⟨fun hid => ?_, fun _ => rfl⟩
  have hbuffer : bufferAt buffers id = buffers[id] := by simp [bufferAt, hid]
  rw [hbuffer, hfresh _ (List.getElem_mem hid)]
  exact hm

/-- An invariant of the steps is one of runs. -/
theorem Runs.invariant {g : Aggregation} {P : Memory → Account → Prop} {allowed : Step → Prop}
    (hstep : ∀ {w w' : World} {l : Ledger} {s : Step}, allowed s → Each P w.buffers l →
      s.perform g.natives g.artifact w = (.ok (), w') →
        Each P w'.buffers (s.record (fun row => rowValue g.natives g.site g.node row w) l))
    {w w' : World} {l l' : Ledger} {steps : List Step} (h : Runs g w l steps w' l')
    (hall : ∀ s ∈ steps, allowed s) (hP : Each P w.buffers l) : Each P w'.buffers l' := by
  induction h with
  | done w l => exact hP
  | step hs hr ih =>
    exact ih (fun s hs => hall s (List.mem_cons_of_mem _ hs))
      (hstep (hall _ (List.mem_cons_self ..)) hP hs)

/-! ## Routines of an artifact -/

theorem params_length {r : Routine} {names : List String} (h : r.params.map Param.name = names) :
    r.params.length = names.length := by
  rw [← h, List.length_map]

/-- What a kind makes for an element: its own code in routines with fixed names and parameters, and
beside them the columns, methods and imports. -/
structure ArtifactOf (v : Visitor) (config : CodegenConfig) (columns : List String) (e : Element)
    (acc : Accumulator) (a : Artifact) : Prop where
  layout : v.layout e.type = .ok a.layout
  output : a.output = e.type
  contribute : v.contribute e = .ok a.contribute.body
  decontribute : v.decontribute e = .ok (a.decontribute.map Routine.body)
  merge : v.merge e.type = .ok a.merge.body
  terminate : v.terminate e.type = .ok a.terminate.body
  contribute_params :
    a.contribute.params.map Param.name = [config.factParameter, BufferRef.aggregation.name]
  decontribute_params : ∀ r ∈ a.decontribute,
    r.params.map Param.name = [config.factParameter, BufferRef.aggregation.name]
  merge_params :
    a.merge.params.map Param.name = [BufferRef.mergeInput.name, BufferRef.mergeOutput.name]
  terminate_params : a.terminate.params.map Param.name = [BufferRef.aggregation.name]
  decontribute_name : ∀ r ∈ a.decontribute, r.name = "decontribute"
  columns_eq : a.columns = columns
  methods : a.methods = acc.methods
  imports : a.imports = sortedTexts
    (config.defaultImports.getD [] ++ acc.imports ++ (v.imports.map (· e.type)).getD [])

/-- The parts of an artifact are those its kind gives for the element. -/
theorem artifact_ok {v : Visitor} {kind : String} {config : CodegenConfig} {columns : List String}
    {e : Element} {acc : Accumulator} {a : Artifact}
    (h : v.artifact kind config columns e acc = .ok a) : ArtifactOf v config columns e acc a := by
  unfold Visitor.artifact at h
  obtain ⟨layout, hlayout, h⟩ := bind_ok h
  obtain ⟨type, -, h⟩ := bind_ok h
  obtain ⟨contribute, hcontribute, h⟩ := bind_ok h
  obtain ⟨decontribute, hdecontribute, h⟩ := bind_ok h
  obtain ⟨merge, hmerge, h⟩ := bind_ok h
  obtain ⟨terminate, hterminate, h⟩ := bind_ok h
  obtain rfl := Except.ok.inj h
  refine ⟨hlayout, rfl, hcontribute, ?_, hmerge, hterminate, rfl, fun r hr => ?_, rfl, rfl,
    fun r hr => ?_, rfl, rfl, rfl⟩
  · rw [hdecontribute]
    cases decontribute <;> rfl
  -- the routine that takes rows out, where there is one
  all_goals
    obtain ⟨body, -, rfl⟩ := Option.map_eq_some_iff.1 hr
    rfl

/-- The site at which a distillation lowers its expression, with calls typed by a cache. -/
def distillSite (env : DistillEnv) (n : Node) (c : MetadataCache) : Site :=
  ⟨⟨env.schema, env.functions, env.config.filled.factParameter⟩, n.columns, c.callTypes⟩

/-- A distillation that succeeds has lowered the expression, and its artifact is the kind's for the
element. -/
theorem distill_lowered {env : DistillEnv} {kind : String} {n : Node} {ws ws' : Workspace}
    {a : Artifact} (h : (n.distill env kind).runIn ws = (.ok a, ws')) :
    ∃ v e, env.kinds.get kind = .ok v ∧
      (n.lower ⟨env.schema, env.functions, env.config.filled.factParameter⟩).runIn
        { ws with accumulator := {} } = (.ok e, ws') ∧
      v.artifact kind env.config.filled (n.columns.map Column.name) e ws'.accumulator = .ok a := by
  unfold Node.distill at h
  obtain ⟨v, w₁, hv, h⟩ := Compile.runIn_bind_ok_iff.1 h
  obtain ⟨_, w₂, hreset, h⟩ := Compile.runIn_bind_ok_iff.1 h
  obtain ⟨e, w₃, he, h⟩ := Compile.runIn_bind_ok_iff.1 h
  obtain ⟨w₄, w₅, hget, hart⟩ := Compile.runIn_bind_ok_iff.1 h
  -- the steps around the lowering change nothing but the accumulator, which they empty
  simp only [Compile.runIn_lift, Compile.runIn_get, Prod.mk.injEq, Except.ok.injEq] at hv hget hart
  obtain ⟨hart, rfl⟩ := hart
  obtain ⟨rfl, rfl⟩ := hget
  obtain ⟨hv, rfl⟩ := hv
  obtain rfl : { ws with accumulator := {} } = w₂ := congrArg Prod.snd hreset
  exact ⟨v, e, hv, he, hart⟩

/-- A distillation that succeeds has lowered the expression and put the routines of the kind
together. -/
theorem distill_ok {env : DistillEnv} {kind : String} {n : Node} {ws ws' : Workspace} {a : Artifact}
    (h : (n.distill env kind).runIn ws = (.ok a, ws')) :
    ∃ v e acc, env.kinds.get kind = .ok v ∧ Lowers (distillSite env n ws'.cache) n e ∧
      v.artifact kind env.config.filled (n.columns.map Column.name) e acc = .ok a := by
  obtain ⟨v, e, hv, he, hart⟩ := distill_lowered h
  exact ⟨v, e, _, hv, (node_lowers he).2 _ (.refl _), hart⟩

/-- The name of the fact record at a distillation's site. -/
theorem distillSite_factName (env : DistillEnv) (n : Node) (c : MetadataCache) :
    (distillSite env n c).env.factName = env.config.filled.factParameter := by
  have hne : env.config.filled.factParameter ≠ "" := by
    show CodegenConfig.orElse _ _ ≠ ""
    unfold CodegenConfig.orElse
    split
    · decide
    · assumption
  exact if_neg hne

theorem exists_integral {t : DataType} (h : t = .int ∨ t = .scalar .long) :
    ∃ n : Numeric, t = .scalar n ∧ n.isIntegral = true := by
  rcases h with h | h
  · exact ⟨.int, h, rfl⟩
  · exact ⟨.long, h, rfl⟩

/-- What a law of runs asks of an aggregation: its routines are those of the kind over the expression,
which is of an integral type and calls functions that yield integers, and the fact record has a plain
name that is not the buffer's. -/
structure Aggregates (v : Visitor) (n : Numeric) (g : Aggregation) : Prop where
  integral : n.isIntegral = true
  element : ∃ kind config columns e acc, v.artifact kind config columns e acc = .ok g.artifact ∧
    Lowers g.site g.node e ∧ e.type = .scalar n ∧ config.factParameter = g.site.env.factName
  calls : Node.CallsIntegers g.natives g.node.callees
  plain : g.site.env.factName.toList.all isNameChar = true
  distinct : g.site.env.factName ≠ BufferRef.aggregation.name

/-- An artifact of integral type aggregates the expression it has been distilled from. -/
theorem Aggregates.of_distill {v : Visitor} {env : DistillEnv} {kind : String} {n : Node}
    {ws ws' : Workspace} {a : Artifact} {natives : Natives} (hkind : env.kinds.get kind = .ok v)
    (ha : (n.distill env kind).runIn ws = (.ok a, ws'))
    (hout : a.output = .int ∨ a.output = .scalar .long)
    (hcalls : Node.CallsIntegers natives n.callees)
    (hplain : env.config.filled.factParameter.toList.all isNameChar = true)
    (hdistinct : env.config.filled.factParameter ≠ BufferRef.aggregation.name) :
    ∃ t, Aggregates v t ⟨natives, a, distillSite env n ws'.cache, n⟩ := by
  obtain ⟨v', e, acc, hv', he, hart⟩ := distill_ok ha
  obtain rfl : v = v' := Except.ok.inj (hkind.symm.trans hv')
  have htype := (artifact_ok hart).output
  have hname := distillSite_factName env n ws'.cache
  obtain ⟨t, ht, hint⟩ := exists_integral hout
  refine ⟨t, hint, ⟨kind, env.config.filled, _, e, acc, hart, he, htype.symm.trans ht, hname.symm⟩,
    hcalls, ?_, ?_⟩
  · rw [hname]
    exact hplain
  · rw [hname]
    exact hdistinct

/-- The fields of the buffers are those of the kind. -/
theorem Aggregates.layout {v : Visitor} {n : Numeric} {g : Aggregation} (h : Aggregates v n g) :
    v.layout (.scalar n) = .ok g.artifact.layout := by
  obtain ⟨_, _, _, e, _, hart, -, hn, -⟩ := h.element
  rw [← hn]
  exact (artifact_ok hart).layout

variable {natives : Natives} {w w' : World}

/-- A routine that has run to its end has executed its body on the arguments. -/
theorem run_exec {r : Routine} {args : List Value} {v : Value}
    (h : run natives r args w = (.ok v, w')) :
    ∃ f, (exec natives ((r.params.map Param.name).zip args).reverse r.body).runIn w = (.ok f, w') := by
  unfold run at h
  split at h
  · cases h
  · dsimp only at h
    split at h <;> cases h
    · exact ⟨_, ‹_›⟩
    · exact ⟨_, ‹_›⟩

theorem ignored_ok {r : Except RunError Value × World} (h : ignored r = (.ok (), w')) :
    ∃ v, r = (.ok v, w') := by
  obtain ⟨x, u⟩ := r
  cases x with
  | error e => cases h
  | ok v =>
    obtain rfl : u = w' := congrArg Prod.snd h
    exact ⟨v, rfl⟩

/-- The variables of a routine that works on a row. -/
def rowEnv (fact : String) (row : List Value) (id : Nat) (w : World) : Env :=
  [(BufferRef.aggregation.name, .buffer id), (fact, (w.fact row).1)]

/-- The variables of a routine that merges. -/
def mergeEnv (source target : Nat) : Env :=
  [(BufferRef.mergeOutput.name, .buffer target), (BufferRef.mergeInput.name, .buffer source)]

theorem rowEnv_holds (fact : String) (row : List Value) (id : Nat) (w : World) :
    Holds (rowEnv fact row id w) Kind.agg id :=
  ⟨by decide, by simp [rowEnv]⟩

theorem rowEnv_binds {s : Site} (hplain : s.env.factName.toList.all isNameChar = true)
    (hne : s.env.factName ≠ BufferRef.aggregation.name) (row : List Value) (id : Nat) (w : World) :
    s.Binds (rowEnv s.env.factName row id w) row := by
  refine ⟨hplain, w.heap.number.1, ?_⟩
  rw [rowEnv, List.lookup_cons, beq_false_of_ne hne, List.lookup_cons_self]
  rfl

theorem mergeEnv_source (source target : Nat) : Holds (mergeEnv source target) Kind.source source :=
  ⟨by decide, by rfl⟩

theorem mergeEnv_target (source target : Nat) : Holds (mergeEnv source target) Kind.target target :=
  ⟨by decide, by simp [mergeEnv]⟩

/-- A row's routine that has run to its end has executed its body on the record of the row. -/
theorem rowRun_exec {r : Routine} {fact : String} {row : List Value} {id : Nat}
    (hparams : r.params.map Param.name = [fact, BufferRef.aggregation.name])
    (h : ignored (run natives r [(w.fact row).1, .buffer id] (w.fact row).2) = (.ok (), w')) :
    ∃ f, (exec natives (rowEnv fact row id w) r.body).runIn (w.fact row).2 = (.ok f, w') := by
  obtain ⟨v, hv⟩ := ignored_ok h
  obtain ⟨f, hf⟩ := run_exec hv
  rw [hparams] at hf
  exact ⟨f, hf⟩

/-- A merge that has run to its end has executed its body on the two buffers. -/
theorem mergeRun_exec {a : Artifact} {source target : Nat}
    (hparams : a.merge.params.map Param.name =
      [BufferRef.mergeInput.name, BufferRef.mergeOutput.name])
    (h : Machine.merge natives a source target w = (.ok (), w')) :
    ∃ f, (exec natives (mergeEnv source target) a.merge.body).runIn w = (.ok f, w') := by
  obtain ⟨v, hv⟩ := ignored_ok h
  obtain ⟨f, hf⟩ := run_exec hv
  rw [hparams] at hf
  exact ⟨f, hf⟩

/-- A result that is read off the first field is the integer there. -/
theorem terminate_read {a : Artifact} {n : Numeric} {id : Nat} (hn : n.isIntegral = true)
    (hparams : a.terminate.params.map Param.name = [BufferRef.aggregation.name])
    (hbody : a.terminate.body = [.ret (Kind.agg.read 0 (.scalar n))])
    (hid : 0 < (w.buffer id).layout.length) :
    (Machine.terminate natives a id w).1 = .ok (.long ((w.buffer id).intAt 0)) := by
  have hlength : a.terminate.params.length = 1 := params_length hparams
  have hholds : Holds [(BufferRef.aggregation.name, .buffer id)] Kind.agg id :=
    ⟨by decide, by rfl⟩
  -- the code of the read is accepted and has a static type, for both integral types
  obtain ⟨s, hs⟩ : ∃ s, source (Kind.agg.read 0 (.scalar n)) = .ok s := by
    cases n <;> exact ⟨_, rfl⟩
  obtain ⟨f, hf, hstatic⟩ : ∃ f, Formula.ofTerm? (Kind.agg.read 0 (.scalar n)) = some f ∧
      f.static?.isSome = true := by
    cases n <;> exact ⟨_, rfl, rfl⟩
  -- the evaluation remembers the source and changes no buffer
  have hvalue : (evaluate natives [(BufferRef.aggregation.name, .buffer id)]
      (Kind.agg.read 0 (.scalar n))).runIn w =
        (.ok (.long ((w.buffer id).intAt 0)), w.remember s) := by
    have hsame := (World.Alike.remember w s).buffer id
    have hread : RunsAs natives _ (Kind.agg.read 0 (.scalar n)) _ _ := hholds.read 0 n
    rw [evaluate_eq hread hs hf hstatic,
      bufferMethod_read (by omega) (by rw [hsame]; exact hid) hn, hsame]
  unfold Machine.terminate run
  rw [if_neg (by simp [hlength]), hparams, hbody]
  simp only [List.zip_cons_cons, List.zip_nil_right, List.reverse_cons, List.reverse_nil,
    List.nil_append, exec, execStmt, map_eq_pure_bind, bind_assoc, pure_bind, Run.runIn_bind, hvalue,
    Run.runIn_pure]

/-! ## Steps on a row keep an invariant -/

/-- The outcome of the expression is the value of the row. -/
theorem rowValue_eq {s : Site} {n : Node} {row : List Value} {o : Option Value} {u : World}
    (h : (n.outcome (s.meaning natives row)).runIn (w.fact row).2 = (.ok o, u)) :
    rowValue natives s n row w = o.map long := by
  unfold rowValue
  rw [h]
  cases o <;> rfl

/-- A step that changes one buffer by the value of a row, if it has one. The value is a 64-bit
integer. -/
theorem Each.row {P : Memory → Account → Prop} {layout : Layout} {F : Int → Memory → Memory}
    {enter : Account → Option Int → Account} (hnone : ∀ a, enter a none = a)
    (hlayout : ∀ m a, P m a → m.layout = layout)
    (hF : ∀ m a v, P m a → wrap64 v = v → P (F v m) (enter a (some v))) {before after : List Memory} {l : Ledger}
    {id : Nat} {o : Option Value} (h : Each P before l)
    (heffect : effectOf (Changes layout id F) o before after) :
    Each P after (Function.update l id (enter (l id) (o.map long))) := by
  cases o with
  | none =>
    obtain rfl : after = before := heffect
    rw [Option.map_none, hnone, Function.update_eq_self]
    exact h
  | some v =>
    obtain ⟨-, hrange, hchange⟩ := heffect
    have hid := lt_of_layout hrange
    have hP := (h id).1 hid
    rw [hchange (hlayout _ _ hP)]
    exact h.set hid (hF _ _ _ hP (Number.wrap64_longOrZero _))

end FactFold.Fold
