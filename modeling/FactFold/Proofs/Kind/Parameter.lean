import FactFold.Proofs.Function.Caching
import FactFold.Proofs.Kind.Branching
import FactFold.Proofs.Kind.Renaming

/-!
# The name of the fact parameter

The configuration names the parameter that holds the fact record. Any plain name but that of the
buffer will do: distillations with two such names fail in the same way or come to artifacts that
differ in the routines for rows only, and these do the same (`distill_any_name`). The name may even
be that of the local variable that templates declare, since no routine reads the record after that.

Both artifacts are compared with the one for the usual name, of which they are renamings.
-/

namespace FactFold

open Machine Lowering Kind

/-! ## Calls of routines -/

open Fold in
/-- Routines whose bodies run akin on every row end alike. -/
theorem rowRun_alike {natives : Natives} {fact fact' : String} {r r' : Routine} {row : List Value}
    {id : Nat} {w u : World} {P : Flow → Flow → Prop} (hname : r'.name = r.name)
    (hparams : r.params.map Param.name = [fact, agg.name])
    (hparams' : r'.params.map Param.name = [fact', agg.name])
    (hbody : Run.Akin P (exec natives (rowEnv fact row id w) r.body)
      (exec natives (rowEnv fact' row id w) r'.body)) (hw : w.Alike u) :
    EndAlike (ignored (run natives r [(w.fact row).1, .buffer id] (w.fact row).2))
      (ignored (run natives r' [(u.fact row).1, .buffer id] (u.fact row).2)) := by
  obtain ⟨hfact, halike⟩ := hw.fact row
  -- worlds that are alike number the records alike
  have henv : rowEnv fact' row id u = rowEnv fact' row id w := by rw [rowEnv, rowEnv, hfact]
  obtain ⟨hresult, hworld⟩ := hbody halike
  -- a failure is reported under the same routine
  have hcall : ∀ {x y : Except Fault Flow}, Match Fault.Akin P x y →
      Match RunError.Akin (· = ·) ((x.map fun _ => ()).mapError (.failed r.name))
        ((y.map fun _ => ()).mapError (.failed r.name)) := by
    rintro _ _ (h | h)
    · exact .ok rfl
    · exact .error (.failed _ h)
  rw [rowRun_eq hparams, rowRun_eq hparams', henv, hname]
  exact ⟨hcall hresult, hworld⟩

/-! ## Artifacts -/

/-- The two artifacts are the same but for the routines for rows, and these end alike on every row
in worlds that are alike. -/
structure Artifact.Interchangeable (a b : Artifact) : Prop where
  same : b = { a with contribute := b.contribute, decontribute := b.decontribute }
  decontributes : b.decontribute.isSome = a.decontribute.isSome
  contribute : ∀ (natives : Natives) (row : List Value) (id : Nat) {w u : World}, w.Alike u →
    EndAlike (Machine.contribute natives a row id w) (Machine.contribute natives b row id u)
  decontribute : ∀ (natives : Natives) (row : List Value) (id : Nat) {w u : World}, w.Alike u →
    EndAlike (Machine.decontribute natives a row id w) (Machine.decontribute natives b row id u)

namespace Artifact.Interchangeable

variable {a b c : Artifact}

theorem symm (h : a.Interchangeable b) : b.Interchangeable a where
  same := by rw [h.same]
  decontributes := h.decontributes.symm
  contribute natives row id _ _ hw := (h.contribute natives row id hw.symm).symm
  decontribute natives row id _ _ hw := (h.decontribute natives row id hw.symm).symm

theorem trans (h : a.Interchangeable b) (h' : b.Interchangeable c) : a.Interchangeable c where
  same := by rw [h'.same, h.same]
  decontributes := h'.decontributes.trans h.decontributes
  contribute natives row id _ _ hw :=
    (h.contribute natives row id (.refl _)).trans (h'.contribute natives row id hw)
  decontribute natives row id _ _ hw :=
    (h.decontribute natives row id (.refl _)).trans (h'.decontribute natives row id hw)

/-- Either artifact may take in rows, one after the other. -/
theorem contributeAll (h : a.Interchangeable b) (natives : Natives) (id : Nat) :
    ∀ (rows : List (List Value)) (index : Nat) {w u : World}, w.Alike u →
      EndAlike (Machine.contributeAll natives a id index rows w)
        (Machine.contributeAll natives b id index rows u)
  | [], _, _, _, hw => ⟨.ok rfl, hw⟩
  | row :: rows, index, w, u, hw => by
    -- a row that fails ends both loops, at the same index
    have hstep := h.contribute natives row id hw
    rw [Machine.contributeAll, Machine.contributeAll]
    generalize Machine.contribute natives a row id w = x at hstep ⊢
    generalize Machine.contribute natives b row id u = y at hstep ⊢
    obtain ⟨r, w'⟩ := x
    obtain ⟨r', u'⟩ := y
    obtain ⟨hresult, hworld⟩ := hstep
    cases hresult with
    | ok _ => exact contributeAll h natives id rows (index + 1) hworld
    | error he => exact ⟨.error (.atFact index he), hworld⟩

end Artifact.Interchangeable

/-- Gives the fact record another name than its usual one. -/
def renameFact (f name : String) : String := if name = "fact" then f else name

section

variable {f : String}

theorem renameFact_keepsOwn : KeepsOwn (renameFact f) := ⟨if_neg (by decide), if_neg (by decide)⟩

theorem renameFact_keepsPlain (hf : f.toList.all isNameChar = true) : KeepsPlain (renameFact f) := by
  intro name hname
  unfold renameFact
  split
  · exact hf
  · exact hname

open Fold in
/-- A record under another name than the usual one is read under that. -/
theorem rowEnv_readsIn (hf : f ≠ agg.name) (row : List Value) (id : Nat) (w : World) :
    ReadsIn (renameFact f) rowScope (rowEnv "fact" row id w) (rowEnv f row id w) := by
  intro name hname
  simp only [rowScope, List.mem_cons, List.not_mem_nil, or_false] at hname
  rcases hname with rfl | rfl
  · -- the record is behind the buffer in either scope, and the names differ
    have husual : ("fact" == agg.name) = false := by decide
    have hnew : (f == agg.name) = false := beq_false_of_ne hf
    rw [renameFact, if_pos rfl, rowEnv, rowEnv, List.lookup_cons, husual, List.lookup_cons_self,
      List.lookup_cons, hnew, List.lookup_cons_self]
  · rw [renameFact_keepsOwn.agg, rowEnv, rowEnv, List.lookup_cons_self, List.lookup_cons_self]

/-- The routine about rows `r` has the usual name for the record, and `r'` has the name `f` for it. -/
structure Routine.Reparametrized (f : String) (r r' : Routine) : Prop where
  name : r'.name = r.name
  params : r.params.map Param.name = ["fact", agg.name]
  params' : r'.params.map Param.name = [f, agg.name]
  tame : TameAll (renameFact f) rowScope r.body
  body : r'.body = Stmt.renameAll (renameFact f) r.body

variable (hplain : f.toList.all isNameChar = true) (hne : f ≠ agg.name)

include hplain hne

/-- Such routines end alike. -/
theorem Routine.Reparametrized.run_alike {r r' : Routine} (h : r.Reparametrized f r')
    (natives : Natives) (row : List Value) (id : Nat) {w u : World} (hw : w.Alike u) :
    EndAlike (ignored (run natives r [(w.fact row).1, .buffer id] (w.fact row).2))
      (ignored (run natives r' [(u.fact row).1, .buffer id] (u.fact row).2)) := by
  have hbody := exec_rename natives (renameFact_keepsPlain hplain) _ h.tame
    (rowEnv_readsIn hne row id w)
  rw [← h.body] at hbody
  exact rowRun_alike h.name h.params h.params' hbody hw

/-- Artifacts with such routines are interchangeable. -/
theorem Artifact.interchangeable {a b : Artifact}
    (hsame : b = { a with contribute := b.contribute, decontribute := b.decontribute })
    (hcontribute : a.contribute.Reparametrized f b.contribute)
    (hdecontribute : Option.Rel (Routine.Reparametrized f) a.decontribute b.decontribute) :
    a.Interchangeable b where
  same := hsame
  decontributes := by
    revert hdecontribute
    cases a.decontribute <;> cases b.decontribute <;> rintro (h | _) <;> rfl
  contribute natives row id _ _ hw := hcontribute.run_alike hplain hne natives row id hw
  decontribute natives row id w u hw := by
    unfold Machine.decontribute
    revert hdecontribute
    cases a.decontribute <;> cases b.decontribute <;> rintro (h | _)
    · exact ⟨.error (.refl _), hw⟩
    · exact h.run_alike hplain hne natives row id hw

/-- The artifacts for an element over a record under its usual name and under another one. -/
theorem Visitor.artifact_interchangeable {v : Visitor} (hv : v ∈ builtinKinds) (kind : String)
    (config : CodegenConfig) (columns : List String) {e : Element}
    (he : ∀ p ∈ e.parts, isDirect rowScope p = true) (acc : Accumulator) :
    Match (· = ·) Artifact.Interchangeable
      (v.artifact kind { config with factParameter := "fact" } columns e acc)
      (v.artifact kind { config with factParameter := f } columns (e.rename (renameFact f)) acc) := by
  have hrenames : v.Renames (renameFact f) := builtin_renames renameFact_keepsOwn hv
  unfold Visitor.artifact
  -- the parts that do not see the record are the same in both, failures included
  rw [Element.type_rename]
  cases v.layout e.type with
  | error x => exact .error rfl
  | ok layout =>
  cases v.terminateType e.type with
  | error x => exact .error rfl
  | ok type =>
  rw [(hrenames.contribute he).eq]
  cases hcontribute : v.contribute e with
  | error x => exact .error rfl
  | ok contribute =>
  rw [hrenames.decontribute_eq he]
  cases hdecontribute : v.decontribute e with
  | error x => exact .error rfl
  | ok decontribute =>
  cases v.merge e.type with
  | error x => exact .error rfl
  | ok merge =>
  cases v.terminate e.type with
  | error x => exact .error rfl
  | ok terminate =>
  -- the routines for rows are renamings of one another
  refine .ok (Artifact.interchangeable hplain hne rfl ?_ ?_)
  · exact ⟨rfl, rfl, rfl, (hrenames.contribute he).tame _ hcontribute, rfl⟩
  · cases decontribute with
    | none => exact .none
    | some body => exact .some ⟨rfl, rfl, rfl, hrenames.decontribute_tame he hdecontribute, rfl⟩

end

/-! ## Distilling -/

/-- The same with another name for the fact record. -/
def DistillEnv.withFact (env : DistillEnv) (f : String) : DistillEnv :=
  { env with config := { env.config with factParameter := f } }

namespace Compile

theorem runIn_map {α β : Type} (g : α → β) (x : Compile α) (ws : Workspace) :
    (g <$> x).runIn ws = ((x.runIn ws).1.map g, (x.runIn ws).2) := by
  rw [map_eq_pure_bind, runIn_bind]
  rcases x.runIn ws with ⟨_ | a, v⟩ <;> rfl

end Compile

/-- A distillation finds the kind, lowers the expression and puts the artifact together. -/
theorem Node.distill_runIn (env : DistillEnv) (kind : String) (n : Node) (ws : Workspace) :
    (n.distill env kind).runIn ws =
      match env.kinds.get kind with
      | .error x => (.error x, ws)
      | .ok v =>
        match (n.lower ⟨env.schema, env.functions, env.config.filled.factParameter⟩).runIn
          { ws with accumulator := {} } with
        | (.ok e, ws') =>
          (v.artifact kind env.config.filled (n.columns.map Column.name) e ws'.accumulator, ws')
        | (.error x, ws') => (.error x, ws') := by
  unfold Node.distill
  simp only [Compile.runIn_bind, Compile.runIn_lift, Compile.runIn_accumulate, Compile.runIn_get]
  cases env.kinds.get kind with
  | error x => rfl
  | ok v =>
    dsimp only
    rcases (n.lower _).runIn _ with ⟨_ | e, ws'⟩ <;> rfl

/-- The same with another name for the record, or with the usual one if that is empty. -/
theorem DistillEnv.withFact_distill (env : DistillEnv) (f kind : String) (n : Node)
    (ws : Workspace) :
    (n.distill (env.withFact f) kind).runIn ws =
      match env.kinds.get kind with
      | .error x => (.error x, ws)
      | .ok v =>
        match (n.lower ⟨env.schema, env.functions, CodegenConfig.orElse f "fact"⟩).runIn
          { ws with accumulator := {} } with
        | (.ok e, ws') =>
          (v.artifact kind { env.config.filled with factParameter := CodegenConfig.orElse f "fact" }
            (n.columns.map Column.name) e ws'.accumulator, ws')
        | (.error x, ws') => (.error x, ws') :=
  Node.distill_runIn (env.withFact f) kind n ws

theorem KindTable.mem_of_get {k : KindTable} {kind : String} {v : Visitor}
    (hkind : k.registered.lookup kind = none) (h : k.get kind = .ok v) : v ∈ builtinKinds := by
  rw [KindTable.get, hkind] at h
  dsimp only at h
  split at h
  · rename_i v' hv
    obtain rfl := Except.ok.inj h
    exact List.mem_of_find?_eq_some hv
  · cases h

/-- Two distillations come to interchangeable artifacts or fail in the same way, and leave the same
workspace. -/
structure SameDistillation (x y : Except Failure Artifact × Workspace) : Prop where
  result : Match (· = ·) Artifact.Interchangeable x.1 y.1
  workspace : x.2 = y.2

section

variable {env : DistillEnv} {kind : String} (hkind : env.kinds.registered.lookup kind = none)
  (n : Node) (ws : Workspace)

include hkind

/-- A distillation with another name for the record does the same as one with the usual name. -/
theorem distill_withFact {f : String} (hplain : f.toList.all isNameChar = true)
    (hne : f ≠ agg.name) :
    SameDistillation ((n.distill (env.withFact "fact") kind).runIn ws)
      ((n.distill (env.withFact f) kind).runIn ws) := by
  -- an empty name stands for the usual one
  obtain ⟨g, hg, hgplain, hgne⟩ : ∃ g, CodegenConfig.orElse f "fact" = g ∧
      g.toList.all isNameChar = true ∧ g ≠ agg.name := by
    refine ⟨_, rfl, ?_⟩
    unfold CodegenConfig.orElse
    split
    · decide
    · exact ⟨hplain, hne⟩
  have hgname : g ≠ "" := by
    rw [← hg]
    unfold CodegenConfig.orElse
    split
    · decide
    · assumption
  have henv : LoweringEnv.Renamed (renameFact g) ⟨env.schema, env.functions, "fact"⟩
      ⟨env.schema, env.functions, g⟩ := ⟨rfl, rfl, if_neg hgname⟩
  -- lowering commutes with the renaming, so both ways fail together
  have hlower : n.lower ⟨env.schema, env.functions, g⟩ = Element.rename (renameFact g) <$>
      n.lower ⟨env.schema, env.functions, "fact"⟩ := node_rename n.columns henv n
  have husual : CodegenConfig.orElse "fact" "fact" = "fact" := by decide
  rw [DistillEnv.withFact_distill, DistillEnv.withFact_distill, husual, hg, hlower,
    Compile.runIn_map]
  cases hv : env.kinds.get kind with
  | error x => exact ⟨.error rfl, rfl⟩
  | ok v =>
  dsimp only
  cases hrun : (n.lower ⟨env.schema, env.functions, "fact"⟩).runIn { ws with accumulator := {} } with
  | mk result ws' =>
  cases result with
  | error x => exact ⟨.error rfl, rfl⟩
  | ok e =>
    have hfact : Direct rowScope (.ident "fact") := by simp [rowScope]; decide
    -- code of an expression mentions no name but that of the record
    have hdirect : ∀ p ∈ e.parts, isDirect rowScope p = true :=
      ((node_lowers hrun).2 _ (.refl _)).direct hfact
    have hbuiltin := KindTable.mem_of_get hkind hv
    exact ⟨v.artifact_interchangeable hgplain hgne hbuiltin kind _ _ hdirect _, rfl⟩

/-- **The name of the fact record does not matter.** With any two plain names other than that of the
buffer, among them that of the variable that templates declare, a distillation for a built-in kind
fails in the same way or comes to artifacts that differ in the routines for rows only, and these do
the same to the buffers: either both succeed or both fail. -/
theorem distill_any_name {f g : String} (hf : f.toList.all isNameChar = true) (hf' : f ≠ agg.name)
    (hg : g.toList.all isNameChar = true) (hg' : g ≠ agg.name) :
    SameDistillation ((n.distill (env.withFact f) kind).runIn ws)
      ((n.distill (env.withFact g) kind).runIn ws) := by
  -- by way of the usual name
  have hleft := distill_withFact hkind n ws hf hf'
  have hright := distill_withFact hkind n ws hg hg'
  exact ⟨(hleft.result.symm Eq.symm Artifact.Interchangeable.symm).trans hright.result Eq.trans
    Artifact.Interchangeable.trans, hleft.workspace.symm.trans hright.workspace⟩

end

/-- A sum of vectors: the local variable hides a record of the name `value`. -/
theorem distill_any_name_value :
    (∃ a, ((Node.column ⟨"c", "t"⟩).distill
        (DistillEnv.withFact { schema := [("c", .array .int)] } "value") "sum").runIn {} =
          (.ok a, {}) ∧ a.contribute.body.head? =
            some (declareValue (.array .int) (readColumn valueVar 0 (.array .int)))) ∧
      SameDistillation
        (((Node.column ⟨"c", "t"⟩).distill
          (DistillEnv.withFact { schema := [("c", .array .int)] } "value") "sum").runIn {})
        (((Node.column ⟨"c", "t"⟩).distill
          (DistillEnv.withFact { schema := [("c", .array .int)] } "row") "sum").runIn {}) :=
  ⟨⟨_, rfl, rfl⟩, distill_any_name rfl _ _ (by decide) (by decide) (by decide) (by decide)⟩

end FactFold
