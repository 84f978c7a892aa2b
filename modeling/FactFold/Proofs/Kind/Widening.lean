import FactFold.Proofs.Kind.Branching
import FactFold.Proofs.Kind.Fitting
import FactFold.Proofs.Lowering.Widening

/-!
# Aggregating under a wider schema

What a built-in kind asks of a type is its class: some fold numbers alone, some vectors as well. A
wider type is of the same class, so a kind that aggregates an expression under one schema aggregates
it under every wider one. Its routines are then rendered anew; they cannot fail, since the branches of
a lowered choice are in the class of the whole, and a condition is always the code of a value
(`Lowers.renders`).
-/

namespace FactFold.Lowering

/-! ## Rendering -/

/-- There is a template for every type of the same class. -/
def Covers (numeric array : Option Template) (t : DataType) : Prop :=
  ∀ u : DataType, u.isNumeric = t.isNumeric → u.isArray = t.isArray →
    ∃ template, Element.templateFor numeric array u = some template

theorem Covers.of_class {numeric array : Option Template} {t u : DataType}
    (h : Covers numeric array t) (hnumeric : u.isNumeric = t.isNumeric)
    (harray : u.isArray = t.isArray) : Covers numeric array u :=
  fun v hv hv' => h v (hv.trans hnumeric) (hv'.trans harray)

/-- The branches of a choice are in the class of the choice. -/
theorem branches_class {t u v : DataType} (h : DataType.Agree t u v) :
    (t.isNumeric = v.isNumeric ∧ t.isArray = v.isArray) ∧
      u.isNumeric = v.isNumeric ∧ u.isArray = v.isArray := by
  obtain ⟨rfl, rfl⟩ | ⟨-, hv⟩ := h
  · exact ⟨⟨rfl, rfl⟩, rfl, rfl⟩
  · -- what types are promoted to is of their class
    obtain ⟨ht, hu⟩ := promote?_isNumeric hv
    obtain ⟨ht', hu'⟩ := promote?_isArray hv
    exact ⟨⟨ht, ht'⟩, hu, hu'⟩

/-- **A lowered element is rendered** by templates that cover its type. -/
theorem Lowers.renders {s : Site} {numeric array : Option Template} {n : Node} {e : Element}
    (h : Lowers s n e) (hcovers : Covers numeric array e.type) :
    ∃ body, e.render numeric array = .ok body := by
  induction h using Lowers.conditions with
  | guarded hc hb ih =>
    -- a comparison is a single term, so the condition has code
    obtain ⟨c, t, rfl⟩ := hc.single (by simp) (by simp)
    obtain ⟨body, hbody⟩ := ih hcovers
    refine ⟨[.cond c body []], ?_⟩
    rw [Element.render, hbody]
    rfl
  | choice hc hy hn he ihy ihn =>
    obtain ⟨hshape, -, hagree⟩ := ternary_some_ok he
    obtain ⟨⟨hyn, hya⟩, hnn, hna⟩ := branches_class hagree
    obtain ⟨c, t, rfl⟩ := hc.single (by simp) (by simp)
    obtain ⟨ys, hys⟩ := ihy (hcovers.of_class hyn hya)
    obtain ⟨ns, hns⟩ := ihn (hcovers.of_class hnn hna)
    refine ⟨[.cond c ys ns], ?_⟩
    rw [hshape, Element.render, hys, hns]
    rfl
  | single h hguard hchoice =>
    obtain ⟨code, t, rfl⟩ := h.single hguard hchoice
    obtain ⟨template, htemplate⟩ := hcovers t rfl rfl
    refine ⟨template code, ?_⟩
    rw [Element.render, htemplate]

end FactFold.Lowering

namespace FactFold.Fold

open Machine Lowering

/-! ## Kinds -/

theorem Branching.covered {t : DataType} {numeric array : Option Template}
    (h : Branching t numeric array) : Covers numeric array t := by
  intro u hnumeric harray
  obtain ht | ht := h.covers
  · obtain ⟨template, rfl, -⟩ := h.numbers ht
    -- a type of the class is made by the same constructor
    cases u with
    | scalar n => exact ⟨template, rfl⟩
    | _ => cases hnumeric.trans ht
  · obtain ⟨template, rfl, -⟩ := h.vectors ht
    cases u with
    | array n => exact ⟨template, rfl⟩
    | _ => cases harray.trans ht

theorem isSome_of_rendered {x : Except Failure (List Stmt)} {out : Option (List Stmt)}
    (h : some <$> x = .ok out) : out.isSome = true := by
  cases x with
  | error f => cases h
  | ok body =>
    obtain rfl := Except.ok.inj h
    rfl

section Kinds

variable {v : Visitor} (hv : v ∈ builtinKinds)

include hv

/-- A kind has a layout for every type in the class of one it has a layout for. -/
theorem layout_of_class {t u : DataType} {layout : Layout} (h : v.layout t = .ok layout)
    (hnumeric : u.isNumeric = t.isNumeric) (harray : u.isArray = t.isArray) :
    ∃ layout', v.layout u = .ok layout' := by
  obtain ⟨k, rfl⟩ | ⟨k, rfl⟩ := builtin_cases hv
  · cases k with
    | sum | mean | short =>
      -- the class of the type is all that is tested
      have ht := (onNumeric_ok h).2
      rw [← hnumeric, ← harray] at ht
      exact ⟨_, onNumeric_of ht _⟩
    | squareSum =>
      have ht := (onScalar_ok h).2
      rw [← hnumeric] at ht
      exact ⟨_, onScalar_of ht _⟩
  · have ht : u.isNumeric = true := by
      rw [hnumeric]
      cases k <;> exact (onScalar_ok h).2
    cases k <;> exact ⟨_, onScalar_of ht _⟩

variable {s : Site} {n : Node} {e : Element} {layout : Layout} (hlayout : v.layout e.type = .ok layout)

include hlayout

/-- A kind that has a layout for the type of a lowered element has routines for its rows. -/
theorem rows_supported (he : Lowers s n e) :
    ∃ body out, v.contribute e = .ok body ∧ v.decontribute e = .ok out := by
  obtain ⟨numeric, array, htemplates, hrender⟩ := contribute_branching hv hlayout
  obtain ⟨body, hbody⟩ := he.renders htemplates.covered
  have hin : v.contribute e = .ok body := by rw [hrender e rfl, hbody]
  obtain hnone | ⟨numeric', array', htemplates', hrender'⟩ := decontribute_branching hv hlayout
  · exact ⟨body, none, hin, hnone e⟩
  · obtain ⟨body', hbody'⟩ := he.renders htemplates'.covered
    refine ⟨body, some body', hin, ?_⟩
    rw [hrender' e rfl, hbody']
    rfl

/-- Whether rows can be taken out again is up to the kind, not to the expression. -/
theorem decontribute_isSome {e' : Element} {layout' : Layout}
    (hlayout' : v.layout e'.type = .ok layout') {out out' : Option (List Stmt)}
    (hout : v.decontribute e = .ok out) (hout' : v.decontribute e' = .ok out') :
    out'.isSome = out.isSome := by
  obtain hnone | ⟨_, _, -, hrender⟩ := decontribute_branching hv hlayout
  · rw [hnone] at hout hout'
    rw [← Except.ok.inj hout, ← Except.ok.inj hout']
  · rw [hrender e rfl] at hout
    obtain hnone | ⟨_, _, -, hrender'⟩ := decontribute_branching hv hlayout'
    · -- without statements for one element there would be none for the other
      have hsome := isSome_of_rendered hout
      rw [← hrender e rfl, hnone] at hout
      rw [← Except.ok.inj hout] at hsome
      cases hsome
    · rw [hrender' e' rfl] at hout'
      rw [isSome_of_rendered hout, isSome_of_rendered hout']

end Kinds

/-! ## Artifacts -/

/-- An expression that has been lowered is distilled when the kind makes an artifact of it. -/
theorem distill_of_lowered {env : DistillEnv} {n : Node} {kind : String} {v : Visitor}
    (hkind : env.kinds.get kind = .ok v) {e : Element} {ws ws' : Workspace}
    (hlower : (n.lower ⟨env.schema, env.functions, env.config.filled.factParameter⟩).runIn
      { ws with accumulator := {} } = (.ok e, ws'))
    {a : Artifact} (hart : v.artifact kind env.config.filled (n.columns.map Column.name) e
      ws'.accumulator = .ok a) :
    (n.distill env kind).runIn ws = (.ok a, ws') := by
  unfold Node.distill
  have hget : (liftM (env.kinds.get kind) : Compile Visitor).runIn ws = (.ok v, ws) := by
    rw [Compile.runIn_lift, hkind]
  refine Compile.runIn_bind_ok_iff.2 ⟨v, ws, hget, ?_⟩
  refine Compile.runIn_bind_ok_iff.2 ⟨(), _, rfl, ?_⟩
  refine Compile.runIn_bind_ok_iff.2 ⟨e, ws', hlower, ?_⟩
  refine Compile.runIn_bind_ok_iff.2 ⟨ws', ws', rfl, ?_⟩
  rw [Compile.runIn_lift, hart]

/-- A distillation by a built-in kind succeeds under every wider schema. -/
theorem distill_widens {env : DistillEnv} {schema : List (String × DataType)} {n : Node}
    (hcalls : n.callees = []) (hw : WidensOn n.columns env.schema schema) {kind : String}
    {v : Visitor} (hv : v ∈ builtinKinds) (hkind : env.kinds.get kind = .ok v) {a : Artifact}
    {ws ws' : Workspace} (h : (n.distill env kind).runIn ws = (.ok a, ws')) (us : Workspace) :
    ∃ a' us', (n.distill { env with schema := schema } kind).runIn us = (.ok a', us') ∧
      a'.columns = a.columns ∧ a'.decontribute.isSome = a.decontribute.isSome ∧
      a'.output.accepts a.output = true := by
  obtain ⟨v', e, acc, hv', hlowers, hart⟩ := distill_ok h
  obtain rfl : v = v' := Except.ok.inj (hkind.symm.trans hv')
  have hmade := artifact_ok hart
  -- the expression under the wider schema
  have hcolumns : (distillSite { env with schema := schema } n ws'.cache).columns =
      (distillSite env n ws'.cache).columns := rfl
  obtain ⟨e', he', hwider⟩ := hlowers.widens hcolumns hcalls hw.references
  obtain ⟨us', hrun⟩ := he'.runs hcalls { us with accumulator := {} }
  -- the kind's routines for it
  obtain ⟨hnumeric, harray⟩ := DataType.accepts_class hwider.type
  obtain ⟨layout', hlayout'⟩ := layout_of_class hv hmade.layout hnumeric harray
  obtain ⟨body', out', hin', hout'⟩ := rows_supported hv hlayout' he'
  obtain ⟨a', hart', -, houta'⟩ := artifact_of_parts hv hlayout' hin' hout' kind env.config.filled
    (n.columns.map Column.name) us'.accumulator
  refine ⟨a', us', ?_, ?_, ?_, ?_⟩
  · apply distill_of_lowered
    · exact hkind
    · exact hrun
    · exact hart'
  · rw [(artifact_ok hart').columns_eq, hmade.columns_eq]
  · have hsome := decontribute_isSome hv hmade.layout hlayout' hmade.decontribute hout'
    rwa [← houta', Option.isSome_map, Option.isSome_map] at hsome
  · rw [(artifact_ok hart').output, hmade.output]
    exact hwider.type

/-- **Widening the schema never breaks a compilation.** Let an expression call nothing, and let a
second schema give each of its columns a type that accepts the first schema's. What is lowered under
the first is lowered under the second, to a type that accepts the former; and what a built-in kind
aggregates under the first it aggregates under the second, with the same columns, and with rows taken
out again in both cases or in neither. The workspaces of the two compilations need not be the same. -/
theorem wider_schema_compiles {schema schema' : List (String × DataType)} {n : Node}
    (hcalls : n.callees = []) (hw : WidensOn n.columns schema schema') :
    (∀ (functions : Option (Option MetadataService)) (fact : String) (e : Element)
        (ws ws' : Workspace), (n.lower ⟨schema, functions, fact⟩).runIn ws = (.ok e, ws') →
      ∀ us, ∃ e' us', (n.lower ⟨schema', functions, fact⟩).runIn us = (.ok e', us') ∧
        e'.type.accepts e.type = true) ∧
    ∀ (env : DistillEnv) (kind : String) (v : Visitor) (a : Artifact) (ws ws' : Workspace),
      v ∈ builtinKinds → env.kinds.get kind = .ok v →
        (n.distill { env with schema := schema } kind).runIn ws = (.ok a, ws') →
      ∀ us, ∃ a' us', (n.distill { env with schema := schema' } kind).runIn us = (.ok a', us') ∧
        a'.columns = a.columns ∧ a'.decontribute.isSome = a.decontribute.isSome ∧
        a'.output.accepts a.output = true := by
  refine ⟨fun functions fact e ws ws' h us => ?_, fun env kind v a ws ws' hv hkind h us => ?_⟩
  · exact lower_widens hcalls hw h us
  · have hschema : WidensOn n.columns { env with schema := schema }.schema schema' := hw
    exact distill_widens hcalls hschema hv hkind h us

/-- A vector scaled by the wider of two numbers, under a condition: the column `b` turns from `int` to
`double`, so that the branches no longer agree without widening. -/
theorem wider_schema_compiles_guarded :
    let a : Node := .column ⟨"a", ""⟩
    let b : Node := .column ⟨"b", ""⟩
    let v : Node := .column ⟨"v", ""⟩
    let n : Node := .guarded .lt a b (.arithmetic .mul v (.choice .gt a (.constant (.int 0)) a b))
    let schema : List (String × DataType) := [("a", .int), ("b", .int), ("v", .array .int)]
    let schema' : List (String × DataType) :=
      [("v", .array .long), ("b", .double), ("a", .int), ("c", .string)]
    ∃ e e' us us', (n.lower ⟨schema, none, ""⟩).runIn {} = (.ok e, us) ∧ e.type = .array .int ∧
      (n.lower ⟨schema', none, ""⟩).runIn {} = (.ok e', us') ∧ e'.type.accepts e.type = true ∧
      ∃ a a' ws ws', (n.distill { schema := schema } "sum").runIn {} = (.ok a, ws) ∧
        (n.distill { schema := schema' } "sum").runIn {} = (.ok a', ws') ∧
        a'.columns = a.columns ∧ a'.decontribute.isSome = a.decontribute.isSome ∧
        a'.output.accepts a.output = true := by
  intro a b v n schema schema'
  have hw : WidensOn n.columns schema schema' := by
    -- each column has a type under both schemas, and the second accepts the first
    have hall : ∀ c ∈ n.columns, (schema.lookup c.name).all
        (fun t => (schema'.lookup c.name).any (·.accepts t)) = true := by decide
    intro c hc t ht
    have hany := hall c hc
    rw [ht] at hany
    obtain ⟨t', ht', haccepts⟩ := (Option.any_eq_true _ _).1 hany
    exact ⟨t', ht', haccepts⟩
  obtain ⟨hlower, hdistill⟩ := wider_schema_compiles (n := n) rfl hw
  obtain ⟨e', us', he', htype⟩ := hlower none "" _ {} _ rfl {}
  obtain ⟨a', ws', ha', hparts⟩ := hdistill {} "sum" Kind.sum _ {} _ (by simp [builtinKinds]) rfl rfl {}
  exact ⟨_, e', _, us', rfl, rfl, he', htype, _, a', _, ws', rfl, ha', hparts⟩

end FactFold.Fold
