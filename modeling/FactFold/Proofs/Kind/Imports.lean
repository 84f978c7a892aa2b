import FactFold.Proofs.Kind.Fitting

/-!
# Imports of generated routines

Imports are collected in four places: constants and operators on vectors add theirs while an
expression is lowered, functions add theirs when they are resolved, and a kind may have some of its
own. For an expression without calls the first two are all there is, and what they add can be read
off the expression (`node_imports`).

Every class that a routine calls a method of, or makes an object of, is imported. The class of dates
is an exception where it is only named by the cast around the read of a column: nothing is imported
for that (`distill_imports`).
-/

namespace FactFold

open Lowering Machine Fold

/-! ## Sorted lists of texts -/

theorem mem_insertText {s t : String} {l : List String} : s ∈ insertText t l ↔ s = t ∨ s ∈ l := by
  induction l with
  | nil => simp [insertText]
  | cons u l ih =>
    rw [insertText]
    split_ifs with hlt heq
    · simp
    · -- a text that is already there is not inserted again
      subst heq
      simp
    · rw [List.mem_cons, ih, List.mem_cons]
      tauto

theorem mem_foldl_insertText {s : String} {l : List String} : ∀ {texts : List String},
    s ∈ texts.foldl (fun l t => insertText t l) l ↔ s ∈ texts ∨ s ∈ l := by
  intro texts
  induction texts generalizing l with
  | nil => simp
  | cons t texts ih =>
    rw [List.foldl_cons, ih, mem_insertText, List.mem_cons]
    tauto

theorem mem_sortedTexts {s : String} {texts : List String} :
    s ∈ sortedTexts texts ↔ s ∈ texts ∧ s ≠ "" := by
  rw [sortedTexts, mem_foldl_insertText]
  simp

theorem mem_addImport {s name : String} (hname : name ≠ "") {a : Accumulator} :
    s ∈ (a.addImport name).imports ↔ s ∈ a.imports ∨ s = name := by
  rw [Accumulator.addImport, if_neg hname, mem_insertText, or_comm]

/-! ## What lowering adds -/

namespace Lowering

variable {env : LoweringEnv} {columns : List Column} {ws ws' : Workspace}

theorem constantImport?_ne_empty {c : Constant} {s : String} (h : constantImport? c = some s) :
    s ≠ "" := by
  cases c with
  | date | ints | longs | floats | doubles =>
    obtain rfl := Option.some.inj h
    decide
  | _ => cases h

theorem constant_imports {c : Constant} {e : Element} (h : (constant c).runIn ws = (.ok e, ws'))
    {s : String} :
    s ∈ ws'.accumulator.imports ↔ s ∈ ws.accumulator.imports ∨ constantImport? c = some s := by
  unfold constant at h
  cases hi : constantImport? c with
  | none =>
    simp only [hi, Compile.runIn_pure, Prod.mk.injEq] at h
    simp [← h.2]
  | some name =>
    simp only [hi] at h
    obtain ⟨_, u, hacc, h⟩ := Compile.runIn_bind_ok_iff.1 h
    simp only [Compile.runIn_accumulate, Prod.mk.injEq] at hacc
    simp only [Compile.runIn_pure, Prod.mk.injEq] at h
    obtain ⟨-, rfl⟩ := hacc
    obtain ⟨-, rfl⟩ := h
    rw [mem_addImport (constantImport?_ne_empty hi), Option.some.injEq, eq_comm (a := s)]

theorem operator_imports {op : Operator} {x y e : Element}
    (h : (operator op x y).runIn ws = (.ok e, ws')) {s : String} :
    s ∈ ws'.accumulator.imports ↔ s ∈ ws.accumulator.imports ∨
      (x.type.isArray || y.type.isArray) = true ∧ s = Operators.vectorImport := by
  unfold operator at h
  obtain ⟨e', v, happ, h⟩ := Compile.runIn_bind_ok_iff.1 h
  simp only [Compile.runIn_lift, Prod.mk.injEq] at happ
  obtain ⟨-, rfl⟩ := happ
  -- the helper class is added where one of the operands is a vector
  split at h
  · rename_i harray
    obtain ⟨_, u, hacc, h⟩ := Compile.runIn_bind_ok_iff.1 h
    simp only [Compile.runIn_accumulate, Prod.mk.injEq] at hacc
    simp only [Compile.runIn_pure, Prod.mk.injEq] at h
    obtain ⟨-, rfl⟩ := hacc
    obtain ⟨-, rfl⟩ := h
    rw [mem_addImport (by decide), harray]
    simp
  · rename_i harray
    simp only [Compile.runIn_pure, Prod.mk.injEq] at h
    simp [← h.2, harray]

/-- What an expression without calls needs to be imported. -/
def Needs (t : Typing) (n : Node) (s : String) : Prop :=
  (∃ c ∈ n.constants, constantImport? c = some s) ∨
    n.usesVectors t = true ∧ s = Operators.vectorImport

section Needs

variable {t : Typing} {l r yes no body : Node} {s : String}

/-- What two expressions need, an expression made of their constants and operators needs. -/
theorem needs_of_parts {n k m : Node} (hc : n.constants = k.constants ++ m.constants)
    (hv : n.usesVectors t = (k.usesVectors t || m.usesVectors t)) :
    Needs t n s ↔ Needs t k s ∨ Needs t m s := by
  simp only [Needs, hc, hv, List.mem_append, or_and_right, exists_or, Bool.or_eq_true]
  exact or_or_or_comm ..

theorem needs_comparison {op : Comparison} :
    Needs t (.comparison op l r) s ↔ (Needs t l s ∨ Needs t r s) ∨
      ((l.type t).isArray || (r.type t).isArray) = true ∧ s = Operators.vectorImport := by
  simp only [Needs, Node.constants, Node.usesVectors, List.mem_append, Bool.or_eq_true,
    or_and_right, exists_or]
  exact iff_of_eq (by ac_rfl)

theorem needs_arithmetic {op : Arithmetic} :
    Needs t (.arithmetic op l r) s ↔ Needs t (.comparison .eq l r) s := by
  simp only [Needs, Node.constants, Node.usesVectors]

theorem needs_guarded {op : Comparison} :
    Needs t (.guarded op l r body) s ↔ Needs t (.comparison op l r) s ∨ Needs t body s :=
  needs_of_parts rfl (by simp only [Node.usesVectors])

theorem needs_choice {op : Comparison} : Needs t (.choice op l r yes no) s ↔
    (Needs t (.comparison op l r) s ∨ Needs t yes s) ∨ Needs t no s := by
  rw [← needs_guarded]
  exact needs_of_parts rfl (by simp only [Node.usesVectors])

end Needs

/-- Where nothing is called, the type of an expression depends on the schema alone. -/
theorem type_of_run {n : Node} {e : Element} (h : (node env columns n).runIn ws = (.ok e, ws'))
    (hcalls : n.callees = []) (calls : CallTypes) : e.type = n.type ⟨env.schema, calls⟩ := by
  have hlowers : Lowers ⟨env, columns, calls⟩ n e := ((node_lowers h).2 _ (.refl _)).recalled hcalls
  exact hlowers.type_eq

/-- **Lowering an expression without calls adds just the imports that the expression needs.** -/
theorem node_imports (calls : CallTypes) : ∀ {n : Node} {e : Element} {ws ws' : Workspace},
    (node env columns n).runIn ws = (.ok e, ws') → n.callees = [] → ∀ {s : String},
      s ∈ ws'.accumulator.imports ↔
        s ∈ ws.accumulator.imports ∨ Needs ⟨env.schema, calls⟩ n s
  | .column c, e, ws, ws', h, _, s => by
    rw [node] at h
    obtain ⟨-, rfl⟩ := column_ok h calls
    simp [Needs, Node.constants, Node.usesVectors]
  | .constant c, e, ws, ws', h, _, s => by
    rw [node] at h
    rw [constant_imports h]
    simp [Needs, Node.constants, Node.usesVectors]
  | .arithmetic op l r, e, ws, ws', h, hn, s => by
    obtain ⟨hln, hrn⟩ := List.append_eq_nil_iff.1 hn
    rw [node] at h
    obtain ⟨x, v₁, hx, h⟩ := Compile.runIn_bind_ok_iff.1 h
    obtain ⟨y, v₂, hy, h⟩ := Compile.runIn_bind_ok_iff.1 h
    -- both operands, and the operator by the types they have
    rw [operator_imports h, node_imports calls hy hrn, node_imports calls hx hln,
      type_of_run hx hln calls, type_of_run hy hrn calls, needs_arithmetic, needs_comparison]
    simp only [or_assoc]
  | .comparison op l r, e, ws, ws', h, hn, s => by
    obtain ⟨hln, hrn⟩ := List.append_eq_nil_iff.1 hn
    rw [node] at h
    obtain ⟨x, v₁, hx, h⟩ := Compile.runIn_bind_ok_iff.1 h
    obtain ⟨y, v₂, hy, h⟩ := Compile.runIn_bind_ok_iff.1 h
    rw [operator_imports h, node_imports calls hy hrn, node_imports calls hx hln,
      type_of_run hx hln calls, type_of_run hy hrn calls, needs_comparison]
    simp only [or_assoc]
  | .guarded op l r body, e, ws, ws', h, hn, s => by
    obtain ⟨hcn, hbn⟩ := List.append_eq_nil_iff.1 hn
    obtain ⟨hln, hrn⟩ := List.append_eq_nil_iff.1 hcn
    rw [node] at h
    obtain ⟨x, v₁, hx, h⟩ := Compile.runIn_bind_ok_iff.1 h
    obtain ⟨y, v₂, hy, h⟩ := Compile.runIn_bind_ok_iff.1 h
    obtain ⟨c, v₃, hc, h⟩ := Compile.runIn_bind_ok_iff.1 h
    obtain ⟨b, v₄, hb, h⟩ := Compile.runIn_bind_ok_iff.1 h
    simp only [Compile.runIn_lift, Prod.mk.injEq] at h
    -- the workspace is threaded from the condition to the body
    rw [← h.2, node_imports calls hb hbn, operator_imports hc, node_imports calls hy hrn,
      node_imports calls hx hln, type_of_run hx hln calls, type_of_run hy hrn calls, needs_guarded,
      needs_comparison]
    simp only [or_assoc]
  | .choice op l r yes no, e, ws, ws', h, hn, s => by
    obtain ⟨hn, hnn⟩ := List.append_eq_nil_iff.1 hn
    obtain ⟨hcn, hyn⟩ := List.append_eq_nil_iff.1 hn
    obtain ⟨hln, hrn⟩ := List.append_eq_nil_iff.1 hcn
    rw [node] at h
    obtain ⟨x, v₁, hx, h⟩ := Compile.runIn_bind_ok_iff.1 h
    obtain ⟨y, v₂, hy, h⟩ := Compile.runIn_bind_ok_iff.1 h
    obtain ⟨c, v₃, hc, h⟩ := Compile.runIn_bind_ok_iff.1 h
    obtain ⟨z, v₄, hz, h⟩ := Compile.runIn_bind_ok_iff.1 h
    obtain ⟨u, v₅, hu, h⟩ := Compile.runIn_bind_ok_iff.1 h
    simp only [Compile.runIn_lift, Prod.mk.injEq] at h
    rw [← h.2, node_imports calls hu hnn, node_imports calls hz hyn, operator_imports hc,
      node_imports calls hy hrn, node_imports calls hx hln, type_of_run hx hln calls,
      type_of_run hy hrn calls, needs_choice, needs_comparison]
    simp only [or_assoc]
  | .call f args, _, _, _, _, hn, _ => by cases hn

/-! ## What lowered code needs -/

/-- The import that a part of a constant's code needs is the constant's. -/
theorem import?_constantTerm {c : Constant} {p : Term} {s : String}
    (hp : p ∈ (constantTerm c).parts) (hs : p.import? = some s) : constantImport? c = some s := by
  have harray : ∀ {n : Numeric} {items : List Scalar}, p ∈ (arrayTerm n items).parts →
      vectorPackage ++ vectorClass n = s := by
    intro n items hp
    -- of the parts of an array's code only the constructor is imported
    obtain ⟨args, rfl⟩ | ⟨literals, rfl⟩ | ⟨item, rfl⟩ := mem_parts_arrayTerm hp
    · cases n <;> exact Option.some.inj hs
    · cases hs
    · cases hs
  cases c with
  | ints ns | longs ns => exact congrArg some (harray hp)
  | floats xs | doubles xs => exact congrArg some (harray hp)
  | date d =>
    simp only [constantTerm, Term.parts, Term.partsAll, Term.parts_int, List.mem_cons,
      List.mem_append, List.not_mem_nil, or_false] at hp
    -- the call itself, and its three arguments
    rcases hp with rfl | rfl | rfl | rfl
    · exact hs
    all_goals cases hs
  | _ =>
    simp only [constantTerm, Term.parts, List.mem_singleton] at hp
    subst hp
    cases hs

/-- A part that operators add needs an import only if it is on vectors. -/
theorem import?_glue {vectors : Bool} {p : Term} {s : String}
    (hp : Operators.isGlue vectors p = true) (hs : p.import? = some s) :
    vectors = true ∧ s = Operators.vectorImport := by
  cases p with
  | call f args =>
    simp only [Operators.isGlue, Bool.and_eq_true, List.any_eq_true, decide_eq_true_eq] at hp
    obtain ⟨hv, m, -, rfl⟩ := hp
    -- such a call is on the helper class, which its name tells
    have hprefix : (Operators.vectorClass ++ ".").toList.isPrefixOf
        (Operators.vectorClass ++ "." ++ m).toList = true := by
      rw [List.isPrefixOf_iff_prefix, String.toList_append (t := m)]
      exact List.prefix_append _ _
    rw [Term.import?, if_pos hprefix] at hs
    exact ⟨hv, (Option.some.inj hs).symm⟩
  | new => cases hp
  | _ => cases hs

/-- **Every import that lowered code needs, its expression needs.** -/
theorem Lowers.needs {s : Site} {n : Node} {e : Element} (h : Lowers s n e) (hn : n.callees = [])
    {p : Term} (hp : p ∈ e.parts) {i : String} (hi : p.import? = some i) : Needs s.typing n i := by
  cases h.origin p hp with
  | @column _ _ t _ _ _ hp =>
    -- nothing is imported for the read of a column
    rcases mem_parts_readColumn.1 hp with rfl | rfl | hp | rfl
    · cases t <;> cases hi
    · cases hi
    · obtain rfl : p = .ident s.env.factName := by simpa using hp
      cases hi
    · cases hi
  | constant hc hp => exact .inl ⟨_, hc, import?_constantTerm hp hi⟩
  | call hf hp =>
    rw [hn] at hf
    cases hf
  | glue hp => exact .inr (import?_glue hp hi)

end Lowering

/-! ## Imports of an artifact -/

variable {env : DistillEnv} {n : Node} {kind : String} {a : Artifact} {ws ws' : Workspace}

/-- A distillation that succeeds has lowered the expression with nothing imported before, and the
artifact has what was imported then beside what is configured and what the kind brings. -/
theorem distill_collects (h : (n.distill env kind).runIn ws = (.ok a, ws')) :
    ∃ v e, env.kinds.get kind = .ok v ∧
      (n.lower (distillSite env n ws'.cache).env).runIn { ws with accumulator := {} } =
        (.ok e, ws') ∧
      v.artifact kind env.config.filled (n.columns.map Column.name) e ws'.accumulator = .ok a ∧
      ∀ s, s ∈ a.imports ↔ (s ∈ env.config.filled.defaultImports.getD [] ∨
        s ∈ ws'.accumulator.imports ∨ s ∈ v.importsFor e.type) ∧ s ≠ "" := by
  obtain ⟨v, e, hv, hlower, hart⟩ := distill_lowered h
  refine ⟨v, e, hv, hlower, hart, fun s => ?_⟩
  rw [(artifact_ok hart).imports]
  simp only [Visitor.importsFor, mem_sortedTexts, List.mem_append, or_assoc]

/-- The only import that a built-in kind brings is the one for negative parts. -/
theorem eq_of_mem_importsFor {v : Visitor} (hv : v ∈ builtinKinds) {t : DataType} {s : String}
    (hs : s ∈ v.importsFor t) : s = Kind.negativeVectorImport := by
  simp only [builtinKinds, List.mem_cons, List.not_mem_nil, or_false] at hv
  rcases hv with rfl | rfl | rfl | rfl | rfl | rfl | rfl
  -- the negative part; no other kind has imports
  case inr.inr.inr.inr.inl =>
    simp only [Visitor.importsFor, Kind.short, Option.map_some, Option.getD_some] at hs
    split at hs
    · simpa using hs
    · cases hs
  all_goals cases hs

theorem import?_ne_empty {p : Term} {s : String} (h : p.import? = some s) : s ≠ "" := by
  cases p with
  | call f args =>
    rw [Term.import?] at h
    split_ifs at h
    · obtain rfl := Option.some.inj h
      decide
    · obtain rfl := Option.some.inj h
      decide
  | new type args =>
    rw [Term.import?] at h
    split_ifs at h
    · obtain rfl := Option.some.inj h
      decide
    · obtain rfl := Option.some.inj h
      simp [vectorPackage]
  | _ => cases h

/-- An expression needs the import of dates just when it has a date among its constants. -/
theorem Lowering.needs_dateImport {t : Typing} :
    Needs t n dateImport ↔ ∃ d, .date d ∈ n.constants := by
  constructor
  · rintro (⟨c, hc, himport⟩ | ⟨-, hvector⟩)
    · cases c with
      | date d => exact ⟨d, hc⟩
      | ints | longs | floats | doubles => exact absurd (Option.some.inj himport) (by decide)
      | _ => cases himport
    · exact absurd hvector (by decide)
  · rintro ⟨d, hd⟩
    exact .inl ⟨_, hd, rfl⟩

/-- **Every class that a routine calls or instantiates is imported; one that it only casts to is
not.** For an expression without calls and a built-in kind, the helper class of vectors, the vector
classes and the class of dates are imported where a routine has a call or a constructor of theirs.
The class of dates is imported just when a date is among the constants, unless it is configured; but
the routines for a row also name it in a cast around every read of a column of dates. -/
theorem distill_imports {v : Visitor} (hv : v ∈ builtinKinds) (hkind : env.kinds.get kind = .ok v)
    (hcalls : n.callees = []) (ha : (n.distill env kind).runIn ws = (.ok a, ws')) :
    (∀ r ∈ a.routines, ∀ p ∈ r.parts, ∀ s, p.import? = some s → s ∈ a.imports) ∧
      (dateImport ∈ a.imports ↔ dateImport ∈ env.config.filled.defaultImports.getD [] ∨
        ∃ d, .date d ∈ n.constants) ∧
      ∀ c ∈ n.references, env.schema.lookup c.name = some .localDate →
        ∀ r ∈ a.contribute :: a.decontribute.toList, ∃ x, .cast "LocalDate" x ∈ r.parts := by
  obtain ⟨v', e, hv', hrun, hart, himports⟩ := distill_collects ha
  obtain rfl : v = v' := Except.ok.inj (hkind.symm.trans hv')
  have he : Lowers (distillSite env n ws'.cache) n e := (node_lowers hrun).2 _ (.refl _)
  -- nothing was imported before, so what is collected is what the expression needs
  have hcollected : ∀ s, s ∈ ws'.accumulator.imports ↔
      Needs (distillSite env n ws'.cache).typing n s := by
    intro s
    rw [node_imports ws'.cache.callTypes hrun hcalls]
    exact or_iff_right List.not_mem_nil
  have hmade := artifact_ok hart
  have hfits := builtin_fitting hv
  -- both routines for a row are rendered from the element
  have hrow : ∀ r ∈ a.contribute :: a.decontribute.toList,
      Rendered (Kind.rowFrame a.layout (v.importsFor e.type))
        [(distillSite env n ws'.cache).env.factName, Kind.agg.name] e r.body := by
    intro r hr
    rcases List.mem_cons.1 hr with rfl | hr
    · exact (hfits.contribute hmade.layout hmade.contribute).rendered he (by simp) (by simp)
    · rw [Option.mem_toList] at hr
      have hdecontribute := hmade.decontribute
      rw [hr] at hdecontribute
      exact (hfits.decontribute hmade.layout hdecontribute).rendered he (by simp) (by simp)
  have hbrought : ∀ {p : Term} {s : String}, p.import? = some s → s ∈ v.importsFor e.type →
      s ∈ a.imports := fun hp hs => (himports _).2 ⟨.inr (.inr hs), import?_ne_empty hp⟩
  refine ⟨fun r hr p hp s hs => ?_, ?_, fun c hc ht r hr => ?_⟩
  · rw [Artifact.routines, List.mem_append] at hr
    rcases hr with hr | hr
    · rcases (hrow r hr).origin p hp with hp | ⟨_, _, _, rfl⟩ | hp
      · have hneeds := he.needs hcalls hp hs
        exact (himports s).2 ⟨.inr (.inl ((hcollected s).2 hneeds)), import?_ne_empty hs⟩
      · cases hs
      · exact hbrought hs (hp.imported s hs)
    · -- the other routines have code of the kind only
      have hown : ∀ {k : Frame} {scope ss}, k.imports = v.importsFor e.type →
          FitsAll k scope .null ss → p ∈ Stmt.partsAll ss → s ∈ a.imports := by
        intro k scope ss himp hss hp
        rcases hss.allowed p hp with hp | hp
        · obtain rfl : p = .null := by simpa using hp
          cases hs
        · exact hbrought hs (himp ▸ hp.imported s hs)
      simp only [List.mem_cons, List.not_mem_nil, or_false] at hr
      rcases hr with rfl | rfl
      · exact hown rfl (hfits.merge hmade.layout hmade.merge) hp
      · exact hown rfl (hfits.terminate hmade.layout hmade.terminate) hp
  · -- no kind brings dates, so they are configured or constants
    rw [himports, hcollected, needs_dateImport]
    have hkindless : dateImport ∉ v.importsFor e.type := fun h =>
      absurd (eq_of_mem_importsFor hv h) (by decide)
    have hne : dateImport ≠ "" := by decide
    simp [hkindless, hne]
  · -- the read of a column is rendered as it is, cast included
    obtain ⟨i, t, ht', hi, hparts⟩ := he.reads c hc
    obtain rfl := Option.some.inj (ht'.symm.trans ht)
    exact ⟨_, (hrow r hr).uses _ (hparts _ (Term.self_mem_parts _))⟩

/-- A choice by dates between two vectors has the vector classes imported, but not the dates. -/
theorem distill_imports_dates :
    let env : DistillEnv :=
      { schema := [("d", .localDate), ("e", .localDate), ("v", .array .int)] }
    let n : Node := .choice .eq (.column ⟨"d", ""⟩) (.column ⟨"e", ""⟩) (.column ⟨"v", ""⟩)
      (.constant (.ints [1, 2]))
    ∃ a ws, (n.distill env "short").runIn {} = (.ok a, ws) ∧
      (∀ r ∈ a.routines, ∀ p ∈ r.parts, ∀ s, p.import? = some s → s ∈ a.imports) ∧
      Kind.negativeVectorImport ∈ a.imports ∧ dateImport ∉ a.imports ∧
      ∃ x, .cast "LocalDate" x ∈ a.contribute.parts := by
  intro env n
  obtain ⟨a, ws, ha, hnegative⟩ : ∃ a ws, (n.distill env "short").runIn {} = (.ok a, ws) ∧
      Kind.negativeVectorImport ∈ a.imports := ⟨_, _, rfl, by decide⟩
  obtain ⟨hnamed, hdate, hcast⟩ :=
    distill_imports (v := Kind.short) (by simp [builtinKinds]) (by rfl) rfl ha
  refine ⟨a, ws, ha, hnamed, hnegative, fun h => ?_, ?_⟩
  · rcases hdate.1 h with h | ⟨d, hd⟩
    · exact absurd h (by decide)
    · simp [n, Node.constants] at hd
  · exact hcast ⟨"d", ""⟩ (by simp [n, Node.references]) rfl _ List.mem_cons_self

end FactFold
