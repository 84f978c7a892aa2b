import FactFold.Proofs.Kind.Fitting

/-!
# Generated routines are closed and well indexed

Every name in a routine of an artifact is one of its parameters or a local variable declared before.
The routines for a row read the fact record at the places of the columns, at each of them and
nowhere else, by the method for the column's type; the others have no fact record. All routines use
fields that the buffers have, by methods for the types of these fields (`distill_well_indexed`).
-/

namespace FactFold

open Lowering Machine Fold

/-! ## Reads of the record in lowered code -/

namespace Lowering

theorem invoke_mem_readColumn {fact x m : String} {args : List Term} {i : Int} {t : DataType} :
    .invoke (.ident x) m args ∈ (readColumn (.ident fact) i t).parts ↔
      x = fact ∧ m = recordMethod t ∧ args = [.int i] := by
  -- a read that converts is a call or a cast around the method, and no call on a name
  have hread : Term.invoke (.ident x) m args = readColumn (.ident fact) i t →
      Term.invoke (.ident x) m args = .invoke (.ident fact) (recordMethod t) [.int i] := by
    intro h
    unfold readColumn at h
    split at h <;> first | exact h | cases h
  rw [mem_parts_readColumn]
  constructor
  · rintro (h | h | h | h)
    · simpa [and_assoc] using hread h
    · simpa [and_assoc] using h
    · simp at h
    · cases h
  · rintro ⟨rfl, rfl, rfl⟩
    exact .inr (.inl rfl)

variable {s : Site} {n : Node} {e : Element}

/-- The calls on a bare name in lowered code are the reads of the columns it refers to. -/
theorem Lowers.invoke_mem_iff (h : Lowers s n e) {x m : String} {args : List Term} :
    .invoke (.ident x) m args ∈ e.parts ↔ x = s.env.factName ∧ ∃ c ∈ n.references, ∃ i t,
      s.env.schema.lookup c.name = some t ∧
        s.columns.findIdx? (fun d => d.name = c.name) = some i ∧ m = recordMethod t ∧
        args = [.int i] := by
  constructor
  · intro hp
    cases h.origin _ hp with
    | column hc ht hi hp =>
      obtain ⟨rfl, rfl, rfl⟩ := invoke_mem_readColumn.1 hp
      exact ⟨rfl, _, hc, _, _, ht, hi, rfl, rfl⟩
    -- constants name nothing, and neither operators nor functions call a method of a name
    | constant hc hp => exact absurd rfl ((nameless_constantTerm _ _ hp).2 _ _ _)
    | call hf hp => cases hp
    | glue hp => cases hp
  · rintro ⟨rfl, c, hc, i, t, ht, hi, rfl, rfl⟩
    -- every column that is referred to has been read somewhere
    obtain ⟨j, u, hu, hj, hparts⟩ := h.reads c hc
    obtain rfl := Option.some.inj (hu.symm.trans ht)
    obtain rfl := Option.some.inj (hj.symm.trans hi)
    exact hparts _ (invoke_mem_readColumn.2 ⟨rfl, rfl, rfl⟩)

end Lowering

/-! ## Routines -/

/-- A routine for a row: it is closed, reads the fact record at the places of the columns and only
there, each by the method for the type of the column, and uses fields that the buffer has. -/
structure RowRoutine (env : DistillEnv) (a : Artifact) (r : Routine) : Prop where
  params : r.paramNames = [env.config.filled.factParameter, BufferRef.aggregation.name]
  closed : r.Closed
  typed : ∀ name ∈ a.columns, ∃ t, env.schema.lookup name = some t
  reads : ∀ m args, .invoke (.ident env.config.filled.factParameter) m args ∈ r.parts ↔
    ∃ (i : Nat) (name : String) (t : DataType), a.columns[i]? = some name ∧
      env.schema.lookup name = some t ∧ m = recordMethod t ∧ args = [.int i]
  fields : ∀ m args, .invoke (.ident BufferRef.aggregation.name) m args ∈ r.parts →
    AccessesField a.layout m args

/-- A routine that has buffers only: it is closed and uses fields that the buffers have. -/
structure BufferRoutine (a : Artifact) (buffers : List BufferRef) (r : Routine) : Prop where
  params : r.paramNames = buffers.map BufferRef.name
  closed : r.Closed
  fields : ∀ b ∈ buffers, ∀ m args, .invoke (.ident b.name) m args ∈ r.parts →
    AccessesField a.layout m args

variable {env : DistillEnv} {n : Node} {c : MetadataCache} {e : Element} {a : Artifact}

/-- The columns of an expression that has been lowered have types. -/
theorem Lowering.Lowers.typed (h : Lowers (distillSite env n c) n e) :
    ∀ name ∈ n.columns.map Column.name, ∃ t, env.schema.lookup name = some t := by
  intro name hname
  obtain ⟨d, hd, rfl⟩ := List.mem_map.1 hname
  obtain ⟨i, t, ht, -⟩ := h.reads d (Node.mem_references_of_mem_columns hd)
  exact ⟨t, ht⟩

/-- The record is read at the places of the columns, and only there. -/
theorem Lowering.Lowers.reads_columns (h : Lowers (distillSite env n c) n e) {x m : String}
    {args : List Term} :
    .invoke (.ident x) m args ∈ e.parts ↔ x = env.config.filled.factParameter ∧
      ∃ (i : Nat) (name : String) (t : DataType), (n.columns.map Column.name)[i]? = some name ∧
        env.schema.lookup name = some t ∧ m = recordMethod t ∧ args = [.int i] := by
  rw [h.invoke_mem_iff, distillSite_factName]
  refine and_congr_right fun _ => ⟨?_, ?_⟩
  · rintro ⟨d, hd, i, t, ht, hi, hm, hargs⟩
    exact ⟨i, d.name, t, Node.findIdx?_columns_iff.1 hi, ht, hm, hargs⟩
  · -- the name at a place is that of a column referred to
    rintro ⟨i, name, t, hname, ht, hm, hargs⟩
    have hplace := hname
    rw [List.getElem?_map] at hname
    obtain ⟨d, hd, rfl⟩ := Option.map_eq_some_iff.1 hname
    have hmem := Node.mem_references_of_mem_columns (List.mem_of_getElem? hd)
    exact ⟨d, hmem, i, t, ht, Node.findIdx?_columns_iff.2 hplace, hm, hargs⟩

/-- A routine rendered from fitting templates is one for a row. -/
theorem RowRoutine.of_rendered {imports : List String} {r : Routine}
    (hdistinct : env.config.filled.factParameter ≠ BufferRef.aggregation.name)
    (h : Lowers (distillSite env n c) n e) (hcolumns : a.columns = n.columns.map Column.name)
    (hparams : r.paramNames = [env.config.filled.factParameter, BufferRef.aggregation.name])
    (hr : RenderedFrom (Kind.rowFrame a.layout imports) e r.body) : RowRoutine env a r := by
  have hbody : Rendered (Kind.rowFrame a.layout imports) r.paramNames e r.body :=
    hr.rendered h (by rw [hparams]; simp) (by rw [hparams, distillSite_factName]; simp)
  -- a call on a bare name is a read of the record or an access to the buffer
  have hcalls : ∀ {x m args}, .invoke (.ident x) m args ∈ r.parts →
      .invoke (.ident x) m args ∈ e.parts ∨
        x = BufferRef.aggregation.name ∧ AccessesField a.layout m args := by
    intro x m args hp
    rcases hbody.origin _ hp with hp | ⟨_, _, _, hp⟩ | hp
    · exact .inl hp
    · cases hp
    · obtain ⟨hx, hfield⟩ | hx := hp.addresses
      · exact .inr ⟨by simpa [Kind.rowFrame] using hx, hfield⟩
      · cases hx
  -- the names differ, so the two sorts of calls cannot be confused
  refine ⟨hparams, hbody.known, hcolumns ▸ h.typed, fun m args => ⟨fun hp => ?_, fun hp => ?_⟩,
    fun m args hp => ?_⟩
  · rcases hcalls hp with hp | ⟨hx, -⟩
    · rw [hcolumns]
      exact (h.reads_columns.1 hp).2
    · exact absurd hx hdistinct
  · rw [hcolumns] at hp
    exact hbody.uses _ (h.reads_columns.2 ⟨rfl, hp⟩)
  · rcases hcalls hp with hp | ⟨-, hfield⟩
    · exact absurd (h.reads_columns.1 hp).1.symm hdistinct
    · exact hfield

/-- Statements that fit a frame of buffers are a routine for them. -/
theorem BufferRoutine.of_fits {k : Frame} {buffers : List BufferRef} {r : Routine}
    (hparams : r.paramNames = buffers.map BufferRef.name) (hlayout : k.layout = a.layout)
    (hlocals : ∀ b ∈ buffers, b.name ∉ k.locals)
    (hr : FitsAll k (buffers.map BufferRef.name) .null r.body) : BufferRoutine a buffers r := by
  refine ⟨hparams, ?_, fun b hb m args hp => ?_⟩
  · rw [Routine.Closed, hparams]
    exact hr.known
  · rcases hr.allowed _ hp with hp | hp
    · -- the code stands for nothing here: there is no expression
      simp at hp
    · obtain ⟨-, hfield⟩ | hlocal := hp.addresses
      · rwa [hlayout] at hfield
      · exact absurd hlocal (hlocals b hb)

/-- **Generated routines are closed and well indexed.** Whatever the expression, the schema and the
functions, every routine of a built-in kind mentions known names only; the routines for a row read
the fact record at the place of each column, by the method for its type, and nowhere else; the other
routines have no fact record; and all of them access fields that the buffers have, by methods for
the types of these fields. -/
theorem distill_well_indexed {kind : String} {v : Visitor} {ws ws' : Workspace}
    (hv : v ∈ builtinKinds) (hkind : env.kinds.get kind = .ok v)
    (hdistinct : env.config.filled.factParameter ≠ BufferRef.aggregation.name)
    (ha : (n.distill env kind).runIn ws = (.ok a, ws')) :
    RowRoutine env a a.contribute ∧ (∀ r ∈ a.decontribute, RowRoutine env a r) ∧
      BufferRoutine a [.mergeInput, .mergeOutput] a.merge ∧
      BufferRoutine a [.aggregation] a.terminate := by
  obtain ⟨v', e, acc, hv', he, hart⟩ := distill_ok ha
  obtain rfl : v = v' := Except.ok.inj (hkind.symm.trans hv')
  have hmade := artifact_ok hart
  have hfits := builtin_fitting hv
  refine ⟨?_, fun r hr => ?_, ?_, ?_⟩
  · exact .of_rendered hdistinct he hmade.columns_eq hmade.contribute_params
      (hfits.contribute hmade.layout hmade.contribute)
  · have hdecontribute := hmade.decontribute
    rw [Option.mem_def.1 hr] at hdecontribute
    exact .of_rendered hdistinct he hmade.columns_eq (hmade.decontribute_params r hr)
      (hfits.decontribute hmade.layout hdecontribute)
  · exact .of_fits hmade.merge_params rfl (by simp [Kind.mergeFrame])
      (hfits.merge hmade.layout hmade.merge)
  · exact .of_fits hmade.terminate_params rfl (by simp [Kind.resultFrame, BufferRef.aggregation])
      (hfits.terminate hmade.layout hmade.terminate)

/-- The mean of a scaled vector, of rows that satisfy a condition. -/
theorem distill_well_indexed_mean :
    let env : DistillEnv := { schema := [("a", .int), ("b", .array .double)] }
    let n : Node := .guarded .gt (.column ⟨"a", ""⟩) (.constant (.int 0))
      (.arithmetic .mul (.column ⟨"b", ""⟩) (.column ⟨"a", ""⟩))
    ∃ a ws, (n.distill env "mean").runIn {} = (.ok a, ws) ∧ a.columns = ["a", "b"] ∧
      a.layout = [.array .double, .int] ∧ RowRoutine env a a.contribute ∧
      (∀ r ∈ a.decontribute, RowRoutine env a r) ∧
      BufferRoutine a [.mergeInput, .mergeOutput] a.merge ∧
      BufferRoutine a [.aggregation] a.terminate := by
  intro env n
  obtain ⟨a, ws, ha, hcolumns, hlayout⟩ : ∃ a ws, (n.distill env "mean").runIn {} = (.ok a, ws) ∧
      a.columns = ["a", "b"] ∧ a.layout = [.array .double, .int] := ⟨_, _, rfl, rfl, rfl⟩
  exact ⟨a, ws, ha, hcolumns, hlayout,
    distill_well_indexed (v := Kind.mean) (by simp [builtinKinds]) (by rfl) (by decide) ha⟩

end FactFold
