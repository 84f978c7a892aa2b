import FactFold.Proofs.Kind.Widening

/-!
# What a kind supports

The parts of a kind are asked one after the other, and each decides for itself whether there is a
template for the expression. They decide alike. Which types a kind supports (`Visitor.supports`) can
be told from the type alone: a kind that supports the type of a lowered element has every part for it
(`Visitor.Answers`), and one that does not refuses in every part, always with the same failure
(`Visitor.Refuses`). That a smallest or a largest number cannot be taken back is no failure.

So a distillation that has come as far as the layout of the buffer runs to its end.
-/

namespace FactFold

/-- The kind folds vectors besides numbers. -/
def Visitor.foldsVectors (v : Visitor) : Bool := ["mean", "short", "sum"].contains v.kind

/-- The kind can take a row out again. -/
def Visitor.isInvertible (v : Visitor) : Bool := !(["min", "max"].contains v.kind)

/-- The kind aggregates expressions of a type. -/
def Visitor.supports (v : Visitor) (t : DataType) : Bool :=
  t.isNumeric || t.isArray && v.foldsVectors

/-- Every part of the kind has a result for the element. -/
structure Visitor.Answers (v : Visitor) (e : Element) : Prop where
  layout : ∃ layout, v.layout e.type = .ok layout
  contribute : ∃ body, v.contribute e = .ok body
  decontribute : ∃ out, v.decontribute e = .ok out ∧ out.isSome = v.isInvertible
  merge : ∃ body, v.merge e.type = .ok body
  terminate : ∃ body, v.terminate e.type = .ok body
  terminateType : ∃ type, v.terminateType e.type = .ok type

/-- Every part of the kind gives up on the type of the element, but a part that the kind does not
have. -/
structure Visitor.Refuses (v : Visitor) (e : Element) (f : Failure) : Prop where
  layout : v.layout e.type = .error f
  contribute : v.contribute e = .error f
  decontribute : v.decontribute e = if v.isInvertible then .error f else .ok none
  merge : v.merge e.type = .error f
  terminate : v.terminate e.type = .error f
  terminateType : v.terminateType e.type = .error f

namespace Fold

open Lowering

/-! ## Types -/

theorem onScalar_refuses {α : Type} {kind : String} {t : DataType} (h : t.isNumeric = false)
    (x : Except Failure α) : Kind.onScalar kind t x = .error (.kindWithoutTemplate kind t) := by
  rw [Kind.onScalar, h]
  rfl

theorem onNumeric_refuses {α : Type} {kind : String} {t : DataType} (h : t.isNumeric = false)
    (h' : t.isArray = false) (x : Except Failure α) :
    Kind.onNumeric kind t x = .error (.kindWithoutTemplate kind t) := by
  rw [Kind.onNumeric, h, h']
  rfl

section Kinds

variable {v : Visitor} (hv : v ∈ builtinKinds)

include hv

/-- The layout alone tells whether a type is supported. -/
theorem layout_ok_of_supports {t : DataType} (h : v.supports t = true) :
    ∃ layout, v.layout t = .ok layout := by
  obtain ⟨k, rfl⟩ | ⟨k, rfl⟩ := builtin_cases hv
  · cases k with
    | sum | mean | short =>
      have ht : t.isNumeric = true ∨ t.isArray = true := by
        simpa [Visitor.supports, Visitor.foldsVectors, Additive.visitor, Kind.sum, Kind.mean,
          Kind.short] using h
      exact ⟨_, onNumeric_of ht _⟩
    | squareSum =>
      have ht : t.isNumeric = true := by
        simpa [Visitor.supports, Visitor.foldsVectors, Additive.visitor, Kind.squareSum] using h
      exact ⟨_, onScalar_of ht _⟩
  · have ht : t.isNumeric = true := by
      cases k <;> simpa [Visitor.supports, Visitor.foldsVectors, Combining.visitor, Kind.min,
        Kind.max, Kind.extremum, Kind.multiply] using h
    cases k <;> exact ⟨_, onScalar_of ht _⟩

theorem refuses_of_not_supports {e : Element} (h : v.supports e.type = false) :
    v.Refuses e (.kindWithoutTemplate v.kind e.type) := by
  have hnumeric : e.type.isNumeric = false := by
    cases ht : e.type.isNumeric with
    | false => rfl
    | true => simp [Visitor.supports, ht] at h
  obtain ⟨k, rfl⟩ | ⟨k, rfl⟩ := builtin_cases hv
  · cases k with
    | squareSum =>
      constructor
      all_goals exact onScalar_refuses hnumeric _
    | sum | mean | short =>
      -- neither a number nor a vector, since these kinds fold both
      have harray : e.type.isArray = false := by
        simpa [Visitor.supports, Visitor.foldsVectors, hnumeric, Additive.visitor, Kind.sum, Kind.mean,
          Kind.short] using h
      refine ⟨onNumeric_refuses hnumeric harray _, onNumeric_refuses hnumeric harray _,
        onNumeric_refuses hnumeric harray _, ?_, ?_, ?_⟩
      all_goals
        -- what remains depends on the type alone
        generalize e.type = t at hnumeric harray ⊢
        cases t with
        | scalar n => cases hnumeric
        | array n => cases harray
        | _ => rfl
  · cases k with
    | min | max =>
      refine ⟨?_, ?_, rfl, ?_, ?_, ?_⟩
      all_goals exact onScalar_refuses hnumeric _
    | product =>
      constructor
      all_goals exact onScalar_refuses hnumeric _

/-- The kinds that have statements to take a row out have them for every element they support. -/
theorem isSome_decontribute {e : Element} {out : Option (List Stmt)} (h : v.decontribute e = .ok out) :
    out.isSome = v.isInvertible := by
  obtain ⟨k, rfl⟩ | ⟨k, rfl⟩ := builtin_cases hv
  · cases k with
    | squareSum => exact isSome_of_rendered (onScalar_ok h).1
    | sum | mean | short => exact isSome_of_rendered (onNumeric_ok h).1
  · cases k with
    | min | max =>
      obtain rfl := Except.ok.inj h
      rfl
    | product => exact isSome_of_rendered (onScalar_ok h).1

theorem answers_of_supports {s : Site} {n : Node} {e : Element} (he : Lowers s n e)
    (h : v.supports e.type = true) : v.Answers e := by
  obtain ⟨layout, hlayout⟩ := layout_ok_of_supports hv h
  obtain ⟨type, merge, terminate, htype, hmerge, hterminate⟩ := type_supported hv hlayout
  obtain ⟨body, out, hbody, hout⟩ := rows_supported hv hlayout he
  exact
    { layout := ⟨layout, hlayout⟩
      contribute := ⟨body, hbody⟩
      decontribute := ⟨out, hout, isSome_decontribute hv hout⟩
      merge := ⟨merge, hmerge⟩
      terminate := ⟨terminate, hterminate⟩
      terminateType := ⟨type, htype⟩ }

end Kinds

/-- **The parts of a built-in kind agree on what they support.** For an element that was lowered under
any schema and with any functions, all of them answer or all of them report the same failure, and
which of the two is told by the type of the element. A distillation that has lowered its expression
and found the layout of the buffer is therefore certain to end with an artifact. -/
theorem parts_agree {v : Visitor} (hv : v ∈ builtinKinds) (n : Node) :
    (∀ (env : LoweringEnv) (e : Element) (ws ws' : Workspace),
      (n.lower env).runIn ws = (.ok e, ws') →
        if v.supports e.type then v.Answers e
        else ∃ f, v.Refuses e f ∧ f.report.category? = some (.unsupportedOutputType, [e.type])) ∧
    ∀ (env : DistillEnv) (kind : String) (e : Element) (layout : Layout) (ws ws' : Workspace),
      env.kinds.get kind = .ok v →
        (n.lower ⟨env.schema, env.functions, env.config.filled.factParameter⟩).runIn
          { ws with accumulator := {} } = (.ok e, ws') →
          v.layout e.type = .ok layout →
            ∃ a, (n.distill env kind).runIn ws = (.ok a, ws') ∧ a.layout = layout := by
  constructor
  · intro env e ws ws' h
    have he := (node_lowers h).2 ws'.cache (.refl _)
    split
    case isTrue hsupports => exact answers_of_supports hv he hsupports
    case isFalse hnot =>
      exact ⟨_, refuses_of_not_supports hv (Bool.eq_false_iff.2 hnot), rfl⟩
  · intro env kind e layout ws ws' hkind hlower hlayout
    have he := (node_lowers hlower).2 ws'.cache (.refl _)
    obtain ⟨body, out, hbody, hout⟩ := rows_supported hv hlayout he
    obtain ⟨a, ha, -⟩ := artifact_of_parts hv hlayout hbody hout kind env.config.filled
      (n.columns.map Column.name) ws'.accumulator
    refine ⟨a, distill_of_lowered hkind hlower ha, ?_⟩
    exact Except.ok.inj ((artifact_ok ha).layout.symm.trans hlayout)

/-- A guarded choice of vectors has a mean, and no smallest value. -/
theorem parts_agree_vectors :
    let a : Node := .column ⟨"a", ""⟩
    let v : Node := .column ⟨"v", ""⟩
    let n : Node := .guarded .lt a (.constant (.int 2))
      (.choice .gt a (.constant (.int 0)) v (.arithmetic .mul v a))
    let env : DistillEnv := { schema := [("a", .int), ("v", .array .int)] }
    ∃ e ws, (n.lower ⟨env.schema, env.functions, env.config.filled.factParameter⟩).runIn {} =
        (.ok e, ws) ∧
      (∃ f, Kind.min.Refuses e f ∧ f.report.category? = some (.unsupportedOutputType, [e.type])) ∧
      Kind.mean.Answers e ∧
      ∃ art, (n.distill env "mean").runIn {} = (.ok art, ws) ∧ art.layout = [.array .int, .int] := by
  intro a v n env
  obtain ⟨hmean, hdistill⟩ := parts_agree (v := Kind.mean) (by simp [builtinKinds]) n
  obtain ⟨hmin, -⟩ := parts_agree (v := Kind.min) (by simp [builtinKinds]) n
  refine ⟨_, _, rfl, ?_, ?_, ?_⟩
  · exact hmin ⟨env.schema, env.functions, env.config.filled.factParameter⟩ _ {} _ rfl
  · exact hmean ⟨env.schema, env.functions, env.config.filled.factParameter⟩ _ {} _ rfl
  · exact hdistill env "mean" _ _ {} _ rfl rfl rfl

end Fold

end FactFold
