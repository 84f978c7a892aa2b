import FactFold.Proofs.Kind.Runs
import FactFold.Proofs.Lowering.Renaming

/-!
# Routines for rows under other names

The built-in kinds put statements of their own around the code of an expression. These mention the
buffer and the local variable that holds the row's value, and the variable is declared before
anything that mentions it. A template commutes with every renaming that keeps those two names, and
what it makes of the code of an expression does not mention the fact record once the variable is
declared (`Template.Renames`), so that the variable may hide the record. Rendering distributes this
over the branches of a condition (`render_tame`), each of which declares the variable anew.
-/

namespace FactFold

open Machine Lowering Kind

/-! ## Templates -/

/-- The names that statements about a row know, where the fact record has its usual name. -/
def rowScope : List String := ["fact", agg.name]

/-- The renaming keeps the names that templates bring in themselves. -/
structure KeepsOwn (σ : String → String) : Prop where
  value : σ valueName = valueName
  agg : σ agg.name = agg.name

/-- The template commutes with the renaming, and makes tame statements of direct code. -/
structure Template.Renames (σ : String → String) (T : Template) : Prop where
  commutes : T.Commutes σ
  tame : ∀ {code}, Direct rowScope code → TameAll σ rowScope (T code)

section

variable {σ : String → String}

/-- Such templates render to tame statements. -/
theorem render_tame {numeric array : Option Template} (hn : ∀ T ∈ numeric, T.Renames σ)
    (ha : ∀ T ∈ array, T.Renames σ) : ∀ {e : Element} {ss : List Stmt},
      (∀ p ∈ e.parts, isDirect rowScope p = true) → e.render numeric array = .ok ss →
        TameAll σ rowScope ss
  | .basic code t, ss, hdirect, h => by
    rw [Element.render] at h
    split at h
    · rename_i T htemplate
      obtain rfl := Except.ok.inj h
      -- only numbers and vectors have a template
      cases t with
      | scalar n => exact (hn T htemplate).tame hdirect
      | array n => exact (ha T htemplate).tame hdirect
      | _ => cases htemplate
    · cases h
  | .guarded c body, ss, hdirect, h => by
    obtain ⟨code, yes, hcode, hyes, rfl⟩ := render_guarded_ok h
    obtain ⟨hc, hbody⟩ := List.forall_mem_append.1 hdirect
    exact ⟨⟨Element.direct_value hcode hc, render_tame hn ha hbody hyes, trivial⟩, trivial⟩
  | .choice c y n t, ss, hdirect, h => by
    obtain ⟨code, yes, no, hcode, hyes, hno, rfl⟩ := render_choice_ok h
    rw [Element.parts, List.forall_mem_append, List.forall_mem_append] at hdirect
    obtain ⟨hc, hy, hn'⟩ := hdirect
    exact ⟨⟨Element.direct_value hcode hc, render_tame hn ha hy hyes, render_tame hn ha hn' hno⟩,
      trivial⟩

end

namespace Kind

@[simp] theorem agg_plain : agg.name.toList.all isNameChar = true := by decide

@[simp] theorem value_plain : valueName.toList.all isNameChar = true := by decide

@[simp] theorem agg_mem_rowScope : agg.name ∈ rowScope := by simp [rowScope]

@[simp] theorem value_ne_agg : valueName ≠ agg.name := by decide

theorem direct_read {scope : List String} (h : agg.name ∈ scope) (f : Int) (t : DataType) :
    Direct scope (agg.read f t) := by
  unfold BufferRef.read
  split <;> simp [BufferRef.readVector, BufferRef.method, h, Term.int]

section

variable {σ : String → String} (hσ : KeepsOwn σ)

include hσ

theorem read_rename (f : Int) (t : DataType) : (agg.read f t).rename σ = agg.read f t := by
  unfold BufferRef.read
  split <;> simp [BufferRef.readVector, BufferRef.method, hσ.agg, Term.int]

/-- A template that adds a term of the value to the first field. -/
theorem adding_renames {t : DataType} {g : Term → Term} {rest : List Stmt}
    (hg : ∀ code, g (code.rename σ) = (g code).rename σ)
    (hdirect : ∀ {code}, Direct rowScope code → Direct rowScope (g code))
    (hrest : Stmt.renameAll σ rest = rest)
    (htame : ∀ {scope}, agg.name ∈ scope → TameAll σ scope rest) :
    Template.Renames σ fun value => agg.add 0 (g value) t :: rest := by
  refine ⟨fun code => ?_, fun hcode => ⟨?_, htame ?_⟩⟩
  · simp [BufferRef.add, BufferRef.method, Term.int, hσ.agg, hg, hrest]
  · simp [BufferRef.add, BufferRef.method, Term.int, hdirect hcode]
  · simp [BufferRef.add, Stmt.mem_visible]

/-- A template that binds the row's value to its variable first. What follows does not mention the
record. -/
theorem declared_renames {t : DataType} {rest : List Stmt} (hrest : Stmt.renameAll σ rest = rest)
    (htame : ∀ {scope}, agg.name ∈ scope → valueName ∈ scope → TameAll σ scope rest) :
    Template.Renames σ fun value => declareValue t value :: rest := by
  -- the variable may have the name of the record: the code is evaluated before it is declared
  refine ⟨fun code => ?_, fun hcode => ⟨⟨hσ.value, hcode⟩, htame ?_ (by simp [declareValue])⟩⟩
  · simp [declareValue, hrest]
  · simp [declareValue, Stmt.mem_visible, hσ.agg, value_ne_agg.symm]

/-- A template that takes a vector in. -/
theorem accumulating_renames {t : DataType} {first : Term} {m : String} {rest : List Stmt}
    (hfirst : first.rename σ = first) (hdirect : ∀ {scope}, valueName ∈ scope → Direct scope first)
    (hrest : Stmt.renameAll σ rest = rest)
    (htame : ∀ {scope}, agg.name ∈ scope → TameAll σ scope rest) :
    Template.Renames σ fun value => [declareValue t value,
      .cond (notNull valueVar) (accumulateVector 0 valueVar first m :: rest) []] := by
  refine declared_renames hσ ?_ fun hagg hvalue => ⟨⟨?_, ⟨?_, htame ?_⟩, trivial⟩, trivial⟩
  · simp [notNull, valueVar, accumulateVector, BufferRef.isNull, BufferRef.write, BufferRef.vector,
      BufferRef.readWritableVector, BufferRef.method, Term.int, hσ.agg, hσ.value, hfirst, hrest]
  · simp [notNull, valueVar, hvalue, isDirect, BinaryOp.ofText?]
  · simp [valueVar, accumulateVector, BufferRef.isNull, BufferRef.write, BufferRef.vector,
      BufferRef.readWritableVector, BufferRef.method, Term.int, hagg, hvalue, hdirect hvalue]
  · simp [accumulateVector, BufferRef.write, BufferRef.vector, Stmt.mem_visible, hagg]

/-- A template that takes a vector out. -/
theorem returning_renames {t : DataType} {m : String} {rest : List Stmt}
    (hrest : Stmt.renameAll σ rest = rest)
    (htame : ∀ {scope}, agg.name ∈ scope → TameAll σ scope rest) :
    Template.Renames σ fun value => [declareValue t value,
      .cond (both (notNull valueVar) (agg.isSet 0)) (agg.vector 0 m [valueVar] :: rest) []] := by
  refine declared_renames hσ ?_ fun hagg hvalue => ⟨⟨?_, ⟨?_, htame ?_⟩, trivial⟩, trivial⟩
  · simp [both, notNull, valueVar, BufferRef.isSet, BufferRef.isNull, BufferRef.vector,
      BufferRef.readWritableVector, BufferRef.method, Term.int, hσ.agg, hσ.value, hrest]
  · simp [both, notNull, valueVar, BufferRef.isSet, BufferRef.isNull, BufferRef.method, Term.int,
      hagg, hvalue, isDirect, BinaryOp.ofText?, UnaryOp.ofText?]
  · simp [valueVar, BufferRef.vector, BufferRef.readWritableVector, BufferRef.method, Term.int,
      hagg, hvalue]
  · simp [BufferRef.vector, Stmt.mem_visible, hagg]

/-- A row is counted in the second field. -/
theorem count_renames (n : Int) : Stmt.renameAll σ [count n] = [count n] := by
  simp [count, BufferRef.add, BufferRef.method, Term.int, hσ.agg]

omit hσ in
theorem count_tame (n : Int) {scope : List String} (h : agg.name ∈ scope) :
    TameAll σ scope [count n] := by
  simp [count, BufferRef.add, BufferRef.method, Term.int, h]

end

/-! ## Kinds -/

/-- The second result is the first one renamed, and the first one is tame. -/
structure Renamed (σ : String → String) (x y : Except Failure (List Stmt)) : Prop where
  eq : y = Stmt.renameAll σ <$> x
  tame : ∀ ss, x = .ok ss → TameAll σ rowScope ss

section

variable {σ : String → String} {x y : Except Failure (List Stmt)}

theorem Renamed.render {numeric array : Option Template} (hn : ∀ T ∈ numeric, T.Renames σ)
    (ha : ∀ T ∈ array, T.Renames σ) {e : Element} (he : ∀ p ∈ e.parts, isDirect rowScope p = true) :
    Renamed σ (e.render numeric array) ((e.rename σ).render numeric array) :=
  ⟨Element.render_rename (fun T hT => (hn T hT).commutes) (fun T hT => (ha T hT).commutes) e,
    fun _ h => render_tame hn ha he h⟩

theorem Renamed.onScalar (kind : String) (t : DataType) (h : Renamed σ x y) :
    Renamed σ (onScalar kind t x) (onScalar kind t y) := by
  unfold Kind.onScalar
  split
  · exact h
  · exact ⟨rfl, nofun⟩

theorem Renamed.onNumeric (kind : String) (t : DataType) (h : Renamed σ x y) :
    Renamed σ (onNumeric kind t x) (onNumeric kind t y) := by
  unfold Kind.onNumeric
  split
  · exact h
  · exact ⟨rfl, nofun⟩

theorem map_onScalar {α β : Type} (g : α → β) (kind : String) (t : DataType)
    (x : Except Failure α) : Kind.onScalar kind t (g <$> x) = g <$> Kind.onScalar kind t x := by
  -- the test is on the type alone
  unfold Kind.onScalar
  split <;> rfl

theorem map_onNumeric {α β : Type} (g : α → β) (kind : String) (t : DataType)
    (x : Except Failure α) : Kind.onNumeric kind t (g <$> x) = g <$> Kind.onNumeric kind t x := by
  unfold Kind.onNumeric
  split <;> rfl

end

end Kind

/-- The routines of the kind on a row can be renamed. -/
structure Visitor.Renames (v : Visitor) (σ : String → String) : Prop where
  contribute : ∀ {e : Element}, (∀ p ∈ e.parts, isDirect rowScope p = true) →
    Renamed σ (v.contribute e) (v.contribute (e.rename σ))
  decontribute : ∀ {e : Element}, (∀ p ∈ e.parts, isDirect rowScope p = true) →
    (v.decontribute e = .ok none ∧ v.decontribute (e.rename σ) = .ok none) ∨
      ∃ x y, Renamed σ x y ∧ v.decontribute e = some <$> x ∧
        v.decontribute (e.rename σ) = some <$> y

namespace Visitor.Renames

variable {v : Visitor} {σ : String → String} (h : v.Renames σ) {e : Element}
  (he : ∀ p ∈ e.parts, isDirect rowScope p = true)

include h he

theorem decontribute_eq :
    v.decontribute (e.rename σ) = Option.map (Stmt.renameAll σ) <$> v.decontribute e := by
  obtain ⟨hnone, hnone'⟩ | ⟨x, y, hxy, hx, hy⟩ := h.decontribute he
  · rw [hnone, hnone']
    rfl
  · rw [hx, hy, hxy.eq]
    -- either both fail, or both have a routine
    cases x <;> rfl

theorem decontribute_tame {ss : List Stmt} (hss : v.decontribute e = .ok (some ss)) :
    TameAll σ rowScope ss := by
  obtain ⟨hnone, -⟩ | ⟨x, y, hxy, hx, -⟩ := h.decontribute he
  · rw [hnone] at hss
    cases hss
  · exact hxy.tame ss (Fold.some_ok (hx.symm.trans hss))

end Visitor.Renames

namespace Kind

variable {σ : String → String} (hσ : KeepsOwn σ)

include hσ

theorem sum_renames : sum.Renames σ where
  contribute he := by
    simp only [sum, Element.type_rename]
    refine .onNumeric _ _ (.render ?_ ?_ he)
    · rintro _ ⟨⟩
      exact adding_renames hσ (g := id) (fun _ => rfl) id rfl fun _ => trivial
    · rintro _ ⟨⟩
      exact accumulating_renames hσ (by simp [valueVar, hσ.value]) (by simp [valueVar]) rfl
        fun _ => trivial
  decontribute he := by
    simp only [sum, Element.type_rename, map_onNumeric]
    refine .inr ⟨_, _, .onNumeric _ _ (.render ?_ ?_ he), rfl, rfl⟩
    · rintro _ ⟨⟩
      exact adding_renames hσ (by simp [negate, Term.int])
        (by simp [negate, Term.int, isDirect, BinaryOp.ofText?]) rfl fun _ => trivial
    · rintro _ ⟨⟩
      exact returning_renames hσ rfl fun _ => trivial

theorem mean_renames : mean.Renames σ where
  contribute he := by
    simp only [mean, Element.type_rename]
    refine .onNumeric _ _ (.render ?_ ?_ he)
    · rintro _ ⟨⟩
      exact adding_renames hσ (g := id) (fun _ => rfl) id (count_renames hσ 1) (count_tame 1)
    · rintro _ ⟨⟩
      exact accumulating_renames hσ (by simp [valueVar, hσ.value]) (by simp [valueVar])
        (count_renames hσ 1) (count_tame 1)
  decontribute he := by
    simp only [mean, Element.type_rename, map_onNumeric]
    refine .inr ⟨_, _, .onNumeric _ _ (.render ?_ ?_ he), rfl, rfl⟩
    · rintro _ ⟨⟩
      exact adding_renames hσ (by simp [negate, Term.int])
        (by simp [negate, Term.int, isDirect, BinaryOp.ofText?]) (count_renames hσ (-1))
        (count_tame (-1))
    · rintro _ ⟨⟩
      exact returning_renames hσ (count_renames hσ (-1)) (count_tame (-1))

theorem squareSum_renames : squareSum.Renames σ where
  contribute he := by
    simp only [squareSum, Element.type_rename]
    refine .onScalar _ _ (.render ?_ (by simp) he)
    rintro _ ⟨⟩
    refine declared_renames hσ ?_ fun hagg hvalue => ?_
    · simp [square, valueVar, BufferRef.add, BufferRef.method, Term.int, hσ.agg, hσ.value]
    · simp [square, valueVar, BufferRef.add, BufferRef.method, Term.int, hagg, hvalue, isDirect,
        BinaryOp.ofText?]
  decontribute he := by
    simp only [squareSum, Element.type_rename, map_onScalar]
    refine .inr ⟨_, _, .onScalar _ _ (.render ?_ (by simp) he), rfl, rfl⟩
    rintro _ ⟨⟩
    refine declared_renames hσ ?_ fun hagg hvalue => ?_
    · simp [negate, square, valueVar, BufferRef.add, BufferRef.method, Term.int, hσ.agg, hσ.value]
    · simp [negate, square, valueVar, BufferRef.add, BufferRef.method, Term.int, hagg, hvalue,
        isDirect, BinaryOp.ofText?]

theorem extremum_renames (kind : String) {op : String}
    (hop : (BinaryOp.ofText? op).isSome = true) : (extremum kind op).Renames σ where
  contribute he := by
    have hor : (BinaryOp.ofText? "||").isSome = true := rfl
    simp only [extremum, Element.type_rename]
    refine .onScalar _ _ (.render ?_ (by simp) he)
    rintro _ ⟨⟩
    refine declared_renames hσ ?_ fun hagg hvalue => ?_
    · simp [either, valueVar, read_rename hσ, BufferRef.isNull, BufferRef.write, BufferRef.method,
        Term.int, hσ.agg, hσ.value]
    · simp [either, valueVar, direct_read, BufferRef.isNull, BufferRef.write, BufferRef.method,
        Term.int, hagg, hvalue, isDirect, hor, hop]
  decontribute _ := .inl ⟨rfl, rfl⟩

theorem multiply_renames : multiply.Renames σ where
  contribute he := by
    simp only [multiply, Element.type_rename]
    refine .onScalar _ _ (.render ?_ (by simp) he)
    rintro _ ⟨⟩
    refine declared_renames hσ ?_ fun hagg hvalue => ?_
    · simp [valueVar, read_rename hσ, BufferRef.isNull, BufferRef.write, BufferRef.method, Term.int,
        hσ.agg, hσ.value]
    · simp [valueVar, direct_read, BufferRef.isNull, BufferRef.write, BufferRef.method, Term.int,
        hagg, hvalue, isDirect, BinaryOp.ofText?]
  decontribute he := by
    simp only [multiply, Element.type_rename, map_onScalar]
    refine .inr ⟨_, _, .onScalar _ _ (.render ?_ (by simp) he), rfl, rfl⟩
    rintro _ ⟨⟩
    refine ⟨fun code => ?_, fun hcode => ?_⟩
    · simp [read_rename hσ, BufferRef.write, BufferRef.method, Term.int, hσ.agg]
    · simp [direct_read, BufferRef.write, BufferRef.method, Term.int, hcode, isDirect]

theorem short_renames : short.Renames σ where
  contribute he := by
    simp only [short, Element.type_rename]
    refine .onNumeric _ _ (.render ?_ ?_ he)
    · rintro _ ⟨⟩
      exact adding_renames hσ (by simp [negativePart, zero]) (by simp [negativePart, zero]) rfl
        fun _ => trivial
    · rintro _ ⟨⟩
      exact accumulating_renames hσ (by simp [valueVar, hσ.value]) (by simp [valueVar]) rfl
        fun _ => trivial
  decontribute he := by
    simp only [short, Element.type_rename, map_onNumeric]
    refine .inr ⟨_, _, .onNumeric _ _ (.render ?_ ?_ he), rfl, rfl⟩
    · rintro _ ⟨⟩
      exact adding_renames hσ (by simp [negate, negativePart, zero, Term.int])
        (by simp [negate, negativePart, zero, Term.int, isDirect, BinaryOp.ofText?]) rfl
        fun _ => trivial
    · rintro _ ⟨⟩
      exact returning_renames hσ rfl fun _ => trivial

end Kind

/-- **The routines of every built-in kind can be renamed.** -/
theorem builtin_renames {σ : String → String} (hσ : KeepsOwn σ) {v : Visitor}
    (h : v ∈ builtinKinds) : v.Renames σ := by
  simp only [builtinKinds, List.mem_cons, List.not_mem_nil, or_false] at h
  rcases h with rfl | rfl | rfl | rfl | rfl | rfl | rfl
  · exact Kind.extremum_renames hσ _ rfl
  · exact Kind.mean_renames hσ
  · exact Kind.extremum_renames hσ _ rfl
  · exact Kind.multiply_renames hσ
  · exact Kind.short_renames hσ
  · exact Kind.squareSum_renames hσ
  · exact Kind.sum_renames hσ

end FactFold
