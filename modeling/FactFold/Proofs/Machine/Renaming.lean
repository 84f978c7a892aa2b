import FactFold.Proofs.Code.Renaming
import FactFold.Proofs.Machine.Oblivious

/-!
# Renamed expressions have the same value

Nothing in the evaluator looks at the names of variables, apart from looking them up. Simplifying a
formula and checking it commute with renaming, and a renamed formula has the same value where each
name stands for the same as its new name (`eval_rename`).

An expression comes to a formula by way of its source, and the sources of an expression and of its
renaming differ. For direct expressions that is no matter: both are understood without their sources,
or neither can be written (`ofTerm?_rename`, `source_rename`, `ofTerm?_of_source`). An expression is
direct when its names are plain and known and its operators are those the evaluator has.
-/

namespace FactFold.Machine

/-! ## Formulas -/

namespace Formula

mutual

/-- The formula with other names for its variables. -/
def rename (σ : String → String) : Formula → Formula
  | .null => .null
  | .bool b => .bool b
  | .int n => .int n
  | .float x => .float x
  | .text bs => .text bs
  | .oversized => .oversized
  | .variable name => .variable (σ name)
  | .unbound => .unbound
  | .unary op x => .unary op (x.rename σ)
  | .binary op x y => .binary op (x.rename σ) (y.rename σ)
  | .cond c yes no => .cond (c.rename σ) (yes.rename σ) (no.rename σ)
  | .list items => .list (renameAll σ items)
  | .call f args => .call f (renameAll σ args)
  | .builtin f args => .builtin f (renameAll σ args)
  | .apply callee args => .apply (callee.rename σ) (renameAll σ args)
  | .part x key => .part (x.rename σ) (key.rename σ)
  | .slice x start stop => .slice (x.rename σ) (start.rename σ) (stop.rename σ)
  | .tail x start => .tail (x.rename σ) (start.rename σ)
  | .truth x => .truth (x.rename σ)
  | .among x texts => .among (x.rename σ) texts
  | .amongInts x ns => .amongInts (x.rename σ) ns

/-- Each formula with other names for its variables. -/
def renameAll (σ : String → String) : List Formula → List Formula
  | [] => []
  | x :: rest => x.rename σ :: renameAll σ rest

end

attribute [simp] rename renameAll

variable (σ : String → String)

mutual

/-- What is known about a formula does not depend on names. -/
theorem static?_rename : ∀ f : Formula, (f.rename σ).static? = f.static?
  | .null | .bool _ | .int _ | .float _ | .text _ | .oversized | .variable _ | .unbound => rfl
  | .unary op x => by simp only [rename, static?, static?_rename x]
  | .binary op x y => by
    have hx := static?_rename x
    have hy := static?_rename y
    cases op
    -- membership in a list that is written out looks at the items
    case isIn =>
      cases y
      case list items => simp only [rename, static?, hx, statics?_rename items]
      all_goals
        simp only [rename, static?] at hy ⊢
        simp only [hx, hy]
    all_goals simp only [rename, static?, hx, hy]
  | .cond c yes no => by
    simp only [rename, static?, static?_rename c, static?_rename yes, static?_rename no]
  | .list items | .call f items | .builtin f items => by
    simp only [rename, static?, statics?_rename items]
  | .apply callee args => by simp only [rename, static?, static?_rename callee]
  | .part x key => by simp only [rename, static?, static?_rename x, static?_rename key]
  | .slice x start stop => by
    simp only [rename, static?, static?_rename x, static?_rename start, static?_rename stop]
  | .tail x start => by simp only [rename, static?, static?_rename x, static?_rename start]
  | .truth x | .among x _ | .amongInts x _ => by simp only [rename, static?, static?_rename x]

theorem statics?_rename : ∀ fs : List Formula, statics? (renameAll σ fs) = statics? fs
  | [] => rfl
  | f :: fs => by simp only [renameAll, statics?, static?_rename f, statics?_rename fs]

end

variable (x y : Formula)

theorem static_rename : (x.rename σ).static = x.static := by simp only [static, static?_rename]

theorem isInt_rename : (x.rename σ).isInt = x.isInt := by simp only [isInt, static?_rename]

theorem boolLiteral?_rename : (x.rename σ).boolLiteral? = x.boolLiteral? := by cases x <;> rfl

/-- What is read off each item does not depend on names. -/
theorem mapM_rename {α : Type} {f : Formula → Option α} (h : ∀ x : Formula, f (x.rename σ) = f x)
    (items : List Formula) : (renameAll σ items).mapM f = items.mapM f := by
  induction items with
  | nil => rfl
  | cons x items ih => simp only [renameAll, List.mapM_cons, h, ih]

theorem isEmpty_renameAll (items : List Formula) : (renameAll σ items).isEmpty = items.isEmpty := by
  cases items <;> rfl

theorem literalTexts?_rename (items : List Formula) :
    literalTexts? (renameAll σ items) = literalTexts? items := by
  unfold literalTexts?
  rw [isEmpty_renameAll, mapM_rename]
  intro x
  cases x <;> rfl

theorem literalInts?_rename (items : List Formula) :
    literalInts? (renameAll σ items) = literalInts? items := by
  unfold literalInts?
  rw [isEmpty_renameAll, mapM_rename]
  intro x
  cases x <;> rfl

theorem asTruth_rename : (x.rename σ).asTruth = x.asTruth.rename σ := by cases x <;> rfl

theorem connective_rename (op : BinaryOp) (unit : Bool) :
    connective op unit (x.rename σ) (y.rename σ) = (connective op unit x y).rename σ := by
  simp only [connective, boolLiteral?_rename, asTruth_rename]
  split_ifs <;> rfl

theorem inRange_rename : inRange (x.rename σ) (y.rename σ) = (inRange x y).rename σ := by
  -- only a range between two literals is simplified
  cases y with
  | binary op a b =>
    cases op with
    | range =>
      cases a with
      | int m =>
        cases b with
        | int n =>
          simp only [rename, inRange, isInt_rename]
          split <;> rfl
        | _ => rfl
      | _ => rfl
    | _ => rfl
  | _ => rfl

theorem unaryOn_rename (op : UnaryOp) : unaryOn op (x.rename σ) = (unaryOn op x).rename σ := by
  cases op <;> cases x <;> rfl

theorem binaryOn_rename (op : BinaryOp) :
    binaryOn op (x.rename σ) (y.rename σ) = (binaryOn op x y).rename σ := by
  cases op
  case and | or => exact connective_rename σ x y _ _
  case add | sub | mul | eq => cases x <;> first | rfl | (cases y <;> rfl)
  case rem =>
    cases x with
    | int m =>
      cases y with
      | int n =>
        simp only [rename, binaryOn]
        split <;> rfl
      | _ => rfl
    | _ => rfl
  all_goals rfl

theorem isBroken_rename (op : BinaryOp) :
    isBroken op (x.rename σ) (y.rename σ) = isBroken op x y := by
  cases op
  case fits => cases y <;> rfl
  case rem => cases x <;> first | rfl | (cases y <;> rfl)
  all_goals rfl

mutual

/-- Simplifying looks at no name. -/
theorem simplify_rename : ∀ f : Formula, (f.rename σ).simplify = f.simplify.rename σ
  | .null | .bool _ | .int _ | .float _ | .text _ | .oversized | .variable _ | .unbound => rfl
  | .unary op x => by simp only [rename, simplify, simplify_rename x, unaryOn_rename]
  | .binary op x y => by
    have hx := simplify_rename x
    have hy := simplify_rename y
    cases op
    -- membership in literals becomes a lookup, and in a range a comparison
    case isIn =>
      cases y
      case list items =>
        simp only [rename, simplify, hx, literalTexts?_rename, literalInts?_rename, isInt_rename,
          simplifyAll_rename items]
        split
        · rfl
        · split <;> rfl
        · rfl
      all_goals exact (congrArg₂ inRange hx hy).trans (inRange_rename σ _ _)
    all_goals exact (congrArg₂ (binaryOn _) hx hy).trans (binaryOn_rename σ _ _ _)
  | .cond c yes no => by
    simp only [rename, simplify, simplify_rename c, simplify_rename yes, simplify_rename no]
  | .list items | .call f items | .builtin f items => by
    simp only [rename, simplify, simplifyAll_rename items]
  | .apply callee args => by
    simp only [rename, simplify, simplify_rename callee, simplifyAll_rename args]
  | .part x key => by simp only [rename, simplify, simplify_rename x, simplify_rename key]
  | .slice x start stop => by
    simp only [rename, simplify, simplify_rename x, simplify_rename start, simplify_rename stop]
  | .tail x start => by simp only [rename, simplify, simplify_rename x, simplify_rename start]
  | .truth x => by simp only [rename, simplify, simplify_rename x, asTruth_rename]
  | .among x _ | .amongInts x _ => by simp only [rename, simplify, simplify_rename x]

theorem simplifyAll_rename : ∀ fs : List Formula,
    simplifyAll (renameAll σ fs) = renameAll σ (simplifyAll fs)
  | [] => rfl
  | f :: fs => by simp only [renameAll, simplifyAll, simplify_rename f, simplifyAll_rename fs]

end

mutual

theorem hasBroken_rename : ∀ f : Formula, (f.rename σ).hasBroken = f.hasBroken
  | .null | .bool _ | .int _ | .float _ | .text _ | .oversized | .variable _ | .unbound => rfl
  | .unary op x => by simp only [rename, hasBroken, hasBroken_rename x]
  | .binary op x y => by
    simp only [rename, hasBroken, simplify_rename, isBroken_rename, hasBroken_rename x,
      hasBroken_rename y]
  | .cond c yes no => by
    simp only [rename, hasBroken, hasBroken_rename c, hasBroken_rename yes, hasBroken_rename no]
  | .list items | .call f items | .builtin f items => by
    simp only [rename, hasBroken, anyBroken_rename items]
  | .apply callee args => by
    simp only [rename, hasBroken, hasBroken_rename callee, anyBroken_rename args]
  | .part x key => by simp only [rename, hasBroken, hasBroken_rename x, hasBroken_rename key]
  | .slice x start stop => by
    simp only [rename, hasBroken, hasBroken_rename x, hasBroken_rename start,
      hasBroken_rename stop]
  | .tail x start => by simp only [rename, hasBroken, hasBroken_rename x, hasBroken_rename start]
  | .truth x | .among x _ | .amongInts x _ => by
    simp only [rename, hasBroken, hasBroken_rename x]

theorem anyBroken_rename : ∀ fs : List Formula, anyBroken (renameAll σ fs) = anyBroken fs
  | [] => rfl
  | f :: fs => by simp only [renameAll, anyBroken, hasBroken_rename f, anyBroken_rename fs]

end

theorem isAccepted_rename (f : Formula) : (f.rename σ).isAccepted = f.isAccepted := by
  simp only [isAccepted, static?_rename, hasBroken_rename]

end Formula

/-! ## Formulas of terms -/

/-- A formula that is a unary operation under other names is one. -/
theorem Formula.eq_unary_of_rename {σ : String → String} {op : UnaryOp} {f g : Formula}
    (h : f.rename σ = .unary op g) : ∃ g', f = .unary op g' := by
  cases f with
  | unary op' x =>
    cases h
    exact ⟨x, rfl⟩
  | _ => cases h

/-- The same of expressions. -/
theorem eq_unary_of_rename {σ : String → String} {op : String} {x y : Term}
    (h : x.rename σ = .unary op y) : ∃ y', x = .unary op y' := by
  cases x with
  | unary op' x =>
    simp only [Term.rename, Term.unary.injEq] at h
    exact ⟨x, by rw [h.1]⟩
  | _ => simp at h

theorem formula_rename (σ : String → String) (l : LiteralValue) : l.formula.rename σ = l.formula := by
  cases l with
  | int n =>
    rw [LiteralValue.formula]
    split <;> rfl
  | _ => rfl

theorem withName_rename (σ : String → String) (name : String) (args : List Formula) :
    Formula.withName name (Formula.renameAll σ args) =
      Formula.renameAll σ (Formula.withName name args) := by
  unfold Formula.withName
  split <;> rfl

mutual

/-- The formula of a renamed expression is the renamed formula. -/
theorem ofTerm?_rename {σ : String → String} : ∀ x : Term,
    (∀ name, .ident name ∈ x.parts →
      name.toList.all isNameChar = true ∧ (σ name).toList.all isNameChar = true) →
      Formula.ofTerm? (x.rename σ) = (Formula.ofTerm? x).map (Formula.rename σ)
  | .ident name, h => by
    obtain ⟨hname, hnew⟩ := h name (by simp)
    simp [Formula.ofTerm?, hname, hnew]
  | .lit type value, _ => by
    rw [Term.rename, Formula.ofTerm?]
    cases (literalValue type value).toOption with
    | none => rfl
    | some l => exact congrArg some (formula_rename σ l).symm
  | .null, _ | .hole, _ => rfl
  | .binary op x y, h => by
    rw [Term.rename, Formula.ofTerm?, Formula.ofTerm?,
      ofTerm?_rename x fun name hp => h name (by simp [hp]),
      ofTerm?_rename y fun name hp => h name (by simp [hp])]
    cases Formula.ofTerm? x with
    | none => rfl
    | some a =>
      cases Formula.ofTerm? y with
      | none => rfl
      | some b =>
        -- a quotient is a call, and all other operators are the evaluator's
        by_cases hdiv : op = "/"
        · simp [hdiv]
        · cases BinaryOp.ofText? op with
          | none => simp [hdiv]
          | some o =>
            simp only [hdiv, if_false, Option.map_some, Option.bind_eq_bind, Option.bind_some]
            -- a negation on the left of a product is one under other names, too
            split
            · rename_i hx ha
              obtain ⟨y, rfl⟩ := eq_unary_of_rename hx
              obtain ⟨b, rfl⟩ := Formula.eq_unary_of_rename ha
              cases ha
              rfl
            · rename_i hother
              split
              · exact (hother _ _ rfl rfl rfl).elim
              · rfl
  | .unary op x, h => by
    rw [Term.rename, Formula.ofTerm?, Formula.ofTerm?,
      ofTerm?_rename x fun name hp => h name (by simp [hp])]
    cases Formula.ofTerm? x with
    | none => rfl
    | some a => cases UnaryOp.ofText? op <;> rfl
  | .call f args, h | .new f args, h => by
    rw [Term.rename, Formula.ofTerm?, Formula.ofTerm?,
      ofTerms?_rename args fun name hp => h name (by simp [hp])]
    cases Formula.ofTerms? args with
    | none => rfl
    | some as => simp [withName_rename]
  | .invoke receiver m args, h => by
    rw [Term.rename, Formula.ofTerm?, Formula.ofTerm?,
      ofTerm?_rename receiver fun name hp => h name (by simp [hp]),
      ofTerms?_rename args fun name hp => h name (by simp [hp])]
    cases Formula.ofTerm? receiver with
    | none => rfl
    | some r => cases Formula.ofTerms? args <;> rfl
  | .newArray element items, h => by
    rw [Term.rename, Formula.ofTerm?, Formula.ofTerm?,
      ofTerms?_rename items fun name hp => h name (by simp [hp])]
    cases Formula.ofTerms? items <;> rfl
  | .cast type x, h => by
    rw [Term.rename, Formula.ofTerm?, Formula.ofTerm?,
      ofTerm?_rename x fun name hp => h name (by simp [hp])]
    cases Formula.ofTerm? x with
    | none => rfl
    | some a => simp [← withName_rename]
  | .cond c yes no, h => by
    rw [Term.rename, Formula.ofTerm?, Formula.ofTerm?,
      ofTerm?_rename c fun name hp => h name (by simp [hp]),
      ofTerm?_rename yes fun name hp => h name (by simp [hp]),
      ofTerm?_rename no fun name hp => h name (by simp [hp])]
    cases Formula.ofTerm? c with
    | none => rfl
    | some a =>
      cases Formula.ofTerm? yes with
      | none => rfl
      | some b => cases Formula.ofTerm? no <;> rfl

theorem ofTerms?_rename {σ : String → String} : ∀ xs : List Term,
    (∀ name, .ident name ∈ Term.partsAll xs →
      name.toList.all isNameChar = true ∧ (σ name).toList.all isNameChar = true) →
      Formula.ofTerms? (Term.renameAll σ xs) = (Formula.ofTerms? xs).map (Formula.renameAll σ)
  | [], _ => rfl
  | x :: xs, h => by
    rw [Term.renameAll, Formula.ofTerms?, Formula.ofTerms?,
      ofTerm?_rename x fun name hp => h name (by simp [hp]),
      ofTerms?_rename xs fun name hp => h name (by simp [hp])]
    cases Formula.ofTerm? x with
    | none => rfl
    | some a => cases Formula.ofTerms? xs <;> rfl

end

/-! ## Sources of terms -/

/-- Two results that are both there, or are the same failure. -/
def SameOutcome {α β : Type} (r : Except Fault α) (r' : Except Fault β) : Prop :=
  r.map (fun _ => ()) = r'.map fun _ => ()

theorem SameOutcome.bind {α β γ δ : Type} {r : Except Fault α} {r' : Except Fault β}
    {k : α → Except Fault γ} {k' : β → Except Fault δ} (h : SameOutcome r r')
    (hk : ∀ a b, SameOutcome (k a) (k' b)) : SameOutcome (r >>= k) (r' >>= k') := by
  -- both have failed, or both go on
  cases r <;> cases r' <;> cases h
  · rfl
  · exact hk _ _

mutual

/-- Under other names an expression can be written when it can be written, and otherwise fails in the
same way. -/
theorem source_rename (σ : String → String) : ∀ x : Term,
    SameOutcome (source (x.rename σ)) (source x)
  | .ident _ | .lit .. | .null | .hole => by
    simp only [Term.rename, source]
    rfl
  | .binary op x y => by
    simp only [Term.rename, source]
    exact (source_rename σ x).bind fun _ _ => (source_rename σ y).bind fun _ _ => rfl
  | .unary op x | .cast type x => by
    simp only [Term.rename, source]
    exact (source_rename σ x).bind fun _ _ => rfl
  | .call f args | .new type args | .newArray element args => by
    simp only [Term.rename, source]
    exact (sources_rename σ args).bind fun _ _ => rfl
  | .invoke receiver m args => by
    simp only [Term.rename, source]
    exact (source_rename σ receiver).bind fun _ _ => (sources_rename σ args).bind fun _ _ => rfl
  | .cond c yes no => by
    simp only [Term.rename, source]
    exact (source_rename σ c).bind fun _ _ => (source_rename σ yes).bind fun _ _ =>
      (source_rename σ no).bind fun _ _ => rfl

theorem sources_rename (σ : String → String) : ∀ xs : List Term,
    SameOutcome (sources (Term.renameAll σ xs)) (sources xs)
  | [] => rfl
  | x :: xs => by
    simp only [Term.renameAll, sources]
    exact (source_rename σ x).bind fun _ _ => (sources_rename σ xs).bind fun _ _ => rfl

end

/-- A plain name that is known, an operator that the evaluator knows as such, or any other form. -/
def isDirect (scope : List String) : Term → Bool
  | .ident name => scope.contains name && name.toList.all isNameChar
  | .binary op _ _ => op = "/" || (BinaryOp.ofText? op).isSome
  | .unary op _ => (UnaryOp.ofText? op).isSome
  | _ => true

/-- All parts of the expression are direct. -/
def Direct (scope : List String) (x : Term) : Prop := ∀ p ∈ x.parts, isDirect scope p = true

section

variable {scope : List String}

theorem Direct.name {x : Term} {name : String} (h : Direct scope x) (hp : .ident name ∈ x.parts) :
    name ∈ scope ∧ name.toList.all isNameChar = true := by
  simpa [isDirect] using h _ hp

theorem direct_partsAll {xs : List Term} :
    (∀ p ∈ Term.partsAll xs, isDirect scope p = true) ↔ ∀ x ∈ xs, Direct scope x := by
  constructor
  · exact fun h x hx p hp => h p (Term.mem_partsAll.2 ⟨x, hx, hp⟩)
  · intro h p hp
    obtain ⟨x, hx, hp⟩ := Term.mem_partsAll.1 hp
    exact h x hx p hp

@[simp] theorem direct_ident {name : String} :
    Direct scope (.ident name) ↔ name ∈ scope ∧ name.toList.all isNameChar = true := by
  simp [Direct, isDirect]

@[simp] theorem direct_lit (type : String) (d : Datum) : Direct scope (.lit type d) := by
  simp [Direct, isDirect]

@[simp] theorem direct_null : Direct scope .null := by simp [Direct, isDirect]

@[simp] theorem direct_binary {op : String} {x y : Term} :
    Direct scope (.binary op x y) ↔
      isDirect scope (.binary op x y) = true ∧ Direct scope x ∧ Direct scope y := by
  simp only [Direct, Term.parts, List.forall_mem_cons, List.forall_mem_append]

@[simp] theorem direct_unary {op : String} {x : Term} :
    Direct scope (.unary op x) ↔ (UnaryOp.ofText? op).isSome = true ∧ Direct scope x := by
  simp only [Direct, Term.parts, List.forall_mem_cons, isDirect]

@[simp] theorem direct_call {f : String} {args : List Term} :
    Direct scope (.call f args) ↔ ∀ x ∈ args, Direct scope x := by
  rw [← direct_partsAll]
  simp [Direct, isDirect]

@[simp] theorem direct_new {type : String} {args : List Term} :
    Direct scope (.new type args) ↔ ∀ x ∈ args, Direct scope x := by
  rw [← direct_partsAll]
  simp [Direct, isDirect]

@[simp] theorem direct_newArray {element : String} {items : List Term} :
    Direct scope (.newArray element items) ↔ ∀ x ∈ items, Direct scope x := by
  rw [← direct_partsAll]
  simp [Direct, isDirect]

@[simp] theorem direct_invoke {receiver : Term} {m : String} {args : List Term} :
    Direct scope (.invoke receiver m args) ↔
      Direct scope receiver ∧ ∀ x ∈ args, Direct scope x := by
  rw [← direct_partsAll]
  simp only [Direct, Term.parts, List.forall_mem_cons, List.forall_mem_append, isDirect, true_and]

@[simp] theorem direct_cast {type : String} {x : Term} :
    Direct scope (.cast type x) ↔ Direct scope x := by
  simp [Direct, isDirect]

@[simp] theorem direct_cond {c y n : Term} :
    Direct scope (.cond c y n) ↔ Direct scope c ∧ Direct scope y ∧ Direct scope n := by
  simp only [Direct, Term.parts, List.forall_mem_cons, List.forall_mem_append, isDirect, true_and]

end

theorem ofTerm?_lit {type : String} {d : Datum} {s : String} (h : source (.lit type d) = .ok s) :
    ∃ f, Formula.ofTerm? (.lit type d) = some f := by
  rw [source] at h
  cases hl : literalValue type d with
  | error e => simp [hl] at h
  | ok l => simp [Formula.ofTerm?, hl, Except.toOption]

mutual

/-- An expression that can be written is understood without its source, if all its parts are
direct. -/
theorem ofTerm?_of_source {scope : List String} : ∀ {x : Term} {s : String}, source x = .ok s →
    Direct scope x → ∃ f, Formula.ofTerm? x = some f
  | .ident name, _, _, hp => by
    have hname : name.toList.all isNameChar = true := (direct_ident.1 hp).2
    simp [Formula.ofTerm?, hname]
  | .lit .., _, h, _ => ofTerm?_lit h
  | .null, _, _, _ => ⟨_, rfl⟩
  | .hole, _, h, _ => by simp [source] at h
  | .binary op x y, _, h, hp => by
    obtain ⟨a, b, ha, hb⟩ := source_binary_ok h
    obtain ⟨hop, hx, hy⟩ := direct_binary.1 hp
    obtain ⟨f, hf⟩ := ofTerm?_of_source ha hx
    obtain ⟨g, hg⟩ := ofTerm?_of_source hb hy
    simp only [Formula.ofTerm?, hf, hg, Option.bind_eq_bind, Option.bind_some]
    split
    · exact ⟨_, rfl⟩
    · rename_i hdiv
      -- a direct operator is the division or one of the evaluator's
      obtain ⟨o, ho⟩ : ∃ o, BinaryOp.ofText? op = some o := by
        simpa [isDirect, hdiv, Option.isSome_iff_exists] using hop
      rw [ho, Option.bind_some]
      split <;> exact ⟨_, rfl⟩
  | .unary op x, _, h, hp => by
    rw [source] at h
    obtain ⟨s, hs, -⟩ := bind_ok h
    obtain ⟨hop, hx⟩ := direct_unary.1 hp
    obtain ⟨f, hf⟩ := ofTerm?_of_source hs hx
    obtain ⟨o, ho⟩ := Option.isSome_iff_exists.1 hop
    simp [Formula.ofTerm?, hf, ho]
  | .call _ args, _, h, hp | .new _ args, _, h, hp | .newArray _ args, _, h, hp => by
    rw [source] at h
    obtain ⟨ss, hss, -⟩ := bind_ok h
    obtain ⟨fs, hfs⟩ := ofTerms?_of_sources hss (by simpa using hp)
    simp [Formula.ofTerm?, hfs]
  | .invoke receiver m args, _, h, hp => by
    rw [source] at h
    obtain ⟨s, hs, h⟩ := bind_ok h
    obtain ⟨ss, hss, -⟩ := bind_ok h
    obtain ⟨hreceiver, hargs⟩ := direct_invoke.1 hp
    obtain ⟨f, hf⟩ := ofTerm?_of_source hs hreceiver
    obtain ⟨fs, hfs⟩ := ofTerms?_of_sources hss hargs
    simp [Formula.ofTerm?, hf, hfs]
  | .cast type x, _, h, hp => by
    rw [source] at h
    obtain ⟨s, hs, -⟩ := bind_ok h
    obtain ⟨f, hf⟩ := ofTerm?_of_source hs (direct_cast.1 hp)
    simp [Formula.ofTerm?, hf]
  | .cond c yes no, _, h, hp => by
    rw [source] at h
    obtain ⟨a, ha, h⟩ := bind_ok h
    obtain ⟨y, hy, h⟩ := bind_ok h
    obtain ⟨n, hn, -⟩ := bind_ok h
    obtain ⟨hc, hyes, hno⟩ := direct_cond.1 hp
    obtain ⟨f, hf⟩ := ofTerm?_of_source ha hc
    obtain ⟨g, hg⟩ := ofTerm?_of_source hy hyes
    obtain ⟨k, hk⟩ := ofTerm?_of_source hn hno
    simp [Formula.ofTerm?, hf, hg, hk]

theorem ofTerms?_of_sources {scope : List String} : ∀ {xs : List Term} {ss : List String},
    sources xs = .ok ss → (∀ x ∈ xs, Direct scope x) → ∃ fs, Formula.ofTerms? xs = some fs
  | [], _, _, _ => ⟨_, rfl⟩
  | x :: xs, _, h, hp => by
    rw [sources] at h
    obtain ⟨s, hs, h⟩ := bind_ok h
    obtain ⟨ss, hss, -⟩ := bind_ok h
    obtain ⟨hx, hxs⟩ := List.forall_mem_cons.1 hp
    obtain ⟨f, hf⟩ := ofTerm?_of_source hs hx
    obtain ⟨fs, hfs⟩ := ofTerms?_of_sources hss hxs
    simp [Formula.ofTerms?, hf, hfs]

end

/-! ## Values -/

/-- Every name stands for the same in the first environment as its new name in the second. -/
def Reads (σ : String → String) (env env' : Env) : Prop :=
  ∀ name, env.lookup name = env'.lookup (σ name)

theorem operand_rename (σ : String → String) (f : Formula) : (f.rename σ).operand = f.operand := by
  funext v
  simp only [Formula.operand, Formula.static_rename]

theorem equality_rename (σ : String → String) (f g : Formula) :
    equality (f.rename σ) (g.rename σ) = equality f g := by
  funext w a b
  simp only [equality, sharedType?, Formula.static_rename]

variable (natives : Natives) {σ : String → String} {env env' : Env}

mutual

/-- **A renamed formula has the same value.** -/
theorem eval_rename (h : Reads σ env env') : ∀ f : Formula,
    eval natives env' (f.rename σ) = eval natives env f
  | .null | .bool _ | .int _ | .float _ | .text _ | .oversized | .unbound => by
    simp only [Formula.rename, eval]
  | .variable name => by simp only [Formula.rename, eval, h name]
  | .unary op x => by simp only [Formula.rename, eval, eval_rename h x, operand_rename]
  | .binary op x y => by
    have hx := eval_rename h x
    have hy := eval_rename h y
    cases op <;> simp only [Formula.rename, eval, hx, hy, operand_rename, equality_rename]
  | .cond c yes no => by
    simp only [Formula.rename, eval, eval_rename h c, eval_rename h yes, eval_rename h no]
  | .list items | .call f items | .builtin f items => by
    simp only [Formula.rename, eval, evalAll_rename h items]
  | .apply callee args => by
    simp only [Formula.rename, eval, eval_rename h callee, evalAll_rename h args]
  | .part x key => by simp only [Formula.rename, eval, eval_rename h x, eval_rename h key]
  | .slice x start stop => by
    simp only [Formula.rename, eval, eval_rename h x, eval_rename h start, eval_rename h stop]
  | .tail x start => by simp only [Formula.rename, eval, eval_rename h x, eval_rename h start]
  | .truth x => by simp only [Formula.rename, eval, eval_rename h x]
  | .among x _ | .amongInts x _ => by
    simp only [Formula.rename, eval, eval_rename h x, operand_rename]

theorem evalAll_rename (h : Reads σ env env') : ∀ fs : List Formula,
    evalAll natives env' (Formula.renameAll σ fs) = evalAll natives env fs
  | [] => by simp only [Formula.renameAll, evalAll]
  | f :: fs => by simp only [Formula.renameAll, evalAll, eval_rename h f, evalAll_rename h fs]

end

end FactFold.Machine
