import FactFold.Proofs.Lowering.Parts
import FactFold.Proofs.Machine.Akin

/-!
# Lowering under other names

The name of the fact record reaches the code of an expression through the reads of columns and in no
other way. Lowering for a record of another name therefore does the same, failures and all, and comes
to the same code with the record renamed (`node_rename`). Templates that commute with a renaming are
rendered to renamed statements (`render_rename`).
-/

namespace FactFold

open Machine

variable (σ : String → String)

/-! ## Elements -/

namespace Element

/-- The element with other names. -/
def rename : Element → Element
  | .basic code t => .basic (code.rename σ) t
  | .guarded condition body => .guarded condition.rename body.rename
  | .choice condition yes no t => .choice condition.rename yes.rename no.rename t

@[simp] theorem type_rename : ∀ e : Element, (e.rename σ).type = e.type
  | .basic .. | .choice .. => rfl
  | .guarded _ body => type_rename body

theorem value_rename : ∀ e : Element, (e.rename σ).value = Term.rename σ <$> e.value
  | .basic .. => rfl
  | .guarded _ body => by
    rw [rename, value, value, type_rename]
    rfl
  | .choice condition yes no _ => by
    rw [rename, value, value, value_rename condition, value_rename yes, value_rename no]
    cases condition.value with
    | error e => rfl
    | ok c =>
      cases yes.value with
      | error e => rfl
      | ok y => cases no.value <;> rfl

theorem ternary_rename (c y : Element) (n : Option Element) :
    ternary (c.rename σ) (y.rename σ) (n.map (rename σ)) = rename σ <$> ternary c y n := by
  unfold ternary
  rw [type_rename]
  split
  · rfl
  · cases n with
    | none => rfl
    | some n =>
      simp only [Option.map_some, type_rename]
      split
      · rfl
      · split <;> rfl

end Element

/-- Renamed code of a value gives renamed statements. -/
def Template.Commutes (T : Template) : Prop :=
  ∀ code, T (code.rename σ) = Stmt.renameAll σ (T code)

variable {σ} in
/-- Renamed elements are rendered to renamed statements. -/
theorem Element.render_rename {numeric array : Option Template}
    (hn : ∀ T ∈ numeric, T.Commutes σ) (ha : ∀ T ∈ array, T.Commutes σ) : ∀ e : Element,
      (e.rename σ).render numeric array = Stmt.renameAll σ <$> e.render numeric array
  | .basic code t => by
    have hT : ∀ T, templateFor numeric array t = some T → T.Commutes σ := by
      intro T h
      cases t with
      | scalar n => exact hn T h
      | array n => exact ha T h
      | _ => cases h
    rw [rename, render, render]
    cases h : templateFor numeric array t with
    | none => rfl
    | some T => exact congrArg Except.ok (hT T h code)
  | .guarded c body => by
    rw [rename, render, render, value_rename, render_rename hn ha body]
    cases c.value with
    | error e => rfl
    | ok c => cases body.render numeric array <;> rfl
  | .choice c y n _ => by
    rw [rename, render, render, value_rename, render_rename hn ha y, render_rename hn ha n]
    cases c.value with
    | error e => rfl
    | ok c =>
      cases y.render numeric array with
      | error e => rfl
      | ok y => cases n.render numeric array <;> rfl

/-! ## Operators -/

namespace Operators

theorem arithmetic_rename (op : Arithmetic) (l r : Term) (lt rt : DataType) :
    arithmetic op (l.rename σ) (r.rename σ) lt rt = Element.rename σ <$> arithmetic op l r lt rt := by
  cases op <;> cases lt <;> first | rfl | (cases rt <;> rfl)

theorem comparison_rename (op : Comparison) (l r : Term) (lt rt : DataType) :
    comparison op (l.rename σ) (r.rename σ) lt rt = Element.rename σ <$> comparison op l r lt rt := by
  have hmethod : byMethod op (l.rename σ) (r.rename σ) = (byMethod op l r).rename σ := by
    cases op <;> rfl
  unfold comparison
  rw [hmethod]
  split
  case h_4 => split <;> rfl
  all_goals rfl

theorem apply_rename (op : Operator) (x y : Element) :
    apply op (x.rename σ) (y.rename σ) = Element.rename σ <$> apply op x y := by
  unfold apply
  rw [Element.value_rename, Element.value_rename, Element.type_rename, Element.type_rename]
  cases x.value with
  | error e => rfl
  | ok l =>
    cases y.value with
    | error e => rfl
    | ok r =>
      cases op with
      | arithmetic op => exact arithmetic_rename σ op l r _ _
      | comparison op => exact comparison_rename σ op l r _ _

end Operators

/-! ## Calls -/

/-- The code of the argument with other names. -/
def TypedTerm.rename (t : TypedTerm) : TypedTerm := ⟨t.code.rename σ, t.type⟩

theorem TypedTerm.types_rename (args : List TypedTerm) :
    (args.map (rename σ)).map TypedTerm.type = args.map TypedTerm.type := by
  rw [List.map_map]
  rfl

/-- A call of renamed arguments. -/
theorem TypedTerm.call_rename (f : String) (args : List TypedTerm) :
    .call f ((args.map (rename σ)).map TypedTerm.code) =
      (Term.call f (args.map TypedTerm.code)).rename σ := by
  rw [Term.rename, Term.renameAll_eq_map, List.map_map, List.map_map]
  rfl

namespace Compile

variable {α β : Type}

theorem map_liftM (g : α → β) (x : Except Failure α) :
    (liftM (g <$> x) : Compile β) = g <$> (liftM x : Compile α) := by
  cases x <;> rfl

end Compile

/-- Calls are resolved by the types of their arguments. -/
theorem Function.resolve_rename (service : Option MetadataService) (f : Function)
    (args : List TypedTerm) :
    f.resolve service (args.map (TypedTerm.rename σ)) =
      TypedTerm.rename σ <$> f.resolve service args := by
  cases f with
  | custom f =>
    simp only [Function.resolve, Resolution.custom, TypedTerm.types_rename, TypedTerm.call_rename]
    split
    · rfl
    · simp only [map_bind, map_pure]
      rfl
  | existing f =>
    simp only [Function.resolve, Resolution.existing, TypedTerm.types_rename,
      TypedTerm.call_rename]
    -- without a service nothing is resolved under either name
    cases service with
    | none => rfl
    | some service =>
      simp only [map_bind]
      refine bind_congr fun signatures => ?_
      cases signatures with
      | error cause => rfl
      | ok signatures =>
        dsimp only
        split
        · rfl
        · simp only [map_bind]
          refine bind_congr fun output => ?_
          cases output with
          | error cause => rfl
          | ok output =>
            dsimp only
            split
            · rfl
            · split <;> rfl
  | foreign f => rfl

/-! ## Expressions -/

theorem readColumn_rename (fact : Term) (i : Int) (t : DataType) :
    readColumn (fact.rename σ) i t = (readColumn fact i t).rename σ := by
  unfold readColumn
  split <;> rfl

/-- Everything is the same in both environments, apart from the name of the fact record. -/
structure LoweringEnv.Renamed (env env' : LoweringEnv) : Prop where
  schema : env'.schema = env.schema
  functions : env'.functions = env.functions
  factName : env'.factName = σ env.factName

namespace Lowering

/-- Nothing in a constant is renamed. -/
theorem constantTerm_rename (c : Constant) : (constantTerm c).rename σ = constantTerm c :=
  -- the code of a constant has no names, so that any two renamings agree on it
  (Term.rename_congr (τ := id) _ fun name hp =>
    absurd rfl ((nameless_constantTerm c _ hp).1 name)).trans (Term.rename_id _)

theorem constant_rename (c : Constant) : Element.rename σ <$> constant c = constant c := by
  unfold constant
  split <;> simp only [map_bind, map_pure, Element.rename, constantTerm_rename]

theorem operator_rename (op : Operator) (x y : Element) :
    operator op (x.rename σ) (y.rename σ) = Element.rename σ <$> operator op x y := by
  unfold operator
  rw [Operators.apply_rename, Element.type_rename, Element.type_rename, Compile.map_liftM]
  simp only [map_bind, bind_map_left]
  refine bind_congr fun e => ?_
  split <;> rfl

variable {σ} {env env' : LoweringEnv} (columns : List Column)

theorem column_rename (h : LoweringEnv.Renamed σ env env') (c : Column) :
    column env' columns c = Element.rename σ <$> column env columns c := by
  unfold column
  rw [h.schema]
  split
  · rfl
  · split
    · rfl
    · rw [map_pure, Element.rename, ← readColumn_rename, Term.rename, h.factName]

mutual

/-- **For a record of another name an expression is lowered to the same code with the record
renamed**, and fails in the same way if it fails. -/
theorem node_rename (h : LoweringEnv.Renamed σ env env') : ∀ n : Node,
    node env' columns n = Element.rename σ <$> node env columns n
  | .column c => by
    rw [node, node]
    exact column_rename columns h c
  | .constant c => by
    rw [node, node, constant_rename]
  | .arithmetic op l r | .comparison op l r => by
    rw [node, node, node_rename h l, node_rename h r]
    simp only [map_bind, bind_map_left, operator_rename]
  | .guarded op l r body => by
    rw [node, node, node_rename h l, node_rename h r, node_rename h body]
    simp only [map_bind, bind_map_left, operator_rename, ← Compile.map_liftM,
      ← Element.ternary_rename, Option.map_none]
  | .choice op l r yes no => by
    rw [node, node, node_rename h l, node_rename h r, node_rename h yes, node_rename h no]
    simp only [map_bind, bind_map_left, operator_rename, ← Compile.map_liftM,
      ← Element.ternary_rename, Option.map_some]
  | .call f args => by
    -- what the call resolves to is told by the types of the arguments, which have not changed
    rw [node, node, h.functions]
    split
    · rfl
    · rw [arguments_rename h args]
      simp only [map_bind, bind_map_left, Function.resolve_rename]
      rfl

/-- The same of arguments. -/
theorem arguments_rename (h : LoweringEnv.Renamed σ env env') : ∀ ns : List Node,
    arguments env' columns ns = List.map (TypedTerm.rename σ) <$> arguments env columns ns
  | [] => by
    rw [arguments, arguments]
    rfl
  | n :: ns => by
    rw [arguments, arguments, node_rename h n, arguments_rename h ns]
    simp only [map_bind, bind_map_left, Element.value_rename, Element.type_rename,
      Compile.map_liftM, map_pure]
    rfl

end

end Lowering

/-! ## Direct code -/

section

variable {scope : List String} {a b : Term} {lt rt : DataType} {e : Element}
  (ha : Direct scope a) (hb : Direct scope b)

include ha hb

theorem Operators.arithmetic_direct {op : Arithmetic} (h : arithmetic op a b lt rt = .ok e) :
    ∀ p ∈ e.parts, isDirect scope p = true := by
  unfold arithmetic at h
  split at h
  -- the other rows of the table are calls on vectors
  case h_8 => cases h
  case h_2 =>
    obtain rfl := Except.ok.inj h
    refine direct_binary.2 ⟨?_, ha, hb⟩
    cases op <;> rfl
  all_goals
    obtain rfl := Except.ok.inj h
    show Direct scope _
    simp [vectorCall, Term.double, isDirect, ha, hb]

theorem Operators.comparison_direct {op : Comparison} (h : comparison op a b lt rt = .ok e) :
    ∀ p ∈ e.parts, isDirect scope p = true := by
  obtain ⟨-, -, rfl⟩ | ⟨-, rfl⟩ := Lowering.comparison_code h
  · refine direct_binary.2 ⟨?_, ha, hb⟩
    cases op <;> rfl
  · show Direct scope _
    cases op <;> simp [byMethod, Term.int, isDirect, ha, hb, UnaryOp.ofText?, BinaryOp.ofText?,
      Comparison.symbol]

end

section

variable {scope : List String}

/-- The value of an element is as direct as its parts. -/
theorem Element.direct_value {e : Element} {code : Term} (hv : e.value = .ok code)
    (h : ∀ p ∈ e.parts, isDirect scope p = true) : Direct scope code := by
  intro p hp
  rcases (Element.parts_value hv).2 p hp with hp | ⟨c, y, n, rfl⟩
  · exact h p hp
  · -- the condition of a choice that has a value
    rfl

theorem direct_readColumn {fact : Term} (h : Direct scope fact) (i : Int) (t : DataType) :
    Direct scope (readColumn fact i t) := by
  cases t <;> simp [readColumn, Term.int, h]

theorem Lowering.direct_constantTerm (c : Constant) : Direct scope (constantTerm c) := by
  cases c <;> simp [constantTerm, arrayTerm, Term.int]

end

namespace Lowering

variable {s : Site} {scope : List String}

mutual

/-- **Lowered code is direct** where the fact record is known under a plain name. -/
theorem Lowers.direct (hfact : Direct scope (.ident s.env.factName)) :
    ∀ {n : Node} {e : Element}, Lowers s n e → ∀ p ∈ e.parts, isDirect scope p = true
  | .column c, _, .column _ _ => direct_readColumn hfact _ _
  | .constant c, _, .constant _ => direct_constantTerm c
  | .arithmetic op l r, _, .arithmetic hl hr ha hb he =>
    Operators.arithmetic_direct (Element.direct_value ha (hl.direct hfact))
      (Element.direct_value hb (hr.direct hfact)) he
  | .comparison op l r, _, .comparison hl hr ha hb he =>
    Operators.comparison_direct (Element.direct_value ha (hl.direct hfact))
      (Element.direct_value hb (hr.direct hfact)) he
  | .guarded op l r body, _, .guarded hc hb =>
    List.forall_mem_append.2 ⟨hc.direct hfact, hb.direct hfact⟩
  | .choice op l r yes no, _, .choice hc hy hn he => by
    rw [(ternary_some_ok he).1, Element.parts, List.forall_mem_append, List.forall_mem_append]
    exact ⟨hc.direct hfact, hy.direct hfact, hn.direct hfact⟩
  | .call f args, _, .call ha => direct_call.2 (ha.direct hfact)

theorem LowersAll.direct (hfact : Direct scope (.ident s.env.factName)) :
    ∀ {ns : List Node} {terms : List TypedTerm}, LowersAll s ns terms →
      ∀ x ∈ terms.map TypedTerm.code, Direct scope x
  | [], _, .nil => nofun
  | n :: rest, _, .cons hn hv hr => by
    rw [List.map_cons, List.forall_mem_cons]
    exact ⟨Element.direct_value hv (hn.direct hfact), hr.direct hfact⟩

end

end Lowering

end FactFold
