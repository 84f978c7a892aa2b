import FactFold.Proofs.Expr.References
import FactFold.Proofs.Lowering.Soundness

/-!
# Lowering under a wider schema

A schema may give a column a wider type than another does: `long` for `int`, or `double[]` for
`int[]`. Every operator, every comparison and every choice then still has code, and the type of the
result is at most widened. So an expression that calls nothing and has been lowered under the
narrower schema is lowered under the wider one too (`lower_widens`).

The argument is about types alone. Which row of a table of operators applies depends on the class of
the operands (numbers, vectors, texts, dates, truth values), and accepting a type never leaves its
class; within a class the results grow with the operands. What is different from code to code, the
relation `Lowers` has left behind.
-/

namespace FactFold

/-! ## Types that accept others -/

namespace Numeric

theorem rank_wider (a b : Numeric) : (a.wider b).rank = max a.rank b.rank := by
  unfold wider
  split <;> omega

theorem rank_wider_le {a a' b b' : Numeric} (ha : a.rank ≤ a'.rank) (hb : b.rank ≤ b'.rank) :
    (a.wider b).rank ≤ (a'.wider b').rank := by
  rw [rank_wider, rank_wider]
  omega

end Numeric

namespace DataType

/-- What accepts a number is a number. -/
theorem accepts_scalar {t : DataType} {n : Numeric} (h : t.accepts (.scalar n) = true) :
    ∃ m, t = .scalar m ∧ n.rank ≤ m.rank := by
  cases t with
  | scalar m => exact ⟨m, rfl, by simpa [accepts] using h⟩
  | _ => cases h

/-- What accepts a vector is a vector. -/
theorem accepts_array {t : DataType} {n : Numeric} (h : t.accepts (.array n) = true) :
    ∃ m, t = .array m ∧ n.rank ≤ m.rank := by
  cases t with
  | array m => exact ⟨m, rfl, by simpa [accepts] using h⟩
  | _ => cases h

/-- Everything else is accepted by itself alone. -/
theorem accepts_plain {t u : DataType} (hnumeric : u.isNumeric = false) (harray : u.isArray = false)
    (h : t.accepts u = true) : t = u := by
  -- only numbers and vectors have several types in their class
  cases u with
  | scalar n => cases hnumeric
  | array n => cases harray
  | _ => cases t <;> first | rfl | cases h

/-- Accepting a type keeps its class. -/
theorem accepts_class {t u : DataType} (h : t.accepts u = true) :
    t.isNumeric = u.isNumeric ∧ t.isArray = u.isArray := by
  cases u <;> cases t <;> first | exact ⟨rfl, rfl⟩ | cases h

/-- The type two branches agree on: the same one, or the wider of two numbers or vectors. -/
def Agree (t u v : DataType) : Prop := t = u ∧ v = t ∨ t ≠ u ∧ promote? t u = some v

theorem Agree.scalar (n m : Numeric) : Agree (.scalar n) (.scalar m) (.scalar (n.wider m)) := by
  by_cases h : n = m
  · subst h
    exact .inl ⟨rfl, by simp [Numeric.wider]⟩
  · exact .inr ⟨by simpa using h, rfl⟩

theorem Agree.array (n m : Numeric) : Agree (.array n) (.array m) (.array (n.wider m)) := by
  by_cases h : n = m
  · subst h
    exact .inl ⟨rfl, by simp [Numeric.wider]⟩
  · exact .inr ⟨by simpa using h, rfl⟩

theorem Agree.unique {t u v v' : DataType} (h : Agree t u v) (h' : Agree t u v') : v = v' := by
  -- the two ways to agree exclude each other
  rcases h with ⟨heq, rfl⟩ | ⟨hne, hv⟩ <;> rcases h' with ⟨heq', rfl⟩ | ⟨hne', hv'⟩
  · rfl
  · exact (hne' heq).elim
  · exact (hne heq').elim
  · exact Option.some.inj (hv.symm.trans hv')

/-- Wider branches agree on a wider type. -/
theorem Agree.widens {t u v t' u' : DataType} (h : Agree t u v) (ht : t'.accepts t = true)
    (hu : u'.accepts u = true) : ∃ v', Agree t' u' v' ∧ v'.accepts v = true := by
  -- branches that agree are in one class
  have hclass : t.isNumeric = u.isNumeric ∧ t.isArray = u.isArray := by
    obtain ⟨rfl, -⟩ | ⟨-, hv⟩ := h
    · exact ⟨rfl, rfl⟩
    · unfold promote? at hv
      split at hv <;> first | exact ⟨rfl, rfl⟩ | cases hv
  cases t with
  | scalar n =>
    cases u with
    | scalar m =>
      obtain ⟨n', rfl, hn⟩ := accepts_scalar ht
      obtain ⟨m', rfl, hm⟩ := accepts_scalar hu
      obtain rfl := h.unique (.scalar n m)
      exact ⟨_, .scalar n' m', by simpa [accepts] using Numeric.rank_wider_le hn hm⟩
    | _ => cases hclass.1
  | array n =>
    cases u with
    | array m =>
      obtain ⟨n', rfl, hn⟩ := accepts_array ht
      obtain ⟨m', rfl, hm⟩ := accepts_array hu
      obtain rfl := h.unique (.array n m)
      exact ⟨_, .array n' m', by simpa [accepts] using Numeric.rank_wider_le hn hm⟩
    | _ => cases hclass.2
  | boolean | string | localDate | other name =>
    -- nothing is wider than these
    obtain rfl := accepts_plain rfl rfl ht
    obtain rfl := accepts_plain hclass.1.symm hclass.2.symm hu
    obtain ⟨rfl, rfl⟩ | ⟨-, hv⟩ := h
    · exact ⟨_, .inl ⟨rfl, rfl⟩, ht⟩
    · cases hv

end DataType

/-! ## Operators on wider operands -/

namespace Operators

variable {lt rt lt' rt' : DataType} (hl : lt'.accepts lt = true) (hr : rt'.accepts rt = true)

include hl hr

/-- An arithmetic operator that applies to two types applies to wider ones. -/
theorem arithmetic_widens {op : Arithmetic} {a b : Term} {e : Element}
    (h : arithmetic op a b lt rt = .ok e) (a' b' : Term) :
    ∃ code' t', arithmetic op a' b' lt' rt' = .ok (.basic code' t') ∧
      t'.accepts e.type = true := by
  -- within a class the result grows with the operands
  have hrank {n n' m m' : Numeric} (hn : n.rank ≤ n'.rank) (hm : m.rank ≤ m'.rank) :
      decide ((n.wider m).rank ≤ (n'.wider m').rank) = true := by
    simpa using Numeric.rank_wider_le hn hm
  unfold arithmetic at h
  split at h
  -- one case per row of the table
  · obtain ⟨n', rfl, -⟩ := DataType.accepts_scalar hl
    obtain ⟨m', rfl, -⟩ := DataType.accepts_scalar hr
    obtain rfl := Except.ok.inj h
    exact ⟨_, _, rfl, rfl⟩
  · rename_i hop
    obtain ⟨n', rfl, hn⟩ := DataType.accepts_scalar hl
    obtain ⟨m', rfl, hm⟩ := DataType.accepts_scalar hr
    obtain rfl := Except.ok.inj h
    cases op with
    | div => exact (hop rfl).elim
    | _ => exact ⟨_, _, rfl, hrank hn hm⟩
  · obtain ⟨n', rfl, hn⟩ := DataType.accepts_array hl
    obtain ⟨m', rfl, hm⟩ := DataType.accepts_array hr
    obtain rfl := Except.ok.inj h
    exact ⟨_, _, rfl, hrank hn hm⟩
  · obtain ⟨n', rfl, hn⟩ := DataType.accepts_array hl
    obtain ⟨m', rfl, hm⟩ := DataType.accepts_array hr
    obtain rfl := Except.ok.inj h
    exact ⟨_, _, rfl, hrank hn hm⟩
  · obtain ⟨n', rfl, hn⟩ := DataType.accepts_array hl
    obtain ⟨m', rfl, hm⟩ := DataType.accepts_scalar hr
    obtain rfl := Except.ok.inj h
    exact ⟨_, _, rfl, hrank hn hm⟩
  · obtain ⟨n', rfl, hn⟩ := DataType.accepts_scalar hl
    obtain ⟨m', rfl, hm⟩ := DataType.accepts_array hr
    obtain rfl := Except.ok.inj h
    exact ⟨_, _, rfl, hrank hm hn⟩
  · obtain ⟨n', rfl, -⟩ := DataType.accepts_array hl
    obtain ⟨m', rfl, -⟩ := DataType.accepts_scalar hr
    obtain rfl := Except.ok.inj h
    exact ⟨_, _, rfl, rfl⟩
  · cases h

/-- A comparison that applies to two types applies to wider ones. -/
theorem comparison_widens {op : Comparison} {a b : Term} {e : Element}
    (h : comparison op a b lt rt = .ok e) (a' b' : Term) :
    ∃ code', comparison op a' b' lt' rt' = .ok (.basic code' .boolean) := by
  unfold comparison at h
  split at h
  · obtain ⟨n', rfl, -⟩ := DataType.accepts_scalar hl
    obtain ⟨m', rfl, -⟩ := DataType.accepts_scalar hr
    exact ⟨_, rfl⟩
  · obtain rfl := DataType.accepts_plain rfl rfl hl
    obtain rfl := DataType.accepts_plain rfl rfl hr
    exact ⟨_, rfl⟩
  · obtain rfl := DataType.accepts_plain rfl rfl hl
    obtain rfl := DataType.accepts_plain rfl rfl hr
    exact ⟨_, rfl⟩
  · obtain rfl := DataType.accepts_plain rfl rfl hl
    obtain rfl := DataType.accepts_plain rfl rfl hr
    -- truth values are compared for being the same only
    split at h
    · rename_i hop
      exact ⟨_, if_pos hop⟩
    · cases h
  · cases h

end Operators

namespace Element

theorem ternary_of_agree {c y n : Element} {t : DataType} (hc : c.type = .boolean)
    (h : DataType.Agree y.type n.type t) : ternary c y (some n) = .ok (.choice c y n t) := by
  unfold ternary
  rw [if_neg (by simpa using hc)]
  rcases h with ⟨heq, rfl⟩ | ⟨hne, ht⟩
  · simp only [heq, if_true]
  · simp only [hne, if_false, ht]

end Element

/-! ## Expressions -/

namespace Lowering

open Machine (bind_ok)

/-- The second element has a wider type, and the code of a value where the first has it. -/
structure Wider (e e' : Element) : Prop where
  type : e'.type.accepts e.type = true
  value : ∀ {code}, e.value = .ok code → ∃ code', e'.value = .ok code'

theorem Wider.basic {c c' : Term} {t t' : DataType} (h : t'.accepts t = true) :
    Wider (.basic c t) (.basic c' t') := ⟨h, fun _ => ⟨c', rfl⟩⟩

/-- Every column in a list that the first schema knows has a wider type in the second. -/
def WidensOn (columns : List Column) (schema schema' : List (String × DataType)) : Prop :=
  ∀ c ∈ columns, ∀ t, schema.lookup c.name = some t →
    ∃ t', schema'.lookup c.name = some t' ∧ t'.accepts t = true

theorem WidensOn.mono {cs ds : List Column} {schema schema' : List (String × DataType)}
    (h : WidensOn cs schema schema') (hsub : ds ⊆ cs) : WidensOn ds schema schema' :=
  fun c hc => h c (hsub hc)

/-- Only the names of columns matter, so the columns an expression reads stand for all its
references. -/
theorem WidensOn.references {n : Node} {schema schema' : List (String × DataType)}
    (h : WidensOn n.columns schema schema') : WidensOn n.references schema schema' := by
  intro c hc t ht
  have hname : c.name ∈ n.columns.map Column.name := by
    rw [Node.columns_eq, Node.mem_names_firstByName]
    exact ⟨List.mem_map_of_mem hc, by simp⟩
  obtain ⟨d, hd, heq⟩ := List.mem_map.1 hname
  -- the column that was kept has the name of the reference
  rw [← heq] at ht ⊢
  exact h d hd t ht

theorem constant_known (c : Constant) : c.type.accepts c.type = true := by
  cases c <;> rfl

/-- **A lowered expression is lowered under a wider schema**, to an element that is wider. -/
theorem Lowers.widens {s s' : Site} (hcolumns : s'.columns = s.columns) {n : Node} {e : Element}
    (h : Lowers s n e) (hcalls : n.callees = [])
    (hw : WidensOn n.references s.env.schema s'.env.schema) : ∃ e', Lowers s' n e' ∧ Wider e e' := by
  induction h using Lowers.above_calls with
  | @column c t i ht hi =>
    obtain ⟨t', ht', haccepts⟩ := hw c (by simp [Node.references]) _ ht
    rw [← hcolumns] at hi
    exact ⟨_, .column ht' hi, .basic haccepts⟩
  | constant c => exact ⟨_, .constant c, .basic (constant_known c)⟩
  | arithmetic hl hr ha hb he ihl ihr =>
    obtain ⟨hln, hrn⟩ := List.append_eq_nil_iff.1 hcalls
    obtain ⟨x', hx', hx⟩ := ihl hln (hw.mono (List.subset_append_left _ _))
    obtain ⟨y', hy', hy⟩ := ihr hrn (hw.mono (List.subset_append_right _ _))
    obtain ⟨a', ha'⟩ := hx.value ha
    obtain ⟨b', hb'⟩ := hy.value hb
    obtain ⟨code', t', he', htype⟩ := Operators.arithmetic_widens hx.type hy.type he a' b'
    exact ⟨_, .arithmetic hx' hy' ha' hb' he', htype, fun _ => ⟨code', rfl⟩⟩
  | comparison hl hr ha hb he ihl ihr =>
    obtain ⟨hln, hrn⟩ := List.append_eq_nil_iff.1 hcalls
    obtain ⟨x', hx', hx⟩ := ihl hln (hw.mono (List.subset_append_left _ _))
    obtain ⟨y', hy', hy⟩ := ihr hrn (hw.mono (List.subset_append_right _ _))
    obtain ⟨a', ha'⟩ := hx.value ha
    obtain ⟨b', hb'⟩ := hy.value hb
    obtain ⟨code', he'⟩ := Operators.comparison_widens hx.type hy.type he a' b'
    refine ⟨_, .comparison hx' hy' ha' hb' he', ?_⟩
    obtain ⟨-, -, rfl⟩ | ⟨-, rfl⟩ := comparison_code he <;> exact .basic rfl
  | guarded hc hb ihc ihb =>
    obtain ⟨hcn, hbn⟩ := List.append_eq_nil_iff.1 hcalls
    obtain ⟨c', hc', -⟩ := ihc hcn (hw.mono (List.subset_append_left _ _))
    obtain ⟨b', hb', hwider⟩ := ihb hbn (hw.mono (List.subset_append_right _ _))
    exact ⟨_, .guarded hc' hb', hwider.type, fun hv => by cases hv⟩
  | choice hc hy hn he ihc ihy ihn =>
    obtain ⟨hcalls, hnn⟩ := List.append_eq_nil_iff.1 hcalls
    obtain ⟨hcn, hyn⟩ := List.append_eq_nil_iff.1 hcalls
    rw [Node.references, List.append_assoc] at hw
    have hwc := hw.mono (List.subset_append_left _ _)
    have hwb := hw.mono (List.subset_append_right _ _)
    obtain ⟨c', hc', hcw⟩ := ihc hcn hwc
    obtain ⟨y', hy', hyw⟩ := ihy hyn (hwb.mono (List.subset_append_left _ _))
    obtain ⟨n', hn', hnw⟩ := ihn hnn (hwb.mono (List.subset_append_right _ _))
    obtain ⟨-, hbool, hagree⟩ := ternary_some_ok he
    -- nothing but a truth value accepts a truth value
    have hcw' := hcw.type
    rw [hbool] at hcw'
    have hbool' : c'.type = .boolean := DataType.accepts_plain rfl rfl hcw'
    obtain ⟨t', hagree', htype⟩ := DataType.Agree.widens hagree hyw.type hnw.type
    refine ⟨_, .choice hc' hy' hn' (Element.ternary_of_agree hbool' hagree'), htype, ?_⟩
    -- a choice has a value where its parts have one
    intro code hv
    obtain ⟨c, y, n, hcv, hyv, hnv, -⟩ := ternary_value_ok he hv
    obtain ⟨c₁, hc₁⟩ := hcw.value hcv
    obtain ⟨y₁, hy₁⟩ := hyw.value hyv
    obtain ⟨n₁, hn₁⟩ := hnw.value hnv
    refine ⟨.cond c₁ y₁ n₁, ?_⟩
    rw [Element.value, hc₁, hy₁, hn₁]
    rfl
  | call => cases hcalls

/-! ## Running a lowering -/

/-- A step that succeeds, followed by one that succeeds. -/
theorem runs_bind {α β : Type} {x : Compile α} {k : α → Compile β} {ws v : Workspace} {a : α} {b : β}
    (hx : x.runIn ws = (.ok a, v)) (hk : ∃ ws', (k a).runIn v = (.ok b, ws')) :
    ∃ ws', (x >>= k).runIn ws = (.ok b, ws') := by
  obtain ⟨ws', hk⟩ := hk
  exact ⟨ws', Compile.runIn_bind_ok_iff.2 ⟨a, v, hx, hk⟩⟩

theorem operator_runs {op : Operator} {x y e : Element} (h : Operators.apply op x y = .ok e)
    (ws : Workspace) : ∃ ws', (operator op x y).runIn ws = (.ok e, ws') := by
  unfold operator
  refine runs_bind (v := ws) (a := e) ?_ ?_
  · rw [Compile.runIn_lift, h]
  · split
    · exact ⟨_, rfl⟩
    · exact ⟨_, rfl⟩

/-- The sides of a comparison one after the other, and then the comparison itself. -/
theorem comparison_runs {env : LoweringEnv} {columns : List Column} {calls : CallTypes}
    {op : Comparison} {l r : Node} {c e : Element} {k : Element → Compile Element}
    (hc : Lowers ⟨env, columns, calls⟩ (.comparison op l r) c)
    (hl : ∀ {x}, Lowers ⟨env, columns, calls⟩ l x →
      ∀ ws, ∃ ws', (node env columns l).runIn ws = (.ok x, ws'))
    (hr : ∀ {y}, Lowers ⟨env, columns, calls⟩ r y →
      ∀ ws, ∃ ws', (node env columns r).runIn ws = (.ok y, ws'))
    (hk : ∀ ws, ∃ ws', (k c).runIn ws = (.ok e, ws')) (ws : Workspace) :
    ∃ ws', (do
      let x ← node env columns l
      let y ← node env columns r
      let c ← operator (.comparison op) x y
      k c).runIn ws = (.ok e, ws') := by
  cases hc with
  | @comparison _ _ _ x y _ a b hx hy ha hb he =>
    have happly : Operators.apply (.comparison op) x y = .ok c := by
      simp only [Operators.apply, ha, hb, bind, Except.bind, he]
    obtain ⟨v₁, hx⟩ := hl hx ws
    obtain ⟨v₂, hy⟩ := hr hy v₁
    obtain ⟨v₃, hc⟩ := operator_runs happly v₂
    exact runs_bind hx (runs_bind hy (runs_bind hc (hk v₃)))

/-- The way back from the relation: where nothing is called, lowering has no other way to fail, and
it succeeds in every workspace. -/
theorem Lowers.runs {env : LoweringEnv} {columns : List Column} {calls : CallTypes} :
    ∀ {n : Node} {e : Element}, Lowers ⟨env, columns, calls⟩ n e → n.callees = [] →
      ∀ ws, ∃ ws', (node env columns n).runIn ws = (.ok e, ws')
  | .column c, _, .column ht hi, _, ws => by
    refine ⟨ws, ?_⟩
    dsimp only at ht hi
    rw [node, Lowering.column]
    simp only [ht, hi, Compile.runIn_pure]
  | .constant c, _, .constant _, _, ws => by
    rw [node, Lowering.constant]
    cases constantImport? c with
    | none => exact ⟨_, rfl⟩
    | some name => exact ⟨_, rfl⟩
  | .arithmetic op l r, e, .arithmetic (x := x) (y := y) hl hr ha hb he, hn, ws => by
    obtain ⟨hln, hrn⟩ := List.append_eq_nil_iff.1 hn
    have happly : Operators.apply (.arithmetic op) x y = .ok e := by
      simp only [Operators.apply, ha, hb, bind, Except.bind, he]
    obtain ⟨v₁, hx⟩ := hl.runs hln ws
    obtain ⟨v₂, hy⟩ := hr.runs hrn v₁
    rw [node]
    exact runs_bind hx (runs_bind hy (operator_runs happly v₂))
  | .comparison op l r, e, hc, hn, ws => by
    obtain ⟨hln, hrn⟩ := List.append_eq_nil_iff.1 hn
    rw [node]
    have hrun := comparison_runs (k := pure) hc (fun hx => hx.runs hln) (fun hy => hy.runs hrn)
      (fun ws => ⟨ws, rfl⟩) ws
    simpa only [bind_pure] using hrun
  | .guarded op l r body, _, .guarded (c := c) (b := b) hc hb, hn, ws => by
    obtain ⟨hcn, hbn⟩ := List.append_eq_nil_iff.1 hn
    obtain ⟨hln, hrn⟩ := List.append_eq_nil_iff.1 hcn
    have hbool : c.type = .boolean := hc.type_eq
    rw [node]
    refine comparison_runs hc (fun hx => hx.runs hln) (fun hy => hy.runs hrn) (fun v => ?_) ws
    obtain ⟨u, hu⟩ := hb.runs hbn v
    refine runs_bind hu ⟨u, ?_⟩
    rw [Compile.runIn_lift, Element.ternary, if_neg (by simpa using hbool)]
  | .choice op l r yes no, e, .choice hc hy hn he, hcalls, ws => by
    obtain ⟨hcalls, hnn⟩ := List.append_eq_nil_iff.1 hcalls
    obtain ⟨hcn, hyn⟩ := List.append_eq_nil_iff.1 hcalls
    obtain ⟨hln, hrn⟩ := List.append_eq_nil_iff.1 hcn
    rw [node]
    refine comparison_runs hc (fun hx => hx.runs hln) (fun hy => hy.runs hrn) (fun v => ?_) ws
    obtain ⟨u₁, hu₁⟩ := hy.runs hyn v
    obtain ⟨u₂, hu₂⟩ := hn.runs hnn u₁
    refine runs_bind hu₁ (runs_bind hu₂ ⟨u₂, ?_⟩)
    rw [Compile.runIn_lift, he]
  | .call .., _, .call _, hn, _ => by cases hn

/-- **Widening a schema never breaks a lowering.** An expression that calls nothing and is lowered
under one schema is lowered under every wider one, in whatever workspace, and its type is at most
widened. -/
theorem lower_widens {env env' : LoweringEnv} {n : Node} (hcalls : n.callees = [])
    (hw : WidensOn n.columns env.schema env'.schema) {e : Element} {ws ws' : Workspace}
    (h : (n.lower env).runIn ws = (.ok e, ws')) (us : Workspace) :
    ∃ e' us', (n.lower env').runIn us = (.ok e', us') ∧ e'.type.accepts e.type = true := by
  have hlowers : Lowers (site env n.columns ws'.cache) n e := (node_lowers h).2 _ (.refl _)
  have hcolumns : (site env' n.columns ws'.cache).columns = (site env n.columns ws'.cache).columns :=
    rfl
  obtain ⟨e', he', hwider⟩ := hlowers.widens hcolumns hcalls hw.references
  obtain ⟨us', hrun⟩ := he'.runs hcalls us
  exact ⟨e', us', hrun, hwider.type⟩

end Lowering

end FactFold
