import FactFold.Expr.Measure
import Mathlib

/-!
# Which expressions are measures

An expression is turned into a measure from its leaves upwards, and two measures are joined or not by
what they are alone: an aggregated column takes neither another one nor a literal. What a measure is
depends on the expression it was made of, since everything joined is a calculation and a leaf stays a
leaf. So whether an expression is a measure can be read off its nodes:

* conditions and calls are no measures, wherever they stand (`Node.Flat`);
* where columns are aggregated, an operator needs an operator among its operands, or two constants
  (`Node.Joined`).

`Mirrors` is the shape of the result. `toMeasure_ok_iff` brings the three together, by induction on
the expression, and `measures_exactly` adds that every failure is one of combination.
-/

namespace FactFold

namespace Node

/-- The node applies an operator to two operands; arithmetic and comparisons are alike here. -/
inductive Applies : Node → Operator → Node → Node → Prop
  | arithmetic (op : Arithmetic) (l r : Node) :
      Applies (.arithmetic op l r) (.arithmetic op) l r
  | comparison (op : Comparison) (l r : Node) :
      Applies (.comparison op l r) (.comparison op) l r

/-- A column or a constant. -/
def Leaf (n : Node) : Prop := n.kind = .column ∨ n.kind = .constant

/-- A condition or a call. -/
def Barred (n : Node) : Prop := n.kind = .ternary ∨ n.kind = .call

/-- The nodes of an expression, those of all its parts included. -/
def nodes (n : Node) : List Node := n.walk fun _ => true

/-- No condition and no call stands in the expression. -/
def Flat (n : Node) : Prop := ∀ k ∈ n.nodes, ¬k.Barred

/-- One of the operands is an operator, or both are constants. -/
def Joinable (l r : Node) : Prop :=
  l.kind = .binary ∨ r.kind = .binary ∨ l.kind = .constant ∧ r.kind = .constant

/-- Every operator in the expression has operands that can be joined. -/
def Joined (n : Node) : Prop := ∀ k ∈ n.nodes, ∀ op l r, k.Applies op l r → Joinable l r

end Node

/-- The measure repeats the expression: a calculation for every operator, with the operands in order,
a column for every column and a literal for every constant. -/
inductive Mirrors (aggregation : String) : Node → Measure → Prop
  | value {c : Column} (h : aggregation = "") : Mirrors aggregation (.column c) (.value c)
  | table {c : Column} (h : aggregation ≠ "") :
      Mirrors aggregation (.column c) (.table c aggregation)
  | literal {c : Constant} : Mirrors aggregation (.constant c) (.literal c.datum)
  | calculated {n l r : Node} {op : Operator} {x y : Measure} (h : n.Applies op l r)
      (hl : Mirrors aggregation l x) (hr : Mirrors aggregation r y) :
      Mirrors aggregation n (.calculated op x y)

/-! ## Nodes by what they are as measures

There are leaves, operators, and nodes that are no measures. Inductions on an expression go by these,
whichever constructor is behind them. -/

namespace Node

theorem inductionOn {P : Node → Prop} (column : ∀ c, P (.column c))
    (constant : ∀ c, P (.constant c))
    (operator : ∀ {n op l r}, n.Applies op l r → P l → P r → P n)
    (barred : ∀ {n}, n.Barred → P n) : ∀ n, P n
  | .column c => column c
  | .constant c => constant c
  | .arithmetic op l r =>
    operator (.arithmetic op l r) (inductionOn column constant operator barred l)
      (inductionOn column constant operator barred r)
  | .comparison op l r =>
    operator (.comparison op l r) (inductionOn column constant operator barred l)
      (inductionOn column constant operator barred r)
  | .guarded .. => barred (.inl rfl)
  | .choice .. => barred (.inl rfl)
  | .call .. => barred (.inr rfl)

variable {n l r : Node} {op : Operator} {aggregation : String}

theorem self_mem_nodes (n : Node) : n ∈ n.nodes := by
  cases n <;> simp [nodes, walk]

theorem Leaf.nodes_eq (h : n.Leaf) : n.nodes = [n] := by
  cases n with
  | column | constant => simp [nodes, walk]
  | arithmetic | comparison | guarded | choice | call => rcases h with h | h <;> cases h

theorem Leaf.flat (h : n.Leaf) : n.Flat := by
  rw [Flat, h.nodes_eq, List.forall_mem_singleton, Barred]
  rcases h with h | h <;> rw [h] <;> decide

theorem Leaf.joined (h : n.Leaf) : n.Joined := by
  rw [Joined, h.nodes_eq, List.forall_mem_singleton]
  rintro _ _ _ (_ | _) <;> rcases h with h | h <;> cases h

theorem Barred.not_flat (h : n.Barred) : ¬n.Flat := fun hf => hf n n.self_mem_nodes h

theorem Barred.toMeasure_eq (h : n.Barred) :
    n.toMeasure aggregation = .error (.notMeasure n.text) := by
  cases n with
  | column | constant | arithmetic | comparison => rcases h with h | h <;> cases h
  | guarded | choice | call => rw [toMeasure] <;> simp

namespace Applies

theorem kind_eq (h : n.Applies op l r) : n.kind = .binary := by
  cases h <;> rfl

theorem not_barred (h : n.Applies op l r) : ¬n.Barred := by
  rw [Barred, h.kind_eq]
  decide

theorem unique (h : n.Applies op l r) {op' : Operator} {l' r' : Node} (h' : n.Applies op' l' r') :
    op' = op ∧ l' = l ∧ r' = r := by
  cases h <;> cases h' <;> exact ⟨rfl, rfl, rfl⟩

/-- What is true of all nodes is true of the operator and of the nodes of both operands. -/
theorem forall_nodes (h : n.Applies op l r) {P : Node → Prop} :
    (∀ k ∈ n.nodes, P k) ↔ P n ∧ (∀ k ∈ l.nodes, P k) ∧ ∀ k ∈ r.nodes, P k := by
  have hnodes : n.nodes = n :: (l.nodes ++ r.nodes) := by
    cases h <;> simp [nodes, walk]
  rw [hnodes, List.forall_mem_cons, List.forall_mem_append]

theorem flat_iff (h : n.Applies op l r) : n.Flat ↔ l.Flat ∧ r.Flat := by
  unfold Flat
  rw [h.forall_nodes]
  exact and_iff_right h.not_barred

theorem joined_iff (h : n.Applies op l r) : n.Joined ↔ Joinable l r ∧ l.Joined ∧ r.Joined := by
  unfold Joined
  rw [h.forall_nodes]
  refine and_congr_left fun _ => ⟨fun hn => hn op l r h, ?_⟩
  intro hj op' l' r' h'
  obtain ⟨-, rfl, rfl⟩ := h.unique h'
  exact hj

theorem toMeasure_eq (h : n.Applies op l r) :
    n.toMeasure aggregation = (do
      let x ← l.toMeasure aggregation
      let y ← r.toMeasure aggregation
      Measure.combine op x y) := by
  cases h <;> rw [toMeasure]

end Applies

end Node

/-! ## Joining two measures

The check looks at the two measures alone. `Clash` are the pairs it refuses, and what clashes is told
by the kinds of the two expressions. -/

namespace Measure

/-- Two measures that cannot be joined. -/
inductive Clash : Measure → Measure → Prop
  | tables {c d : Column} {a b : String} : Clash (.table c a) (.table d b)
  | tableLiteral {c : Column} {a : String} {d : Datum} : Clash (.table c a) (.literal d)
  | literalTable {c : Column} {a : String} {d : Datum} : Clash (.literal d) (.table c a)

/-- Two measures are joined, or they clash and the fault is one of combination. -/
theorem combine_cases (op : Operator) (x y : Measure) :
    ¬Clash x y ∧ combine op x y = .ok (.calculated op x y) ∨
      Clash x y ∧ ∃ f : Failure, combine op x y = .error f ∧
        f.report.category? = some (.unsupportedCombination, []) := by
  unfold combine
  split
  · exact .inr ⟨.tables, _, rfl, rfl⟩
  · exact .inr ⟨.tableLiteral, _, rfl, rfl⟩
  · exact .inr ⟨.literalTable, _, rfl, rfl⟩
  · next htables htable hliteral =>
    refine .inl ⟨?_, rfl⟩
    rintro (_ | _ | _)
    · exact htables _ _ _ _ rfl rfl
    · exact htable _ _ _ rfl rfl
    · exact hliteral _ _ _ rfl rfl

theorem combine_ok_iff {op : Operator} {x y m : Measure} :
    combine op x y = .ok m ↔ ¬Clash x y ∧ m = .calculated op x y := by
  obtain ⟨hjoin, heq⟩ | ⟨hclash, f, heq, -⟩ := combine_cases op x y
  · rw [heq, Except.ok.injEq, eq_comm]
    exact (and_iff_right hjoin).symm
  · rw [heq]
    exact iff_of_false (by simp) fun h => h.1 hclash

end Measure

namespace Mirrors

variable {aggregation : String} {n l r : Node} {op : Operator} {x y m : Measure}

/-- **What a measure is, its expression tells.** Two measures clash where columns are aggregated and
the two expressions cannot be joined. -/
theorem clash_iff (hl : Mirrors aggregation l x) (hr : Mirrors aggregation r y) :
    x.Clash y ↔ aggregation ≠ "" ∧ ¬Node.Joinable l r := by
  constructor
  · intro h
    -- only leaves clash, and one of them is an aggregated column
    cases h <;> cases hl <;> cases hr
    all_goals
      refine ⟨by assumption, ?_⟩
      rintro (h | h | ⟨h, h'⟩) <;> contradiction
  · rintro ⟨ha, hj⟩
    cases hl with
    | value he => exact absurd he ha
    | calculated happ => exact absurd (.inl happ.kind_eq) hj
    | table =>
      cases hr with
      | value he => exact absurd he ha
      | calculated happ => exact absurd (.inr (.inl happ.kind_eq)) hj
      | table => exact .tables
      | literal => exact .tableLiteral
    | literal =>
      cases hr with
      | value he => exact absurd he ha
      | calculated happ => exact absurd (.inr (.inl happ.kind_eq)) hj
      | table => exact .literalTable
      | literal => exact absurd (.inr (.inr ⟨rfl, rfl⟩)) hj

theorem not_barred (h : Mirrors aggregation n m) : ¬n.Barred := by
  cases h with
  | value | table | literal => rintro (h | h) <;> cases h
  | calculated happ => exact happ.not_barred

/-- The mirror of an operator joins the mirrors of its operands. -/
theorem of_applies (happ : n.Applies op l r) :
    Mirrors aggregation n m ↔
      ∃ x y, Mirrors aggregation l x ∧ Mirrors aggregation r y ∧ m = .calculated op x y := by
  constructor
  · intro h
    cases h with
    | value | table | literal => cases happ
    | calculated happ' hl hr =>
      obtain ⟨rfl, rfl, rfl⟩ := happ.unique happ'
      exact ⟨_, _, hl, hr, rfl⟩
  · rintro ⟨x, y, hl, hr, rfl⟩
    exact .calculated happ hl hr

theorem column_iff {c : Column} :
    Mirrors aggregation (.column c) m ↔ m = .ofColumn aggregation c := by
  unfold Measure.ofColumn
  constructor
  · intro h
    cases h with
    | value ha => rw [if_pos ha]
    | table ha => rw [if_neg ha]
    | calculated happ => cases happ
  · rintro rfl
    split_ifs with ha
    · exact .value ha
    · exact .table ha

theorem constant_iff {c : Constant} :
    Mirrors aggregation (.constant c) m ↔ m = .literal c.datum := by
  constructor
  · intro h
    cases h with
    | literal => rfl
    | calculated happ => cases happ
  · rintro rfl
    exact .literal

/-- Expressions without conditions and calls have a mirror, and no others have. -/
theorem exists_iff_flat (n : Node) : (∃ m, Mirrors aggregation n m) ↔ n.Flat := by
  induction n using Node.inductionOn with
  | column c => exact iff_of_true ⟨_, column_iff.2 rfl⟩ (Node.Leaf.flat (.inl rfl))
  | constant c => exact iff_of_true ⟨_, .literal⟩ (Node.Leaf.flat (.inr rfl))
  | operator happ ihl ihr =>
    rw [happ.flat_iff, ← ihl, ← ihr]
    constructor
    · rintro ⟨m, h⟩
      obtain ⟨x, y, hx, hy, -⟩ := (of_applies happ).1 h
      exact ⟨⟨x, hx⟩, ⟨y, hy⟩⟩
    · rintro ⟨⟨x, hx⟩, ⟨y, hy⟩⟩
      exact ⟨_, .calculated happ hx hy⟩
  | barred hn => exact iff_of_false (fun ⟨m, h⟩ => h.not_barred hn) hn.not_flat

end Mirrors

/-! ## Whole expressions -/

namespace Node

variable {aggregation : String}

/-- **An expression is a measure when it has a mirror and, where columns are aggregated, all its
operators have operands that can be joined.** The operands are known by their mirrors, which is all
that decides whether they clash. -/
theorem toMeasure_ok_iff (n : Node) (m : Measure) :
    n.toMeasure aggregation = .ok m ↔
      Mirrors aggregation n m ∧ (aggregation ≠ "" → n.Joined) := by
  induction n using Node.inductionOn generalizing m with
  | column c =>
    rw [toMeasure, Mirrors.column_iff, Except.ok.injEq, eq_comm]
    exact (and_iff_left fun _ => Leaf.joined (.inl rfl)).symm
  | constant c =>
    rw [toMeasure, Mirrors.constant_iff, Except.ok.injEq, eq_comm]
    exact (and_iff_left fun _ => Leaf.joined (.inr rfl)).symm
  | @operator n op l r happ ihl ihr =>
    have hrun : n.toMeasure aggregation = .ok m ↔ ∃ x y, l.toMeasure aggregation = .ok x ∧
        r.toMeasure aggregation = .ok y ∧ Measure.combine op x y = .ok m := by
      rw [happ.toMeasure_eq]
      cases l.toMeasure aggregation <;> cases r.toMeasure aggregation <;> simp [bind, Except.bind]
    rw [hrun, Mirrors.of_applies happ, happ.joined_iff]
    constructor
    · rintro ⟨x, y, hl, hr, hm⟩
      obtain ⟨hx, hlj⟩ := (ihl x).1 hl
      obtain ⟨hy, hrj⟩ := (ihr y).1 hr
      obtain ⟨hclash, rfl⟩ := Measure.combine_ok_iff.1 hm
      rw [hx.clash_iff hy] at hclash
      exact ⟨⟨x, y, hx, hy, rfl⟩, fun ha => ⟨not_not.1 fun hj => hclash ⟨ha, hj⟩, hlj ha, hrj ha⟩⟩
    · rintro ⟨⟨x, y, hx, hy, rfl⟩, hj⟩
      have hclash : ¬x.Clash y := by
        rw [hx.clash_iff hy]
        exact fun h => h.2 (hj h.1).1
      exact ⟨x, y, (ihl x).2 ⟨hx, fun ha => (hj ha).2.1⟩, (ihr y).2 ⟨hy, fun ha => (hj ha).2.2⟩,
        Measure.combine_ok_iff.2 ⟨hclash, rfl⟩⟩
  | barred hn =>
    rw [hn.toMeasure_eq]
    exact iff_of_false (by simp) fun h => h.1.not_barred hn

/-- The first part that is no measure, or the first pair that clashes, is the fault of the whole. -/
theorem toMeasure_error (n : Node) {f : Failure} (h : n.toMeasure aggregation = .error f) :
    f.report.category? = some (.unsupportedCombination, []) := by
  induction n using Node.inductionOn with
  | column c => cases h
  | constant c => cases h
  | @operator n op l r happ ihl ihr =>
    rw [happ.toMeasure_eq] at h
    cases hl : l.toMeasure aggregation with
    | error e =>
      rw [hl] at h
      exact ihl (hl.trans h)
    | ok x =>
      cases hr : r.toMeasure aggregation with
      | error e =>
        rw [hl, hr] at h
        exact ihr (hr.trans h)
      | ok y =>
        rw [hl, hr] at h
        obtain ⟨-, heq⟩ | ⟨-, g, heq, hg⟩ := Measure.combine_cases op x y
        · rw [show Measure.combine op x y = .error f from h] at heq
          cases heq
        · rw [show Measure.combine op x y = .error f from h] at heq
          rw [Except.error.inj heq]
          exact hg
  | barred hn =>
    rw [hn.toMeasure_eq] at h
    obtain rfl := Except.error.inj h
    rfl

/-- **Which expressions are measures.** With an aggregation, those without conditions and calls in
which every operator has an operator among its operands or two constants; without one, all those
without conditions and calls. The measure has the shape of the expression, and a failure is one of
combination. -/
theorem measures_exactly (aggregation : String) (n : Node) :
    ((∃ m, n.toMeasure aggregation = .ok m) ↔ n.Flat ∧ (aggregation ≠ "" → n.Joined)) ∧
      (∀ m, n.toMeasure aggregation = .ok m → Mirrors aggregation n m) ∧
      ∀ f, n.toMeasure aggregation = .error f →
        f.report.category?.map (fun c => c.1.name) = some "UNSUPPORTED_COMBINATION" := by
  refine ⟨?_, fun m h => ((toMeasure_ok_iff n m).1 h).1, fun f h => ?_⟩
  · simp only [toMeasure_ok_iff, exists_and_right, Mirrors.exists_iff_flat]
  · rw [toMeasure_error n h]
    rfl

/-- A column and a sum of constants are joined, a column and a single constant are not. -/
theorem measures_exactly_sums :
    let column : Node := .column ⟨"price", "sales"⟩
    let two : Node := .constant (.int 2)
    let four : Node := .arithmetic .add two two
    (∃ m, (Node.arithmetic .mul column four).toMeasure "sum" = .ok m) ∧
      (¬∃ m, (Node.arithmetic .mul column two).toMeasure "sum" = .ok m) ∧
      ∃ m, (Node.arithmetic .mul column two).toMeasure "" = .ok m := by
  intro column two four
  have hcolumn : column.Leaf := .inl rfl
  have htwo : two.Leaf := .inr rfl
  have hfour : four.Applies (.arithmetic .add) two two := .arithmetic ..
  have hproduct (r : Node) :
      (Node.arithmetic .mul column r).Applies (.arithmetic .mul) column r := .arithmetic ..
  refine ⟨(measures_exactly "sum" _).1.2 ⟨?_, fun _ => ?_⟩, fun h => ?_,
    (measures_exactly "" _).1.2 ⟨?_, fun h => absurd rfl h⟩⟩
  · exact (hproduct _).flat_iff.2 ⟨hcolumn.flat, hfour.flat_iff.2 ⟨htwo.flat, htwo.flat⟩⟩
  · refine (hproduct _).joined_iff.2 ⟨.inr (.inl rfl), hcolumn.joined, ?_⟩
    exact hfour.joined_iff.2 ⟨.inr (.inr ⟨rfl, rfl⟩), htwo.joined, htwo.joined⟩
  · have hjoined := ((measures_exactly "sum" _).1.1 h).2 (by decide)
    obtain h | h | ⟨h, -⟩ := ((hproduct two).joined_iff.1 hjoined).1 <;> cases h
  · exact (hproduct _).flat_iff.2 ⟨hcolumn.flat, htwo.flat⟩

end Node

end FactFold
