import FactFold.Proofs.Expr.Conventions
import FactFold.Proofs.Lowering.Acceptance

/-!
# Lowering preserves meaning

The code of an expression, evaluated on the record of a row, has the value of the expression on the
row. The record holds the row's values in the order of the expression's columns, each column once,
while the expression looks columns up by name.

The law holds in full for settled expressions. For the others the evaluator may stop at an equality
that the plain meaning decides, and never does more than that.
-/

namespace FactFold.Lowering

open Machine
open Machine.Run (Quiet)
open Number (wrap64)

variable {s : Site} {natives : Natives}

/-! ## Rows by name -/

/-- The record of a row. -/
def record (columns : List Column) (row : String → Value) : List Value :=
  columns.map fun c => row c.name

/-- A column that is among the columns of a record has the row's value. -/
theorem recordField_record {columns : List Column} {row : String → Value} {name : String} {i : Nat}
    (hcolumns : columns.length ≤ 2 ^ 63)
    (hi : columns.findIdx? (fun d => d.name = name) = some i) :
    recordField columns (record columns row) name = .ok (row name) := by
  obtain ⟨hlt, hfound, -⟩ := List.findIdx?_eq_some_iff_getElem.1 hi
  have hname : columns[i].name = name := of_decide_eq_true hfound
  -- a record has at most `2 ^ 63` fields, so that no index is wrapped
  have hwrap : wrap64 (i : Int) = i := Number.wrap64_of_range (by omega) (by omega)
  have hindex : (Value.scalar (.int .int (wrap64 i))).operand.toIndex = .ok (i : Int) := by
    show Except.ok (wrap64 (wrap64 i)) = _
    rw [hwrap, hwrap]
  have hget : (record columns row)[i]? = some (row name) := by
    simp [record, hlt, hname]
  simp only [recordField, hi, factField, hindex, Int.toNat_natCast, hget]
  rw [if_neg (by omega)]

/-- The meaning of expressions at a site on a row, by name. -/
def Site.direct (s : Site) (natives : Natives) (row : String → Value) (c : Convention) : Meaning :=
  ⟨s.typing, natives, fun name => .ok (row name), c⟩

mutual

/-- Reading from the record of a row is reading from the row. -/
theorem Lowers.value_record (hcolumns : s.columns.length ≤ 2 ^ 63) (row : String → Value) :
    ∀ {n : Node} {e : Element}, Lowers s n e →
      n.value (s.meaning natives (record s.columns row)) =
        n.value (s.direct natives row (.machine natives))
  | .column c, _, .column ht hi => by
    rw [Node.value, Node.value]
    show (liftM (recordField s.columns (record s.columns row) c.name) >>= _ : Run Value) = _
    rw [recordField_record hcolumns hi]
    rfl
  | .constant c, _, .constant _ => by
    rw [Node.value, Node.value]
    rfl
  | .arithmetic op l r, _, .arithmetic hl hr hx hy he => by
    rw [Node.value, Node.value, hl.value_record hcolumns row, hr.value_record hcolumns row]
    rfl
  | .comparison op l r, _, .comparison hl hr hx hy he => by
    rw [Node.value, Node.value, hl.value_record hcolumns row, hr.value_record hcolumns row]
    rfl
  | .guarded op l r body, _, .guarded hc hbody => by
    rw [Node.value, Node.value]
  | .choice op l r yes no, _, .choice (.comparison hl hr hx hy hc) hyes hno he => by
    rw [Node.value, Node.value, hl.value_record hcolumns row, hr.value_record hcolumns row,
      hyes.value_record hcolumns row, hno.value_record hcolumns row]
    rfl
  | .call f args, _, .call ha => by
    rw [Node.value, Node.value, ha.values_record hcolumns row]
    rfl

theorem LowersAll.values_record (hcolumns : s.columns.length ≤ 2 ^ 63) (row : String → Value) :
    ∀ {ns : List Node} {terms : List TypedTerm}, LowersAll s ns terms →
      Node.values (s.meaning natives (record s.columns row)) ns =
        Node.values (s.direct natives row (.machine natives)) ns
  | [], _, .nil => by
    rw [Node.values, Node.values]
  | n :: rest, _, .cons hn hv hr => by
    rw [Node.values, Node.values, hn.value_record hcolumns row, hr.values_record hcolumns row]

end

/-! ## Evaluated code -/

/-- In the world the step yields the value and leaves the heap. -/
def Gives (x : Run Value) (w : World) (v : Value) (h : Heap) : Prop :=
  ∃ u, x.runIn w = (.ok v, u) ∧ u.heap = h

theorem Gives.mono {x y : Run Value} {w : World} {v : Value} {h : Heap} (hxy : x.Refines y)
    (hx : Gives x w v h) : Gives y w v h := by
  obtain ⟨u, hu, hheap⟩ := hx
  exact ⟨u, hxy hu, hheap⟩

/-- A term that passes the check is evaluated as the step it runs as. -/
theorem evaluate_gives {vars : Env} {code : Term} {t t' : Static} {x : Run Value}
    (hx : RunsAs natives vars code t x) (hq : Quiet x) (hpass : Passes code t') {w : World}
    {v : Value} {h : Heap} : Gives (evaluate natives vars code) w v h ↔ Gives x w v h := by
  constructor
  · rintro ⟨w', hw', hheap⟩
    obtain ⟨u, hu, halike, -⟩ := evaluate_quiet hx hq hw'
    exact ⟨u, hu, halike.heap.symm.trans hheap⟩
  · rintro ⟨u, hu, hheap⟩
    -- the check passes, so that the source is remembered and the step is taken
    obtain ⟨text, f, htext, hf, hstatic⟩ := hpass
    obtain ⟨u', hu', halike, -⟩ := (World.Alike.remember w text).symm.run_quiet hq hu
    refine ⟨u', ?_, halike.heap.symm.trans hheap⟩
    rw [evaluate_eq hx htext hf (by rw [hstatic]; rfl), hu']

/-- Lowered code on the record of a row is evaluated as the expression on the row. -/
theorem Lowers.evaluate_gives {n : Node} {e : Element} {code : Term} (hlowers : Lowers s n e)
    (hcode : e.value = .ok code) (hcolumns : s.columns.length ≤ 2 ^ 63)
    (hwritable : ∀ c ∈ n.constants, c.isWritable = true) {row : String → Value} {vars : Env}
    (hvars : s.Binds vars (record s.columns row)) {w : World} {v : Value} {h : Heap} :
    Gives (evaluate natives vars code) w v h ↔
      Gives (n.value (s.direct natives row (.machine natives))) w v h := by
  have hquiet : Quiet (n.value (s.meaning natives (record s.columns row))) :=
    Node.quiet_value (Convention.machine_lawful natives) n
  rw [← hlowers.value_record hcolumns row]
  exact Lowering.evaluate_gives (hlowers.runsAs hvars hcode) hquiet
    (hlowers.passes hvars.plain hcolumns hcode hwritable)

/-- **Lowering preserves meaning.** Let an expression have code, let its constants be such that they
can be written and are read as what they are, and let the functions it calls yield ordinary values.
On the record of a row the code has exactly the value that the evaluator's convention gives the
expression on the row. That is always the plain value of the expression; and if the expression is
settled, the code has every plain value. -/
theorem evaluate_lowered {env : LoweringEnv} {n : Node} {e : Element} {code : Term}
    {ws ws' : Workspace} (hlower : (n.lower env).runIn ws = (.ok e, ws'))
    (hcode : e.value = .ok code) (hsite : s = site env n.columns ws'.cache)
    (hcolumns : n.columns.length ≤ 2 ^ 63)
    (hwritable : ∀ c ∈ n.constants, c.isWritable = true)
    (hown : ∀ c ∈ n.constants, c.IsOwn natives) (hcalls : Node.CallsOrdinary natives n.callees)
    {row : String → Value} {vars : Env} (hvars : s.Binds vars (record n.columns row)) (w : World)
    (v : Value) (h : Heap) :
    (Gives (evaluate natives vars code) w v h ↔
        Gives (n.value (s.direct natives row (.machine natives))) w v h) ∧
      (Gives (evaluate natives vars code) w v h → Gives (n.value (s.direct natives row .plain)) w v h) ∧
      (n.isSettled s.typing = true →
        (Gives (evaluate natives vars code) w v h ↔
          Gives (n.value (s.direct natives row .plain)) w v h)) := by
  have hlowers : Lowers s n e := hsite ▸ (node_lowers hlower).2 _ (.refl _)
  have hnames : s.columns = n.columns := by rw [hsite]
  rw [← hnames] at hcolumns hvars
  have hmachine : Gives (evaluate natives vars code) w v h ↔
      Gives (n.value (s.direct natives row (.machine natives))) w v h :=
    hlowers.evaluate_gives hcode hcolumns hwritable hvars
  -- the evaluator's convention is the stricter one
  have hsound : Gives (evaluate natives vars code) w v h →
      Gives (n.value (s.direct natives row .plain)) w v h := fun hg =>
    (hmachine.1 hg).mono
      (Node.machine_refines_plain (m := s.direct natives row .plain) hown hcalls)
  refine ⟨hmachine, hsound, fun hsettled => ⟨hsound, fun hg => hmachine.2 (hg.mono ?_)⟩⟩
  exact Node.plain_refines_machine (m := s.direct natives row .plain) hown hcalls hsettled

/-- The code of a choice between a constant and a column has the value of the choice. -/
theorem evaluate_lowered_choice :
    let env : LoweringEnv := { schema := [("a", .int)] }
    let a : Node := .column ⟨"a", ""⟩
    let n : Node := .choice .gt a (.constant (.int 0)) (.constant (.int 5)) a
    let row : String → Value := fun _ => .long (-3)
    ∃ e code ws, (n.lower env).runIn {} = (.ok e, ws) ∧ e.value = .ok code ∧
      ∀ v h, (Gives (evaluate [] [("fact", .fact 0 [.long (-3)])] code) {} v h ↔
        Gives (n.value ((site env n.columns ws.cache).direct [] row .plain)) {} v h) := by
  intro env a n row
  refine ⟨_, _, _, rfl, rfl, fun v h => ?_⟩
  refine (evaluate_lowered (n := n) (show (n.lower env).runIn {} = _ from rfl) rfl rfl (by decide)
    ?_ ?_ ?_ (show Site.Binds _ _ (record n.columns row) from ⟨?_, 0, rfl⟩) {} v h).2.2 ?_
  · decide +kernel
  · intro c hc
    simp only [n, a, Node.constants, List.nil_append, List.append_nil, List.cons_append,
      List.mem_cons, List.not_mem_nil, or_false] at hc
    rcases hc with rfl | rfl <;> trivial
  · intro f hf
    simp [n, a, Node.callees] at hf
  · decide
  · decide +kernel

-- compared with a constant the same choice is not settled: the code stops where the choice is the column
example :
    let env : LoweringEnv := { schema := [("a", .int)] }
    let a : Node := .column ⟨"a", ""⟩
    let inner : Node := .choice .gt a (.constant (.int 0)) (.constant (.int 5)) a
    let n : Node := .choice .eq inner (.constant (.int 7)) (.constant (.int 1)) (.constant (.int 2))
    let row : String → Value := fun _ => .long (-3)
    ∃ e code ws, (n.lower env).runIn {} = (.ok e, ws) ∧ e.value = .ok code ∧
      ((evaluate [] [("fact", .fact 0 [.long (-3)])] code).runIn {}).1.isOk = false ∧
      Gives (n.value ((site env n.columns ws.cache).direct [] row .plain)) {}
        (.scalar (.int .int 2)) {} := by
  intro env a inner n row
  refine ⟨_, _, _, rfl, rfl, ?_, _, rfl, rfl⟩
  decide +kernel

end FactFold.Lowering
