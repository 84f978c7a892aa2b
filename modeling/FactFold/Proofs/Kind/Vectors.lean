import FactFold.Proofs.Kind.Atomicity
import FactFold.Proofs.Kind.Progress
import FactFold.Proofs.Machine.Vectors

/-!
# Aggregating vectors

Sum, mean and the negative part fold vectors item by item. A row that has no vector does nothing,
and neither does taking a vector out of an unset buffer or merging one. Any other call that succeeds
moves one buffer (`contribute_moves`, `decontribute_moves`, `merge_moves`): the first field has then
a vector, of the length it had or else of the one that was brought, and the mean has counted in the
second field.

The three kinds write the same statements with other methods and are one family here (`VectorKind`);
the mean alone counts.
-/

namespace FactFold.Fold

open Machine Lowering
open Machine.Run (Quiet)
open Kind (agg source target declareValue valueName valueVar notNull both)
open Number (wrap64)

variable {natives : Natives} {env : Env}

/-! ## The vector of a row -/

/-- The vector of a row, if it has one: the outcome of the expression on the record of the row, used
as a vector. A guard that fails, null and an absent vector are none. -/
def rowVector (natives : Natives) (s : Site) (n : Node) (row : List Value) (w : World) :
    Option (List Float) :=
  match (n.outcome (s.meaning natives row)).runIn (w.fact row).2 with
  | (.ok (some v), u) =>
    match (Run.toVector v).runIn u with
    | (.ok (some ref), u') => some (u'.heap.get ref)
    | _ => none
  | _ => none

/-! ## Rendered routines

A rendered routine is nested conditions with the template at its leaves, and the template declares
the value before it uses it. The conditions compute the outcome of the expression on the way to a
leaf, in worlds that are alike; what is left of the run is what follows the declaration. -/

/-- What is left of a run after the outcome of the expression: nothing without a value, and
otherwise the declaration of the value and what follows it. -/
def Continues (natives : Natives) (env : Env) (t : DataType) (rest : List Stmt) (u w' : World) :
    Option Value → Prop
  | none => w' = u
  | some v => ∃ a u' f, (convert t.sourceName v).runIn u = (.ok a, u') ∧
      (exec natives ((valueName, a) :: env) rest).runIn u' = (.ok f, w')

/-- From a world to another the outcome has been computed and the run has gone on with it. -/
def Declares (natives : Natives) (env : Env) (t : DataType) (rest : List Stmt)
    (outcome : Run (Option Value)) (w w' : World) : Prop :=
  ∃ o u u', outcome.runIn w = (.ok o, u) ∧ u'.Alike u ∧ w.Survives u' ∧
    Continues natives env t rest u' w' o

/-- The outcome after a condition is that of its branch. -/
theorem Declares.branch {t : DataType} {rest : List Stmt} {condition : Run Bool}
    {outcome : Bool → Run (Option Value)} {b : Bool} {w u u' w' : World}
    (hcondition : condition.runIn w = (.ok b, u')) (halike : u.Alike u') (hspares : w.Survives u)
    (hquiet : Quiet (outcome b)) (h : Declares natives env t rest (outcome b) u w') :
    Declares natives env t rest (condition >>= outcome) w w' := by
  obtain ⟨o, u₁, u₂, ho, halike₂, hspares₂, hrest⟩ := h
  -- the branch was taken where the code had left the world, which is alike
  obtain ⟨u₃, hu₃, halike₃, -⟩ := halike.run_quiet hquiet ho
  exact ⟨o, u₃, u₂, Run.runIn_bind_ok_iff.2 ⟨b, u', hcondition, hu₃⟩, halike₂.trans halike₃,
    hspares.trans hspares₂, hrest⟩

section Rendering

variable {s : Site} {fields : List Value} (hb : s.Binds env fields) {numeric : Option Template}
  {t : DataType} {rest : List Stmt}

include hb

theorem render_single_declares {n : Node} {e : Element} {body : List Stmt} (hn : Lowers s n e)
    (hguard : ∀ op l r body, n ≠ .guarded op l r body)
    (hchoice : ∀ op l r yes no, n ≠ .choice op l r yes no) (ht : e.type.isArray = true)
    (hr : e.render numeric (some fun v => declareValue t v :: rest) = .ok body) {w w' : World}
    {f : Flow} (h : (exec natives env body).runIn w = (.ok f, w')) :
    Declares natives env t rest (n.outcome (s.meaning natives fields)) w w' := by
  have hm : (s.meaning natives fields).convention.Lawful := Convention.machine_lawful natives
  obtain ⟨code, t', rfl⟩ := hn.single hguard hchoice
  obtain rfl : declareValue t code :: rest = body := by
    cases t' with
    | array k => exact Except.ok.inj hr
    | _ => cases ht
  -- the declaration is the first statement, and its value is the outcome
  obtain ⟨g, w₁, hs, hrest⟩ := exec_cons_ok h
  obtain ⟨v, a, u', heval, hconvert, rfl⟩ := decl_ok hs
  obtain ⟨u, hu, halike, -⟩ := evaluate_quiet (hn.runsAs hb rfl) (Node.quiet_value hm n) heval
  have hspares : w.Survives u' := by
    have hsparing : Sparing natives env code := hn.sparing hb.plain rfl
    have hevaluate := hsparing.evaluate w w (.refl w)
    rwa [heval] at hevaluate
  rw [Node.outcome_of_single _ hguard hchoice]
  exact ⟨some v, u, u', Run.runIn_map_ok_iff.2 ⟨v, hu, rfl⟩, halike, hspares, a, w₁, f, hconvert,
    hrest⟩

/-- A condition that was evaluated holds or not, in a world alike, and spares what was there. -/
theorem condition_spares {op : Comparison} {l r : Node} {c : Element} {code : Term}
    (hc : Lowers s (.comparison op l r) c) (hcode : c.value = .ok code) {v : Value} {b : Bool}
    {w u : World} (heval : (evaluate natives env code).runIn w = (.ok v, u))
    (hbool : v.operand.toBool = .ok b) :
    ∃ u', (Node.holds (s.meaning natives fields) op l r).runIn w = (.ok b, u') ∧ u.Alike u' ∧
      w.Survives u := by
  obtain ⟨u', hholds, halike, -⟩ := holds_of_evaluate hb hc hcode heval hbool
  have hspares : w.Survives ((evaluate natives env code).runIn w).2 :=
    (hc.sparing hb.plain hcode).evaluate w w (.refl w)
  rw [heval] at hspares
  exact ⟨u', hholds, halike, hspares⟩

/-- **A rendered routine computes the outcome of the expression** and goes on with the template from
there. -/
theorem render_declares : ∀ {n : Node} {e : Element} {body : List Stmt}, Lowers s n e →
    e.type.isArray = true → e.render numeric (some fun v => declareValue t v :: rest) = .ok body →
      ∀ {w w' : World} {f : Flow}, (exec natives env body).runIn w = (.ok f, w') →
        Declares natives env t rest (n.outcome (s.meaning natives fields)) w w' := by
  intro n e body hn
  have hm : (s.meaning natives fields).convention.Lawful := Convention.machine_lawful natives
  induction hn using Lowers.conditions generalizing body with
  | @guarded op l r inner c e hc hin ih =>
    intro ht hr w w' f h
    obtain ⟨code, yes, hcode, hyes, rfl⟩ := render_guarded_ok hr
    obtain ⟨v, b, u, g, heval, hbool, hexec⟩ := exec_cond_ok h
    obtain ⟨u', hholds, halike, hspares⟩ := condition_spares hb hc hcode heval hbool
    rw [Node.outcome]
    cases b with
    | true =>
      exact .branch hholds halike hspares (Node.quiet_outcome hm inner) (ih ht hyes hexec)
    | false =>
      obtain ⟨-, rfl⟩ := exec_nil_ok hexec
      -- the guard fails, and the other block is empty
      exact .branch hholds halike hspares (Quiet.pure none)
        ⟨none, w', w', rfl, .refl w', .refl w', rfl⟩
  | @choice op l r yes no c y n e hc hyes hno he ihyes ihno =>
    intro ht hr w w' f h
    obtain ⟨hshape, -, htypes⟩ := ternary_some_ok he
    -- both branches have vectors, since the whole has
    obtain ⟨hty, htn⟩ := branches_isArray htypes
    rw [hshape] at hr
    obtain ⟨code, ys, ns, hcode, hys, hns, rfl⟩ := render_choice_ok hr
    obtain ⟨v, b, u, g, heval, hbool, hexec⟩ := exec_cond_ok h
    obtain ⟨u', hholds, halike, hspares⟩ := condition_spares hb hc hcode heval hbool
    rw [Node.outcome]
    cases b with
    | true =>
      exact .branch hholds halike hspares (Node.quiet_outcome hm yes)
        (ihyes (hty.trans ht) hys hexec)
    | false =>
      exact .branch hholds halike hspares (Node.quiet_outcome hm no)
        (ihno (htn.trans ht) hns hexec)
  | single hn hguard hchoice =>
    intro ht hr w w' f h
    exact render_single_declares hb hn hguard hchoice ht hr h

end Rendering

/-- What follows the declaration leaves the world alone when the value is null. -/
def SkipsNull (natives : Natives) (env : Env) (rest : List Stmt) : Prop :=
  ∀ ⦃u w' : World⦄ ⦃f : Flow⦄,
    (exec natives ((valueName, .null) :: env) rest).runIn u = (.ok f, w') → w'.Alike u

/-- A row's routine on vectors: it does nothing to a row without a vector, and otherwise runs what
follows the declaration with the vector in the variable. -/
theorem row_ok {s : Site} (hplain : s.env.factName.toList.all isNameChar = true)
    (hne : s.env.factName ≠ BufferRef.aggregation.name) {numeric : Option Template} {n : Node}
    {e : Element} (hn : Lowers s n e) (ht : e.type.isArray = true) {rest body : List Stmt}
    {row : List Value} {id : Nat} {w w' : World} {f : Flow}
    (hrest : SkipsNull natives (rowEnv s.env.factName row id w) rest)
    (hr : e.render numeric (some fun v => declareValue e.type v :: rest) = .ok body)
    (h : (exec natives (rowEnv s.env.factName row id w) body).runIn (w.fact row).2 = (.ok f, w')) :
    (rowVector natives s n row w = none ∧ w.Survives w') ∨
      ∃ ref u f, rowVector natives s n row w = some (u.heap.get ref) ∧ w.Survives u ∧
        (exec natives ((valueName, .vector (some ref)) :: rowEnv s.env.factName row id w)
          rest).runIn u = (.ok f, w') := by
  obtain ⟨o, u, u', ho, halike, hspares, hcontinues⟩ :=
    render_declares (rowEnv_binds hplain hne row id w) hn ht hr h
  have hfirst : w.Survives u' := (fact_survives w row).trans hspares
  unfold rowVector
  rw [ho]
  cases o with
  | none =>
    obtain rfl : w' = u' := hcontinues
    exact .inl ⟨rfl, hfirst⟩
  | some v =>
    obtain ⟨a, u₁, f, hconvert, hexec⟩ := hcontinues
    -- a vector is declared by the interface, and the value is used as a vector
    have hsource : e.type.sourceName = "IVector" := by
      cases he : e.type with
      | array k => rfl
      | _ => simp [he, DataType.isArray] at ht
    rw [hsource] at hconvert
    obtain ⟨r, hvector, rfl⟩ := Run.runIn_map_ok_iff.1 hconvert
    obtain ⟨u₂, hvector₂, halike₂, -⟩ := halike.run_quiet (Quiet.toVector v) hvector
    have hvectorSpares : w.Survives u₁ := by
      have hstep : Run.Spares w (Run.toVector v) := .toVector v
      have hused := hstep u' hfirst
      rwa [hvector] at hused
    simp only [hvector₂]
    cases r with
    | none =>
      -- null is declared, and what follows skips it
      exact .inl ⟨rfl, hvectorSpares.alike (hrest hexec)⟩
    | some ref => exact .inr ⟨ref, u₁, f, by rw [halike₂.heap], hvectorSpares, hexec⟩

/-! ## Conditions -/

theorem null_differs (w : World) : operate .ne .any .null w .null .null = .ok (.bool false) := by
  simp [operate, Static.equality, Static.operand, Value.opened, binary, equal, equalItems,
    numberPair?, countsAsNull, same, sameWith, unary, bind, Except.bind]

/-- A variable with a vector or null is compared with null. -/
theorem notNull_operation {r : Option Nat} {v : Value} {w u : World}
    (h : (operation .ne .any .null (pure (Run.boxed r)) (pure .null)).runIn w = (.ok v, u)) :
    u = w ∧ v = .bool r.isSome := by
  simp only [operation, pure_bind, Run.runIn_bind, Run.runIn_get, Run.runIn_lift] at h
  obtain ⟨hv, rfl⟩ := Prod.mk.inj h
  refine ⟨rfl, ?_⟩
  cases r with
  | none => exact (Except.ok.inj ((null_differs w).symm.trans hv)).symm
  | some ref => exact (Except.ok.inj ((differs_null w ref).symm.trans hv)).symm

section Conditions

variable {r : Option Nat} {yes : List Stmt} {w w' : World} {f : Flow}

theorem value_runsAs (r : Option Nat) :
    RunsAs natives ((valueName, Run.boxed r) :: env) valueVar .any (pure (Run.boxed r)) :=
  variable_runsAs (by decide) _

theorem notNull_cond_ok
    (h : (exec natives ((valueName, Run.boxed r) :: env)
      [.cond (notNull valueVar) yes []]).runIn w = (.ok f, w')) :
    ∃ u, u.Alike w ∧ (exec natives ((valueName, Run.boxed r) :: env)
      (if r.isSome then yes else [])).runIn u = (.ok f, w') := by
  rw [exec_single] at h
  have hcond : RunsAs natives ((valueName, Run.boxed r) :: env) (notNull valueVar) .bool
      (operation .ne .any .null (pure (Run.boxed r)) (pure .null)) :=
    .strict rfl rfl (by decide) (fun h => nomatch h) (fun u hu => (Option.some.inj hu).symm)
      (value_runsAs r) .null
  obtain ⟨_, u, rfl, halike, hexec⟩ := cond_looks hcond (P := (· = r.isSome))
    (fun u v u' _ hrun => by
      obtain ⟨rfl, rfl⟩ := notNull_operation hrun
      exact ⟨rfl, _, rfl, rfl⟩) h
  exact ⟨u, halike, hexec⟩

theorem both_cond_ok {id : Nat} (hb : Holds env agg id)
    (h : (exec natives ((valueName, Run.boxed r) :: env)
      [.cond (both (notNull valueVar) (agg.isSet 0)) yes []]).runIn w = (.ok f, w')) :
    (r.isSome = true → 0 < (w.buffer id).layout.length) ∧ ∃ u, u.Alike w ∧
      (exec natives ((valueName, Run.boxed r) :: env)
        (if r.isSome && !((w.buffer id).valueAt 0).isNull then yes else [])).runIn u =
          (.ok f, w') := by
  rw [exec_single] at h
  have hb' : Holds ((valueName, Run.boxed r) :: env) agg id := hb.cons (by decide) _
  obtain ⟨_, u, ⟨hrange, rfl⟩, halike, hexec⟩ := cond_looks
    (RunsAs.both (value_runsAs r) .null (hb'.isNull 0))
    (P := fun c => (r.isSome = true → 0 < (w.buffer id).layout.length) ∧
      c = (r.isSome && !((w.buffer id).valueAt 0).isNull))
    (fun u v u' halike hrun => by
      obtain ⟨a, u₁, ha, hrun⟩ := Run.runIn_bind_ok_iff.1 hrun
      obtain ⟨rfl, rfl⟩ := notNull_operation ha
      -- without a vector the field is not looked at
      cases r with
      | none =>
        obtain ⟨hv, rfl⟩ := Prod.mk.inj hrun
        exact ⟨rfl, _, (Except.ok.inj hv).symm, nofun, rfl⟩
      | some ref =>
        have hset : (do
            let c ← bufferMethod id "isNull" [fieldValue 0]
            liftM (unary .not c.opened) : Run Value).runIn u₁ = (.ok v, u') := hrun
        obtain ⟨c, u₂, hc, hnot⟩ := Run.runIn_bind_ok_iff.1 hset
        obtain ⟨rfl, rfl, hrange⟩ := isNull_looks halike hc
        obtain ⟨hv, rfl⟩ := Prod.mk.inj hnot
        exact ⟨rfl, _, (Except.ok.inj hv).symm, fun _ => hrange, rfl⟩) h
  exact ⟨hrange, u, halike, hexec⟩

end Conditions

/-! ## Kinds that fold vectors -/

/-- The kinds that fold vectors. -/
inductive VectorKind where
  | sum
  | mean
  | short
  deriving DecidableEq

namespace VectorKind

/-- The kind itself. -/
def visitor : VectorKind → Visitor
  | .sum => Kind.sum
  | .mean => Kind.mean
  | .short => Kind.short

/-- The kind counts vectors. -/
def counts : VectorKind → Bool
  | .mean => true
  | _ => false

/-- What is written into an unset field. -/
def first : VectorKind → Term
  | .short => .new "NegativeVector" [valueVar]
  | _ => valueVar

/-- The method that takes a vector in. -/
def plus : VectorKind → String
  | .short => "plusNegativeValues"
  | _ => "plus"

/-- The method that takes a vector out. -/
def minus : VectorKind → String
  | .short => "minusNegativeValues"
  | _ => "minus"

/-- Counts vectors, where the kind does. -/
def counting (k : VectorKind) (n : Int) : List Stmt := if k.counts then [Kind.count n] else []

/-- Adds the source's count, where there is one. -/
def merging (k : VectorKind) : List Stmt := if k.counts then [Kind.mergeCount] else []

/-- The fields of a buffer. -/
def layout (k : VectorKind) (t : DataType) : Layout := t :: if k.counts then [.int] else []

theorem mem_builtinKinds (k : VectorKind) : k.visitor ∈ builtinKinds := by
  cases k <;> simp [builtinKinds, visitor]

variable {k : VectorKind} {e : Element} {body : List Stmt}

theorem contribute_ok (h : k.visitor.contribute e = .ok body) :
    ∃ numeric, e.render numeric (some fun v => [declareValue e.type v, .cond (notNull valueVar)
      (Kind.accumulateVector 0 valueVar k.first k.plus :: k.counting 1) []]) = .ok body := by
  cases k with
  | sum => exact ⟨_, (onNumeric_ok h).1⟩
  | mean => exact ⟨_, (onNumeric_ok h).1⟩
  | short => exact ⟨_, (onNumeric_ok h).1⟩

theorem decontribute_ok (h : k.visitor.decontribute e = .ok (some body)) :
    ∃ numeric, e.render numeric (some fun v => [declareValue e.type v,
      .cond (both (notNull valueVar) (agg.isSet 0))
        (agg.vector 0 k.minus [valueVar] :: k.counting (-1)) []]) = .ok body := by
  cases k with
  | sum => exact ⟨_, some_ok (onNumeric_ok h).1⟩
  | mean => exact ⟨_, some_ok (onNumeric_ok h).1⟩
  | short => exact ⟨_, some_ok (onNumeric_ok h).1⟩

theorem merge_ok {t : DataType} (ht : t.isArray = true) (h : k.visitor.merge t = .ok body) :
    body = Kind.mergeVector k.plus k.merging := by
  cases t with
  | array n => cases k <;> exact (Except.ok.inj h).symm
  | _ => cases ht

theorem layout_ok {t : DataType} {l : Layout} (h : k.visitor.layout t = .ok l) :
    l = k.layout t := by
  cases k with
  | sum => exact (Except.ok.inj (onNumeric_ok h).1).symm
  | mean => exact (Except.ok.inj (onNumeric_ok h).1).symm
  | short => exact (Except.ok.inj (onNumeric_ok h).1).symm

/-- The first vector in a field is as long as the vector of the row. -/
theorem first_yields (k : VectorKind) (ref : Nat) (w : World) :
    ∃ t x, RunsAs natives ((valueName, .vector (some ref)) :: env) k.first t x ∧
      YieldsVector w x (w.heap.get ref).length := by
  have hvalue : RunsAs natives ((valueName, .vector (some ref)) :: env) valueVar .any
      (pure (.vector (some ref))) := value_runsAs (some ref)
  have hself : YieldsVector w (pure (.vector (some ref))) (w.heap.get ref).length := by
    intro u halike v u' hrun
    obtain ⟨hv, rfl⟩ := Prod.mk.inj hrun
    exact ⟨ref, (Except.ok.inj hv).symm, by rw [halike.heap], rfl⟩
  cases k with
  | sum => exact ⟨.any, _, hvalue, hself⟩
  | mean => exact ⟨.any, _, hvalue, hself⟩
  | short =>
    refine ⟨.any, _, .new "NegativeVector" (by decide) (.single hvalue),
      fun u halike v u' hrun => ?_⟩
    -- the negative part is a new vector with as many items
    have hnew : (newOf [.scalar (.text (.ofText "NegativeVector")), .vector (some ref)]).runIn u =
        (.ok (.vector (some u.heap.cells.length)),
          { u with heap := (u.heap.alloc (Vector.negativePart (u.heap.get ref))).2 }) := rfl
    obtain ⟨hv, rfl⟩ := Prod.mk.inj (hnew.symm.trans hrun)
    refine ⟨u.heap.cells.length, (Except.ok.inj hv).symm, ?_, rfl⟩
    simp [Heap.alloc, Heap.get, Vector.negativePart, halike.heap]

end VectorKind

/-! ## What a call does to a buffer -/

/-- A buffer for vectors: its first field is unset or has a vector, and where vectors are counted
the second field is set when the first one is. -/
structure Orderly (counted : Bool) (l : Layout) (w : World) (id : Nat) : Prop where
  layout : (w.buffer id).layout = l
  fields : (w.buffer id).fields.length = l.length
  first : ((w.buffer id).valueAt 0).isNull = (w.extent id).isNone
  second : counted = true → ((w.buffer id).valueAt 1).isNull = (w.extent id).isNone

/-- A call has moved a buffer: if it was unset it has a vector of the length that was brought, if
any was, and where vectors are counted the count has changed. -/
structure Moves (counted : Bool) (id : Nat) (brought : Option Nat) (change : Int) (w w' : World) :
    Prop where
  layout : (w'.buffer id).layout = (w.buffer id).layout
  fields : (w'.buffer id).fields.length = (w.buffer id).fields.length
  extent : w'.extent id = (w.extent id).or brought
  first : ((w'.buffer id).valueAt 0).isNull = (w'.extent id).isNone
  second : counted = true → ((w'.buffer id).valueAt 1).isNull = (w'.extent id).isNone ∧
    (w'.buffer id).intAt 1 = wrap64 ((w.buffer id).intAt 1 + change)

section Moving

variable {counted : Bool} {l : Layout} {id : Nat} {w w' u : World}

theorem Orderly.move {brought : Option Nat} {change : Int} (h : Orderly counted l w id)
    (hmoves : Moves counted id brought change w w') : Orderly counted l w' id :=
  ⟨hmoves.layout.trans h.layout, hmoves.fields.trans h.fields, hmoves.first,
    fun hcounted => (hmoves.second hcounted).1⟩

/-- The worlds after values have been computed are as good as the one before. -/
theorem Orderly.survive (h : Orderly counted l w id) (hw : w.Separate) (hsurvives : w.Survives u) :
    Orderly counted l u id := by
  have hextent := (hsurvives.agrees hw id).extent
  have hbuffer := hsurvives.buffer id
  exact ⟨by rw [hbuffer]; exact h.layout, by rw [hbuffer]; exact h.fields,
    by rw [hbuffer, hextent]; exact h.first, fun hc => by rw [hbuffer, hextent]; exact h.second hc⟩

/-- Nothing has been counted where there is no vector. -/
theorem Orderly.count_of_unset (h : Orderly counted l w id) (hcounted : counted = true)
    (hunset : w.extent id = none) : (w.buffer id).intAt 1 = 0 := by
  have hnull : ((w.buffer id).valueAt 1).isNull = true := by
    rw [h.second hcounted, hunset]
    rfl
  -- null counts for zero
  unfold Memory.intAt
  cases hvalue : (w.buffer id).valueAt 1 with
  | null => rfl
  | _ =>
    rw [hvalue] at hnull
    cases hnull

/-- A buffer that has stayed as it was has moved by nothing; a count that is not kept may be said to
change. -/
theorem Moves.idle (h : Orderly counted l w id) (hagrees : w.Agrees id w') {change : Int}
    (hchange : counted = true → change = 0) : Moves counted id none change w w' := by
  have hextent := hagrees.extent
  refine ⟨by rw [hagrees.fields], by rw [hagrees.fields], by rw [hextent, Option.or_none],
    by rw [hextent, hagrees.fields]; exact h.first, fun hc => ⟨?_, ?_⟩⟩
  · rw [hextent, hagrees.fields]
    exact h.second hc
  · rw [hagrees.fields, hchange hc, add_zero]
    exact (Number.wrap64_longOrZero _).symm

/-- The count has changed where vectors are counted. -/
structure Counted (counted : Bool) (id : Nat) (change : Int) (w w' : World) : Prop where
  done : counted = true → w'.Alike (w.setBuffer id ((w.buffer id).bump 1 change))
  omitted : counted = false → w' = w

/-- A buffer that has a vector and has then counted it. -/
theorem Moves.of_grown {brought : Option Nat} {length : Nat} {change : Int}
    (hgrown : w.Grown id length u) (hlength : (w.extent id).or brought = some length)
    (hcounted : Counted counted id change u w')
    (hfields : counted = true → 1 < (w.buffer id).fields.length)
    (hrange : 0 < (w.buffer id).layout.length) : Moves counted id brought change w w' := by
  cases hc : counted with
  | false =>
    obtain rfl := hcounted.omitted hc
    refine ⟨hgrown.layout, hgrown.fields, hgrown.extent.trans hlength.symm, ?_, nofun⟩
    rw [World.isNull_of_extent hgrown.extent, hgrown.extent, Option.isNone_some]
  | true =>
    have halike := hcounted.done hc
    have hbuffer : w'.buffer id = (u.buffer id).bump 1 change := by
      rw [halike.buffer]
      exact World.buffer_setBuffer_of_range (by rw [hgrown.layout]; exact hrange) _
    -- the count is in another field than the vector
    have hfirst : (w'.buffer id).valueAt 0 = (u.buffer id).valueAt 0 := by
      rw [hbuffer, Memory.bump]
      exact valueAt_setAt_ne (by omega) _
    have hin : 1 < (u.buffer id).fields.length := by
      rw [hgrown.fields]
      exact hfields hc
    have hextent : w'.extent id = some length := by
      rw [← hgrown.extent, World.extent, World.extent, Memory.vectorAt, hfirst, halike.heap]
      rfl
    refine ⟨?_, ?_, hextent.trans hlength.symm, ?_, fun _ => ⟨?_, ?_⟩⟩
    · rw [hbuffer, bump_layout, hgrown.layout]
    · rw [hbuffer, bump_fields_length, hgrown.fields]
    · rw [World.isNull_of_extent hextent, hextent, Option.isNone_some]
    · rw [hextent, hbuffer, Memory.bump, valueAt_setAt_self hin]
      rfl
    · rw [hbuffer, intAt_bump_self hin, Memory.intAt, hgrown.second, Memory.intAt]

end Moving

section Counting

variable {w w' : World} {f : Flow} (k : VectorKind)

theorem int_typeAt {id : Nat} {t : DataType} (hcounts : k.counts = true)
    (hlayout : (w.buffer id).layout = k.layout t) : ((w.buffer id).typeAt 1).isIntegral = true := by
  rw [Memory.typeAt, hlayout, VectorKind.layout, hcounts]
  rfl

/-- A number that is known is added to the second field, where rows are counted. -/
theorem counts_ok {b : BufferRef} {id : Nat} {t : DataType} (hb : Holds env b id)
    (hlayout : (w.buffer id).layout = k.layout t) {number : Term} {s : Static} {x : Run Value}
    (hd : RunsAs natives env number s x) (hx : Quiet x) {amount : Int}
    (hamount : ∀ v u, x.runIn w = (.ok v, u) → u = w ∧ v.operand.longOrZero = amount)
    (h : (exec natives env (if k.counts then [b.add 1 number .int] else [])).runIn w = (.ok f, w')) :
    Counted k.counts id amount w w' := by
  cases hc : k.counts with
  | false =>
    rw [hc, if_neg (by decide)] at h
    exact ⟨nofun, fun _ => (exec_nil_ok h).2⟩
  | true =>
    rw [hc, if_pos rfl, exec_single] at h
    obtain ⟨-, -, v, u, hrun, heffect⟩ := add_ok (i := 1) hb (by omega) hd hx h
    obtain ⟨rfl, hv⟩ := hamount v u hrun
    have halike := heffect (int_typeAt k hc hlayout)
    rw [hv] at halike
    exact ⟨fun _ => halike, nofun⟩

/-- Counting adds to the second field. -/
theorem counting_ok {id : Nat} {t : DataType} (hb : Holds env agg id)
    (hlayout : (w.buffer id).layout = k.layout t) {n : Int}
    (h : (exec natives env (k.counting n)).runIn w = (.ok f, w')) :
    Counted k.counts id (wrap64 n) w w' := by
  refine counts_ok k hb hlayout (RunsAs.int n) (.pure _) (fun v u hrun => ?_) h
  obtain ⟨hv, rfl⟩ := Prod.mk.inj hrun
  obtain rfl := Except.ok.inj hv
  -- the number of a literal is what it says, wrapped
  exact ⟨rfl, Number.wrap64_wrap64 n⟩

/-- Merging adds the source's count to the second field. -/
theorem merging_ok {src dst : Nat} {t : DataType} (hsource : Holds env source src)
    (htarget : Holds env target dst) (hlayout : (w.buffer dst).layout = k.layout t)
    (h : (exec natives env k.merging).runIn w = (.ok f, w')) :
    Counted k.counts dst ((w.buffer src).intAt 1) w w' := by
  refine counts_ok k htarget hlayout (hsource.read 1 .int) (quiet_bufferRead (.inr (.inl rfl)) _)
    (fun v u hrun => ?_) h
  obtain ⟨rfl, rfl⟩ := bufferMethod_read_ok (by omega) rfl hrun
  exact ⟨rfl, Number.wrap64_longOrZero _⟩

end Counting

/-! ## Calls -/

/-- Every buffer that there is, is in order. -/
def AllOrderly (k : VectorKind) (t : DataType) (w : World) : Prop :=
  ∀ j, 0 < (w.buffer j).layout.length → Orderly k.counts (k.layout t) w j

section Orders

variable {k : VectorKind} {t : DataType} {id : Nat} {w w' u u₁ : World}

/-- What is known about the fields of a buffer for vectors. -/
theorem Orderly.types (h : Orderly k.counts (k.layout t) w id) (ht : t.isArray = true) :
    (∃ m, (w.buffer id).typeAt 0 = .array m) ∧ 0 < (w.buffer id).fields.length ∧
      (k.counts = true → 1 < (w.buffer id).fields.length) := by
  refine ⟨?_, ?_, fun hc => ?_⟩
  · rw [Memory.typeAt, h.layout]
    cases t with
    | array m => exact ⟨m, rfl⟩
    | _ => cases ht
  · rw [h.fields]
    exact Nat.succ_pos _
  · rw [h.fields, VectorKind.layout, hc]
    exact Nat.one_lt_two

/-- A buffer that has got a vector, or has kept the one it had, and then counts. -/
theorem Orderly.moves (h : Orderly k.counts (k.layout t) w id) (ht : t.isArray = true)
    (hsurvives : w.Survives u) {length : Nat} (hgrown : u.Grown id length u₁) {brought : Option Nat}
    (hlength : (w.extent id).or brought = some length) {change : Int}
    (hcounted : Counted k.counts id change u₁ w') : Moves k.counts id brought change w w' := by
  obtain ⟨-, -, hfields⟩ := h.types ht
  have hrange : 0 < (w.buffer id).layout.length := by
    rw [h.layout]
    exact Nat.succ_pos _
  exact .of_grown (hgrown.of_buffers hsurvives.buffers) hlength hcounted hfields hrange

end Orders

section Rows

variable {s : Site} (hplain : s.env.factName.toList.all isNameChar = true)
  (hne : s.env.factName ≠ BufferRef.aggregation.name) {n : Node} {e : Element} (hn : Lowers s n e)
  (ht : e.type.isArray = true) {k : VectorKind} {row : List Value} {id : Nat} {w w' : World}
  (hw : w.Separate) (horderly : AllOrderly k e.type w)

include hplain hne hn ht hw horderly

/-- **Taking a row in**: a row without a vector does nothing, and a vector is taken in and
counted. -/
theorem contribute_moves {body : List Stmt} {f : Flow} (hbody : k.visitor.contribute e = .ok body)
    (h : (exec natives (rowEnv s.env.factName row id w) body).runIn (w.fact row).2 = (.ok f, w')) :
    (rowVector natives s n row w = none ∧ w.Survives w') ∨
      ∃ xs, rowVector natives s n row w = some xs ∧ 0 < (w.buffer id).layout.length ∧
        Moves k.counts id (some xs.length) 1 w w' := by
  obtain ⟨numeric, hrender⟩ := VectorKind.contribute_ok hbody
  have hagg := rowEnv_holds s.env.factName row id w
  -- null leaves the block unentered
  have hskips : SkipsNull natives (rowEnv s.env.factName row id w) [.cond (notNull valueVar)
      (Kind.accumulateVector 0 valueVar k.first k.plus :: k.counting 1) []] := by
    intro u w' f hrun
    obtain ⟨u', halike, hexec⟩ := notNull_cond_ok (r := none) hrun
    obtain ⟨-, rfl⟩ := exec_nil_ok hexec
    exact halike
  obtain hnone | ⟨ref, u, g, hvector, hsurvives, hrest⟩ := row_ok hplain hne hn ht hskips hrender h
  · exact .inl hnone
  refine .inr ⟨_, hvector, ?_⟩
  obtain ⟨u', halike, hexec⟩ := notNull_cond_ok (r := some ref) hrest
  obtain ⟨g', u₁, hchange, hcount⟩ := exec_cons_ok hexec
  have hb := holds_value hagg (.vector (some ref))
  have hleft : w.Survives u' := hsurvives.alike halike
  -- the first field, after the value has been computed
  have hrange : 0 < (w.buffer id).layout.length := by
    rw [← hleft.buffer]
    exact (isNull_cond_ok hb hchange).1
  have hstart := horderly id hrange
  have hready := hstart.survive hw hleft
  obtain ⟨⟨m, htype⟩, hfields, -⟩ := hready.types ht
  obtain ⟨t, x, hfirst, hyields⟩ : ∃ t x, RunsAs natives
      ((valueName, .vector (some ref)) :: rowEnv s.env.factName row id w) k.first t x ∧
        YieldsVector u' x (u'.heap.get ref).length := k.first_yields ref u'
  -- the vector of a buffer that stays separate is one of the heap
  have hplaced : ∀ ref, (u'.buffer id).vectorAt 0 = some ref → ref < u'.heap.cells.length :=
    (hleft.but id).separate hw |>.placed id 0
  obtain ⟨rfl, -, hgrown⟩ := accumulate_ok hb htype hfields hready.first hplaced hfirst hyields
    value_sparing hchange
  have hcounted := counting_ok k hb (hgrown.layout.trans hready.layout) hcount
  refine ⟨hrange, hstart.moves ht hleft hgrown ?_ hcounted⟩
  -- a buffer keeps the length it has, and takes that of the row where it has none
  rw [(hleft.agrees hw id).extent, halike.heap]
  cases w.extent id with
  | none => rfl
  | some len => rfl

/-- **Taking a row out**: a row without a vector does nothing, nor does any row to an unset buffer;
a vector is taken out and counted. -/
theorem decontribute_moves {body : List Stmt} {f : Flow}
    (hbody : k.visitor.decontribute e = .ok (some body))
    (h : (exec natives (rowEnv s.env.factName row id w) body).runIn (w.fact row).2 = (.ok f, w')) :
    (((rowVector natives s n row w).isSome && (w.extent id).isSome) = false ∧ w.Survives w') ∨
      ((rowVector natives s n row w).isSome && (w.extent id).isSome) = true ∧
        0 < (w.buffer id).layout.length ∧ Moves k.counts id none (-1) w w' := by
  obtain ⟨numeric, hrender⟩ := VectorKind.decontribute_ok hbody
  have hagg := rowEnv_holds s.env.factName row id w
  have hskips : SkipsNull natives (rowEnv s.env.factName row id w)
      [.cond (both (notNull valueVar) (agg.isSet 0))
        (agg.vector 0 k.minus [valueVar] :: k.counting (-1)) []] := by
    intro u w' f hrun
    obtain ⟨-, u', halike, hexec⟩ := both_cond_ok (r := none) hagg hrun
    obtain ⟨-, rfl⟩ := exec_nil_ok hexec
    exact halike
  obtain ⟨hnone, hsurvives⟩ | ⟨ref, u, g, hvector, hsurvives, hrest⟩ :=
    row_ok hplain hne hn ht hskips hrender h
  · exact .inl ⟨by rw [hnone]; rfl, hsurvives⟩
  obtain ⟨hrange, u', halike, hexec⟩ := both_cond_ok (r := some ref) hagg hrest
  have hb := holds_value hagg (.vector (some ref))
  have hleft : w.Survives u' := hsurvives.alike halike
  have hrange : 0 < (w.buffer id).layout.length := by
    rw [← hsurvives.buffer]
    exact hrange rfl
  have hstart := horderly id hrange
  rw [hsurvives.buffer, hstart.first] at hexec
  rw [hvector]
  cases hextent : w.extent id with
  | none =>
    -- an unset field fails the condition, and nothing is taken out
    rw [hextent] at hexec
    obtain ⟨-, rfl⟩ := exec_nil_ok hexec
    exact .inl ⟨rfl, hleft⟩
  | some len =>
    rw [hextent] at hexec
    obtain ⟨g', u₁, hchange, hcount⟩ := exec_cons_ok hexec
    have hready := hstart.survive hw hleft
    -- the vector of the field is still where it was
    obtain ⟨place, hplace, hlen⟩ :=
      Option.map_eq_some_iff.1 ((hleft.agrees hw id).extent.trans hextent)
    have hplaced := ((hleft.but id).separate hw).placed id 0 place hplace
    obtain ⟨rfl, hgrown⟩ := vector_ok hb hplace hplaced value_sparing hchange
    have hcounted := counting_ok k hb (hgrown.layout.trans hready.layout) hcount
    rw [hlen] at hgrown
    exact .inr ⟨rfl, hrange, hstart.moves ht hleft hgrown (by rw [hextent]; rfl) hcounted⟩

end Rows

/-- **Merging**: an unset source does nothing, and the vector of one that is set is taken in with
its count. -/
theorem merge_moves {k : VectorKind} {t : DataType} (ht : t.isArray = true) {src dst : Nat}
    {w w' : World} (hw : w.Separate) (horderly : AllOrderly k t w)
    {body : List Stmt} {f : Flow} (hbody : k.visitor.merge t = .ok body) (hne : src ≠ dst)
    (h : (exec natives (mergeEnv src dst) body).runIn w = (.ok f, w')) :
    0 < (w.buffer src).layout.length ∧ ((w.extent src = none ∧ w.Survives w') ∨
      ∃ len, w.extent src = some len ∧ 0 < (w.buffer dst).layout.length ∧
        Moves k.counts dst (some len) ((w.buffer src).intAt 1) w w') := by
  obtain rfl := VectorKind.merge_ok ht hbody
  have hsource := mergeEnv_source src dst
  have htarget := mergeEnv_target src dst
  rw [Kind.mergeVector, exec_single] at h
  obtain ⟨hrange, u, halike, hexec⟩ := isSet_cond_ok hsource h
  refine ⟨hrange, ?_⟩
  have hleft : w.Survives u := (World.Survives.refl w).alike halike
  rw [(horderly src hrange).first] at hexec
  cases hextent : w.extent src with
  | none =>
    rw [hextent] at hexec
    -- an unset source ends the routine
    obtain ⟨-, rfl⟩ := exec_nil_ok hexec
    exact .inl ⟨rfl, hleft⟩
  | some len =>
    rw [hextent] at hexec
    obtain ⟨g, u₁, hchange, hcount⟩ := exec_cons_ok hexec
    have hrange' : 0 < (w.buffer dst).layout.length := by
      rw [← hleft.buffer]
      exact (isNull_cond_ok htarget hchange).1
    have hstart := horderly dst hrange'
    have hready := hstart.survive hw hleft
    obtain ⟨⟨m, htype⟩, hfields, -⟩ := hready.types ht
    -- the vector of the source is read where it is, and as long as before
    have hread : RunsAs natives (mergeEnv src dst) (source.readVector 0) .any _ :=
      hsource.readVector 0
    have hyields : YieldsVector u (bufferMethod src "readVector" [fieldValue 0]) len := by
      intro u' halike' v u'' hrun
      obtain ⟨rfl, rfl⟩ := bufferMethod_vector_ok (by omega) (.inl rfl) hrun
      obtain ⟨place, hplace, hlen⟩ := Option.map_eq_some_iff.1
        (((halike'.trans halike).extent src).trans hextent)
      exact ⟨place, by rw [hplace]; rfl, hlen, rfl⟩
    have hplaced : ∀ ref, (u.buffer dst).vectorAt 0 = some ref → ref < u.heap.cells.length :=
      (hleft.but dst).separate hw |>.placed dst 0
    obtain ⟨rfl, -, hgrown⟩ := accumulate_ok htarget htype hfields hready.first hplaced hread
      hyields (readVector_sparing hsource.plain 0) hchange
    have hcounted := merging_ok k hsource htarget (hgrown.layout.trans hready.layout) hcount
    -- the count is read after the target has changed, which is another buffer
    rw [hgrown.others src hne, hleft.buffer] at hcounted
    refine .inr ⟨len, rfl, hrange', hstart.moves ht hleft hgrown ?_ hcounted⟩
    rw [(hleft.agrees hw dst).extent]
    cases w.extent dst with
    | none => rfl
    | some len => rfl

end FactFold.Fold
