import FactFold.Proofs.Kind.Additive
import FactFold.Proofs.Kind.Combining
import FactFold.Proofs.Lowering.Acceptance
import FactFold.Proofs.Machine.Altering
import FactFold.Kind.Table

/-!
# Routines fail without a trace

Templates first compute and then change a buffer. Where a template makes two changes in a row, the
second one counts rows, and that cannot fail: the field is an integer, and so is what is added. So a
routine that fails has not changed any buffer, whatever the rows hold and whatever the functions given
from outside yield (`failed_call_keeps_buffers`). What a merge reads it never changes, and a result is
computed on copies.

The name of the fact record is the one thing that matters here. It is put into the source of every
expression that reads a column, so it has to be a name; anything else is read as code
(`altered_by_failed_contribution`).
-/

namespace FactFold.Fold

open Machine Lowering
open Kind (agg source target declareValue valueName valueVar notNull both either negate)
open Machine.Run (Preserves Spares Succeeds Yields Alters)

variable {natives : Natives} {env : Env} {w₀ : World} {id : Nat} {b : BufferRef}

/-! ## Terms of templates -/

section Terms

variable (hplain : b.name.toList.all isNameChar = true)

include hplain

theorem method_sparing {name : String} (hread : isReading name = true) (i : Int) :
    Sparing natives env (b.method name i []) :=
  .invoke hread (.ident hplain) (Sparing.literal _ _).single

theorem isNull_sparing (i : Int) : Sparing natives env (b.isNull i) :=
  method_sparing hplain (by decide) i

theorem isSet_sparing (i : Int) : Sparing natives env (b.isSet i) := (isNull_sparing hplain i).not

theorem readVector_sparing (i : Int) : Sparing natives env (b.readVector i) :=
  method_sparing hplain (by decide) i

theorem read_sparing (i : Int) (t : DataType) : Sparing natives env (b.read i t) := by
  unfold BufferRef.read
  -- an array is read as a vector, any other type by the method of its name
  split
  · exact readVector_sparing hplain i
  · refine method_sparing hplain ?_ i
    cases t with
    | scalar n => cases n <;> decide
    | _ => exact (by decide : isReading "read" = true)

end Terms

theorem value_sparing : Sparing natives env valueVar := .ident (by decide)

theorem negate_sparing {x : Term} (hx : Sparing natives env x) : Sparing natives env (negate x) :=
  .strict rfl rfl (by decide) (by simp [Term.int]) (.literal _ _) hx

theorem square_sparing : Sparing natives env (Kind.square valueVar) :=
  .strict rfl rfl (by decide) (by simp [valueVar]) value_sparing value_sparing

theorem negativePart_sparing (t : DataType) {x : Term} (hx : Sparing natives env x) :
    Sparing natives env (Kind.negativePart t x) :=
  .call _ ((Sparing.literal _ _).cons hx.single)

theorem notNull_sparing : Sparing natives env (notNull valueVar) :=
  .strict rfl rfl (by decide) (by simp) value_sparing .null

/-! ## Statements that change a buffer -/

section Changes

variable (hb : Holds env b id) (hlayout : (w₀.buffer id).layout.HoldsNumbers)

include hb hlayout

theorem add_alters {delta : Term} (hd : Sparing natives env delta) (t : DataType) :
    Alters w₀ id (execStmt natives env (b.add 0 delta t)) :=
  alters_method (i := 0) hb hlayout _ hd.single

theorem write_alters {value : Term} (hv : Sparing natives env value) :
    Alters w₀ id (exec natives env [b.write 0 value]) := by
  rw [exec_single]
  exact alters_method (i := 0) hb hlayout _ hv.single

/-- Folding a value into the field, as the smallest, the largest or a product. -/
theorem foldInto_alters (k : Combining) (t : DataType) {value : Term}
    (hv : Sparing natives env value) : Alters w₀ id (exec natives env (k.foldInto b t value)) := by
  have hread : Sparing natives env (b.read 0 t) := read_sparing hb.plain 0 t
  have hnull : Sparing natives env (b.isNull 0) := isNull_sparing hb.plain 0
  have hfield : AllSparing natives env [.int 0] := (Sparing.literal _ _).single
  cases k with
  | min =>
    rw [Combining.foldInto, exec_single]
    exact alters_cond (.either rfl (.inl rfl) (by decide) _ (by decide) (.ident hb.plain) hfield
      hv hread) (write_alters hb hlayout hv) alters_nil
  | max =>
    rw [Combining.foldInto, exec_single]
    exact alters_cond (.either rfl (.inr rfl) (by decide) _ (by decide) (.ident hb.plain) hfield
      hv hread) (write_alters hb hlayout hv) alters_nil
  | product =>
    -- the read is no negation, so the product is evaluated operand by operand
    have hneg : ∀ z, b.read 0 t ≠ .unary "!" z := by
      intro z
      unfold BufferRef.read
      split <;> exact nofun
    have hmul : Sparing natives env (.binary "*" (b.read 0 t) value) :=
      .strict rfl rfl (by decide) (fun _ => hneg) hread hv
    rw [Combining.foldInto, exec_single]
    exact alters_cond hnull (write_alters hb hlayout hv) (write_alters hb hlayout hmul)

/-- Writing the first vector, or changing the one that is there. -/
theorem accumulate_alters {first value : Term} (hf : Sparing natives env first)
    (hv : Sparing natives env value) (method : String) :
    Alters w₀ id (execStmt natives env
      (.cond (b.isNull 0) [b.write 0 first] [b.vector 0 method [value]])) := by
  -- one change either way: the first vector is written, a later one is taken in place
  refine alters_cond (isNull_sparing hb.plain 0) (write_alters hb hlayout hf) ?_
  rw [exec_single]
  exact alters_vector (i := 0) hb method hv.single

end Changes

theorem yields_exec_run (x : Term) : Yields (exec natives env [.run x]) (· = .next env) := by
  rw [exec_single]
  exact yields_run x

/-! ## Counting cannot fail -/

/-- The layout has a count in its second field. -/
def Counts (l : Layout) : Prop := ∃ t, l = [t, .int]

/-- An integer that can be computed is added to the count. -/
theorem addCount_succeeds (hb : Holds env b id) (hcount : Counts (w₀.buffer id).layout)
    {delta : Term} {s t : Static} {x : Run Value} (hpass : Passes delta s)
    (hdelta : RunsAs natives env delta t x)
    (hx : Succeeds (w₀.SurvivesBut id) x fun v => v.isInteger = true) :
    Succeeds (w₀.SurvivesBut id) (exec natives env [b.add 1 delta .int]) fun _ => True := by
  obtain ⟨t₀, hlayout⟩ := hcount
  have hmethod : Passes (b.method ("add" ++ Numeric.int.suffix) 1 [delta]) .any :=
    .invoke _ (.ident hb.plain) ((Passes.int (by decide)).cons (.single hpass))
  have hadd : Succeeds (w₀.SurvivesBut id) (do
      let vs ← (do let v ← x; pure [v])
      bufferMethod id ("add" ++ Numeric.int.suffix) (fieldValue 1 :: vs)) fun _ => True := by
    rw [bind_assoc]
    refine hx.bind fun v hv w hw => ?_
    -- the layout has survived the computation of what is added
    have hlay : (w.buffer id).layout = [t₀, .int] := (hw.layouts id).trans hlayout
    obtain ⟨k, n, rfl⟩ := integer_cases hv
    rw [pure_bind, bufferMethod_add (by omega) (by simp [hlay])]
    -- an integer goes into an integral field without a conversion that could fail
    have hsum : (w.buffer id).addAt 1 (.scalar (.int k n)) =
        .ok ((w.buffer id).bump 1 (Number.wrap64 n)) := by
      simp only [Memory.addAt, Memory.typeAt, hlay]
      rfl
    simp only [bufferAdd, Run.runIn_bind, Run.runIn_get, hsum]
    exact ⟨_, _, rfl, hw.setField (List.prefix_refl _) (by simp), trivial⟩
  rw [exec_single]
  unfold BufferRef.add
  rw [execStmt]
  exact (hmethod.evaluate (hb.method _ 1 (.single hdelta)) (fun w s h => h.remember s) hadd).bind
    fun _ _ => .pure trivial

theorem count_succeeds (hb : Holds env agg id) (hcount : Counts (w₀.buffer id).layout) {n : Int}
    (hn : Number.wrap64 n ≠ -(2 ^ 63)) :
    Succeeds (w₀.SurvivesBut id) (exec natives env [Kind.count n]) fun _ => True :=
  addCount_succeeds hb hcount (.int hn) (RunsAs.int n) (.pure rfl)

theorem mergeCount_succeeds {src dst : Nat} (hsource : Holds env source src)
    (htarget : Holds env target dst) (hs : Counts (w₀.buffer src).layout)
    (ht : Counts (w₀.buffer dst).layout) :
    Succeeds (w₀.SurvivesBut dst) (exec natives env [Kind.mergeCount]) fun _ => True := by
  obtain ⟨t₀, hlayout⟩ := hs
  have hread : RunsAs natives env (source.read 1 .int) .any _ := hsource.read 1 .int
  refine addCount_succeeds htarget ht (s := .any)
    (.invoke _ (.ident hsource.plain) (.single (.int (by decide)))) hread fun w hw => ?_
  have hlay : (w.buffer src).layout = [t₀, .int] := (hw.layouts src).trans hlayout
  rw [bufferMethod_read (by omega) (by simp [hlay]) rfl]
  exact ⟨_, _, rfl, hw, rfl⟩

theorem nothing_succeeds : Succeeds (w₀.SurvivesBut id) (exec natives env []) fun _ => True := by
  rw [exec]
  exact .pure trivial

/-! ## Rendered routines -/

/-- Whatever code of a value it is given, the template alters one buffer at most. -/
def AltersBy (natives : Natives) (env : Env) (w₀ : World) (id : Nat) : Option Template → Prop
  | some template =>
    ∀ ⦃code : Term⦄, Sparing natives env code → Alters w₀ id (exec natives env (template code))
  | none => True

theorem AltersBy.none : AltersBy natives env w₀ id none := trivial

section Rendering

variable {s : Site} {numeric array : Option Template}
  (hplain : s.env.factName.toList.all isNameChar = true)
  (hnumeric : AltersBy natives env w₀ id numeric) (harray : AltersBy natives env w₀ id array)

include hplain hnumeric harray

theorem render_single_alters {n : Node} {e : Element} {body : List Stmt} (hn : Lowers s n e)
    (hguard : ∀ op l r body, n ≠ .guarded op l r body)
    (hchoice : ∀ op l r yes no, n ≠ .choice op l r yes no)
    (hr : e.render numeric array = .ok body) : Alters w₀ id (exec natives env body) := by
  obtain ⟨code, t, rfl⟩ := hn.single hguard hchoice
  have hcode : Sparing natives env code := hn.sparing hplain rfl
  rw [Element.render] at hr
  -- a type without a template has no rendered body
  split at hr
  case h_1 f hf =>
    obtain rfl := Except.ok.inj hr
    cases t with
    | scalar n =>
      obtain rfl : numeric = some f := hf
      exact hnumeric hcode
    | array n =>
      obtain rfl : array = some f := hf
      exact harray hcode
    | _ => cases hf
  case h_2 => cases hr

/-- Rendering puts templates under conditions, which only compute. -/
theorem render_alters {n : Node} {e : Element} {body : List Stmt} (hn : Lowers s n e)
    (hr : e.render numeric array = .ok body) : Alters w₀ id (exec natives env body) := by
  induction hn using Lowers.conditions generalizing body with
  | guarded hc hin ih =>
    obtain ⟨code, yes, hcode, hyes, rfl⟩ := render_guarded_ok hr
    rw [exec_single]
    exact alters_cond (hc.sparing hplain hcode) (ih hyes) alters_nil
  | choice hc hyes hno he ihyes ihno =>
    rw [(ternary_some_ok he).1] at hr
    obtain ⟨code, ys, ns, hcode, hys, hns, rfl⟩ := render_choice_ok hr
    rw [exec_single]
    exact alters_cond (hc.sparing hplain hcode) (ihyes hys) (ihno hns)
  | single hn hguard hchoice =>
    exact render_single_alters hplain hnumeric harray hn hguard hchoice hr

end Rendering

/-! ## Templates of rows -/

section Templates

variable (hb : Holds env agg id) (hlayout : (w₀.buffer id).layout.HoldsNumbers)

include hb

theorem holds_value (v : Value) : Holds ((valueName, v) :: env) agg id := hb.cons (by decide) v

include hlayout

theorem adding_alters {f : Term → Term}
    (hf : ∀ ⦃x⦄, Sparing natives env x → Sparing natives env (f x)) (t : DataType)
    {extra : List Stmt}
    (hextra : Succeeds (w₀.SurvivesBut id) (exec natives env extra) fun _ => True) :
    AltersBy natives env w₀ id (some fun value => agg.add 0 (f value) t :: extra) :=
  fun _ hcode => alters_then (add_alters hb hlayout (hf hcode) t) (yields_run _) hextra

theorem squaring_alters {f : Term → Term}
    (hf : ∀ ⦃env x⦄, Sparing natives env x → Sparing natives env (f x)) (t : DataType) :
    AltersBy natives env w₀ id (some fun value =>
      [declareValue t value, agg.add 0 (f (Kind.square valueVar)) t]) := by
  -- the declaration changes nothing, whatever the value is
  refine fun code hcode => alters_decl hcode fun v => ?_
  rw [exec_single]
  exact add_alters (holds_value hb v) hlayout (hf square_sparing) t

theorem folding_alters (k : Combining) (t : DataType) :
    AltersBy natives env w₀ id
      (some fun value => declareValue t value :: k.foldInto agg t valueVar) :=
  fun _ hcode => alters_decl hcode fun v =>
    foldInto_alters (holds_value hb v) hlayout k t value_sparing

theorem dividing_alters (t : DataType) :
    AltersBy natives env w₀ id
      (some fun value => [agg.write 0 (.binary "/" (agg.read 0 t) value)]) :=
  fun _ hcode => write_alters hb hlayout ((read_sparing hb.plain 0 t).quotient hcode)

theorem accumulating_alters (t : DataType) {first : Term}
    (hfirst : ∀ env, Sparing natives env first) (method : String) {extra : List Stmt}
    (hextra : ∀ env, Holds env agg id →
      Succeeds (w₀.SurvivesBut id) (exec natives env extra) fun _ => True) :
    AltersBy natives env w₀ id (some fun value => [declareValue t value, .cond (notNull valueVar)
      (Kind.accumulateVector 0 valueVar first method :: extra) []]) := by
  refine fun code hcode => alters_decl hcode fun v => ?_
  have hv := holds_value hb v
  have hchange := accumulate_alters hv hlayout (hfirst _) value_sparing method
  -- the change comes first, and what comes behind it cannot fail
  rw [exec_single]
  exact alters_cond notNull_sparing
    (alters_then hchange (yields_cond (yields_exec_run _) (yields_exec_run _)) (hextra _ hv))
    alters_nil

omit hlayout in
theorem withdrawing_alters (t : DataType) (method : String) {extra : List Stmt}
    (hextra : ∀ env, Holds env agg id →
      Succeeds (w₀.SurvivesBut id) (exec natives env extra) fun _ => True) :
    AltersBy natives env w₀ id (some fun value => [declareValue t value,
      .cond (both (notNull valueVar) (agg.isSet 0))
        (agg.vector 0 method [valueVar] :: extra) []]) := by
  refine fun code hcode => alters_decl hcode fun v => ?_
  have hv := holds_value hb v
  have hchange : Alters w₀ id (execStmt natives ((valueName, v) :: env)
      (agg.vector 0 method [valueVar])) := alters_vector (i := 0) hv method value_sparing.single
  have hcond : Sparing natives ((valueName, v) :: env) (both (notNull valueVar) (agg.isSet 0)) :=
    .both _ (by decide) value_sparing .null (.ident hv.plain) (Sparing.literal _ _).single
  rw [exec_single]
  exact alters_cond hcond (alters_then hchange (yields_run _) (hextra _ hv)) alters_nil

end Templates

/-! ## Routines of the built-in kinds -/

/-- The built-in kinds are the additive and the combining ones. -/
theorem builtin_cases {v : Visitor} (h : v ∈ builtinKinds) :
    (∃ k : Additive, v = k.visitor) ∨ ∃ k : Combining, v = k.visitor := by
  simp only [builtinKinds, List.mem_cons, List.not_mem_nil, or_false] at h
  rcases h with rfl | rfl | rfl | rfl | rfl | rfl | rfl
  · exact .inr ⟨.max, rfl⟩
  · exact .inl ⟨.mean, rfl⟩
  · exact .inr ⟨.min, rfl⟩
  · exact .inr ⟨.product, rfl⟩
  · exact .inl ⟨.short, rfl⟩
  · exact .inl ⟨.squareSum, rfl⟩
  · exact .inl ⟨.sum, rfl⟩

theorem holdsNumbers_one {t : DataType} (h : t.isNumeric = true ∨ t.isArray = true) :
    Layout.HoldsNumbers [t] := by
  intro u hu
  rw [List.mem_singleton.1 hu]
  exact h

theorem layout_holdsNumbers {v : Visitor} (hv : v ∈ builtinKinds) {t : DataType} {l : Layout}
    (h : v.layout t = .ok l) : l.HoldsNumbers := by
  obtain ⟨k, rfl⟩ | ⟨k, rfl⟩ := builtin_cases hv
  · cases k with
    | sum | short =>
      obtain ⟨hl, ht⟩ := onNumeric_ok h
      obtain rfl := Except.ok.inj hl
      exact holdsNumbers_one ht
    | squareSum =>
      obtain ⟨hl, ht⟩ := onScalar_ok h
      obtain rfl := Except.ok.inj hl
      exact holdsNumbers_one (.inl ht)
    | mean =>
      obtain ⟨hl, ht⟩ := onNumeric_ok h
      obtain rfl := Except.ok.inj hl
      -- the count is an integer, the other field is what the kind folds
      intro u hu
      rcases List.mem_cons.1 hu with rfl | hu
      · exact ht
      · exact .inl (by rw [List.mem_singleton.1 hu]; rfl)
  · obtain ⟨hl, ht⟩ : Except.ok [t] = Except.ok l ∧ t.isNumeric = true := by
      cases k <;> exact onScalar_ok h
    obtain rfl := Except.ok.inj hl
    exact holdsNumbers_one (.inl ht)

theorem mean_counts {t : DataType} {l : Layout} (h : Kind.mean.layout t = .ok l) : Counts l :=
  ⟨t, (Except.ok.inj (onNumeric_ok h).1).symm⟩

section Rows

variable {s : Site} (hplain : s.env.factName.toList.all isNameChar = true) (hb : Holds env agg id)
  {n : Node} {e : Element} (he : Lowers s n e)

include hplain hb he

/-- **Taking a row in** alters the buffer of the row at most. -/
theorem contribute_alters {v : Visitor} (hv : v ∈ builtinKinds)
    (hlayout : v.layout e.type = .ok (w₀.buffer id).layout) {body : List Stmt}
    (h : v.contribute e = .ok body) : Alters w₀ id (exec natives env body) := by
  have hnumbers := layout_holdsNumbers hv hlayout
  have hself : ∀ ⦃x⦄, Sparing natives env x → Sparing natives env x := fun _ hx => hx
  obtain ⟨k, rfl⟩ | ⟨k, rfl⟩ := builtin_cases hv
  · cases k with
    | sum =>
      refine render_alters hplain ?_ ?_ he (onNumeric_ok h).1
      · exact adding_alters hb hnumbers hself _ nothing_succeeds
      · exact accumulating_alters hb hnumbers _ (fun _ => value_sparing) _ fun _ _ => nothing_succeeds
    | mean =>
      have hcount := mean_counts hlayout
      refine render_alters hplain ?_ ?_ he (onNumeric_ok h).1
      · exact adding_alters hb hnumbers hself _ (count_succeeds hb hcount (by decide))
      · exact accumulating_alters hb hnumbers _ (fun _ => value_sparing) _
          fun _ hb => count_succeeds hb hcount (by decide)
    | squareSum =>
      refine render_alters hplain ?_ .none he (onScalar_ok h).1
      exact squaring_alters hb hnumbers (fun _ _ hx => hx) _
    | short =>
      refine render_alters hplain ?_ ?_ he (onNumeric_ok h).1
      · exact adding_alters hb hnumbers (fun _ => negativePart_sparing _) _ nothing_succeeds
      · exact accumulating_alters hb hnumbers _ (fun _ => .new (by decide) value_sparing.single) _
          fun _ _ => nothing_succeeds
  · -- the combining kinds differ in what they fold, not in how they are rendered
    have hrender : e.render (some fun value =>
        declareValue e.type value :: k.foldInto agg e.type valueVar) none = .ok body := by
      cases k <;> exact (onScalar_ok h).1
    refine render_alters hplain ?_ .none he hrender
    exact folding_alters hb hnumbers k _

/-- **Taking a row out** alters the buffer of the row at most. -/
theorem decontribute_alters {v : Visitor} (hv : v ∈ builtinKinds)
    (hlayout : v.layout e.type = .ok (w₀.buffer id).layout) {body : List Stmt}
    (h : v.decontribute e = .ok (some body)) : Alters w₀ id (exec natives env body) := by
  have hnumbers := layout_holdsNumbers hv hlayout
  have hnegate : ∀ ⦃x⦄, Sparing natives env x → Sparing natives env (negate x) :=
    fun _ => negate_sparing
  obtain ⟨k, rfl⟩ | ⟨k, rfl⟩ := builtin_cases hv
  · cases k with
    | sum =>
      refine render_alters hplain ?_ ?_ he (some_ok (onNumeric_ok h).1)
      · exact adding_alters hb hnumbers hnegate _ nothing_succeeds
      · exact withdrawing_alters hb _ _ fun _ _ => nothing_succeeds
    | mean =>
      have hcount := mean_counts hlayout
      refine render_alters hplain ?_ ?_ he (some_ok (onNumeric_ok h).1)
      · exact adding_alters hb hnumbers hnegate _ (count_succeeds hb hcount (by decide))
      · exact withdrawing_alters hb _ _ fun _ hb => count_succeeds hb hcount (by decide)
    | squareSum =>
      refine render_alters hplain ?_ .none he (some_ok (onScalar_ok h).1)
      exact squaring_alters hb hnumbers (fun _ _ => negate_sparing) _
    | short =>
      refine render_alters hplain ?_ ?_ he (some_ok (onNumeric_ok h).1)
      · exact adding_alters hb hnumbers (fun _ hx => negate_sparing (negativePart_sparing _ hx)) _
          nothing_succeeds
      · exact withdrawing_alters hb _ _ fun _ _ => nothing_succeeds
  · cases k with
    | min | max => cases h
    | product =>
      refine render_alters hplain ?_ .none he (some_ok (onScalar_ok h).1)
      exact dividing_alters hb hnumbers _

end Rows

section Merging

variable {src dst : Nat} (hsource : Holds env source src) (htarget : Holds env target dst)

include hsource htarget

/-- Adding the source's field, with what may be counted after it. -/
theorem mergeAdding_alters (hnumbers : (w₀.buffer dst).layout.HoldsNumbers) (t : DataType)
    {extra : List Stmt}
    (hextra : Succeeds (w₀.SurvivesBut dst) (exec natives env extra) fun _ => True) :
    Alters w₀ dst (exec natives env (target.add 0 (source.read 0 t) t :: extra)) :=
  alters_then (add_alters htarget hnumbers (read_sparing hsource.plain 0 t) t) (yields_run _) hextra

theorem mergeVector_alters (hnumbers : (w₀.buffer dst).layout.HoldsNumbers) (method : String)
    {extra : List Stmt}
    (hextra : Succeeds (w₀.SurvivesBut dst) (exec natives env extra) fun _ => True) :
    Alters w₀ dst (exec natives env (Kind.mergeVector method extra)) := by
  have hread : Sparing natives env (source.readVector 0) := readVector_sparing hsource.plain 0
  have hchange := accumulate_alters htarget hnumbers hread hread method
  rw [Kind.mergeVector, exec_single]
  exact alters_cond (isSet_sparing hsource.plain 0)
    (alters_then hchange (yields_cond (yields_exec_run _) (yields_exec_run _)) hextra) alters_nil

theorem mergeFolding_alters (hnumbers : (w₀.buffer dst).layout.HoldsNumbers) (k : Combining)
    (t : DataType) {body : List Stmt} (h : k.visitor.merge t = .ok body) :
    Alters w₀ dst (exec natives env body) := by
  have hread : ∀ {env : Env}, Sparing natives env (source.read 0 t) :=
    read_sparing hsource.plain 0 t
  have hset : Sparing natives env (source.isSet 0) := isSet_sparing hsource.plain 0
  have hinput : ∀ v, Holds (("input", v) :: env) target dst := fun v => htarget.cons (by decide) v
  have hname : ∀ {env : Env}, Sparing natives env (.ident "input") := .ident (by decide)
  cases k with
  | min =>
    obtain rfl := Except.ok.inj (onScalar_ok h).1
    rw [exec_single]
    exact alters_cond hset (alters_decl hread fun v =>
      foldInto_alters (hinput v) hnumbers .min t hname) alters_nil
  | max =>
    obtain rfl := Except.ok.inj (onScalar_ok h).1
    rw [exec_single]
    exact alters_cond hset (alters_decl hread fun v =>
      foldInto_alters (hinput v) hnumbers .max t hname) alters_nil
  | product =>
    obtain rfl := Except.ok.inj (onScalar_ok h).1
    rw [exec_single]
    exact alters_cond hset (foldInto_alters htarget hnumbers .product t hread) alters_nil

/-- **Merging** alters the target at most. -/
theorem merge_alters {v : Visitor} (hv : v ∈ builtinKinds) {t : DataType}
    (hsrc : v.layout t = .ok (w₀.buffer src).layout)
    (hdst : v.layout t = .ok (w₀.buffer dst).layout) {body : List Stmt}
    (h : v.merge t = .ok body) : Alters w₀ dst (exec natives env body) := by
  have hnumbers := layout_holdsNumbers hv hdst
  obtain ⟨k, rfl⟩ | ⟨k, rfl⟩ := builtin_cases hv
  · have hextra : Succeeds (w₀.SurvivesBut dst) (exec natives env k.merging) fun _ => True := by
      cases k with
      | mean => exact mergeCount_succeeds hsource htarget (mean_counts hsrc) (mean_counts hdst)
      | sum | squareSum | short => exact nothing_succeeds
    obtain ⟨n, rfl, rfl⟩ | ⟨n, method, rfl, -, rfl⟩ := Additive.merge_cases h
    · exact mergeAdding_alters hsource htarget hnumbers _ hextra
    · exact mergeVector_alters hsource htarget hnumbers _ hextra
  · exact mergeFolding_alters hsource htarget hnumbers k t h

end Merging

/-! ## Results -/

/-- How far a call may go when one buffer is its to change: where it fails nothing is lost, and where
it succeeds nothing but the buffer. -/
structure Careful {α : Type} (w : World) (id : Nat) (r : Except RunError α × World) : Prop where
  but : w.SurvivesBut id r.2
  failed : ∀ e, r.1 = .error e → w.Survives r.2

theorem Careful.refused {w : World} {e : RunError} {α : Type} :
    Careful w id ((.error e, w) : Except RunError α × World) :=
  ⟨(World.Survives.refl w).but id, fun _ _ => .refl w⟩

theorem Careful.ignored {w : World} {r : Except RunError Value × World} (h : Careful w id r) :
    Careful w id (Machine.ignored r) := by
  refine ⟨h.but, fun e he => ?_⟩
  rcases r with ⟨e' | v, u⟩
  · exact h.failed e' rfl
  · cases he

/-- A routine is refused, or it ends as its body does. -/
theorem run_cases (r : Routine) (args : List Value) (w : World) :
    (run natives r args w).2 = w ∨
      ∃ x u, (exec natives ((r.params.map Param.name).zip args).reverse r.body).runIn w = (x, u) ∧
        (run natives r args w).2 = u ∧
        ∀ e, (run natives r args w).1 = .error e → ∃ e', x = .error e' := by
  unfold run
  split
  · exact .inl rfl
  · right
    dsimp only
    rcases hrun : (exec natives ((r.params.map Param.name).zip args).reverse r.body).runIn w with
      ⟨e | f, u⟩
    · exact ⟨_, _, rfl, rfl, fun _ _ => ⟨e, rfl⟩⟩
    · cases f <;> exact ⟨_, _, rfl, rfl, nofun⟩

theorem run_careful {r : Routine} {args : List Value} {w : World} (hw : w₀.Survives w)
    (hbody : Alters w₀ id (exec natives ((r.params.map Param.name).zip args).reverse r.body)) :
    Careful w₀ id (run natives r args w) := by
  obtain hrefused | ⟨x, u, hrun, hworld, herror⟩ := @run_cases natives r args w
  · constructor
    · rw [hrefused]
      exact hw.but id
    · intro e _
      rw [hrefused]
      exact hw
  · -- the routine fails only if its body does, and leaves the world of its body
    obtain ⟨hbut, hfailed⟩ := hbody w hw
    rw [hrun] at hbut hfailed
    constructor
    · rw [hworld]
      exact hbut
    · intro e he
      obtain ⟨e', rfl⟩ := herror e he
      rw [hworld]
      exact hfailed e' rfl

theorem fact_survives (w : World) (row : List Value) : w.Survives (w.fact row).2 :=
  ⟨rfl, List.prefix_refl _⟩

section Artifacts

variable {v : Visitor} (hv : v ∈ builtinKinds) {kind : String} {config : CodegenConfig}
  {columns : List String} {e : Element} {acc : Accumulator} {a : Artifact}
  (ha : v.artifact kind config columns e acc = .ok a) {s : Site} {n : Node} (he : Lowers s n e)
  (hplain : s.env.factName.toList.all isNameChar = true) {w : World}

include hv ha

theorem merge_careful {src dst : Nat} (hsrc : (w.buffer src).layout = a.layout)
    (hdst : (w.buffer dst).layout = a.layout) : Careful w dst (Machine.merge natives a src dst w) := by
  have hmade := artifact_ok ha
  refine (run_careful (.refl w) ?_).ignored
  rw [hmade.merge_params]
  exact merge_alters (mergeEnv_source src dst) (mergeEnv_target src dst) hv (hsrc ▸ hmade.layout)
    (hdst ▸ hmade.layout) hmade.merge

include he hplain

theorem contribute_careful (row : List Value) (hid : (w.buffer id).layout = a.layout) :
    Careful w id (Machine.contribute natives a row id w) := by
  have hmade := artifact_ok ha
  refine (run_careful (fact_survives w row) ?_).ignored
  rw [hmade.contribute_params]
  exact contribute_alters hplain (rowEnv_holds _ row id w) he hv (hid ▸ hmade.layout)
    hmade.contribute

theorem decontribute_careful (row : List Value) (hid : (w.buffer id).layout = a.layout) :
    Careful w id (Machine.decontribute natives a row id w) := by
  have hmade := artifact_ok ha
  unfold Machine.decontribute
  cases hr : a.decontribute with
  | none => exact .refused
  | some r =>
    refine (run_careful (fact_survives w row) ?_).ignored
    have hdecontribute := hmade.decontribute
    rw [hr] at hdecontribute
    rw [hmade.decontribute_params r hr]
    exact decontribute_alters hplain (rowEnv_holds _ row id w) he hv (hid ▸ hmade.layout)
      hdecontribute

end Artifacts

/-! ## Calls of artifacts -/

/-- The buffer the call may change. -/
def Step.subject : Step → Nat
  | .contribute _ id | .decontribute _ id => id
  | .merge _ dst => dst

/-- The buffers of the call are laid out for the artifact. -/
def Step.Fits (a : Artifact) (w : World) : Step → Prop
  | .contribute _ id | .decontribute _ id => (w.buffer id).layout = a.layout
  | .merge src dst => (w.buffer src).layout = a.layout ∧ (w.buffer dst).layout = a.layout

section Distilled

variable {v : Visitor} {env : DistillEnv} {kind : String} {n : Node} {ws ws' : Workspace} {a : Artifact}
  {w : World} (hv : v ∈ builtinKinds) (hkind : env.kinds.get kind = .ok v)
  (ha : (n.distill env kind).runIn ws = (.ok a, ws'))
  (hplain : env.config.filled.factParameter.toList.all isNameChar = true)

include hv hkind ha hplain

theorem step_careful {s : Step} (hfits : s.Fits a w) : Careful w s.subject (s.perform natives a w) := by
  obtain ⟨v', e, acc, hv', he, hart⟩ := distill_ok ha
  obtain rfl : v = v' := Except.ok.inj (hkind.symm.trans hv')
  have hname : (distillSite env n ws'.cache).env.factName.toList.all isNameChar = true := by
    rw [distillSite_factName]
    exact hplain
  cases s with
  | contribute row id => exact contribute_careful hv hart he hname row hfits
  | decontribute row id => exact decontribute_careful hv hart he hname row hfits
  | merge src dst => exact merge_careful hv hart hfits.1 hfits.2

end Distilled

end FactFold.Fold
