import FactFold.Proofs.Kind.Widening

/-!
# Taking a row out of a product

A product takes a row in by a multiplication that wraps around at 64 bits, and takes it out by a
division that drops the remainder. `ending` is what a routine comes to, its failure included: where
the machine has an integer for what the row's expression was lowered to, both routines end in a way
that depends on that integer and on the buffer alone (`contribute_product`, `decontribute_product`).
Whether the product before is there again is then a question about integers, which
`Number.wrap64_tdiv_wrap64_mul` answers: a product that has wrapped around is never divided back into
its factor, with the one exception of the lowest integer taken times minus one.
-/

namespace FactFold.Number

/-! ## Products and quotients of 64 bits -/

theorem wrap64_eq_sub (n : Int) : ∃ k, wrap64 n = n - 2 ^ 64 * k := by
  refine ⟨(n - wrap64 n) / 2 ^ 64, ?_⟩
  unfold wrap64
  rw [Int.bmod_def]
  omega

/-- A quotient of 64-bit integers has 64 bits, but for one. -/
theorem tdiv_range {q v : Int} (hq : -(2 ^ 63) ≤ q ∧ q < 2 ^ 63) (hv : v ≠ 0) :
    (-(2 ^ 63) ≤ q.tdiv v ∧ q.tdiv v < 2 ^ 63) ∨ q.tdiv v = 2 ^ 63 ∧ v = -1 := by
  by_cases hunit : v.natAbs = 1
  · obtain rfl | rfl : v = 1 ∨ v = -1 := by omega
    · rw [Int.tdiv_one]
      exact .inl hq
    · -- the lowest integer has no opposite
      rw [Int.tdiv_neg, Int.tdiv_one]
      omega
  · -- any other divisor halves at least
    have hhalf : (q.tdiv v).natAbs ≤ q.natAbs / 2 := by
      rw [Int.natAbs_tdiv]
      exact Nat.div_le_div_left (by omega) (by decide)
    omega

/-- A product is divided back into its factor exactly when it fits, with one exception. -/
theorem wrap64_tdiv_wrap64_mul {p v : Int} (hp : -(2 ^ 63) ≤ p ∧ p < 2 ^ 63)
    (hv : -(2 ^ 63) ≤ v ∧ v < 2 ^ 63) (hne : v ≠ 0) :
    wrap64 ((wrap64 (p * v)).tdiv v) = p ↔
      (-(2 ^ 63) ≤ p * v ∧ p * v < 2 ^ 63) ∨ p = -(2 ^ 63) ∧ v = -1 := by
  constructor
  · intro h
    obtain ⟨k, hk⟩ := wrap64_eq_sub (p * v)
    have hrange := wrap64_range (p * v)
    rcases tdiv_range hrange hne with hfits | ⟨htop, hone⟩
    · -- what remains of the division would be a multiple of the word size
      left
      rw [wrap64_of_range hfits.1 hfits.2] at h
      have hsplit := Int.mul_tdiv_add_tmod (wrap64 (p * v)) v
      rw [h, Int.mul_comm v p] at hsplit
      -- the remainder is smaller than the divisor, so nothing else is left
      have hrest : ((wrap64 (p * v)).tmod v).natAbs < v.natAbs := by
        rw [Int.natAbs_tmod]
        exact Nat.mod_lt _ (by omega)
      omega
    · right
      rw [htop] at h
      exact ⟨h.symm, hone⟩
  · rintro (⟨hl, hu⟩ | ⟨rfl, rfl⟩)
    · rw [wrap64_of_range hl hu, Int.mul_tdiv_cancel _ hne, wrap64_of_range hp.1 hp.2]
    · -- the exception itself
      decide

end FactFold.Number

namespace FactFold.Machine

open Run (Quiet)

variable {natives : Natives} {env : Env} {w u : World}

/-! ## How statements end -/

/-- How statements end, and the buffers they leave. -/
def ending (natives : Natives) (env : Env) (body : List Stmt) (w : World) :
    Except Fault Unit × List Memory :=
  Prod.map (Except.map fun _ => ()) World.buffers ((exec natives env body).runIn w)

theorem ending_cond {c : Term} {yes no : List Stmt} {v : Value} {b : Bool}
    (hc : (evaluate natives env c).runIn w = (.ok v, u)) (hb : v.operand.toBool = .ok b) :
    ending natives env [.cond c yes no] w = ending natives env (if b then yes else no) u := by
  unfold ending
  rw [exec_single, execStmt, Run.runIn_bind, hc]
  simp only [hb, Run.converted_ok, pure_bind]
  cases b <;> rfl

theorem ending_decl {type name : String} {code : Term} {rest : List Stmt} {v a : Value}
    (hv : (evaluate natives env code).runIn w = (.ok v, u)) (ha : convert type v = pure a) :
    ending natives env (.decl type name code :: rest) w =
      ending natives ((name, a) :: env) rest u := by
  unfold ending
  rw [exec_decl, Run.runIn_bind, hv]
  simp only [ha, Run.runIn_bind, runIn_rethrow, Run.runIn_pure]

/-! ## Quiet steps and the terms that run as them -/

theorem Run.Quiet.result_remember {α : Type} {x : Run α} (h : Quiet x) (w : World) (s : String) :
    (x.runIn (w.remember s)).1 = (x.runIn w).1 := by
  rw [(World.Alike.remember w s).symm.eq_with, h.blind]

/-- A term that passes is evaluated to the result of the step it runs as. -/
theorem RunsAs.evaluate_quiet {code : Term} {s t : Static} {x : Run Value}
    (h : RunsAs natives env code t x) (hp : Passes code s) (hx : Quiet x) (w : World) :
    ∃ u, (evaluate natives env code).runIn w = ((x.runIn w).1, u) ∧ u.buffers = w.buffers := by
  -- evaluating remembers the source, which no quiet step sees
  obtain ⟨text, f, htext, hf, hs⟩ := hp
  rw [evaluate_eq h htext hf (by rw [hs]; rfl)]
  refine ⟨(x.runIn (w.remember text)).2, ?_, ?_⟩
  · rw [← hx.result_remember w text]
  · rw [hx.buffers, (World.Alike.remember w text).buffers]

/-- Terms are evaluated alike where they run as the same step. -/
theorem RunsAs.evaluate_congr {env' : Env} {code : Term} {t : Static} {x : Run Value}
    (h : RunsAs natives env code t x) (h' : RunsAs natives env' code t x) :
    evaluate natives env code = evaluate natives env' code := by
  unfold evaluate
  -- the same code is simplified to the same formula in both environments
  cases hs : source code with
  | error e => rfl
  | ok s =>
    obtain ⟨f, hf, hrun⟩ := h s hs
    obtain ⟨f', hf', hrun'⟩ := h' s hs
    obtain rfl : f = f' := Option.some.inj (hf.symm.trans hf')
    unfold program?
    simp only [hf, Option.some_or, Option.bind_eq_bind, Option.bind_some]
    by_cases hacc : f.isAccepted = true
    · have hstatic : f.static?.isSome = true := (Bool.and_eq_true_iff.1 hacc).1
      simp only [hacc, if_true, Option.pure_def, (hrun hstatic).value, (hrun' hstatic).value]
    · simp only [hacc, Bool.false_eq_true, if_false]

/-- A term that passes, as a statement, ends as the step does that it runs as. -/
theorem ending_run {code : Term} {s t : Static} {x : Run Value} (h : RunsAs natives env code t x)
    (hp : Passes code s) (w : World) :
    ∃ text, ending natives env [.run code] w =
      Prod.map (Except.map fun _ => ()) World.buffers (x.runIn (w.remember text)) := by
  obtain ⟨text, f, htext, hf, hs⟩ := hp
  refine ⟨text, ?_⟩
  unfold ending
  rw [exec_single, execStmt, Run.runIn_bind, evaluate_eq h htext hf (by rw [hs]; rfl)]
  rcases x.runIn (w.remember text) with ⟨_ | _, u⟩ <;> rfl

end FactFold.Machine

namespace FactFold.Fold

open Machine Lowering
open Kind (agg declareValue valueVar)
open Machine.Run (Quiet)
open Number (wrap64)

variable {natives : Natives} {env : Env} {w : World} {b : BufferRef} {id : Nat} {n : Numeric}

/-! ## Writing into the field of a product -/

theorem layout_pos {m : Memory} (h : m.layout = [.scalar n]) : 0 < m.layout.length := by
  rw [h]
  exact Nat.one_pos

theorem bufferWrite_integer (hn : n.isIntegral = true) (ht : (w.buffer id).typeAt 0 = .scalar n)
    {v : Value} (hv : v.isInteger = true) :
    (bufferWrite id 0 v).runIn w =
      (.ok .null, w.setBuffer id ((w.buffer id).setAt 0 (.long (long v)))) := by
  obtain ⟨k, m, rfl⟩ := integer_cases hv
  -- an integral field takes in an integer without converting it
  have hwrite : (w.buffer id).writeAt w.heap 0 (.scalar (.int k m)) =
      .ok ((w.buffer id).setAt 0 (.long (wrap64 m)), w.heap) := by
    unfold Memory.writeAt
    rw [ht]
    exact if_pos hn
  simp only [bufferWrite, Run.runIn_bind, Run.runIn_get, ht, DataType.isArray, Bool.false_eq_true,
    if_false, Run.runIn_pure, hwrite, Run.runIn_set]
  rfl

section Writing

variable (hb : Holds env b id) {value : Term} {s t : Static} {x : Run Value}
  (hvalue : RunsAs natives env value t x) (hp : Passes value s) (hx : Quiet x)

include hb hvalue hp hx

omit hx in
theorem ending_write (w : World) : ∃ text, ending natives env [b.write 0 value] w =
    Prod.map (Except.map fun _ => ()) World.buffers
      ((x >>= fun v => bufferMethod id "write" [fieldValue 0, v]).runIn (w.remember text)) := by
  have hruns : RunsAs natives env (b.method "write" 0 [value]) .any
      (x >>= fun v => bufferMethod id "write" [fieldValue 0, v]) := by
    have h := hb.method "write" 0 (AllRunAs.single hvalue)
    simp only [bind_assoc, pure_bind] at h
    exact h
  have hpass : Passes (b.method "write" 0 [value]) .any :=
    .invoke _ (.ident hb.plain) ((Passes.int (by decide)).cons (.single hp))
  exact ending_run hruns hpass w

theorem ending_write_error {e : Fault} (he : (x.runIn w).1 = .error e) :
    ending natives env [b.write 0 value] w = (.error e, w.buffers) := by
  obtain ⟨text, hending⟩ := ending_write hb hvalue hp w
  have hbuffers := (hx.buffers (w.remember text)).trans (World.Alike.remember w text).buffers
  rw [← hx.result_remember w text] at he
  rw [hending, Run.runIn_bind]
  -- the value fails before the method is called
  rcases hrun : x.runIn (w.remember text) with ⟨r, u⟩
  rw [hrun] at he hbuffers
  obtain rfl : r = .error e := he
  exact Prod.ext rfl hbuffers

theorem ending_write_ok (hn : n.isIntegral = true)
    (hlayout : (bufferAt w.buffers id).layout = [.scalar n]) {v : Value}
    (hv : (x.runIn w).1 = .ok v) (hinteger : v.isInteger = true) :
    ending natives env [b.write 0 value] w =
      (.ok (), w.buffers.set id ((bufferAt w.buffers id).setAt 0 (.long (long v)))) := by
  obtain ⟨text, hending⟩ := ending_write hb hvalue hp w
  have hbuffers := (hx.buffers (w.remember text)).trans (World.Alike.remember w text).buffers
  rw [← hx.result_remember w text] at hv
  rw [hending, Run.runIn_bind]
  rcases hrun : x.runIn (w.remember text) with ⟨r, u⟩
  rw [hrun] at hv hbuffers
  obtain rfl : r = .ok v := hv
  -- the buffer is written as the value has left it, which is as it was
  have hbuffer : u.buffer id = bufferAt w.buffers id := by rw [buffer_eq, hbuffers]
  have hrange : 0 < (u.buffer id).layout.length := layout_pos (hbuffer ▸ hlayout)
  have htype : (u.buffer id).typeAt 0 = .scalar n := by
    rw [Memory.typeAt, hbuffer, hlayout]
    rfl
  simp only [bufferMethod_write (by omega) hrange, bufferWrite_integer hn htype hinteger]
  show (Except.ok (), (u.setBuffer id _).buffers) = _
  rw [setBuffer_buffers, hbuffer, hbuffers]

end Writing

/-! ## The templates of a product -/

/-- The quotient of two steps, of which the dividend runs first. -/
abbrev quotient (x y : Run Value) : Run Value := do
  let a ← x
  let b ← y
  liftM (divide a b)

theorem passes_method {b : BufferRef} (hplain : b.name.toList.all isNameChar = true) (name : String) :
    Passes (b.method name 0 []) .any :=
  .invoke _ (.ident hplain) (.single (.int (by decide)))

/-- The field of the product as an operand. -/
theorem passes_read {b : BufferRef} (hplain : b.name.toList.all isNameChar = true) (n : Numeric) :
    Passes (b.read 0 (.scalar n)) .any :=
  passes_method hplain _

section Templates

variable (hb : Holds env agg id) (hn : n.isIntegral = true)
  (hlayout : (bufferAt w.buffers id).layout = [.scalar n])

include hb hn hlayout

/-- Multiplying what the field holds by a value. -/
theorem ending_writeProduct {value : Term} {y : Int}
    (hvalue : RunsAs natives env value .any (pure (.long y))) (hp : Passes value .any) :
    ending natives env [agg.write 0 (.binary "*" (agg.read 0 (.scalar n)) value)] w =
      (.ok (), w.buffers.set id ((bufferAt w.buffers id).setAt 0
        (.long (wrap64 ((bufferAt w.buffers id).intAt 0 * y))))) := by
  have hread : Quiet (bufferMethod id ("read" ++ n.suffix) [fieldValue 0]) := (Reads.field hn).quiet
  have hruns : RunsAs natives env (.binary "*" (agg.read 0 (.scalar n)) value) .any
      (operation .mul .any .any (bufferMethod id ("read" ++ n.suffix) [fieldValue 0])
        (pure (.long y))) :=
    infix_runsAs .mul (by decide) (by intro z hz; cases hz) (hb.read 0 n) hvalue
  have hpass : Passes (.binary "*" (agg.read 0 (.scalar n)) value) .any :=
    .strict (show BinaryOp.ofText? "*" = some .mul from rfl) rfl (by decide)
      (fun _ z hz => by cases hz) rfl (passes_read hb.plain n) hp
  have hrange : 0 < (w.buffer id).layout.length := layout_pos hlayout
  -- the field first and the factor second, both of them integers
  have hrun : ((operation .mul .any .any (bufferMethod id ("read" ++ n.suffix) [fieldValue 0])
      (pure (.long y))).runIn w).1 =
        .ok (intResult (long (.long ((w.buffer id).intAt 0)) * long (.long y))) := by
    unfold operation
    simp only [Run.runIn_bind, bufferMethod_read (by omega) hrange hn, Run.runIn_pure,
      Run.runIn_get, operate_mul (show Value.isInteger (.long _) = true from rfl)
        (show Value.isInteger (.long y) = true from rfl), Run.runIn_lift]
  rw [ending_write_ok hb hruns hpass (quiet_mul hread (Quiet.pure _)) hn hlayout hrun rfl]
  simp only [intResult, long_int, Number.wrap64_wrap64, Number.wrap64_mul_left,
    Number.wrap64_mul_right, buffer_eq]

/-- Taking in a value folds it into the buffer. -/
theorem ending_multiply {code : Term} {v : Value} {u : World}
    (hv : (evaluate natives env code).runIn w = (.ok v, u)) (hinteger : v.isInteger = true)
    (hbuffers : u.buffers = w.buffers) :
    ending natives env (declareValue (.scalar n) code ::
        Combining.product.foldInto agg (.scalar n) valueVar) w =
      (.ok (), w.buffers.set id
        (Combining.product.change (long v) (bufferAt w.buffers id))) := by
  rw [declareValue, ending_decl hv (convert_integer hn hinteger), ← hbuffers]
  rw [← hbuffers] at hlayout
  -- the statements behind the declaration know the value by its name
  have hb : Holds ((Kind.valueName, .long (long v)) :: env) agg id := hb.cons (by decide) _
  have hvalue : RunsAs natives ((Kind.valueName, .long (long v)) :: env) valueVar .any
      (pure (.long (long v))) := variable_runsAs (by decide) _
  have hrange : 0 < (u.buffer id).layout.length := layout_pos hlayout
  have hfield : RunsAs natives ((Kind.valueName, .long (long v)) :: env) (agg.isNull 0) .any
      (bufferMethod id "isNull" [fieldValue 0]) := hb.isNull 0
  obtain ⟨u', hisNull, hu'⟩ := hfield.evaluate_quiet (passes_method hb.plain "isNull")
    (quiet_bufferRead (.inl rfl) _) u
  rw [bufferMethod_isNull (by omega) hrange] at hisNull
  rw [Combining.foldInto, ending_cond hisNull rfl, ← hu', buffer_eq, ← hu']
  rw [← hu'] at hlayout
  unfold Combining.change
  -- the first value is written as it is, a later one is a factor
  cases hnull : ((bufferAt u'.buffers id).valueAt 0).isNull with
  | true =>
    rw [if_pos rfl, if_pos rfl, ending_write_ok hb hvalue (.ident (by decide)) (Quiet.pure _) hn
      hlayout rfl rfl, long_int, Number.wrap64_longOrZero]
  | false =>
    rw [if_neg (by simp), if_neg (by simp)]
    exact ending_writeProduct hb hn hlayout hvalue (.ident (by decide))

/-- Taking out a value divides the product by it. -/
theorem ending_divide {code : Term} {t : Static} {x : Run Value} {v : Value} {u : World}
    (hcode : RunsAs natives env code t x) (hx : Quiet x)
    (hv : (evaluate natives env code).runIn w = (.ok v, u)) (hinteger : v.isInteger = true) :
    ending natives env [agg.write 0 (.binary "/" (agg.read 0 (.scalar n)) code)] w =
      if long v = 0 then (.error .divisionByZero, w.buffers)
      else (.ok (), w.buffers.set id ((bufferAt w.buffers id).setAt 0
        (.long (wrap64 (((bufferAt w.buffers id).intAt 0).tdiv (long v)))))) := by
  have hread : Quiet (bufferMethod id ("read" ++ n.suffix) [fieldValue 0]) := (Reads.field hn).quiet
  have hruns : RunsAs natives env (.binary "/" (agg.read 0 (.scalar n)) code) .any
      (quotient (bufferMethod id ("read" ++ n.suffix) [fieldValue 0]) x) :=
    (hb.read 0 n).quotient hcode
  have hpass := (passes_read hb.plain n).quotient (hcode.passes hv)
  have hquiet : Quiet (quotient (bufferMethod id ("read" ++ n.suffix) [fieldValue 0]) x) :=
    hread.bind fun a => hx.bind fun d => Quiet.lift (divide a d)
  have hrange : 0 < (w.buffer id).layout.length := layout_pos hlayout
  -- the value is the same behind the field as it is alone
  have hresult : (x.runIn w).1 = .ok v := by
    obtain ⟨text, htext⟩ := evaluate_ok hcode hv
    rw [← hx.result_remember w text, htext]
  have hrun : ((quotient (bufferMethod id ("read" ++ n.suffix) [fieldValue 0]) x).runIn w).1 =
      divide (.long ((w.buffer id).intAt 0)) v := by
    unfold quotient
    rw [Run.runIn_bind, bufferMethod_read (by omega) hrange hn]
    dsimp only
    rw [Run.runIn_bind]
    rcases hxw : x.runIn w with ⟨r, w'⟩
    rw [hxw] at hresult
    obtain rfl : r = .ok v := hresult
    rfl
  rw [divide_integer rfl hinteger, long_int, Memory.intAt, Number.wrap64_longOrZero] at hrun
  split
  case isTrue hzero =>
    rw [if_pos hzero] at hrun
    exact ending_write_error hb hruns hpass hquiet hrun
  case isFalse hzero =>
    rw [if_neg hzero] at hrun
    rw [ending_write_ok hb hruns hpass hquiet hn hlayout hrun rfl, long_int, Number.wrap64_wrap64]
    rfl

end Templates

end FactFold.Fold

/-! ## Rendered elements -/

namespace FactFold

open Machine

/-- The value the machine has for an element. Conditions are evaluated from the outermost one inwards
and then the code they lead to; where a guard fails there is no value. -/
inductive Element.HasValue (natives : Natives) (env : Env) :
    Element → World → Value → World → Prop
  | basic {code : Term} {t : DataType} {w w' : World} {v : Value}
      (hv : (evaluate natives env code).runIn w = (.ok v, w')) :
      Element.HasValue natives env (.basic code t) w v w'
  | guarded {c body : Element} {code : Term} {w u w' : World} {x v : Value}
      (hc : c.value = .ok code) (hx : (evaluate natives env code).runIn w = (.ok x, u))
      (htrue : x.operand.toBool = .ok true) (hbody : Element.HasValue natives env body u v w') :
      Element.HasValue natives env (.guarded c body) w v w'
  | choice {c yes no : Element} {t : DataType} {code : Term} {w u w' : World} {x v : Value}
      {b : Bool} (hc : c.value = .ok code) (hx : (evaluate natives env code).runIn w = (.ok x, u))
      (hb : x.operand.toBool = .ok b)
      (hbranch : Element.HasValue natives env (if b then yes else no) u v w') :
      Element.HasValue natives env (.choice c yes no t) w v w'

end FactFold

namespace FactFold.Lowering

open Machine
open Machine.Run (Quiet)
open Fold (long)

variable {s : Site} {natives : Natives} {env env₀ : Env} {fields : List Value}

/-- The code of a condition decides alike wherever the record is known, and leaves the buffers
alone. -/
theorem Lowers.evaluate_congr (hb : s.Binds env fields) (hb₀ : s.Binds env₀ fields) {n : Node}
    {e : Element} {code : Term} (he : Lowers s n e) (hcode : e.value = .ok code) {w u : World}
    {v : Value} (hv : (evaluate natives env₀ code).runIn w = (.ok v, u)) :
    (evaluate natives env code).runIn w = (.ok v, u) ∧ u.buffers = w.buffers := by
  have hquiet : Quiet (n.value (s.meaning natives fields)) :=
    Node.quiet_value (Convention.machine_lawful natives) n
  obtain ⟨-, -, -, hbuffers⟩ := evaluate_quiet (he.runsAs hb₀ hcode) hquiet hv
  rw [RunsAs.evaluate_congr (he.runsAs hb hcode) (he.runsAs hb₀ hcode)]
  exact ⟨hv, hbuffers⟩

/-- **Rendered statements end as the template does on the value of the element.** -/
theorem render_ending (hb : s.Binds env fields) (hb₀ : s.Binds env₀ fields) {template : Template}
    {K : List Memory → Prop} {G : Int → List Memory → Except Fault Unit × List Memory}
    (hT : ∀ ⦃code : Term⦄ ⦃t : Static⦄ ⦃x : Run Value⦄ ⦃w u : World⦄ ⦃v : Value⦄,
      RunsAs natives env code t x → Quiet x → (evaluate natives env code).runIn w = (.ok v, u) →
        u.buffers = w.buffers → v.isInteger = true → K w.buffers →
          ending natives env (template code) w = G (long v) w.buffers) :
    ∀ {n : Node} {e : Element} {body : List Stmt}, Lowers s n e →
      e.render (some template) none = .ok body → ∀ {w w' : World} {v : Value},
        e.HasValue natives env₀ w v w' → v.isInteger = true → K w.buffers →
          ending natives env body w = G (long v) w.buffers := by
  intro n e body hn
  induction hn using Lowers.conditions generalizing body with
  | guarded hc hin ih =>
    intro hr w w' v hvalue hinteger hK
    obtain ⟨code, yes, hcode, hyes, rfl⟩ := render_guarded_ok hr
    cases hvalue with
    | guarded hcode' hx htrue hbody =>
      -- the machine has evaluated the code that is the condition of the block
      obtain rfl := Except.ok.inj (hcode.symm.trans hcode')
      obtain ⟨hx, hbuffers⟩ := hc.evaluate_congr hb hb₀ hcode hx
      rw [ending_cond hx htrue, ← hbuffers]
      exact ih hyes hbody hinteger (hbuffers ▸ hK)
  | choice hc hyes hno he ihyes ihno =>
    intro hr w w' v hvalue hinteger hK
    rw [(ternary_some_ok he).1] at hr hvalue
    obtain ⟨code, ys, ns, hcode, hys, hns, rfl⟩ := render_choice_ok hr
    cases hvalue with
    -- only the branch that was taken has a value
    | @choice _ _ _ _ _ _ _ _ _ _ b hcode' hx hbool hbranch =>
      obtain rfl := Except.ok.inj (hcode.symm.trans hcode')
      obtain ⟨hx, hbuffers⟩ := hc.evaluate_congr hb hb₀ hcode hx
      rw [ending_cond hx hbool, ← hbuffers]
      cases b with
      | true => exact ihyes hys hbranch hinteger (hbuffers ▸ hK)
      | false => exact ihno hns hbranch hinteger (hbuffers ▸ hK)
  | single hn hguard hchoice =>
    intro hr w w' v hvalue hinteger hK
    obtain ⟨code, t, rfl⟩ := hn.single hguard hchoice
    cases hvalue with
    | basic hv =>
      obtain ⟨hv, hbuffers⟩ := hn.evaluate_congr hb hb₀ rfl hv
      cases t with
      | scalar k =>
        obtain rfl := Except.ok.inj hr
        exact hT (hn.runsAs hb rfl) (Node.quiet_value (Convention.machine_lawful natives) _) hv
          hbuffers hinteger hK
      | _ => cases hr

end FactFold.Lowering

namespace FactFold.Fold

open Machine Lowering
open Machine.Run (Quiet)
open Number (wrap64)

variable {natives : Natives} {w : World} {row : List Value} {id : Nat}

/-! ## Calls on a row -/

/-- The value of a row is `v`: the machine has it for the element on the record of the row. -/
def RowHas (natives : Natives) (fact : String) (e : Element) (row : List Value) (v : Int)
    (w : World) : Prop :=
  ∃ x u, e.HasValue natives [(fact, (w.fact row).1)] (w.fact row).2 x u ∧ x.isInteger = true ∧
    long x = v

theorem RowHas.wrap64_eq {fact : String} {e : Element} {v : Int} (h : RowHas natives fact e row v w) :
    wrap64 v = v := by
  obtain ⟨x, -, -, -, rfl⟩ := h
  exact Number.wrap64_longOrZero _

theorem record_binds {s : Site} (hplain : s.env.factName.toList.all isNameChar = true)
    (row : List Value) (w : World) : s.Binds [(s.env.factName, (w.fact row).1)] row :=
  ⟨hplain, w.heap.number.1, List.lookup_cons_self⟩

/-- A row's routine ends as its body does. -/
theorem rowRun_ending {r : Routine} {fact : String}
    (hparams : r.params.map Param.name = [fact, BufferRef.aggregation.name])
    {result : Except Fault Unit} {buffers : List Memory}
    (h : ending natives (rowEnv fact row id w) r.body (w.fact row).2 = (result, buffers)) :
    ∃ w', ignored (run natives r [(w.fact row).1, .buffer id] (w.fact row).2) =
      (result.mapError (.failed r.name), w') ∧ w'.buffers = buffers := by
  rw [rowRun_eq hparams]
  obtain ⟨rfl, rfl⟩ := Prod.mk.inj h
  exact ⟨_, rfl, rfl⟩

theorem intAt_of_long {m : Memory} {i : Nat} {y : Int} (h : m.valueAt i = .long y) :
    m.intAt i = wrap64 y := by
  rw [Memory.intAt, h]
  rfl

/-- The field of a product that has taken in a value. -/
theorem valueAt_change_product {m : Memory} (h : 0 < m.fields.length) (v : Int) :
    (Combining.product.change v m).valueAt 0 =
      .long (if (m.valueAt 0).isNull then v else wrap64 (m.intAt 0 * v)) := by
  unfold Combining.change
  split
  · exact valueAt_setAt_self h _
  · exact valueAt_setAt_self h _

theorem change_product_shape (v : Int) (m : Memory) :
    (Combining.product.change v m).layout = m.layout ∧
      (Combining.product.change v m).fields.length = m.fields.length := by
  unfold Combining.change
  split
  · exact ⟨rfl, setAt_fields_length ..⟩
  · exact ⟨rfl, setAt_fields_length ..⟩

section Calls

variable {s : Site} {node : Node} {e : Element} (he : Lowers s node e)
  (hplain : s.env.factName.toList.all isNameChar = true)
  (hdistinct : s.env.factName ≠ BufferRef.aggregation.name) {n : Numeric}
  (hn : n.isIntegral = true) (htype : e.type = .scalar n) {kind : String} {config : CodegenConfig}
  (hfact : config.factParameter = s.env.factName) {columns : List String} {acc : Accumulator}
  {a : Artifact} (hart : Kind.multiply.artifact kind config columns e acc = .ok a)
  (hlayout : (w.buffer id).layout = [.scalar n]) {v : Int}
  (hvalue : RowHas natives s.env.factName e row v w)

include he hplain hdistinct hn htype hfact hart hlayout hvalue

/-- Taking a row in multiplies by its value. -/
theorem contribute_product : ∃ w', contribute natives a row id w = (.ok (), w') ∧
    w'.buffers = w.buffers.set id (Combining.product.change v (bufferAt w.buffers id)) := by
  obtain ⟨x, u, hx, hinteger, rfl⟩ := hvalue
  have hmade := artifact_ok hart
  have hbody := hmade.contribute
  have hparams := hmade.contribute_params
  rw [hfact] at hparams
  have hrender : e.render (some fun value => Kind.declareValue (.scalar n) value ::
      Combining.product.foldInto Kind.agg (.scalar n) Kind.valueVar) none =
        .ok a.contribute.body := by
    simp only [Kind.multiply, Kind.onScalar, htype, DataType.isNumeric, if_true] at hbody
    exact hbody
  exact rowRun_ending hparams (render_ending (rowEnv_binds hplain hdistinct row id w)
    (record_binds hplain row w)
    (K := fun buffers => (bufferAt buffers id).layout = [.scalar n])
    (G := fun v buffers => (.ok (),
      buffers.set id (Combining.product.change v (bufferAt buffers id))))
    (fun code t x w' u v _ _ hv hbuffers hinteger hK =>
      ending_multiply (rowEnv_holds _ row id w) hn hK hv hinteger hbuffers)
    he hrender hx hinteger hlayout)

/-- Taking a row out divides by its value, or fails where that is zero. -/
theorem decontribute_product : ∃ w', decontribute natives a row id w =
      (if v = 0 then .error (.failed "decontribute" .divisionByZero) else .ok (), w') ∧
    w'.buffers = if v = 0 then w.buffers else w.buffers.set id ((bufferAt w.buffers id).setAt 0
      (.long (wrap64 (((bufferAt w.buffers id).intAt 0).tdiv v)))) := by
  obtain ⟨x, u, hx, hinteger, rfl⟩ := hvalue
  have hmade := artifact_ok hart
  have hbody := hmade.decontribute
  have hparams := hmade.decontribute_params
  have hname := hmade.decontribute_name
  simp only [Kind.multiply, Kind.onScalar, htype, DataType.isNumeric, if_true] at hbody
  cases hr : a.decontribute with
  | none =>
    rw [hr] at hbody
    -- a product always has the routine
    cases isSome_of_rendered hbody
  | some r =>
    rw [hr] at hbody hparams hname
    have hrender := some_ok hbody
    have hparams := hparams r rfl
    rw [hfact] at hparams
    have hending := render_ending (rowEnv_binds hplain hdistinct row id w) (record_binds hplain row w)
      (K := fun buffers => (bufferAt buffers id).layout = [.scalar n])
      (G := fun v buffers => if v = 0 then (.error .divisionByZero, buffers)
        else (.ok (), buffers.set id ((bufferAt buffers id).setAt 0
          (.long (wrap64 (((bufferAt buffers id).intAt 0).tdiv v))))))
      (fun code t x w' u v hcode hquiet hv _ hinteger hK =>
        ending_divide (rowEnv_holds _ row id w) hn hK hcode hquiet hv hinteger)
      he hrender hx hinteger hlayout
    unfold decontribute
    rw [hr]
    rw [← hname r rfl]
    by_cases hzero : long x = 0
    · simp only [hzero, if_true] at hending ⊢
      exact rowRun_ending hparams hending
    · simp only [hzero, if_false] at hending ⊢
      exact rowRun_ending hparams hending

/-- The field of a product after a row has been taken in and out again. -/
theorem product_pair (hfields : 0 < (w.buffer id).fields.length)
    (hafter : RowHas natives s.env.factName e row v (contribute natives a row id w).2) :
    ∃ w₁ w₂, contribute natives a row id w = (.ok (), w₁) ∧ decontribute natives a row id w₁ =
        (if v = 0 then .error (.failed "decontribute" .divisionByZero) else .ok (), w₂) ∧
      (w₂.buffer id).valueAt 0 = .long (if v = 0 then 0
        else if ((w.buffer id).valueAt 0).isNull then 1
        else wrap64 ((wrap64 ((w.buffer id).intAt 0 * v)).tdiv v)) := by
  obtain ⟨w₁, hin, hbuffers₁⟩ := contribute_product he hplain hdistinct hn htype hfact hart hlayout hvalue
  have hid : id < w.buffers.length := lt_of_layout (layout_pos hlayout)
  -- the buffer after the row has been taken in
  have hmem : w₁.buffer id = Combining.product.change v (w.buffer id) := by
    rw [buffer_eq, hbuffers₁, bufferAt_set_self hid]
    rfl
  obtain ⟨hlayout₁, hfields₁⟩ := change_product_shape v (w.buffer id)
  rw [← hmem] at hlayout₁ hfields₁
  have hfirst := valueAt_change_product hfields v
  rw [← hmem] at hfirst
  rw [hin] at hafter
  obtain ⟨w₂, hback, hbuffers₂⟩ := decontribute_product he hplain hdistinct hn htype hfact hart
    (hlayout₁.trans hlayout) hafter
  refine ⟨w₁, w₂, hin, hback, ?_⟩
  by_cases hzero : v = 0
  · -- the division fails, and the field keeps the product, which is zero
    rw [if_pos hzero] at hbuffers₂ ⊢
    rw [buffer_eq, hbuffers₂, ← buffer_eq, hfirst, hzero, Int.mul_zero, Number.wrap64_zero, ite_self]
  · rw [if_neg hzero] at hbuffers₂ ⊢
    have hid₁ : id < w₁.buffers.length := by rwa [hbuffers₁, List.length_set]
    rw [buffer_eq, hbuffers₂, bufferAt_set_self hid₁, ← buffer_eq,
      valueAt_setAt_self (hfields₁ ▸ hfields), intAt_of_long hfirst]
    split
    · -- the field was unset and has the value itself
      rw [hvalue.wrap64_eq, Int.tdiv_self hzero]
      rfl
    · rw [Number.wrap64_wrap64]

end Calls

/-! ## A row in and out again -/

/-- **When a product can give a row back.** Let the value of a row be `v`, both when the row is taken
in and when it is taken out. A product `p` is restored exactly if `v` is not zero and `p * v` has 64
bits; and there is the one product that does not have them, of the lowest integer and minus one,
which is its own quotient. A zero is left behind where `v` is zero, and a one in a field that was
not set. -/
theorem product_undone {env : DistillEnv} {n : Node} {kind : String}
    (hkind : env.kinds.get kind = .ok Kind.multiply) {e : Element} {ws ws' us : Workspace}
    (hlower : (n.lower ⟨env.schema, env.functions, env.config.filled.factParameter⟩).runIn
      { ws with accumulator := {} } = (.ok e, us))
    {a : Artifact} (ha : (n.distill env kind).runIn ws = (.ok a, ws'))
    (hout : a.output = .int ∨ a.output = .scalar .long)
    (hplain : env.config.filled.factParameter.toList.all isNameChar = true)
    (hdistinct : env.config.filled.factParameter ≠ BufferRef.aggregation.name)
    (hlayout : (w.buffer id).layout = a.layout)
    (hfields : (w.buffer id).fields.length = a.layout.length) {v : Int}
    (hvalue : ∀ u, u = w ∨ u = (contribute natives a row id w).2 →
      RowHas natives env.config.filled.factParameter e row v u) :
    ∃ w₁ r w₂, contribute natives a row id w = (.ok (), w₁) ∧
      decontribute natives a row id w₁ = (r, w₂) ∧
      (∀ p, (w.buffer id).valueAt 0 = .long p → -(2 ^ 63) ≤ p ∧ p < 2 ^ 63 →
        ((r = .ok () ∧ (w₂.buffer id).valueAt 0 = .long p) ↔
          v ≠ 0 ∧ ((-(2 ^ 63) ≤ p * v ∧ p * v < 2 ^ 63) ∨ p = -(2 ^ 63) ∧ v = -1))) ∧
      (v = 0 → (∃ f, r = .error (.failed "decontribute" f) ∧ f.message = "/ by zero") ∧
        (w₂.buffer id).valueAt 0 = .long 0) ∧
      ((w.buffer id).valueAt 0 = .null → v ≠ 0 → r = .ok () ∧ (w₂.buffer id).valueAt 0 = .long 1) := by
  obtain ⟨v', e', hkind', hlower', hart⟩ := distill_lowered ha
  obtain rfl : Kind.multiply = v' := Except.ok.inj (hkind.symm.trans hkind')
  obtain ⟨he, rfl⟩ := Prod.mk.inj (hlower.symm.trans hlower')
  obtain rfl : e = e' := Except.ok.inj he
  have he : Lowers (distillSite env n us.cache) n e := (node_lowers hlower).2 _ (.refl _)
  have hname := distillSite_factName env n us.cache
  rw [← hname] at hplain hdistinct hvalue
  rw [(artifact_ok hart).output] at hout
  obtain ⟨m, hm, hint⟩ := exists_integral hout
  have hone : a.layout = [.scalar m] := by
    have h := (artifact_ok hart).layout
    rw [hm] at h
    exact (Except.ok.inj h).symm
  obtain ⟨w₁, w₂, hin, hback, hlast⟩ := product_pair he hplain hdistinct hint hm hname.symm hart
    (hlayout.trans hone) (hvalue w (.inl rfl)) (by rw [hfields, hone]; exact Nat.one_pos)
    (hvalue _ (.inr rfl))
  refine ⟨w₁, _, w₂, hin, hback, ?_, ?_, ?_⟩
  · intro p hp hrange
    -- the value of a row is an integer of the machine
    have hwrap : -(2 ^ 63) ≤ v ∧ v < 2 ^ 63 := by
      rw [← (hvalue w (.inl rfl)).wrap64_eq]
      exact Number.wrap64_range _
    by_cases hzero : v = 0
    · simp [hzero]
    · have hintAt : (w.buffer id).intAt 0 = p := by
        rw [intAt_of_long hp]
        exact Number.wrap64_of_range hrange.1 hrange.2
      rw [if_neg hzero, hp, hintAt, if_neg (by simp [Value.isNull])] at hlast
      rw [if_neg hzero, hlast, ← Number.wrap64_tdiv_wrap64_mul hrange hwrap hzero]
      simp [hzero]
  · intro hzero
    rw [if_pos hzero] at hlast ⊢
    exact ⟨⟨_, rfl, rfl⟩, hlast⟩
  · intro hnull hzero
    rw [if_neg hzero, hnull] at hlast
    rw [if_neg hzero]
    exact ⟨rfl, hlast⟩

/-- The lowest integer is taken times minus one, which has no 64 bits, and is restored. -/
theorem product_undone_lowest :
    let env : DistillEnv := { schema := [("a", .int)] }
    let n : Node := .guarded .lt (.column ⟨"a", ""⟩) (.constant (.int 0)) (.column ⟨"a", ""⟩)
    let w : World := { buffers := [⟨[.int], [.long (-(2 ^ 63))]⟩] }
    ∃ a ws w₁ w₂, (n.distill env "multiply").runIn {} = (.ok a, ws) ∧
      contribute [] a [.long (-1)] 0 w = (.ok (), w₁) ∧
      decontribute [] a [.long (-1)] 0 w₁ = (.ok (), w₂) ∧
      (w₂.buffer 0).valueAt 0 = .long (-(2 ^ 63)) := by
  intro env n w
  let field : Term := readColumn (.ident "fact") 0 .int
  let e : Element := .guarded (.basic (.binary "<" field (constantTerm (.int 0))) .boolean)
    (.basic field .int)
  have hlower : (n.lower ⟨env.schema, env.functions, env.config.filled.factParameter⟩).runIn {} =
      (.ok e, {}) := rfl
  obtain ⟨a, ws, ha, hout, hlayout, hvalue⟩ : ∃ a ws,
      (n.distill env "multiply").runIn {} = (.ok a, ws) ∧ a.output = .int ∧ a.layout = [.int] ∧
      ∀ u, u = w ∨ u = (contribute [] a [.long (-1)] 0 w).2 →
        RowHas [] env.config.filled.factParameter e [.long (-1)] (-1) u := by
    refine ⟨_, _, rfl, rfl, rfl, ?_⟩
    rintro u (rfl | rfl)
    all_goals
      refine ⟨.long (-1), _, .guarded (x := .bool true) rfl (Prod.ext ?_ rfl) rfl
        (.basic (Prod.ext ?_ rfl)), rfl, rfl⟩
      · rfl
      · rfl
  obtain ⟨w₁, r, w₂, hin, hback, hset, -⟩ := product_undone (show env.kinds.get "multiply" = _ from rfl)
    hlower ha (.inl hout) (by decide) (by decide) (by rw [hlayout]; rfl) (by rw [hlayout]; rfl) hvalue
  obtain ⟨rfl, hfield⟩ := (hset (-(2 ^ 63)) rfl (by decide)).2 (by decide)
  exact ⟨a, ws, w₁, w₂, ha, hin, hback, hfield⟩

/-- Where the fact record is called what the buffer is called, the buffer hides it: three times five
is fifteen, but one is left when five is taken out. -/
theorem product_of_hidden_record :
    let env : DistillEnv :=
      { schema := [("a", .int)], config := { factParameter := "aggregationBuffer" } }
    let n : Node := .column ⟨"a", ""⟩
    let w : World := { buffers := [⟨[.int], [.long 3]⟩] }
    ∃ e a ws w₁ w₂,
      (n.lower ⟨env.schema, env.functions, env.config.filled.factParameter⟩).runIn {} = (.ok e, ws) ∧
      (n.distill env "multiply").runIn {} = (.ok a, ws) ∧
      (∀ u, u = w ∨ u = w₁ → RowHas [] env.config.filled.factParameter e [.long 5] 5 u) ∧
      contribute [] a [.long 5] 0 w = (.ok (), w₁) ∧
      decontribute [] a [.long 5] 0 w₁ = (.ok (), w₂) ∧
      (w₂.buffer 0).intAt 0 = 1 := by
  intro env n w
  refine ⟨.basic (readColumn (.ident "aggregationBuffer") 0 .int) .int, _, _, _, _, rfl, rfl, ?_,
    Prod.ext (ok_of_isOk ?_) rfl, Prod.ext (ok_of_isOk ?_) rfl, ?_⟩
  · rintro u (rfl | rfl)
    all_goals
      refine ⟨.long 5, _, .basic (Prod.ext ?_ rfl), rfl, rfl⟩
      rfl
  all_goals decide +kernel

end FactFold.Fold
