import FactFold.Proofs.Lowering.Acceptance
import FactFold.Proofs.Lowering.Sparing
import FactFold.Proofs.Machine.Oblivious

/-!
# Terms around a choice

A term that holds a choice can be evaluated in one go, or the condition can be evaluated first and
then the term with the branch that it tells in the place of the choice. The second way comes to the
same where the first succeeds (`evaluate_split`), if the term around the choice computes nothing
before the choice that could notice the difference: then the condition is the first to compute, in
either way.

`Context` describes such surroundings of a choice: they pass the check with a branch when they pass
it with the choice, and they run as a step that may begin with the condition (`Run.Splits`). There
is one rule for each of the surroundings that templates put around a value.
-/

namespace FactFold.Machine

variable {natives : Natives} {env : Env}

/-! ## Parts of checked terms -/

/-- A term that was evaluated has passed the check. -/
theorem RunsAs.passes {code : Term} {t : Static} {x : Run Value} {w w' : World} {v : Value}
    (h : RunsAs natives env code t x) (hrun : (evaluate natives env code).runIn w = (.ok v, w')) :
    Passes code t := by
  unfold evaluate at hrun
  obtain ⟨s, u, hs, hrun⟩ := Run.runIn_bind_ok_iff.1 hrun
  simp only [Run.runIn_lift, Prod.mk.injEq] at hs
  obtain ⟨hs, rfl⟩ := hs
  obtain ⟨f, hf, run⟩ := h s hs
  by_cases hacc : f.isAccepted = true
  · have hstatic : f.static?.isSome = true := (Bool.and_eq_true_iff.1 hacc).1
    exact ⟨s, f, hs, hf, (run hstatic).known⟩
  · simp [program?, hf, hacc] at hrun

/-- The check finds what is known about the term. -/
theorem RunsAs.known_eq {code : Term} {s t : Static} {x : Run Value}
    (h : RunsAs natives env code t x) (hp : Passes code s) : s = t := by
  obtain ⟨text, f, htext, hf, hs⟩ := hp
  obtain ⟨g, hg, run⟩ := h text htext
  obtain rfl : f = g := Option.some.inj (hf.symm.trans hg)
  exact Option.some.inj (hs.symm.trans (run (by rw [hs]; rfl)).known)

/-- A term that passes is evaluated by the step it runs as, also from a world that is alike. -/
theorem RunsAs.evaluate_alike {code : Term} {s t : Static} {x : Run Value} {w u w' : World}
    {v : Value} (h : RunsAs natives env code t x) (hp : Passes code s) (halike : w.Alike u)
    (hx : x.runIn w = (.ok v, w')) :
    ∃ u', (evaluate natives env code).runIn u = (.ok v, u') ∧ w'.Alike u' := by
  obtain ⟨text, f, htext, hf, hs⟩ := hp
  have hstatic : f.static?.isSome = true := by rw [hs]; rfl
  have hoblivious : x.Oblivious := by
    obtain ⟨g, hg, run⟩ := h text htext
    obtain rfl : f = g := Option.some.inj (hf.symm.trans hg)
    rw [← (run hstatic).value]
    exact eval_oblivious natives env _
  rw [evaluate_eq h htext hf hstatic]
  exact hoblivious.run_ok (halike.trans (World.Alike.remember u text).symm) hx

namespace Passes

theorem cond_parts {c a b : Term} {u : Static} (h : Passes (.cond c a b) u) :
    (∃ r, Passes c r) ∧ (∃ s, Passes a s) ∧ ∃ t, Passes b t := by
  obtain ⟨text, f, htext, hf, hu⟩ := h
  rw [source] at htext
  obtain ⟨k, hk, htext⟩ := bind_ok htext
  obtain ⟨l, hl, htext⟩ := bind_ok htext
  obtain ⟨m, hm, -⟩ := bind_ok htext
  rw [Formula.ofTerm?] at hf
  obtain ⟨fc, hfc, hf⟩ := Option.bind_eq_some_iff.1 hf
  obtain ⟨fa, hfa, hf⟩ := Option.bind_eq_some_iff.1 hf
  obtain ⟨fb, hfb, hf⟩ := Option.bind_eq_some_iff.1 hf
  obtain rfl := Option.some.inj hf
  rw [Formula.static?] at hu
  obtain ⟨r, hr, hu⟩ := Option.bind_eq_some_iff.1 hu
  obtain ⟨s, hs, hu⟩ := Option.bind_eq_some_iff.1 hu
  obtain ⟨t, ht, -⟩ := Option.bind_eq_some_iff.1 hu
  exact ⟨⟨r, k, fc, hk, hfc, hr⟩, ⟨s, l, fa, hl, hfa, hs⟩, ⟨t, m, fb, hm, hfb, ht⟩⟩

theorem strict_parts {sign : String} {op : BinaryOp} {a b : Term} {u : Static}
    (hsign : BinaryOp.ofText? sign = some op) (hop : op.isStrict = true) (hdiv : sign ≠ "/")
    (hneg : op = .mul → ∀ z, a ≠ .unary "!" z) (h : Passes (.binary sign a b) u) :
    ∃ s t, Passes a s ∧ Passes b t := by
  obtain ⟨text, f, htext, hf, hu⟩ := h
  obtain ⟨l, r, hl, hr⟩ := source_binary_ok htext
  have hf' := hf
  rw [Formula.ofTerm?] at hf
  obtain ⟨fa, hfa, hf⟩ := Option.bind_eq_some_iff.1 hf
  obtain ⟨fb, hfb, -⟩ := Option.bind_eq_some_iff.1 hf
  obtain rfl : f = .binary op fa fb :=
    Option.some.inj (hf'.symm.trans (ofTerm?_binary hsign hdiv hneg hfa hfb))
  rw [static?_strict hop] at hu
  obtain ⟨s, hs, hu⟩ := Option.bind_eq_some_iff.1 hu
  obtain ⟨t, ht, -⟩ := Option.bind_eq_some_iff.1 hu
  exact ⟨s, t, ⟨l, fa, hl, hfa, hs⟩, ⟨r, fb, hr, hfb, ht⟩⟩

end Passes

theorem AllPass.parts {code : Term} {codes : List Term} (h : AllPass (code :: codes)) :
    (∃ t, Passes code t) ∧ AllPass codes := by
  obtain ⟨ss, fs, ts, hss, hfs, hts⟩ := h
  rw [sources] at hss
  obtain ⟨s, hs, hss⟩ := bind_ok hss
  obtain ⟨ss', hss', -⟩ := bind_ok hss
  obtain ⟨f, gs, rfl, hf, hgs⟩ := ofTerms?_cons hfs
  rw [Formula.statics?] at hts
  obtain ⟨t, ht, hts⟩ := Option.bind_eq_some_iff.1 hts
  obtain ⟨ts', hts', -⟩ := Option.bind_eq_some_iff.1 hts
  exact ⟨⟨t, s, f, hs, hf, ht⟩, ⟨ss', gs, ts', hss', hgs, hts'⟩⟩

namespace Passes

theorem invoke_args {receiver : Term} {method : String} {args : List Term} {t : Static}
    (h : Passes (.invoke receiver method args) t) : AllPass args := by
  obtain ⟨text, f, htext, hf, ht⟩ := h
  rw [source] at htext
  obtain ⟨r, -, htext⟩ := bind_ok htext
  obtain ⟨ss, hss, -⟩ := bind_ok htext
  rw [Formula.ofTerm?] at hf
  obtain ⟨g, -, hf⟩ := Option.bind_eq_some_iff.1 hf
  obtain ⟨fs, hfs, hf⟩ := Option.bind_eq_some_iff.1 hf
  obtain rfl := Option.some.inj hf
  rw [Formula.static?] at ht
  obtain ⟨ts, hts, -⟩ := Option.bind_eq_some_iff.1 ht
  rw [Formula.statics?] at hts
  obtain ⟨_, -, hts⟩ := Option.bind_eq_some_iff.1 hts
  obtain ⟨us, hus, -⟩ := Option.bind_eq_some_iff.1 hts
  rw [Formula.statics?] at hus
  obtain ⟨_, -, hus⟩ := Option.bind_eq_some_iff.1 hus
  obtain ⟨vs, hvs, -⟩ := Option.bind_eq_some_iff.1 hus
  exact ⟨ss, fs, vs, hss, hfs, hvs⟩

theorem call_args {name : String} {args : List Term} {t : Static}
    (h : Passes (.call name args) t) : AllPass args := by
  obtain ⟨text, f, htext, hf, ht⟩ := h
  rw [source] at htext
  obtain ⟨ss, hss, -⟩ := bind_ok htext
  rw [Formula.ofTerm?] at hf
  obtain ⟨fs, hfs, hf⟩ := Option.bind_eq_some_iff.1 hf
  obtain rfl := Option.some.inj hf
  rw [Formula.static?] at ht
  obtain ⟨ts, hts, -⟩ := Option.bind_eq_some_iff.1 ht
  unfold Formula.withName at hts
  split at hts
  · exact ⟨ss, fs, ts, hss, hfs, hts⟩
  · rw [Formula.statics?] at hts
    obtain ⟨_, -, hts⟩ := Option.bind_eq_some_iff.1 hts
    obtain ⟨us, hus, -⟩ := Option.bind_eq_some_iff.1 hts
    exact ⟨ss, fs, us, hss, hfs, hus⟩

theorem quotient_parts {a b : Term} {u : Static} (h : Passes (.binary "/" a b) u) :
    ∃ s t, Passes a s ∧ Passes b t := by
  obtain ⟨text, f, htext, hf, hu⟩ := h
  obtain ⟨l, r, hl, hr⟩ := source_binary_ok htext
  rw [Formula.ofTerm?] at hf
  obtain ⟨fa, hfa, hf⟩ := Option.bind_eq_some_iff.1 hf
  obtain ⟨fb, hfb, hf⟩ := Option.bind_eq_some_iff.1 hf
  rw [if_pos rfl] at hf
  obtain rfl := Option.some.inj hf
  rw [Formula.static?] at hu
  obtain ⟨ts, hts, -⟩ := Option.bind_eq_some_iff.1 hu
  rw [Formula.statics?] at hts
  obtain ⟨s, hs, hts⟩ := Option.bind_eq_some_iff.1 hts
  obtain ⟨us, hus, -⟩ := Option.bind_eq_some_iff.1 hts
  rw [Formula.statics?] at hus
  obtain ⟨t, ht, -⟩ := Option.bind_eq_some_iff.1 hus
  exact ⟨s, t, ⟨l, fa, hl, hfa, hs⟩, ⟨r, fb, hr, hfb, ht⟩⟩

end Passes

/-! ## Steps that begin with a condition -/

namespace Run

variable {α β : Type} {c : Run Value} {x y z : Run α}

/-- Where the step `x` succeeds, the condition yields a truth value, and from there on the one of
`y` and `z` that it tells comes to the same. -/
def Splits (c : Run Value) (x y z : Run α) : Prop :=
  ∀ ⦃w a w'⦄, x.runIn w = (.ok a, w') →
    ∃ b u, c.runIn w = (.ok (.bool b), u) ∧ (if b then y else z).runIn u = (.ok a, w')

namespace Splits

theorem choice (c y z : Run Value) :
    Splits c (do
      let v ← c
      if ← liftM (asBool v) then y else z) y z := by
  intro w a w' h
  obtain ⟨v, u, hv, h⟩ := runIn_bind_ok_iff.1 h
  obtain ⟨b, u', hb, h⟩ := runIn_bind_ok_iff.1 h
  simp only [runIn_lift, Prod.mk.injEq] at hb
  obtain ⟨hb, rfl⟩ := hb
  have hbool : v = .bool b := by
    unfold asBool at hb
    split at hb
    · rw [Except.ok.inj hb]
    · cases hb
  exact ⟨b, u, hbool ▸ hv, h⟩

/-- What comes after the choice comes after either branch, in a form that may depend on it. -/
theorem bind {k l m : α → Run β} (h : Splits c x y z)
    (hl : ∀ ⦃a w b w'⦄, (k a).runIn w = (.ok b, w') → (l a).runIn w = (.ok b, w'))
    (hm : ∀ ⦃a w b w'⦄, (k a).runIn w = (.ok b, w') → (m a).runIn w = (.ok b, w')) :
    Splits c (x >>= k) (y >>= l) (z >>= m) := by
  intro w b w' hrun
  obtain ⟨a, u, ha, hk⟩ := runIn_bind_ok_iff.1 hrun
  obtain ⟨r, v, hc, hbranch⟩ := h ha
  refine ⟨r, v, hc, ?_⟩
  cases r with
  | true => exact runIn_bind_ok_iff.2 ⟨a, u, hbranch, hl hk⟩
  | false => exact runIn_bind_ok_iff.2 ⟨a, u, hbranch, hm hk⟩

theorem then_ {k : α → Run β} (h : Splits c x y z) : Splits c (x >>= k) (y >>= k) (z >>= k) :=
  h.bind (fun _ _ _ _ hk => hk) fun _ _ _ _ hk => hk

/-- A look at the buffers may come before the condition or after it. -/
theorem after {r : Run β} {k l m : β → Run α}
    (hr : ∀ ⦃w a w'⦄, r.runIn w = (.ok a, w') →
      w' = w ∧ ∀ u, u.buffers = w.buffers → r.runIn u = (.ok a, u))
    (hc : ∀ ⦃w v u⦄, c.runIn w = (.ok v, u) → u.buffers = w.buffers)
    (h : ∀ a, Splits c (k a) (l a) (m a)) : Splits c (r >>= k) (r >>= l) (r >>= m) := by
  intro w b w' hrun
  obtain ⟨a, u, ha, hk⟩ := runIn_bind_ok_iff.1 hrun
  obtain ⟨rfl, hlook⟩ := hr ha
  obtain ⟨t, v, hcond, hbranch⟩ := h a hk
  have hagain := hlook v (hc hcond)
  refine ⟨t, v, hcond, ?_⟩
  cases t with
  | true => exact runIn_bind_ok_iff.2 ⟨a, v, hagain, hbranch⟩
  | false => exact runIn_bind_ok_iff.2 ⟨a, v, hagain, hbranch⟩

end Splits

end Run

open Run (Splits)

/-! ## Surroundings of a choice -/

/-- Surroundings of a term. Whatever is in their place, as long as what is known about it satisfies
`F`, the whole passes the check, with `G` known about it; and the whole runs as a step that may
begin with the condition of a choice in their place. -/
structure Context (natives : Natives) (env : Env) (F G : Static → Prop) (K : Term → Term) :
    Prop where
  part : ∀ ⦃code t⦄, Passes (K code) t → ∃ s, Passes code s
  whole : ∀ ⦃code other t s⦄, Passes (K code) t → Passes other s → F s →
    ∃ u, Passes (K other) u ∧ G u
  runs : ∃ (known : Static → Static) (k : Static → Run Value → Run Value),
    (∀ ⦃code s x⦄, RunsAs natives env code s x → RunsAs natives env (K code) (known s) (k s x)) ∧
    ∀ ⦃c x y z⦄, (∀ ⦃w v u⦄, c.runIn w = (.ok v, u) → u.buffers = w.buffers) → Splits c x y z →
      ∀ r s t, Splits c (k r x) (k s y) (k t z)

namespace Context

variable {F G H : Static → Prop} {K L : Term → Term}

theorem self : Context natives env F F fun code => code :=
  ⟨fun _ t h => ⟨t, h⟩, fun _ _ _ s _ h hs => ⟨s, h, hs⟩,
    id, fun _ x => x, fun _ _ _ h => h, fun _ _ _ _ _ h _ _ _ => h⟩

theorem comp (hL : Context natives env G H L) (hK : Context natives env F G K) :
    Context natives env F H fun code => L (K code) := by
  obtain ⟨known, k, hk, hks⟩ := hK.runs
  obtain ⟨known', l, hl, hls⟩ := hL.runs
  refine ⟨fun code t h => ?_, fun code other t s h hother hs => ?_, known' ∘ known,
    fun s x => l (known s) (k s x), fun code s x h => hl (hk h), fun c x y z hc h r s t => ?_⟩
  · obtain ⟨s, hs⟩ := hL.part h
    exact hK.part hs
  · obtain ⟨r, hr⟩ := hL.part h
    obtain ⟨u, hu, hGu⟩ := hK.whole hr hother hs
    exact hL.whole h hu hGu
  · exact hls hc (hks hc h r s t) _ _ _

end Context

/-- What is known about numbers. -/
def Static.IsNumeric (s : Static) : Prop := s.fits (.scalar .int) = true

/-- A product that succeeds does not depend on whether buffers are opened for it: no buffer is a
factor. -/
theorem operate_mul_known {r s t : Static} {w : World} {a b v : Value}
    (h : operate .mul r s w a b = .ok v) : operate .mul r t w a b = .ok v := by
  have hop : ∀ t, operate .mul r t w a b = binary w .mul (r.operand a) (t.operand b) := fun _ => rfl
  have hopen : b.opened = b := by
    cases b with
    | buffer id =>
      have hno : ∀ a c : Value, c = .buffer id ∨ c = .content id → product? a c = none := by
        rintro a c (rfl | rfl) <;> cases a <;> first | rfl | (rename_i x; cases x <;> rfl)
      have hfails : ∀ c : Value, c = .buffer id ∨ c = .content id →
          binary w .mul (r.operand a) c = .error .misfit := by
        intro c hc
        simp [binary, hno _ c hc]
      have hoperand : s.operand (.buffer id) = .buffer id ∨
          s.operand (.buffer id) = .content id := by
        unfold Static.operand
        split
        · exact .inr rfl
        · exact .inl rfl
      rw [hop, hfails _ hoperand] at h
      cases h
    | _ => rfl
  have hsame : ∀ t : Static, t.operand b = b := by
    intro t
    unfold Static.operand
    rw [hopen, ite_self]
  rw [hop, hsame] at h ⊢
  exact h

namespace Context

variable {F : Static → Prop}

/-- A factor before the place of a number. -/
theorem product (n : Int) :
    Context natives env Static.IsNumeric Static.IsNumeric fun code =>
      .binary "*" (.int n) code := by
  have hneg : ∀ z, Term.int n ≠ .unary "!" z := fun z h => by cases h
  have hint : RunsAs natives env (.int n) .int
      (pure (.scalar (.int .int (Number.wrap64 n)))) := .int n
  refine ⟨fun code t h => ?_, fun code other t s h hother hs => ?_,
    fun s => (Static.binary? .mul .int s).getD .any,
    fun s x => operation .mul .int s (pure (.scalar (.int .int (Number.wrap64 n)))) x,
    fun code s x h => ?_, fun c x y z _ h r s t => ?_⟩
  · obtain ⟨-, s, -, hs⟩ := h.strict_parts rfl rfl (by decide) fun _ => hneg
    exact ⟨s, hs⟩
  · obtain ⟨r, -, hr, -⟩ := h.strict_parts rfl rfl (by decide) fun _ => hneg
    obtain rfl := hint.known_eq hr
    have hfactor : Static.int.fits (.scalar .int) = true := rfl
    obtain ⟨u, hu, hfits⟩ := Static.binary_numbers (m := .int) (k := .int)
      (show Arithmetic.mul ≠ .div by decide) hfactor hs
    exact ⟨u, .strict rfl rfl (by decide) (fun _ => hneg) hu hr hother, hfits⟩
  · exact .strict rfl rfl (by decide) (fun _ => hneg) (fun u hu => by simp [hu]) hint h
  · have hfactor : ∀ ⦃p q b w v w'⦄,
        (do liftM (operate .mul .int p (← get) (.scalar (.int .int (Number.wrap64 n))) b) :
          Run Value).runIn w = (.ok v, w') →
        (do liftM (operate .mul .int q (← get) (.scalar (.int .int (Number.wrap64 n))) b) :
          Run Value).runIn w = (.ok v, w') := by
      intro p q b w v w' hrun
      simp only [Run.runIn_bind, Run.runIn_get, Run.runIn_lift, Prod.mk.injEq] at hrun ⊢
      exact ⟨operate_mul_known hrun.1, hrun.2⟩
    simp only [operation, pure_bind]
    exact h.bind (fun a w b w' hk => hfactor hk) fun a w b w' hk => hfactor hk

/-- The last argument of a static call, behind a literal. -/
theorem call (name type : String) (d : Datum) :
    Context natives env F Static.IsNumeric fun code => .call name [.lit type d, code] := by
  obtain ⟨t₀, v₀, hlit⟩ : ∃ t v, RunsAs natives env (.lit type d) t (pure v) :=
    literal_runsAs type d
  refine ⟨fun code t h => ?_, fun code other t s h hother _ => ?_, fun _ => .any, fun s x => _,
    fun code s x h => .call name (hlit.cons (.single h)), fun c x y z _ h r s t => ?_⟩
  · exact h.call_args.parts.2.parts.1
  · obtain ⟨u, hu⟩ := h.call_args.parts.1
    exact ⟨.any, .call name (hu.cons (.single hother)), rfl⟩
  · simp only [pure_bind, bind_assoc]
    exact h.then_

/-- The argument of a method behind the number of a field. -/
theorem method {b : BufferRef} (hplain : b.name.toList.all isNameChar = true) (name : String)
    (i : Int) : Context natives env F (fun _ => True) fun code => b.method name i [code] := by
  refine ⟨fun code t h => ?_, fun code other t s h hother _ => ?_, fun _ => .any, fun s x => _,
    fun code s x h => .invoke name (.ident hplain) ((RunsAs.int i).cons (.single h)),
    fun c x y z _ h r s t => ?_⟩
  · exact h.invoke_args.parts.2.parts.1
  · obtain ⟨u, hu⟩ := h.invoke_args.parts.1
    exact ⟨.any, .invoke name (.ident hplain) (hu.cons (.single hother)), trivial⟩
  · simp only [pure_bind, bind_assoc]
    exact h.then_

/-- The divisor of something that only looks at buffers. -/
theorem divisor {a : Term} {t₀ : Static} {x₀ : Run Value} (ha : RunsAs natives env a t₀ x₀)
    (hlook : ∀ ⦃w v w'⦄, x₀.runIn w = (.ok v, w') →
      w' = w ∧ ∀ u, u.buffers = w.buffers → x₀.runIn u = (.ok v, u)) :
    Context natives env F (fun _ => True) fun code => .binary "/" a code := by
  refine ⟨fun code t h => ?_, fun code other t s h hother _ => ?_, fun _ => .any, fun s x => _,
    fun code s x h => .quotient ha h, fun c x y z hc h r s t => ?_⟩
  · obtain ⟨-, s, -, hs⟩ := h.quotient_parts
    exact ⟨s, hs⟩
  · obtain ⟨r, -, hr, -⟩ := h.quotient_parts
    exact ⟨.any, .quotient hr hother, trivial⟩
  · exact .after hlook hc fun v => h.then_

/-- **A term around a choice can be evaluated after the condition.** -/
theorem evaluate_split {G : Static → Prop} {K : Term → Term} (hK : Context natives env F G K)
    {c y n : Term} (hc : Sparing natives env c) (hy : Sparing natives env y)
    (hn : Sparing natives env n) (hFy : ∀ s, Passes y s → F s) (hFn : ∀ s, Passes n s → F s)
    {w w' : World} {v : Value}
    (h : (evaluate natives env (K (.cond c y n))).runIn w = (.ok v, w')) :
    ∃ b u, (evaluate natives env c).runIn w = (.ok (.bool b), u) ∧
      ∃ u', (evaluate natives env (K (if b then y else n))).runIn u = (.ok v, u') ∧
        w'.Alike u' := by
  obtain ⟨r, xc, hc, sc⟩ := hc
  obtain ⟨s, xy, hy, -⟩ := hy
  obtain ⟨t, xn, hn, -⟩ := hn
  obtain ⟨known, k, hk, hsplits⟩ := hK.runs
  have hwhole := hk (hc.cond hy hn)
  -- the check of the whole covers the condition and both branches
  have hpass := hwhole.passes h
  obtain ⟨_, hp⟩ := hK.part hpass
  obtain ⟨⟨_, hpc⟩, ⟨_, hpy⟩, ⟨_, hpn⟩⟩ := hp.cond_parts
  -- the run of the whole begins with the condition
  obtain ⟨text, hrun⟩ := evaluate_ok hwhole h
  have hkeeps : ∀ ⦃w v u⦄, xc.runIn w = (.ok v, u) → u.buffers = w.buffers := by
    intro w v u hrun
    have := (sc w w (.refl w)).buffers
    rwa [hrun] at this
  obtain ⟨b, u, hcond, hbranch⟩ := hsplits hkeeps (.choice xc xy xn) _ s t hrun
  obtain ⟨u₁, hevalc, hu₁⟩ := hc.evaluate_alike hpc (World.Alike.remember w text) hcond
  refine ⟨b, u₁, hevalc, ?_⟩
  cases b with
  | true =>
    obtain ⟨_, hpass, -⟩ := hK.whole hpass hpy (hFy _ hpy)
    exact (hk hy).evaluate_alike hpass hu₁ hbranch
  | false =>
    obtain ⟨_, hpass, -⟩ := hK.whole hpass hpn (hFn _ hpn)
    exact (hk hn).evaluate_alike hpass hu₁ hbranch

end Context

end FactFold.Machine
