import FactFold.Proofs.Kind.Atomicity
import FactFold.Proofs.Lowering.Choices

/-!
# Choices as statements and as values

A choice can be aggregated in two ways. Its code is the code of a value, which a template consumes
like any other; or the template is put into each branch, and the choice becomes a conditional block.
The routines of the built-in kinds take the second way. Where the first succeeds, so does the
second, and both leave the same buffers (`statements_follow_value`).

A template computes nothing of its own before the value it consumes, apart from a look at the
buffer; hence the condition, which changes no buffer, may be evaluated before the template begins
(`Distributes`). A rendered element is then followed branch by branch (`render_follows`).

As everywhere the record has to have a name: with anything else in its place the code of a branch
may bind to the template around it in another way than the code of the choice does
(`negated_in_part`).
-/

namespace FactFold.Lowering

open Machine
open Machine.Run (Oblivious)
open Kind (agg declareValue)

variable {natives : Natives} {env : Env}

/-! ## Statements around a choice -/

/-- A run of the template's statements on a choice may begin with the condition and go on with the
template's statements on the branch it tells, provided that what is known of the branches is in
`F`. -/
def Distributes (natives : Natives) (env : Env) (F : Static → Prop) (template : Template) : Prop :=
  ∀ ⦃c y n : Term⦄, Sparing natives env c → Sparing natives env y → Sparing natives env n →
    (∀ s, Passes y s → F s) → (∀ s, Passes n s → F s) → ∀ ⦃w w' : World⦄ ⦃f : Flow⦄,
      (exec natives env (template (.cond c y n))).runIn w = (.ok f, w') →
        ∃ b u u', (evaluate natives env c).runIn w = (.ok (.bool b), u) ∧
          (exec natives env (template (if b then y else n))).runIn u = (.ok f, u') ∧ w'.Alike u'

/-- Statements that first evaluate a term around the value distribute over a choice. -/
theorem Distributes.of_context {F G : Static → Prop} {K : Term → Term} {template : Template}
    {k : Value → Run Flow} (hK : Context natives env F G K)
    (htemplate : ∀ v, exec natives env (template v) = evaluate natives env (K v) >>= k)
    (hk : ∀ v, Oblivious (k v)) : Distributes natives env F template := by
  intro c y n hc hy hn hFy hFn w w' f hrun
  rw [htemplate] at hrun
  -- the template first evaluates its context, which splits into the condition and a branch
  obtain ⟨v, w₁, hv, hrest⟩ := Run.runIn_bind_ok_iff.1 hrun
  obtain ⟨b, u, hcond, u₁, hbranch, halike⟩ := hK.evaluate_split hc hy hn hFy hFn hv
  obtain ⟨u', hu', halike'⟩ := (hk v).run_ok halike hrest
  refine ⟨b, u, u', hcond, ?_, halike'⟩
  rw [htemplate]
  exact Run.runIn_bind_ok_iff.2 ⟨v, u₁, hbranch, hu'⟩

theorem Distributes.run {F G : Static → Prop} {K : Term → Term} (hK : Context natives env F G K)
    (rest : List Stmt) : Distributes natives env F fun v => .run (K v) :: rest := by
  refine .of_context (k := fun _ => exec natives env rest) hK (fun v => ?_) fun _ =>
    exec_oblivious natives env rest
  rw [exec, execStmt]
  simp only [bind_assoc, pure_bind]

theorem Distributes.declare (F : Static → Prop) (t : DataType) (rest : List Stmt) :
    Distributes natives env F fun v => declareValue t v :: rest :=
  .of_context .self (fun v => exec_decl t.sourceName _ v rest) fun v =>
    .bind ((quiet_convert _ v).oblivious.rethrow _) fun _ => exec_oblivious natives _ rest

/-- A block with a condition that is true or false runs the statements it tells. -/
theorem exec_cond {c : Term} {yes no : List Stmt} {b : Bool} {w u u' : World} {f : Flow}
    (hc : (evaluate natives env c).runIn w = (.ok (.bool b), u))
    (hbranch : (exec natives env (if b then yes else no)).runIn u = (.ok f, u')) :
    (exec natives env [.cond c yes no]).runIn w = (.ok f, u') := by
  -- a truth value is its own condition
  rw [exec_single, execStmt]
  refine Run.runIn_bind_ok_iff.2 ⟨.bool b, u, hc, Run.runIn_bind_ok_iff.2 ⟨b, u, rfl, ?_⟩⟩
  cases b with
  | true => exact hbranch
  | false => exact hbranch

/-! ## Rendered elements -/

/-- The template serves the types of a class, one that a choice shares with its branches, and
distributes over choices between values of these types. -/
structure Serves (natives : Natives) (env : Env) (numeric array : Option Template)
    (C : DataType → Prop) (template : Template) : Prop where
  branches : ∀ ⦃t u v⦄, DataType.promote? t u = some v → C v → C t ∧ C u
  chosen : ∀ ⦃t⦄, C t → Element.templateFor numeric array t = some template
  distributes : Distributes natives env (fun s => ∃ t, C t ∧ s.fits t = true) template

theorem Serves.numbers {template : Template} {array : Option Template}
    (h : Distributes natives env Static.IsNumeric template) :
    Serves natives env (some template) array (·.isNumeric = true) template := by
  refine ⟨fun t u v hv hC => ?_, fun t hC => ?_, fun c y n hc hy hn hFy hFn => ?_⟩
  · obtain ⟨ht, hu⟩ := promote?_isNumeric hv
    exact ⟨ht.trans hC, hu.trans hC⟩
  · cases t with
    | scalar k => rfl
    | _ => cases hC
  · -- what fits a type of numbers is itself numeric
    have hnumeric : ∀ s : Static, (∃ t : DataType, t.isNumeric = true ∧ s.fits t = true) →
        s.IsNumeric := by
      rintro s ⟨t, hC, hs⟩
      cases t with
      | scalar k => exact hs
      | _ => cases hC
    exact h hc hy hn (fun s hs => hnumeric s (hFy s hs)) fun s hs => hnumeric s (hFn s hs)

theorem Serves.vectors {template : Template} {numeric : Option Template}
    (h : ∀ F, Distributes natives env F template) :
    Serves natives env numeric (some template) (·.isArray = true) template := by
  refine ⟨fun t u v hv hC => ?_, fun t hC => ?_, h _⟩
  · obtain ⟨ht, hu⟩ := promote?_isArray hv
    exact ⟨ht.trans hC, hu.trans hC⟩
  · cases t with
    | array k => rfl
    | _ => cases hC

variable {s : Site} (hplain : s.env.factName.toList.all isNameChar = true)

include hplain

/-- What the check finds about the code of an element fits its type. -/
theorem Lowers.fits {n : Node} {e : Element} {code : Term} (h : Lowers s n e)
    (hv : e.value = .ok code) {k : Static} (hk : Passes code k) : k.fits e.type = true := by
  -- the check does not look at variables: let there be a record
  have hbinds : s.Binds [(s.env.factName, .fact 0 [])] [] :=
    ⟨hplain, 0, List.lookup_cons_self ..⟩
  have hruns : RunsAs [] _ code _ _ := h.runsAs hbinds hv
  rw [hruns.known_eq hk, h.type_eq]
  exact Node.known_fits s.typing n

variable {numeric array : Option Template} {C : DataType → Prop} {template : Template}
  (hserves : Serves natives env numeric array C template)

include hserves

/-- **A rendered element follows its code.** Where the template's statements on the code of the
whole succeed, so do the statements of the element, and they do the same. -/
theorem render_follows : ∀ {n : Node} {e : Element} {code : Term}, Lowers s n e → C e.type →
    e.value = .ok code → ∃ body, e.render numeric array = .ok body ∧ ∀ {w w' : World} {f : Flow},
      (exec natives env (template code)).runIn w = (.ok f, w') →
        ∃ u, (exec natives env body).runIn w = (.ok f, u) ∧ w'.Alike u := by
  intro n e code h
  induction h using Lowers.conditions generalizing code with
  | guarded hc hin ih =>
    -- a guarded element is no value
    intro _ hv
    cases hv
  | choice hc hyes hno he ihyes ihno =>
    intro hC hv
    obtain ⟨hshape, -, htypes⟩ := ternary_some_ok he
    obtain ⟨c, y, n, hcode, hy, hn, rfl⟩ := ternary_value_ok he hv
    -- the class has the types of both branches, widened or not
    obtain ⟨hCy, hCn⟩ : C _ ∧ C _ := by
      obtain ⟨hsame, htype⟩ | ⟨-, hpromote⟩ := htypes
      · rw [htype] at hC
        exact ⟨hC, hsame ▸ hC⟩
      · exact hserves.branches hpromote hC
    obtain ⟨ys, hys, hyesRun⟩ := ihyes hCy hy
    obtain ⟨ns, hns, hnoRun⟩ := ihno hCn hn
    refine ⟨[.cond c ys ns], ?_, fun hrun => ?_⟩
    · rw [hshape, Element.render, hcode, hys, hns]
      rfl
    -- the condition first, and then the branch by induction
    obtain ⟨b, u, u', hcond, hbranch, halike⟩ := hserves.distributes (hc.sparing hplain hcode)
      (hyes.sparing hplain hy) (hno.sparing hplain hn)
      (fun k hk => ⟨_, hCy, hyes.fits hplain hy hk⟩)
      (fun k hk => ⟨_, hCn, hno.fits hplain hn hk⟩) hrun
    cases b with
    | true =>
      obtain ⟨v, hv, halike'⟩ := hyesRun hbranch
      exact ⟨v, exec_cond hcond hv, halike.trans halike'⟩
    | false =>
      obtain ⟨v, hv, halike'⟩ := hnoRun hbranch
      exact ⟨v, exec_cond hcond hv, halike.trans halike'⟩
  | single hn hguard hchoice =>
    intro hC hv
    obtain ⟨code, t, rfl⟩ := hn.single hguard hchoice
    obtain rfl := Except.ok.inj hv
    have hchosen : Element.templateFor numeric array t = some template := hserves.chosen hC
    refine ⟨template code, ?_, fun hrun => ⟨_, hrun, .refl _⟩⟩
    rw [Element.render, hchosen]

end FactFold.Lowering

namespace FactFold.Fold

open Machine Lowering
open Kind (agg declareValue negate negativePart)

/-! ## Templates of rows -/

/-- Where the second body succeeds, the first succeeds and does the same. -/
def Emulates (natives : Natives) (env : Env) (body body' : List Stmt) : Prop :=
  ∀ ⦃w w' : World⦄ ⦃f : Flow⦄, (exec natives env body').runIn w = (.ok f, w') →
    ∃ u, (exec natives env body).runIn w = (.ok f, u) ∧ w'.Alike u

/-- Templates for the values of a type that distribute over choices. -/
structure Branching (t : DataType) (numeric array : Option Template) : Prop where
  covers : t.isNumeric = true ∨ t.isArray = true
  numbers : t.isNumeric = true → ∃ template, numeric = some template ∧
    ∀ ⦃natives env id⦄, Holds env agg id → Distributes natives env Static.IsNumeric template
  vectors : t.isArray = true → ∃ template, array = some template ∧
    ∀ natives env F, Distributes natives env F template

/-- The statements of an element and those of its code, for templates that distribute over
choices. -/
theorem Branching.follows {s : Site} (hplain : s.env.factName.toList.all isNameChar = true)
    {n : Node} {e : Element} {code : Term} (he : Lowers s n e) (hcode : e.value = .ok code)
    {numeric array : Option Template} (h : Branching e.type numeric array) :
    ∃ body body', e.render numeric array = .ok body ∧
      (Element.basic code e.type).render numeric array = .ok body' ∧
        ∀ ⦃natives env id⦄, Holds env agg id → Emulates natives env body body' := by
  -- the type tells which of the two templates is taken
  obtain ⟨C, template, hC, hserves⟩ : ∃ (C : DataType → Prop) (template : Template), C e.type ∧
      ∀ ⦃natives env id⦄, Holds env agg id → Serves natives env numeric array C template := by
    obtain hnumeric | harray := h.covers
    · obtain ⟨template, rfl, hdistributes⟩ := h.numbers hnumeric
      exact ⟨_, template, hnumeric, fun natives env id hb => .numbers (hdistributes hb)⟩
    · obtain ⟨template, rfl, hdistributes⟩ := h.vectors harray
      exact ⟨_, template, harray, fun natives env id _ => .vectors (hdistributes natives env)⟩
  -- what is rendered depends on no environment: let there be a buffer
  have hany : Holds [(agg.name, .buffer 0)] agg 0 := ⟨by decide, by rfl⟩
  have hserve : Serves [] [(agg.name, .buffer 0)] numeric array C template := hserves hany
  obtain ⟨body, hbody, -⟩ := render_follows hplain hserve he hC hcode
  refine ⟨body, template code, hbody, ?_, fun natives env id hb w w' f hrun => ?_⟩
  · rw [Element.render, hserve.chosen hC]
  · have hserve : Serves natives env numeric array C template := hserves hb
    obtain ⟨body', hbody', hfollows⟩ := render_follows hplain hserve he hC hcode
    obtain rfl : body = body' := Except.ok.inj (hbody.symm.trans hbody')
    exact hfollows hrun

/-- Reading a field leaves the world as it is and depends on the buffers alone. -/
theorem bufferRead_looks {id : Nat} {k : Numeric} {w w' : World} {v : Value}
    (h : (bufferMethod id ("read" ++ k.suffix) [fieldValue 0]).runIn w = (.ok v, w')) :
    w' = w ∧ ∀ u, u.buffers = w.buffers →
      (bufferMethod id ("read" ++ k.suffix) [fieldValue 0]).runIn u = (.ok v, u) := by
  -- what is read is a function of the buffer
  obtain ⟨content, hread⟩ : ∃ content : Memory → Value,
      ∀ u : World, 0 < (u.buffer id).layout.length →
        (bufferMethod id ("read" ++ k.suffix) [fieldValue 0]).runIn u =
          (.ok (content (u.buffer id)), u) := by
    refine ⟨fun m => if k.isIntegral then .long (m.intAt 0) else .double (m.doubleAt 0),
      fun u hu => ?_⟩
    simp only [bufferMethod, fieldValue_index (by omega : 0 ≤ 1), Run.converted_ok, pure_bind,
      Run.runIn_bind, Run.runIn_get]
    rw [if_neg (by omega)]
    cases k <;> rfl
  have hrange := bufferMethod_range (by omega) h
  rw [hread w hrange] at h
  obtain ⟨hv, rfl⟩ := Prod.mk.inj h
  obtain rfl := Except.ok.inj hv
  refine ⟨rfl, fun u hu => ?_⟩
  -- so worlds with the same buffers read the same
  have hbuffer : u.buffer id = w.buffer id := by rw [World.buffer, World.buffer, hu]
  rw [hread u (by rwa [hbuffer]), hbuffer]

section Templates

variable {natives : Natives} {env : Env} {id : Nat} (hb : Holds env agg id)

include hb

/-- Adding something that is computed from the value. -/
theorem adding_distributes {G : Static → Prop} {K : Term → Term}
    (hK : Context natives env Static.IsNumeric G K) (t : DataType) (rest : List Stmt) :
    Distributes natives env Static.IsNumeric fun v => agg.add 0 (K v) t :: rest :=
  .run ((Context.method hb.plain ("add" ++ t.suffix) 0).comp hK) rest

/-- Dividing what the field holds by the value. -/
theorem dividing_distributes {t : DataType} (ht : t.isNumeric = true) :
    Distributes natives env Static.IsNumeric
      fun v => [agg.write 0 (.binary "/" (agg.read 0 t) v)] := by
  cases t with
  | scalar k =>
    -- the field is read before the value is, and a look at the buffer commutes with the condition
    exact .run ((Context.method hb.plain "write" 0).comp
      (.divisor (hb.read 0 k) fun w v w' h => bufferRead_looks h)) []
  | _ => cases ht

end Templates

/-! ## Routines of the built-in kinds -/

theorem negate_context {natives : Natives} {env : Env} :
    Context natives env Static.IsNumeric Static.IsNumeric negate := .product (-1)

theorem negativePart_context {natives : Natives} {env : Env} (t : DataType) :
    Context natives env Static.IsNumeric Static.IsNumeric (negativePart t) := .call _ _ _

/-- Templates for numbers and vectors, of which the second binds the value first. -/
theorem Branching.both {t : DataType} (ht : t.isNumeric = true ∨ t.isArray = true)
    {numeric : Template} {rest : List Stmt}
    (hnumeric : ∀ ⦃natives env id⦄, Holds env agg id →
      Distributes natives env Static.IsNumeric numeric) :
    Branching t (some numeric) (some fun v => declareValue t v :: rest) :=
  ⟨ht, fun _ => ⟨_, rfl, hnumeric⟩, fun _ => ⟨_, rfl, fun _ _ F => .declare F t rest⟩⟩

/-- A template for numbers alone. -/
theorem Branching.scalar {t : DataType} (ht : t.isNumeric = true) {numeric : Template}
    (hnumeric : ∀ ⦃natives env id⦄, Holds env agg id →
      Distributes natives env Static.IsNumeric numeric) :
    Branching t (some numeric) none := by
  refine ⟨.inl ht, fun _ => ⟨_, rfl, hnumeric⟩, fun harray => ?_⟩
  cases t with
  | scalar k => cases harray
  | _ => cases ht

theorem onNumeric_of {α : Type} {kind : String} {t : DataType}
    (ht : t.isNumeric = true ∨ t.isArray = true) (x : Except Failure α) :
    Kind.onNumeric kind t x = x := if_pos (Bool.or_eq_true_iff.2 ht)

theorem onScalar_of {α : Type} {kind : String} {t : DataType} (ht : t.isNumeric = true)
    (x : Except Failure α) : Kind.onScalar kind t x = x := if_pos ht

section Kinds

variable {v : Visitor} (hv : v ∈ builtinKinds) {t : DataType} {layout : Layout}
  (hlayout : v.layout t = .ok layout)

include hv hlayout

/-- Taking a row in is rendered from templates that distribute over choices. -/
theorem contribute_branching : ∃ numeric array, Branching t numeric array ∧
    ∀ e : Element, e.type = t → v.contribute e = e.render numeric array := by
  obtain ⟨k, rfl⟩ | ⟨k, rfl⟩ := builtin_cases hv
  · cases k with
    | sum | mean =>
      have ht := (onNumeric_ok hlayout).2
      exact ⟨_, _, .both ht fun natives env id hb => adding_distributes hb .self t _,
        fun e he => by subst he; exact onNumeric_of ht _⟩
    | short =>
      have ht := (onNumeric_ok hlayout).2
      exact ⟨_, _, .both ht fun natives env id hb =>
          adding_distributes hb (negativePart_context t) t _,
        fun e he => by subst he; exact onNumeric_of ht _⟩
    | squareSum =>
      have ht := (onScalar_ok hlayout).2
      exact ⟨_, _, .scalar ht fun natives env id _ =>
          .declare _ t [agg.add 0 (Kind.square Kind.valueVar) t],
        fun e he => by subst he; exact onScalar_of ht _⟩
  · have ht : t.isNumeric = true := by cases k <;> exact (onScalar_ok hlayout).2
    refine ⟨_, _, .scalar ht fun natives env id _ =>
      .declare _ t (k.foldInto agg t Kind.valueVar), ?_⟩
    intro e he
    subst he
    cases k <;> exact onScalar_of ht _

/-- Taking a row out is not possible, or it is rendered from such templates. -/
theorem decontribute_branching : (∀ e, v.decontribute e = .ok none) ∨
    ∃ numeric array, Branching t numeric array ∧
      ∀ e : Element, e.type = t → v.decontribute e = some <$> e.render numeric array := by
  obtain ⟨k, rfl⟩ | ⟨k, rfl⟩ := builtin_cases hv
  · right
    cases k with
    | sum | mean =>
      have ht := (onNumeric_ok hlayout).2
      exact ⟨_, _, .both ht fun natives env id hb => adding_distributes hb negate_context t _,
        fun e he => by subst he; exact onNumeric_of ht _⟩
    | short =>
      have ht := (onNumeric_ok hlayout).2
      exact ⟨_, _, .both ht fun natives env id hb =>
          adding_distributes hb (negate_context.comp (negativePart_context t)) t _,
        fun e he => by subst he; exact onNumeric_of ht _⟩
    | squareSum =>
      have ht := (onScalar_ok hlayout).2
      exact ⟨_, _, .scalar ht fun natives env id _ =>
          .declare _ t [agg.add 0 (negate (Kind.square Kind.valueVar)) t],
        fun e he => by subst he; exact onScalar_of ht _⟩
  · cases k with
    | min | max => exact .inl fun e => rfl
    | product =>
      have ht := (onScalar_ok hlayout).2
      -- a product divides by the code as it stands, without a declaration
      exact .inr ⟨_, _, .scalar ht fun natives env id hb => dividing_distributes hb ht,
        fun e he => by subst he; exact onScalar_of ht _⟩

/-- A kind that has a layout for a type has everything else for it. -/
theorem type_supported : ∃ type merge terminate, v.terminateType t = .ok type ∧
    v.merge t = .ok merge ∧ v.terminate t = .ok terminate := by
  obtain ⟨k, rfl⟩ | ⟨k, rfl⟩ := builtin_cases hv
  · cases k with
    | sum | mean | short =>
      -- numbers or vectors: anything else has no layout
      obtain h | h := (onNumeric_ok hlayout).2 <;> cases t <;> cases h <;>
        exact ⟨_, _, _, rfl, rfl, rfl⟩
    | squareSum =>
      have h := (onScalar_ok hlayout).2
      exact ⟨_, _, _, onScalar_of h _, onScalar_of h _, onScalar_of h _⟩
  · have h : t.isNumeric = true := by cases k <;> exact (onScalar_ok hlayout).2
    cases k <;> exact ⟨_, _, _, onScalar_of h _, onScalar_of h _, onScalar_of h _⟩

end Kinds

/-! ## Artifacts -/

/-- The first body follows the second on every row. -/
def EmulatesOnRows (fact : String) (body body' : List Stmt) : Prop :=
  ∀ natives row id w, Emulates natives (rowEnv fact row id w) body body'

section Elements

variable {s : Site} (hplain : s.env.factName.toList.all isNameChar = true) {n : Node} {e : Element}
  {code : Term} (he : Lowers s n e) (hcode : e.value = .ok code) {v : Visitor}
  (hv : v ∈ builtinKinds) {layout : Layout} (hlayout : v.layout e.type = .ok layout) (fact : String)

include hplain he hcode hv hlayout

theorem contribute_follows : ∃ body body', v.contribute e = .ok body ∧
    v.contribute (.basic code e.type) = .ok body' ∧ EmulatesOnRows fact body body' := by
  obtain ⟨numeric, array, htemplates, hrender⟩ := contribute_branching hv hlayout
  obtain ⟨body, body', hbody, hbody', hfollows⟩ := htemplates.follows hplain he hcode
  refine ⟨body, body', ?_, ?_, fun natives row id w => hfollows (rowEnv_holds fact row id w)⟩
  · rw [hrender e rfl, hbody]
  · rw [hrender (.basic code e.type) rfl, hbody']

theorem decontribute_follows : ∃ out out', v.decontribute e = .ok out ∧
    v.decontribute (.basic code e.type) = .ok out' ∧ Option.Rel (EmulatesOnRows fact) out out' := by
  obtain hnone | ⟨numeric, array, htemplates, hrender⟩ := decontribute_branching hv hlayout
  · exact ⟨none, none, hnone e, hnone _, .none⟩
  · obtain ⟨body, body', hbody, hbody', hfollows⟩ := htemplates.follows hplain he hcode
    refine ⟨some body, some body', ?_, ?_,
      .some fun natives row id w => hfollows (rowEnv_holds fact row id w)⟩
    · rw [hrender e rfl, hbody]
      rfl
    · rw [hrender (.basic code e.type) rfl, hbody']
      rfl

end Elements

/-- A kind that has every part for an element makes an artifact of it. -/
theorem artifact_of_parts {v : Visitor} (hv : v ∈ builtinKinds) {e : Element} {layout : Layout}
    (hlayout : v.layout e.type = .ok layout) {body : List Stmt} (hbody : v.contribute e = .ok body)
    {out : Option (List Stmt)} (hout : v.decontribute e = .ok out) (kind : String)
    (config : CodegenConfig) (columns : List String) (acc : Accumulator) :
    ∃ a, v.artifact kind config columns e acc = .ok a ∧ a.contribute.body = body ∧
      a.decontribute.map Routine.body = out := by
  obtain ⟨type, merge, terminate, htype, hmerge, hterminate⟩ := type_supported hv hlayout
  obtain ⟨a, ha⟩ : ∃ a, v.artifact kind config columns e acc = .ok a := by
    unfold Visitor.artifact
    rw [hlayout, htype, hbody, hout, hmerge, hterminate]
    exact ⟨_, rfl⟩
  exact ⟨a, ha, Except.ok.inj ((artifact_ok ha).contribute.symm.trans hbody),
    Except.ok.inj ((artifact_ok ha).decontribute.symm.trans hout)⟩

section Running

variable {natives : Natives} {fact : String} {row : List Value} {id : Nat} {w w' : World}

/-- A row's routine is its body on the record of the row. -/
theorem rowRun_eq {r : Routine}
    (hparams : r.params.map Param.name = [fact, BufferRef.aggregation.name]) :
    ignored (run natives r [(w.fact row).1, .buffer id] (w.fact row).2) =
      Prod.map (fun x => (x.map fun _ => ()).mapError (.failed r.name)) (fun u => u)
        ((exec natives (rowEnv fact row id w) r.body).runIn (w.fact row).2) := by
  have hlength : r.params.length = 2 := params_length hparams
  have henv : ((r.params.map Param.name).zip [(w.fact row).1, .buffer id]).reverse =
      rowEnv fact row id w := by rw [hparams]; rfl
  unfold run
  rw [if_neg (by simp [hlength]), henv]
  dsimp only
  rcases (exec natives (rowEnv fact row id w) r.body).runIn (w.fact row).2 with
    ⟨e | ⟨env⟩ | ⟨v⟩, u⟩ <;> rfl

/-- A row's routine ends as its body does on the record of the row. -/
theorem rowRun_of_exec {r : Routine} {f : Flow}
    (hparams : r.params.map Param.name = [fact, BufferRef.aggregation.name])
    (h : (exec natives (rowEnv fact row id w) r.body).runIn (w.fact row).2 = (.ok f, w')) :
    ignored (run natives r [(w.fact row).1, .buffer id] (w.fact row).2) = (.ok (), w') := by
  rw [rowRun_eq hparams, h]
  rfl

/-- Where a body follows another, the routine follows the other's. -/
theorem EmulatesOnRows.run {r r' : Routine}
    (hparams : r.params.map Param.name = [fact, BufferRef.aggregation.name])
    (hparams' : r'.params.map Param.name = [fact, BufferRef.aggregation.name])
    (h : EmulatesOnRows fact r.body r'.body)
    (hrun : ignored (Machine.run natives r' [(w.fact row).1, .buffer id] (w.fact row).2) =
      (.ok (), w')) :
    ∃ u, ignored (Machine.run natives r [(w.fact row).1, .buffer id] (w.fact row).2) = (.ok (), u) ∧
      w'.Alike u := by
  obtain ⟨f, hf⟩ := rowRun_exec hparams' hrun
  obtain ⟨u, hu, halike⟩ := h natives row id w hf
  exact ⟨u, rowRun_of_exec hparams hu, halike⟩

/-- The same for routines that may be missing. -/
theorem decontribute_run {a b : Artifact}
    (hparams : ∀ r ∈ a.decontribute, r.params.map Param.name = [fact, BufferRef.aggregation.name])
    (hparams' : ∀ r ∈ b.decontribute, r.params.map Param.name = [fact, BufferRef.aggregation.name])
    (h : Option.Rel (EmulatesOnRows fact) (a.decontribute.map Routine.body)
      (b.decontribute.map Routine.body))
    (hrun : decontribute natives b row id w = (.ok (), w')) :
    ∃ u, decontribute natives a row id w = (.ok (), u) ∧ w'.Alike u := by
  -- both artifacts have the routine, or neither has
  unfold Machine.decontribute at hrun ⊢
  cases hr : a.decontribute with
  | none =>
    cases hr' : b.decontribute with
    | none =>
      rw [hr'] at hrun
      cases hrun
    | some r' =>
      rw [hr, hr'] at h
      cases h
  | some r =>
    cases hr' : b.decontribute with
    | none =>
      rw [hr, hr'] at h
      cases h
    | some r' =>
      rw [hr, hr'] at h
      rw [hr'] at hrun
      obtain hfollows : EmulatesOnRows fact r.body r'.body := by
        cases h with
        | some h => exact h
      exact hfollows.run (hparams r hr) (hparams' r' hr') hrun

end Running

/-- **A choice aggregated as statements follows the same choice used as a value.** Let an expression
be lowered to an element that has the code of a value, let the record have a plain name, and let a
built-in kind have a layout for the type. Then the kind makes an artifact of the element and one of
its code. Wherever taking a row in or out succeeds with the second, it succeeds with the first, and
all buffers are left the same. -/
theorem statements_follow_value {env : LoweringEnv} {n : Node} {e : Element} {code : Term}
    {ws ws' : Workspace} (hlower : (n.lower env).runIn ws = (.ok e, ws'))
    (hplain : env.factName.toList.all isNameChar = true) (hcode : e.value = .ok code) {v : Visitor}
    (hv : v ∈ builtinKinds) {layout : Layout} (hlayout : v.layout e.type = .ok layout)
    {config : CodegenConfig} (hfact : config.factParameter = env.factName) (kind : String)
    (columns : List String) (acc : Accumulator) :
    ∃ a b, v.artifact kind config columns e acc = .ok a ∧
      v.artifact kind config columns (.basic code e.type) acc = .ok b ∧
      a.decontribute.isSome = b.decontribute.isSome ∧
      ∀ (natives : Natives) (row : List Value) (id : Nat) (w w' : World),
        (contribute natives b row id w = (.ok (), w') →
          ∃ u, contribute natives a row id w = (.ok (), u) ∧ w'.Alike u) ∧
        (decontribute natives b row id w = (.ok (), w') →
          ∃ u, decontribute natives a row id w = (.ok (), u) ∧ w'.Alike u) := by
  have he : Lowers (site env n.columns ws'.cache) n e := (node_lowers hlower).2 _ (.refl _)
  have hname : (site env n.columns ws'.cache).env.factName.toList.all isNameChar = true := hplain
  obtain ⟨body, body', hbody, hbody', hin⟩ :=
    contribute_follows hname he hcode hv hlayout env.factName
  obtain ⟨out, out', hout, hout', hback⟩ :=
    decontribute_follows hname he hcode hv hlayout env.factName
  -- rows can be taken out in both cases or in neither
  have hsome : out.isSome = out'.isSome := by
    cases hback with
    | none => rfl
    | some _ => rfl
  obtain ⟨a, ha, hina, houta⟩ := artifact_of_parts hv hlayout hbody hout kind config columns acc
  obtain ⟨b, hb, hinb, houtb⟩ := artifact_of_parts (e := .basic code e.type) hv hlayout hbody' hout'
    kind config columns acc
  subst hina hinb houta houtb
  have hmade := artifact_ok ha
  have hmade' := artifact_ok hb
  refine ⟨a, b, ha, hb, ?_, fun natives row id w w' => ⟨fun hrun => ?_, fun hrun => ?_⟩⟩
  · rwa [Option.isSome_map, Option.isSome_map] at hsome
  · exact hin.run (hfact ▸ hmade.contribute_params) (hfact ▸ hmade'.contribute_params) hrun
  · exact decontribute_run (hfact ▸ hmade.decontribute_params) (hfact ▸ hmade'.decontribute_params)
      hback hrun

/-- A row is taken out of a sum, once by a block in a block and once by one conditional in
another. -/
theorem statements_follow_value_nested :
    let env : LoweringEnv := { schema := [("a", .int), ("b", .double)] }
    let a : Node := .column ⟨"a", ""⟩
    let b : Node := .column ⟨"b", ""⟩
    let n : Node := .choice .gt a (.constant (.int 0))
      (.choice .eq a (.constant (.int 3)) (.constant (.long 8)) b) a
    let w : World := { buffers := [.unset [.double]] }
    ∃ e code ws a b, (n.lower env).runIn {} = (.ok e, ws) ∧ e.value = .ok code ∧
      Kind.sum.artifact "sum" ({} : CodegenConfig).filled [] e {} = .ok a ∧
      Kind.sum.artifact "sum" ({} : CodegenConfig).filled [] (.basic code e.type) {} = .ok b ∧
      ∃ w', decontribute [] b [.long 3, .null] 0 w = (.ok (), w') ∧
        ∃ u, decontribute [] a [.long 3, .null] 0 w = (.ok (), u) ∧ w'.Alike u := by
  intro env a b n w
  obtain ⟨a, b, ha, hb, -, hfollows⟩ := statements_follow_value
    (show (n.lower env).runIn {} = _ from rfl) (by decide) rfl (v := Kind.sum)
    (by simp [builtinKinds]) rfl
    (show ({} : CodegenConfig).filled.factParameter = env.factName by decide) "sum" [] {}
  refine ⟨_, _, _, a, b, rfl, rfl, ha, hb, ?_⟩
  have hok : (decontribute [] b [.long 3, .null] 0 w).1.isOk = true := by
    obtain rfl := Except.ok.inj hb
    decide +kernel
  have hrun : decontribute [] b [.long 3, .null] 0 w = (.ok (), _) := Prod.ext (ok_of_isOk hok) rfl
  exact ⟨_, hrun, (hfollows [] _ 0 w _).2 hrun⟩

/-- With code in the place of the record's name the factor of a row that is taken out reaches the
whole choice, but only a part of each branch. -/
theorem negated_in_part :
    let env : LoweringEnv :=
      { schema := [("a", .int)]
        fact := "aggregationBuffer, \"readInt\", 0) + call(v_aggregationBuffer" }
    let config : CodegenConfig := { ({} : CodegenConfig).filled with factParameter := env.factName }
    let a : Node := .column ⟨"a", ""⟩
    let n : Node := .choice .gt (.constant (.int 1)) (.constant (.int 0)) a (.constant (.int 0))
    let w : World := { buffers := [⟨[.int], [.long 5]⟩] }
    ∃ e code ws a b, (n.lower env).runIn {} = (.ok e, ws) ∧ e.value = .ok code ∧
      Kind.sum.artifact "sum" config [] e {} = .ok a ∧
      Kind.sum.artifact "sum" config [] (.basic code e.type) {} = .ok b ∧
      ∃ w', decontribute [] b [.long 1] 0 w = (.ok (), w') ∧
        ¬ ∃ u, decontribute [] a [.long 1] 0 w = (.ok (), u) ∧ w'.Alike u := by
  intro env config a n w
  -- worlds that are alike have the same fields, so one field tells them apart
  have hdiffer : ∀ (x y : Int) {r r' : Except RunError Unit × World}, x ≠ y →
      r.1.isOk = true ∧ (r.2.buffer 0).intAt 0 = x → (r'.2.buffer 0).intAt 0 = y →
        ∃ w', r = (.ok (), w') ∧ ¬ ∃ u, r' = (.ok (), u) ∧ w'.Alike u := by
    rintro x y r r' hne ⟨hok, rfl⟩ rfl
    refine ⟨r.2, Prod.ext (ok_of_isOk hok) rfl, ?_⟩
    rintro ⟨u, rfl, halike⟩
    exact hne (congrArg (Memory.intAt · 0) (halike.buffer 0))
  -- one run negates the field with the rest of the choice, and the other leaves it
  refine ⟨_, _, _, _, _, rfl, rfl, rfl, rfl, hdiffer (-5) 5 (by decide) ?_ ?_⟩
  · decide +kernel
  · decide +kernel

end FactFold.Fold
