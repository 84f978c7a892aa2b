import FactFold.Lowering.Lower
import FactFold.Proofs.Expr.Meaning
import Mathlib

/-!
# Lowering as a relation

Lowering works on a workspace: it collects imports and methods, notes messages and asks a cache. None
of that shows in the code it yields, except through the types of calls, which the cache remembers.
`Lowers s n e` says that the expression `n` has the element `e` at a site `s`, whatever was collected
on the way, and `node_lowers` is the one place where a successful run of the lowering is taken apart.
Everything else about lowered code is proved from the relation.
-/

namespace FactFold

/-! ## Opening a compilation step -/

namespace Compile

variable {α β : Type} {ws ws' : Workspace}

@[simp] theorem runIn_pure (a : α) : (pure a : Compile α).runIn ws = (.ok a, ws) := rfl

@[simp] theorem runIn_throw (e : Failure) : (throw e : Compile α).runIn ws = (.error e, ws) := rfl

@[simp] theorem runIn_lift (x : Except Failure α) : (liftM x : Compile α).runIn ws = (x, ws) := rfl

@[simp] theorem runIn_get : (get : Compile Workspace).runIn ws = (.ok ws, ws) := rfl

@[simp] theorem runIn_accumulate (f : Accumulator → Accumulator) :
    (accumulate f).runIn ws = (.ok (), { ws with accumulator := f ws.accumulator }) := rfl

@[simp] theorem runIn_note (level : Log.Level) (template : String) (args : List Log.Arg) :
    (note level template args).runIn ws =
      (.ok (), { ws with events := ws.events ++ [⟨level, template, args⟩] }) := rfl

@[simp] theorem runIn_ask (question : MetadataCache → Except String α × MetadataCache) :
    (ask question).runIn ws =
      (.ok (question ws.cache).1, { ws with cache := (question ws.cache).2 }) := rfl

/-- A sequence of steps succeeds when both of its parts do. -/
theorem runIn_bind_ok_iff {x : Compile α} {k : α → Compile β} {b : β} :
    (x >>= k).runIn ws = (.ok b, ws') ↔
      ∃ a v, x.runIn ws = (.ok a, v) ∧ (k a).runIn v = (.ok b, ws') := by
  simp only [runIn, bind, ExceptT.bind, ExceptT.mk, StateT.bind, ExceptT.run, StateT.run,
    ExceptT.bindCont]
  rcases x ws with ⟨_ | a, v⟩
  · simp [pure, StateT.pure]
  · simp

end Compile

/-! ## Answers the cache remembers -/

namespace MetadataCache

/-- Every output type the first cache knows, the second knows as well. -/
def Extends (c d : MetadataCache) : Prop :=
  ∀ key t, c.outputs.lookup key = some t → d.outputs.lookup key = some t

theorem Extends.refl (c : MetadataCache) : c.Extends c := fun _ _ h => h

theorem Extends.trans {c d e : MetadataCache} (h : c.Extends d) (h' : d.Extends e) : c.Extends e :=
  fun key t hc => h' key t (h key t hc)

@[simp] theorem hit_outputs (c : MetadataCache) : c.hit.outputs = c.outputs := by
  unfold hit
  split <;> rfl

@[simp] theorem miss_outputs (c : MetadataCache) : c.miss.outputs = c.outputs := by
  unfold miss
  split <;> rfl

/-- Asking for signatures leaves the output types alone. -/
theorem signaturesOf_outputs (c : MetadataCache) (service : MetadataService) (cl m : String) :
    (c.signaturesOf service cl m).2.outputs = c.outputs := by
  unfold signaturesOf
  dsimp only
  split
  · simp
  · split <;> simp

/-- An output type the cache has answered stays known. -/
theorem outputOf_extends {c : MetadataCache} {service : MetadataService} {cl m : String}
    {args : List DataType} {t : DataType} (h : (c.outputOf service cl m args).1 = .ok t) :
    c.Extends (c.outputOf service cl m args).2 ∧
      (c.outputOf service cl m args).2.outputs.lookup (outputKey cl m args) = some t := by
  unfold outputOf at h ⊢
  dsimp only at h ⊢
  cases hc : c.outputs.lookup (outputKey cl m args) with
  -- an answer that is remembered is given again
  | some u =>
    simp only [hc, Except.ok.injEq] at h ⊢
    exact ⟨fun key u hu => by simpa using hu, by simpa [h] using hc⟩
  | none =>
    simp only [hc] at h ⊢
    cases hs : service.output cl m args with
    | error e => simp [hs] at h
    | ok u =>
      simp only [hs, Except.ok.injEq] at h ⊢
      refine ⟨fun key v hv => ?_, by simp [h]⟩
      -- the new answer is under a key that was not known
      have hne : key ≠ outputKey cl m args := by
        rintro rfl
        simp [hc] at hv
      rw [List.lookup_cons, beq_false_of_ne hne]
      simpa using hv

end MetadataCache

/-! ## The relation -/

namespace Lowering

/-- Where an expression is lowered: the environment, the columns of the fact record, and the types
calls turn out to have. -/
structure Site where
  env : LoweringEnv
  columns : List Column
  calls : CallTypes

/-- What expressions at a site are typed against. -/
def Site.typing (s : Site) : Typing := ⟨s.env.schema, s.calls⟩

mutual

/-- The expression has this element. -/
inductive Lowers (s : Site) : Node → Element → Prop
  | column {c : Column} {t : DataType} {i : Nat} (hType : s.env.schema.lookup c.name = some t)
      (hIndex : s.columns.findIdx? (fun d => d.name = c.name) = some i) :
      Lowers s (.column c) (.basic (readColumn (.ident s.env.factName) i t) t)
  | constant (c : Constant) : Lowers s (.constant c) (.basic (constantTerm c) c.type)
  | arithmetic {op : Arithmetic} {l r : Node} {x y e : Element} {a b : Term}
      (hl : Lowers s l x) (hr : Lowers s r y) (ha : x.value = .ok a) (hb : y.value = .ok b)
      (he : Operators.arithmetic op a b x.type y.type = .ok e) : Lowers s (.arithmetic op l r) e
  | comparison {op : Comparison} {l r : Node} {x y e : Element} {a b : Term}
      (hl : Lowers s l x) (hr : Lowers s r y) (ha : x.value = .ok a) (hb : y.value = .ok b)
      (he : Operators.comparison op a b x.type y.type = .ok e) : Lowers s (.comparison op l r) e
  | guarded {op : Comparison} {l r body : Node} {c b : Element}
      (hc : Lowers s (.comparison op l r) c) (hb : Lowers s body b) :
      Lowers s (.guarded op l r body) (.guarded c b)
  | choice {op : Comparison} {l r yes no : Node} {c y n e : Element}
      (hc : Lowers s (.comparison op l r) c) (hy : Lowers s yes y) (hn : Lowers s no n)
      (he : Element.ternary c y (some n) = .ok e) : Lowers s (.choice op l r yes no) e
  | call {f : Function} {args : List Node} {terms : List TypedTerm} (ha : LowersAll s args terms) :
      Lowers s (.call f args)
        (.basic (.call f.callee (terms.map TypedTerm.code)) (s.calls f (terms.map TypedTerm.type)))

/-- The expressions have these terms as arguments. -/
inductive LowersAll (s : Site) : List Node → List TypedTerm → Prop
  | nil : LowersAll s [] []
  | cons {n : Node} {e : Element} {code : Term} {rest : List Node} {terms : List TypedTerm}
      (hn : Lowers s n e) (hv : e.value = .ok code) (hr : LowersAll s rest terms) :
      LowersAll s (n :: rest) (⟨code, e.type⟩ :: terms)

end

/-- Induction over a lowered expression that stops at calls: nothing is known of their arguments. -/
@[elab_as_elim]
theorem Lowers.above_calls {s : Site} {motive : ∀ (n : Node) (e : Element), Lowers s n e → Prop}
    (column : ∀ {c : Column} {t : DataType} {i : Nat} (ht : s.env.schema.lookup c.name = some t)
      (hi : s.columns.findIdx? (fun d => d.name = c.name) = some i), motive _ _ (.column ht hi))
    (constant : ∀ c : Constant, motive _ _ (.constant c))
    (arithmetic : ∀ {op : Arithmetic} {l r : Node} {x y e : Element} {a b : Term}
      (hl : Lowers s l x) (hr : Lowers s r y) (ha : x.value = .ok a) (hb : y.value = .ok b)
      (he : Operators.arithmetic op a b x.type y.type = .ok e),
        motive l x hl → motive r y hr → motive _ _ (.arithmetic hl hr ha hb he))
    (comparison : ∀ {op : Comparison} {l r : Node} {x y e : Element} {a b : Term}
      (hl : Lowers s l x) (hr : Lowers s r y) (ha : x.value = .ok a) (hb : y.value = .ok b)
      (he : Operators.comparison op a b x.type y.type = .ok e),
        motive l x hl → motive r y hr → motive _ _ (.comparison hl hr ha hb he))
    (guarded : ∀ {op : Comparison} {l r body : Node} {c b : Element}
      (hc : Lowers s (.comparison op l r) c) (hb : Lowers s body b),
        motive _ c hc → motive body b hb → motive _ _ (.guarded hc hb))
    (choice : ∀ {op : Comparison} {l r yes no : Node} {c y n e : Element}
      (hc : Lowers s (.comparison op l r) c) (hy : Lowers s yes y) (hn : Lowers s no n)
      (he : Element.ternary c y (some n) = .ok e),
        motive _ c hc → motive yes y hy → motive no n hn → motive _ _ (.choice hc hy hn he))
    (call : ∀ {f : Function} {args : List Node} {terms : List TypedTerm}
      (ha : LowersAll s args terms), motive (.call f args) _ (.call ha))
    {n : Node} {e : Element} (h : Lowers s n e) : motive n e h :=
  @Lowers.rec s motive (fun _ _ _ => True) column constant arithmetic comparison guarded choice
    (fun ha _ => call ha) trivial (fun _ _ _ _ _ => trivial) n e h

/-! ## A successful lowering is in the relation -/

variable {env : LoweringEnv} {columns : List Column} {ws ws' : Workspace}

/-- The site of a lowering whose calls are typed by a cache. -/
abbrev site (env : LoweringEnv) (columns : List Column) (c : MetadataCache) : Site :=
  ⟨env, columns, c.callTypes⟩

theorem apply_ok {op : Operator} {x y e : Element} (h : Operators.apply op x y = .ok e) :
    ∃ a b, x.value = .ok a ∧ y.value = .ok b ∧
      (match op with
        | .arithmetic op => Operators.arithmetic op a b x.type y.type
        | .comparison op => Operators.comparison op a b x.type y.type) = .ok e := by
  unfold Operators.apply at h
  cases ha : x.value with
  | error f => simp [ha, bind, Except.bind] at h
  | ok a =>
    cases hb : y.value with
    | error f => simp [ha, hb, bind, Except.bind] at h
    | ok b =>
      refine ⟨a, b, rfl, rfl, ?_⟩
      cases op <;> simpa [ha, hb, bind, Except.bind] using h

theorem operator_ok {op : Operator} {x y e : Element}
    (h : (operator op x y).runIn ws = (.ok e, ws')) :
    Operators.apply op x y = .ok e ∧ ws'.cache = ws.cache := by
  unfold operator at h
  obtain ⟨e', v, happ, h⟩ := Compile.runIn_bind_ok_iff.1 h
  simp only [Compile.runIn_lift, Prod.mk.injEq] at happ
  obtain ⟨happ, rfl⟩ := happ
  split at h
  · obtain ⟨_, u, hacc, h⟩ := Compile.runIn_bind_ok_iff.1 h
    simp only [Compile.runIn_accumulate, Prod.mk.injEq] at hacc
    simp only [Compile.runIn_pure, Prod.mk.injEq, Except.ok.injEq] at h
    obtain ⟨-, rfl⟩ := hacc
    obtain ⟨rfl, rfl⟩ := h
    exact ⟨happ, rfl⟩
  · simp only [Compile.runIn_pure, Prod.mk.injEq, Except.ok.injEq] at h
    obtain ⟨rfl, rfl⟩ := h
    exact ⟨happ, rfl⟩

theorem column_ok {c : Column} {e : Element}
    (h : (column env columns c).runIn ws = (.ok e, ws')) (calls : CallTypes) :
    Lowers ⟨env, columns, calls⟩ (.column c) e ∧ ws' = ws := by
  unfold column at h
  cases ht : env.schema.lookup c.name with
  | none => simp [ht] at h
  | some t =>
    cases hi : columns.findIdx? (fun d => d.name = c.name) with
    | none => simp [ht, hi] at h
    | some i =>
      simp only [ht, hi, Compile.runIn_pure, Prod.mk.injEq, Except.ok.injEq] at h
      obtain ⟨rfl, rfl⟩ := h
      exact ⟨.column ht hi, rfl⟩

theorem constant_ok {c : Constant} {e : Element}
    (h : (constant c).runIn ws = (.ok e, ws')) :
    e = .basic (constantTerm c) c.type ∧ ws'.cache = ws.cache := by
  unfold constant at h
  cases hi : constantImport? c with
  | none =>
    simp only [hi, Compile.runIn_pure, Prod.mk.injEq, Except.ok.injEq] at h
    exact ⟨h.1.symm, by rw [← h.2]⟩
  | some name =>
    simp only [hi] at h
    obtain ⟨_, u, hacc, h⟩ := Compile.runIn_bind_ok_iff.1 h
    simp only [Compile.runIn_accumulate, Prod.mk.injEq] at hacc
    simp only [Compile.runIn_pure, Prod.mk.injEq, Except.ok.injEq] at h
    obtain ⟨-, rfl⟩ := hacc
    exact ⟨h.1.symm, by rw [← h.2]⟩

theorem ternary_none_ok {c b e : Element} (h : Element.ternary c b none = .ok e) :
    e = .guarded c b := by
  unfold Element.ternary at h
  split at h
  · cases h
  · exact (Except.ok.inj h).symm

/-- Both sides of a comparison and the comparison itself, run one after the other. -/
theorem comparison_ok {op : Comparison} {l r : Node} {k : Element → Compile Element} {e : Element}
    (h : (do
      let x ← node env columns l
      let y ← node env columns r
      let c ← operator (.comparison op) x y
      k c).runIn ws = (.ok e, ws')) :
    ∃ x y c v₁ v₂ v₃, (node env columns l).runIn ws = (.ok x, v₁) ∧
      (node env columns r).runIn v₁ = (.ok y, v₂) ∧
      Operators.apply (.comparison op) x y = .ok c ∧ v₃.cache = v₂.cache ∧
      (k c).runIn v₃ = (.ok e, ws') := by
  obtain ⟨x, v₁, hx, h⟩ := Compile.runIn_bind_ok_iff.1 h
  obtain ⟨y, v₂, hy, h⟩ := Compile.runIn_bind_ok_iff.1 h
  obtain ⟨c, v₃, hc, h⟩ := Compile.runIn_bind_ok_iff.1 h
  obtain ⟨hc, hcache⟩ := operator_ok hc
  exact ⟨x, y, c, v₁, v₂, v₃, hx, hy, hc, hcache, h⟩

theorem failedToFetch_ne_ok {what cause : String} {f : ExistingFunction} {t : TypedTerm} :
    (Resolution.failedToFetch what f cause).runIn ws ≠ (.ok t, ws') := by
  intro h
  obtain ⟨_, v, -, h⟩ := Compile.runIn_bind_ok_iff.1 h
  simp at h

/-- The end of resolving a method of the engine, once its output type is known. -/
theorem existing_end {f : ExistingFunction} {output : DataType} {types : List DataType}
    {code : Term} {t : TypedTerm}
    (h : (if (!output.isKnown) = true then throw (.outputWithoutTemplate f.call output)
      else do
        if f.package ≠ "" then
          Compile.accumulate fun a => a.addImport f.qualifiedClass
        Compile.note .debug "resolved %s%v -> %s"
          [.ofText f.call, Resolution.typesArg types, .ofNamed "types.DataType" output.name]
        pure ⟨code, output⟩ : Compile TypedTerm).runIn ws = (.ok t, ws')) :
    t.code = code ∧ t.type = output ∧ ws'.cache = ws.cache := by
  split at h
  · simp at h
  · split at h <;>
      simp only [Compile.runIn_bind_ok_iff, Compile.runIn_accumulate, Compile.runIn_note,
        Compile.runIn_pure, Prod.mk.injEq, Except.ok.injEq] at h
    · obtain ⟨_, _, ⟨-, rfl⟩, _, _, ⟨-, rfl⟩, rfl, rfl⟩ := h
      exact ⟨rfl, rfl, rfl⟩
    · obtain ⟨_, _, ⟨-, rfl⟩, rfl, rfl⟩ := h
      exact ⟨rfl, rfl, rfl⟩

/-- A resolved call has the code of its arguments, and its type is remembered. -/
theorem resolve_ok {service : Option MetadataService} {f : Function} {args : List TypedTerm}
    {t : TypedTerm} (h : (f.resolve service args).runIn ws = (.ok t, ws')) :
    ws.cache.Extends ws'.cache ∧ t.code = .call f.callee (args.map TypedTerm.code) ∧
      ∀ c, ws'.cache.Extends c → t.type = c.callTypes f (args.map TypedTerm.type) := by
  cases f with
  | custom f =>
    simp only [Function.resolve, Resolution.custom] at h
    split at h
    · simp at h
    · obtain ⟨_, v₁, h₁, h⟩ := Compile.runIn_bind_ok_iff.1 h
      obtain ⟨_, v₂, h₂, h⟩ := Compile.runIn_bind_ok_iff.1 h
      simp only [Compile.runIn_accumulate, Compile.runIn_note, Compile.runIn_pure, Prod.mk.injEq,
        Except.ok.injEq] at h₁ h₂ h
      obtain ⟨-, rfl⟩ := h₁
      obtain ⟨-, rfl⟩ := h₂
      obtain ⟨rfl, rfl⟩ := h
      exact ⟨.refl _, rfl, fun _ _ => rfl⟩
  | existing f =>
    simp only [Function.resolve, Resolution.existing] at h
    cases service with
    | none => simp at h
    | some service =>
      obtain ⟨signatures, v₁, h₁, h⟩ := Compile.runIn_bind_ok_iff.1 h
      simp only [Compile.runIn_ask, Prod.mk.injEq, Except.ok.injEq] at h₁
      obtain ⟨-, rfl⟩ := h₁
      split at h
      · -- the signatures could not be fetched
        exact absurd h failedToFetch_ne_ok
      · split at h
        · simp at h
        · obtain ⟨answer, v₂, h₂, h⟩ := Compile.runIn_bind_ok_iff.1 h
          simp only [Compile.runIn_ask, Prod.mk.injEq, Except.ok.injEq] at h₂
          obtain ⟨hout, rfl⟩ := h₂
          split at h
          · exact absurd h failedToFetch_ne_ok
          · -- the output type was fetched, and is remembered from here on
            obtain ⟨hext, hlookup⟩ := MetadataCache.outputOf_extends hout
            obtain ⟨hcode, htype, hcache⟩ := existing_end h
            refine ⟨?_, hcode, fun d hd => ?_⟩
            · rw [hcache]
              exact fun key t ht => hext key t (by rwa [MetadataCache.signaturesOf_outputs])
            · rw [htype]
              rw [hcache] at hd
              simp [MetadataCache.callTypes, hd _ _ hlookup]
  | foreign f => simp [Function.resolve] at h

/-- The condition of a ternary, from the lowering of its two sides. -/
theorem comparison_lowers {s : Site} {op : Comparison} {l r : Node} {x y c : Element}
    (hl : Lowers s l x) (hr : Lowers s r y) (h : Operators.apply (.comparison op) x y = .ok c) :
    Lowers s (.comparison op l r) c := by
  obtain ⟨a, b, ha, hb, hc⟩ := apply_ok h
  exact .comparison hl hr ha hb hc

mutual

/-- **A successful lowering is in the relation**, with calls typed by any cache that knows at least
what the lowering has learned. -/
theorem node_lowers : ∀ {n : Node} {e : Element} {ws ws' : Workspace},
    (node env columns n).runIn ws = (.ok e, ws') →
      ws.cache.Extends ws'.cache ∧
        ∀ c, ws'.cache.Extends c → Lowers (site env columns c) n e
  | .column c, e, ws, ws', h => by
    rw [node] at h
    obtain ⟨-, rfl⟩ := column_ok h (fun _ _ => .boolean)
    exact ⟨.refl _, fun d _ => (column_ok h _).1⟩
  | .constant c, e, ws, ws', h => by
    rw [node] at h
    obtain ⟨rfl, hcache⟩ := constant_ok h
    -- an operator asks nothing, so the cache is that of the second operand
    exact ⟨by rw [hcache]; exact .refl _, fun d _ => .constant c⟩
  | .arithmetic op l r, e, ws, ws', h => by
    rw [node] at h
    obtain ⟨x, v₁, hx, h⟩ := Compile.runIn_bind_ok_iff.1 h
    obtain ⟨y, v₂, hy, h⟩ := Compile.runIn_bind_ok_iff.1 h
    obtain ⟨happ, hcache⟩ := operator_ok h
    obtain ⟨a, b, ha, hb, he⟩ := apply_ok happ
    obtain ⟨ext₁, hl⟩ := node_lowers hx
    obtain ⟨ext₂, hr⟩ := node_lowers hy
    rw [hcache]
    exact ⟨ext₁.trans ext₂, fun d hd => .arithmetic (hl d (ext₂.trans hd)) (hr d hd) ha hb he⟩
  | .comparison op l r, e, ws, ws', h => by
    rw [node] at h
    obtain ⟨x, v₁, hx, h⟩ := Compile.runIn_bind_ok_iff.1 h
    obtain ⟨y, v₂, hy, h⟩ := Compile.runIn_bind_ok_iff.1 h
    obtain ⟨happ, hcache⟩ := operator_ok h
    obtain ⟨ext₁, hl⟩ := node_lowers hx
    obtain ⟨ext₂, hr⟩ := node_lowers hy
    rw [hcache]
    exact ⟨ext₁.trans ext₂, fun d hd => comparison_lowers (hl d (ext₂.trans hd)) (hr d hd) happ⟩
  | .guarded op l r body, e, ws, ws', h => by
    rw [node] at h
    obtain ⟨x, y, c, v₁, v₂, v₃, hx, hy, happ, hcache, h⟩ := comparison_ok h
    obtain ⟨b, v₄, hb, h⟩ := Compile.runIn_bind_ok_iff.1 h
    simp only [Compile.runIn_lift, Prod.mk.injEq] at h
    obtain ⟨ht, rfl⟩ := h
    obtain rfl := ternary_none_ok ht
    obtain ⟨ext₁, hl⟩ := node_lowers hx
    obtain ⟨ext₂, hr⟩ := node_lowers hy
    obtain ⟨ext₃, hbody⟩ := node_lowers hb
    rw [hcache] at ext₃
    exact ⟨(ext₁.trans ext₂).trans ext₃, fun d hd =>
      .guarded (comparison_lowers (hl d ((ext₂.trans ext₃).trans hd)) (hr d (ext₃.trans hd)) happ)
        (hbody d hd)⟩
  | .choice op l r yes no, e, ws, ws', h => by
    rw [node] at h
    obtain ⟨x, y, c, v₁, v₂, v₃, hx, hy, happ, hcache, h⟩ := comparison_ok h
    obtain ⟨t, v₄, ht, h⟩ := Compile.runIn_bind_ok_iff.1 h
    obtain ⟨f, v₅, hf, h⟩ := Compile.runIn_bind_ok_iff.1 h
    simp only [Compile.runIn_lift, Prod.mk.injEq] at h
    obtain ⟨htern, rfl⟩ := h
    obtain ⟨ext₁, hl⟩ := node_lowers hx
    obtain ⟨ext₂, hr⟩ := node_lowers hy
    obtain ⟨ext₃, hyes⟩ := node_lowers ht
    obtain ⟨ext₄, hno⟩ := node_lowers hf
    rw [hcache] at ext₃
    refine ⟨((ext₁.trans ext₂).trans ext₃).trans ext₄, fun d hd => ?_⟩
    -- a cache that knows the last answers knows the earlier ones, too
    have ext₄d := ext₄.trans hd
    have ext₃d := ext₃.trans ext₄d
    exact .choice (comparison_lowers (hl d (ext₂.trans ext₃d)) (hr d ext₃d) happ) (hyes d ext₄d)
      (hno d hd) htern
  | .call f args, e, ws, ws', h => by
    rw [node] at h
    split at h
    · simp at h
    · obtain ⟨terms, v₁, hargs, h⟩ := Compile.runIn_bind_ok_iff.1 h
      obtain ⟨t, v₂, ht, h⟩ := Compile.runIn_bind_ok_iff.1 h
      simp only [Compile.runIn_pure, Prod.mk.injEq, Except.ok.injEq] at h
      obtain ⟨rfl, rfl⟩ := h
      obtain ⟨ext₁, hall⟩ := arguments_lower hargs
      obtain ⟨ext₂, hcode, htype⟩ := resolve_ok ht
      refine ⟨ext₁.trans ext₂, fun d hd => ?_⟩
      -- the call is typed by what the cache has learned of it
      rw [hcode, htype d hd]
      exact .call (hall d (ext₂.trans hd))

/-- Arguments that have been lowered are in the relation. -/
theorem arguments_lower : ∀ {ns : List Node} {terms : List TypedTerm} {ws ws' : Workspace},
    (arguments env columns ns).runIn ws = (.ok terms, ws') →
      ws.cache.Extends ws'.cache ∧
        ∀ c, ws'.cache.Extends c → LowersAll (site env columns c) ns terms
  | [], terms, ws, ws', h => by
    rw [arguments] at h
    simp only [Compile.runIn_pure, Prod.mk.injEq, Except.ok.injEq] at h
    obtain ⟨rfl, rfl⟩ := h
    exact ⟨.refl _, fun _ _ => .nil⟩
  | n :: rest, terms, ws, ws', h => by
    rw [arguments] at h
    obtain ⟨e, v₁, he, h⟩ := Compile.runIn_bind_ok_iff.1 h
    obtain ⟨code, v₂, hcode, h⟩ := Compile.runIn_bind_ok_iff.1 h
    obtain ⟨more, v₃, hmore, h⟩ := Compile.runIn_bind_ok_iff.1 h
    simp only [Compile.runIn_lift, Compile.runIn_pure, Prod.mk.injEq, Except.ok.injEq] at hcode h
    obtain ⟨rfl, rfl⟩ := h
    obtain ⟨hcode, rfl⟩ := hcode
    obtain ⟨ext₁, hn⟩ := node_lowers he
    obtain ⟨ext₂, hrest⟩ := arguments_lower hmore
    exact ⟨ext₁.trans ext₂, fun d hd => .cons (hn d (ext₂.trans hd)) hcode (hrest d hd)⟩

end

/-! ## Types and shapes of lowered code -/

theorem arithmetic_type {op : Arithmetic} {a b : Term} {lt rt : DataType} {e : Element}
    (h : Operators.arithmetic op a b lt rt = .ok e) : e.type = op.type lt rt := by
  unfold Operators.arithmetic at h
  split at h
  -- a division of numbers is the case before
  case h_2 hop =>
    obtain rfl := Except.ok.inj h
    cases op <;> first | rfl | exact (hop rfl).elim
  case h_8 => cases h
  all_goals
    obtain rfl := Except.ok.inj h
    rfl

/-- A comparison that has code is one by operators or one by methods. -/
theorem comparison_code {op : Comparison} {a b : Term} {lt rt : DataType} {e : Element}
    (h : Operators.comparison op a b lt rt = .ok e) :
    (comparesInline lt rt = true ∧ comparesByMethod lt rt = false ∧
        e = .basic (.binary op.symbol a b) .boolean) ∨
      (comparesByMethod lt rt = true ∧ e = .basic (Operators.byMethod op a b) .boolean) := by
  unfold Operators.comparison at h
  split at h
  · exact .inl ⟨rfl, rfl, (Except.ok.inj h).symm⟩
  · exact .inr ⟨rfl, (Except.ok.inj h).symm⟩
  · exact .inr ⟨rfl, (Except.ok.inj h).symm⟩
  · split at h
    · exact .inl ⟨rfl, rfl, (Except.ok.inj h).symm⟩
    · cases h
  · cases h

/-- The element of a choice, with the type both branches agree on. -/
theorem ternary_some_ok {c y n e : Element} (h : Element.ternary c y (some n) = .ok e) :
    e = .choice c y n e.type ∧ c.type = .boolean ∧
      (y.type = n.type ∧ e.type = y.type ∨
        y.type ≠ n.type ∧ DataType.promote? y.type n.type = some e.type) := by
  unfold Element.ternary at h
  split at h
  · cases h
  · rename_i hc
    have hbool : c.type = .boolean := by simpa using hc
    dsimp only at h
    split at h
    · rename_i heq
      obtain rfl := Except.ok.inj h
      exact ⟨rfl, hbool, .inl ⟨heq, rfl⟩⟩
    · rename_i hne
      split at h
      · rename_i t ht
        obtain rfl := Except.ok.inj h
        exact ⟨rfl, hbool, .inr ⟨hne, ht⟩⟩
      · cases h

theorem promote?_isArray {t u v : DataType} (h : DataType.promote? t u = some v) :
    t.isArray = v.isArray ∧ u.isArray = v.isArray := by
  unfold DataType.promote? at h
  split at h <;> cases h <;> exact ⟨rfl, rfl⟩

theorem promote?_isNumeric {t u v : DataType} (h : DataType.promote? t u = some v) :
    t.isNumeric = v.isNumeric ∧ u.isNumeric = v.isNumeric := by
  unfold DataType.promote? at h
  split at h <;> cases h <;> exact ⟨rfl, rfl⟩

/-- The branches of a choice are vectors where the choice is one. -/
theorem branches_isArray {t u v : DataType}
    (h : t = u ∧ v = t ∨ t ≠ u ∧ DataType.promote? t u = some v) :
    t.isArray = v.isArray ∧ u.isArray = v.isArray := by
  obtain ⟨rfl, rfl⟩ | ⟨-, hpromote⟩ := h
  · exact ⟨rfl, rfl⟩
  · exact promote?_isArray hpromote

mutual

/-- The type of an element is the type of its expression. -/
theorem Lowers.type_eq {s : Site} : ∀ {n : Node} {e : Element}, Lowers s n e →
    e.type = n.type s.typing
  | .column c, _, .column ht hi => by simp [Element.type, Node.type, Site.typing, ht]
  | .constant c, _, .constant _ => by simp [Element.type, Node.type]
  | .arithmetic op l r, _, .arithmetic hl hr ha hb he => by
    rw [Node.type, arithmetic_type he, hl.type_eq, hr.type_eq]
  | .comparison op l r, _, .comparison hl hr ha hb he => by
    rw [Node.type]
    obtain ⟨-, -, rfl⟩ | ⟨-, rfl⟩ := comparison_code he <;> rfl
  | .guarded op l r body, _, .guarded hc hb => by
    rw [Node.type, Element.type, hb.type_eq]
  | .choice op l r yes no, _, .choice hc hy hn he => by
    obtain ⟨-, -, ⟨heq, ht⟩ | ⟨hne, ht⟩⟩ := ternary_some_ok he
    · rw [Node.type, ht, if_pos (by rw [← hy.type_eq, ← hn.type_eq, heq]), hy.type_eq]
    · rw [hy.type_eq, hn.type_eq] at hne ht
      rw [Node.type, if_neg hne, ht]
      rfl
  | .call f args, _, .call ha => by
    rw [Element.type, Node.type, ha.types_eq]
    rfl

theorem LowersAll.types_eq {s : Site} : ∀ {ns : List Node} {terms : List TypedTerm},
    LowersAll s ns terms → terms.map TypedTerm.type = Node.types s.typing ns
  | [], _, .nil => rfl
  | n :: rest, _, .cons hn hv hr => by
    rw [List.map_cons, Node.types, hn.type_eq, hr.types_eq]

end

end Lowering

end FactFold
