import FactFold.Proofs.Code.Parts
import FactFold.Proofs.Expr.References
import FactFold.Proofs.Lowering.Soundness

/-!
# Where the parts of lowered code come from

A part of the code of an expression is part of the read of a column the expression refers to, part
of the code of one of its constants, a call of one of its functions, or something that an operator
or a condition puts around them (`Lowers.origin`). In the other direction, every reference is read
(`Lowers.reads`).
-/

namespace FactFold

open Machine (bind_ok)

/-! ## Elements -/

namespace Element

/-- The parts of the code of an element. -/
def parts : Element → List Term
  | .basic code _ => code.parts
  | .guarded condition body => condition.parts ++ body.parts
  | .choice condition yes no _ => condition.parts ++ (yes.parts ++ no.parts)

/-- The value of an element has the parts of the element, and the choices between them. -/
theorem parts_value : ∀ {e : Element} {code : Term}, e.value = .ok code →
    (∀ p ∈ e.parts, p ∈ code.parts) ∧ ∀ p ∈ code.parts, p ∈ e.parts ∨ ∃ c y n, p = .cond c y n
  | .basic .., _, h => by
    obtain rfl := Except.ok.inj h
    exact ⟨fun _ hp => hp, fun _ hp => .inl hp⟩
  | .choice condition yes no _, _, h => by
    rw [value] at h
    obtain ⟨c, hc, h⟩ := bind_ok h
    obtain ⟨y, hy, h⟩ := bind_ok h
    obtain ⟨n, hn, h⟩ := bind_ok h
    obtain rfl := Except.ok.inj h
    obtain ⟨hc₁, hc₂⟩ := parts_value hc
    obtain ⟨hy₁, hy₂⟩ := parts_value hy
    obtain ⟨hn₁, hn₂⟩ := parts_value hn
    simp only [parts, Term.parts, List.mem_append, List.mem_cons]
    constructor
    · rintro p (hp | hp | hp)
      · exact .inr (.inl (hc₁ p hp))
      · exact .inr (.inr (.inl (hy₁ p hp)))
      · exact .inr (.inr (.inr (hn₁ p hp)))
    · rintro p (rfl | hp | hp | hp)
      · exact .inr ⟨c, y, n, rfl⟩
      · exact (hc₂ p hp).imp_left .inl
      · exact (hy₂ p hp).imp_left fun h => .inr (.inl h)
      · exact (hn₂ p hp).imp_left fun h => .inr (.inr h)

end Element

/-! ## Reads of columns -/

/-- The method of the fact record that reads a value of a type. -/
def recordMethod : DataType → String
  | .array _ => "readVector"
  | .scalar n => "read" ++ n.suffix
  | .boolean => "readBoolean"
  | _ => "read"

theorem mem_parts_readColumn {fact : Term} {i : Int} {t : DataType} {p : Term} :
    p ∈ (readColumn fact i t).parts ↔ p = readColumn fact i t ∨
      p = .invoke fact (recordMethod t) [.int i] ∨ p ∈ fact.parts ∨ p = .int i := by
  unfold readColumn recordMethod
  split <;> simp

/-! ## What operators add -/

namespace Operators

/-- Code that operators and conditions put around their operands; vectors are operated on by calls
of their helper class. -/
def isGlue (vectors : Bool) : Term → Bool
  | .binary .. | .unary .. | .cond .. | .lit .. => true
  | .cast type _ => type = "double"
  | .call f _ => vectors && ["plus", "minus", "scale"].any fun m => f = vectorClass ++ "." ++ m
  | .invoke (.ident _) .. => false
  | .invoke .. => true
  | _ => false

theorem isGlue_mono {vectors vectors' : Bool} (h : vectors = true → vectors' = true) {p : Term}
    (hp : isGlue vectors p = true) : isGlue vectors' p = true := by
  unfold isGlue at hp ⊢
  split at hp
  case h_6 =>
    obtain ⟨hv, hf⟩ := Bool.and_eq_true_iff.1 hp
    rw [h hv, hf]
    rfl
  all_goals exact hp

theorem mem_parts_vectorCall {m : String} {x y p : Term} :
    p ∈ (vectorCall m [x, y]).parts ↔ p = vectorCall m [x, y] ∨ p ∈ x.parts ∨ p ∈ y.parts := by
  simp [vectorCall]

theorem isGlue_vectorCall {m : String} (hm : m ∈ ["plus", "minus", "scale"]) (args : List Term) :
    isGlue true (vectorCall m args) = true := by
  simp only [isGlue, vectorCall, Bool.true_and, List.any_eq_true]
  exact ⟨m, hm, by simp⟩

/-- The parts of arithmetic are those of its operands and what stands around them. -/
theorem arithmetic_parts {op : Arithmetic} {a b : Term} {lt rt : DataType} {e : Element}
    (h : arithmetic op a b lt rt = .ok e) :
    (∀ p, p ∈ a.parts ∨ p ∈ b.parts → p ∈ e.parts) ∧
      ∀ p ∈ e.parts, p ∈ a.parts ∨ p ∈ b.parts ∨ isGlue (lt.isArray || rt.isArray) p = true := by
  unfold arithmetic at h
  split at h
  case h_8 => cases h
  all_goals
    obtain rfl := Except.ok.inj h
    simp only [Element.parts, mem_parts_vectorCall, Term.parts, List.mem_append, List.mem_cons,
      Term.parts_double, List.not_mem_nil, or_false]
    refine ⟨fun p hp => by tauto, ?_⟩
  -- of two numbers: a quotient has its dividend cast
  case h_1 =>
    rintro p (rfl | (rfl | hp) | hp)
    · exact .inr (.inr rfl)
    · exact .inr (.inr rfl)
    · exact .inl hp
    · exact .inr (.inl hp)
  case h_2 =>
    rintro p (rfl | hp | hp)
    · exact .inr (.inr rfl)
    · exact .inl hp
    · exact .inr (.inl hp)
  -- with vectors: the helper class takes the vector first
  case h_3 | h_4 | h_5 =>
    rintro p (rfl | hp | hp)
    · exact .inr (.inr (isGlue_vectorCall (by simp) _))
    · exact .inl hp
    · exact .inr (.inl hp)
  case h_6 =>
    rintro p (rfl | hp | hp)
    · exact .inr (.inr (isGlue_vectorCall (by simp) _))
    · exact .inr (.inl hp)
    · exact .inl hp
  -- a vector is divided by scaling it with the inverse
  case h_7 =>
    rintro p (rfl | hp | rfl | rfl | hp)
    · exact .inr (.inr (isGlue_vectorCall (by simp) _))
    · exact .inl hp
    · exact .inr (.inr rfl)
    · exact .inr (.inr rfl)
    · exact .inr (.inl hp)

/-- The parts of a comparison are those of its operands and what stands around them, unless a method
is called on a bare name. -/
theorem comparison_parts {op : Comparison} {a b : Term} {lt rt : DataType} {e : Element}
    (h : comparison op a b lt rt = .ok e) (ha : ∀ name, a ≠ .ident name) :
    (∀ p, p ∈ a.parts ∨ p ∈ b.parts → p ∈ e.parts) ∧
      ∀ p ∈ e.parts, p ∈ a.parts ∨ p ∈ b.parts ∨ isGlue false p = true := by
  have hmethod : ∀ m p, p ∈ (Term.invoke a m [b]).parts →
      p ∈ a.parts ∨ p ∈ b.parts ∨ isGlue false p = true := by
    intro m p hp
    simp only [Term.parts, Term.partsAll, List.append_nil, List.mem_cons, List.mem_append] at hp
    rcases hp with rfl | hp | hp
    · -- the receiver tells whether the call is one on a bare name
      right
      right
      cases a with
      | ident name => exact absurd rfl (ha name)
      | _ => rfl
    · exact .inl hp
    · exact .inr (.inl hp)
  obtain ⟨-, -, rfl⟩ | ⟨-, rfl⟩ := Lowering.comparison_code h
  · simp only [Element.parts, Term.parts, List.mem_append, List.mem_cons]
    refine ⟨fun p hp => .inr hp, ?_⟩
    rintro p (rfl | hp | hp)
    · exact .inr (.inr rfl)
    · exact .inl hp
    · exact .inr (.inl hp)
  · unfold byMethod
    split
    · exact ⟨fun p hp => by simpa [Element.parts] using .inr hp, hmethod "equals"⟩
    · refine ⟨fun p hp => by simpa [Element.parts] using .inr (.inr hp), fun p hp => ?_⟩
      rw [Element.parts, Term.parts, List.mem_cons] at hp
      rcases hp with rfl | hp
      · exact .inr (.inr rfl)
      · exact hmethod "equals" p hp
    · refine ⟨fun p hp => ?_, fun p hp => ?_⟩
      · rw [Element.parts, Term.parts, List.mem_cons, List.mem_append]
        exact .inr (.inl (by simpa using .inr hp))
      · rw [Element.parts, Term.parts, List.mem_cons, List.mem_append, Term.parts_int,
          List.mem_singleton] at hp
        rcases hp with rfl | hp | rfl
        · exact .inr (.inr rfl)
        · exact hmethod "compareTo" p hp
        · exact .inr (.inr rfl)

end Operators

/-! ## Origins -/

namespace Node

mutual

/-- Some operator of the expression has a vector as an operand. -/
def usesVectors (t : Typing) : Node → Bool
  | .column _ | .constant _ => false
  | .arithmetic _ l r | .comparison _ l r =>
    (l.type t).isArray || (r.type t).isArray || l.usesVectors t || r.usesVectors t
  | .guarded _ l r body =>
    (l.type t).isArray || (r.type t).isArray || l.usesVectors t || r.usesVectors t ||
      body.usesVectors t
  | .choice _ l r yes no =>
    (l.type t).isArray || (r.type t).isArray || l.usesVectors t || r.usesVectors t ||
      yes.usesVectors t || no.usesVectors t
  | .call _ args => usesVectorsAny t args

/-- Some operator of one of the expressions has a vector as an operand. -/
def usesVectorsAny (t : Typing) : List Node → Bool
  | [] => false
  | n :: rest => n.usesVectors t || usesVectorsAny t rest

end

/-- What the arguments of a call are made of, the call is made of. -/
theorem argument_made_of {k : Node} (t : Typing) : ∀ {args : List Node}, k ∈ args →
    k.references ⊆ (referenceLists args).flatten ∧ k.constants ⊆ constantsOf args ∧
      k.callees ⊆ calleesOf args ∧ (k.usesVectors t = true → usesVectorsAny t args = true)
  | n :: rest, hk => by
    simp only [referenceLists, constantsOf, calleesOf, usesVectorsAny, List.flatten_cons,
      Bool.or_eq_true]
    rcases List.mem_cons.1 hk with rfl | hk
    · exact ⟨List.subset_append_left .., List.subset_append_left .., List.subset_append_left ..,
        .inl⟩
    · obtain ⟨hr, hc, hf, hv⟩ := argument_made_of t hk
      exact ⟨List.subset_append_of_subset_right _ hr, List.subset_append_of_subset_right _ hc,
        List.subset_append_of_subset_right _ hf, fun h => .inr (hv h)⟩

/-- What the parts of an expression are made of, the expression is made of. -/
theorem child_made_of {n k : Node} (hk : k ∈ n.children) (t : Typing) :
    k.references ⊆ n.references ∧ k.constants ⊆ n.constants ∧ k.callees ⊆ n.callees ∧
      (k.usesVectors t = true → n.usesVectors t = true) := by
  cases n with
  | column | constant => cases hk
  | arithmetic op l r | comparison op l r =>
    rcases List.mem_pair.1 hk with rfl | rfl <;>
      simp +contextual [references, constants, callees, usesVectors]
  | guarded op l r body =>
    rcases List.mem_pair.1 hk with rfl | rfl <;>
      simp +contextual [references, constants, callees, usesVectors]
  | choice op l r yes no =>
    simp only [children, List.mem_cons, List.not_mem_nil, or_false] at hk
    rcases hk with rfl | rfl | rfl <;>
      simp only [references, constants, callees, usesVectors, List.subset_def, List.mem_append,
        Bool.or_eq_true] <;> tauto
  | call f args =>
    obtain ⟨hr, hc, hf, hv⟩ := argument_made_of t hk
    rw [references, constants, callees, usesVectors]
    exact ⟨hr, hc, List.subset_cons_of_subset _ hf, hv⟩

end Node

namespace Lowering

open Operators (isGlue)

variable {s : Site}

/-- Where a part of the code of an expression comes from. -/
inductive Origin (s : Site) (n : Node) (p : Term) : Prop
  | column {c : Column} {i : Nat} {t : DataType} (hc : c ∈ n.references)
      (ht : s.env.schema.lookup c.name = some t)
      (hi : s.columns.findIdx? (fun d => d.name = c.name) = some i)
      (hp : p ∈ (readColumn (.ident s.env.factName) i t).parts)
  | constant {c : Constant} (hc : c ∈ n.constants) (hp : p ∈ (constantTerm c).parts)
  | call {f : Function} {args : List Term} (hf : f ∈ n.callees) (hp : p = .call f.callee args)
  | glue (hp : isGlue (n.usesVectors s.typing) p = true)

theorem Origin.of_child {n k : Node} {p : Term} (hk : k ∈ n.children) (h : Origin s k p) :
    Origin s n p := by
  obtain ⟨hr, hc, hf, hv⟩ := Node.child_made_of hk s.typing
  cases h with
  | column hmem ht hi hp => exact .column (hr hmem) ht hi hp
  | constant hmem hp => exact .constant (hc hmem) hp
  | call hmem hp => exact .call (hf hmem) hp
  | glue hp => exact .glue (Operators.isGlue_mono hv hp)

/-- A choice between values is put around them. -/
theorem Origin.value {n : Node} {e : Element} {code p : Term} (h : ∀ p ∈ e.parts, Origin s n p)
    (hv : e.value = .ok code) (hp : p ∈ code.parts) : Origin s n p := by
  rcases (Element.parts_value hv).2 p hp with hp | ⟨c, y, n, rfl⟩
  · exact h p hp
  · exact .glue rfl

/-- The code of an expression is no bare name. -/
theorem Lowers.ne_ident {n : Node} {e : Element} {code : Term} (h : Lowers s n e)
    (hv : e.value = .ok code) : ∀ name, code ≠ .ident name := by
  cases h with
  | column =>
    obtain rfl := Except.ok.inj hv
    unfold readColumn
    split <;> nofun
  | constant c =>
    obtain rfl := Except.ok.inj hv
    cases c <;> nofun
  | arithmetic _ _ _ _ he =>
    unfold Operators.arithmetic at he
    split at he <;> cases he <;> obtain rfl := Except.ok.inj hv <;> nofun
  | comparison _ _ _ _ he =>
    obtain ⟨-, -, rfl⟩ | ⟨-, rfl⟩ := comparison_code he
    · obtain rfl := Except.ok.inj hv
      nofun
    · obtain rfl := Except.ok.inj hv
      unfold Operators.byMethod
      split <;> nofun
  | guarded => cases hv
  | choice _ _ _ he =>
    obtain ⟨c, y, n, -, -, -, rfl⟩ := ternary_value_ok he hv
    nofun
  | call =>
    obtain rfl := Except.ok.inj hv
    nofun

mutual

/-- **Every part of the code of an expression has an origin in the expression.** -/
theorem Lowers.origin : ∀ {n : Node} {e : Element}, Lowers s n e → ∀ p ∈ e.parts, Origin s n p
  | .column c, _, .column ht hi, p, hp => .column (by simp [Node.references]) ht hi hp
  | .constant c, _, .constant _, p, hp => .constant (by simp [Node.constants]) hp
  | .arithmetic op l r, _, .arithmetic hl hr ha hb he, p, hp => by
    rcases (Operators.arithmetic_parts he).2 p hp with hp | hp | hp
    · exact (Origin.value hl.origin ha hp).of_child (by simp [Node.children])
    · exact (Origin.value hr.origin hb hp).of_child (by simp [Node.children])
    · -- a call of the helper class shows in the types of the operands
      refine .glue (Operators.isGlue_mono (fun hv => ?_) hp)
      rw [hl.type_eq, hr.type_eq] at hv
      rw [Node.usesVectors, hv]
      rfl
  | .comparison op l r, _, .comparison hl hr ha hb he, p, hp => by
    rcases (Operators.comparison_parts he (hl.ne_ident ha)).2 p hp with hp | hp | hp
    · exact (Origin.value hl.origin ha hp).of_child (by simp [Node.children])
    · exact (Origin.value hr.origin hb hp).of_child (by simp [Node.children])
    · exact .glue (Operators.isGlue_mono (by simp) hp)
  | .guarded op l r body, _, .guarded hc hb, p, hp => by
    rcases List.mem_append.1 hp with hp | hp
    · exact (hc.origin p hp).of_child (by simp [Node.children])
    · exact (hb.origin p hp).of_child (by simp [Node.children])
  | .choice op l r yes no, _, .choice hc hy hn he, p, hp => by
    rw [(ternary_some_ok he).1, Element.parts, List.mem_append, List.mem_append] at hp
    rcases hp with hp | hp | hp
    · exact (hc.origin p hp).of_child (by simp [Node.children])
    · exact (hy.origin p hp).of_child (by simp [Node.children])
    · exact (hn.origin p hp).of_child (by simp [Node.children])
  | .call f args, _, .call ha, p, hp => by
    rw [Element.parts, Term.parts, List.mem_cons] at hp
    rcases hp with rfl | hp
    · exact .call (by simp [Node.callees]) rfl
    · obtain ⟨k, hk, horigin⟩ := ha.origin p hp
      exact horigin.of_child hk

theorem LowersAll.origin : ∀ {ns : List Node} {terms : List TypedTerm}, LowersAll s ns terms →
    ∀ p ∈ Term.partsAll (terms.map TypedTerm.code), ∃ n ∈ ns, Origin s n p
  | [], _, .nil, p, hp => by cases hp
  | n :: rest, _, .cons hn hv hr, p, hp => by
    rw [List.map_cons, Term.partsAll, List.mem_append] at hp
    rcases hp with hp | hp
    · exact ⟨n, by simp, Origin.value hn.origin hv hp⟩
    · obtain ⟨k, hk, horigin⟩ := hr.origin p hp
      exact ⟨k, by simp [hk], horigin⟩

end

/-- A constant vector is made from an array of literals. -/
theorem mem_parts_arrayTerm {n : Numeric} {items : List Scalar} {p : Term}
    (hp : p ∈ (arrayTerm n items).parts) : (∃ args, p = .new (vectorClass n) args) ∨
      (∃ literals, p = .newArray n.name literals) ∨ ∃ item, p = .lit n.name (.scalar item) := by
  simp only [arrayTerm, Term.parts, Term.partsAll, List.append_nil, List.mem_cons] at hp
  rcases hp with rfl | rfl | hp
  · exact .inl ⟨_, rfl⟩
  · exact .inr (.inl ⟨_, rfl⟩)
  · obtain ⟨x, hx, hp⟩ := Term.mem_partsAll.1 hp
    obtain ⟨item, -, rfl⟩ := List.mem_map.1 hx
    exact .inr (.inr ⟨item, by simpa using hp⟩)

/-- The code of a constant has no names in it. -/
theorem nameless_constantTerm (c : Constant) : ∀ p ∈ (constantTerm c).parts,
    (∀ name, p ≠ .ident name) ∧ ∀ x m args, p ≠ .invoke x m args := by
  have harray : ∀ (n : Numeric) (items : List Scalar), ∀ p ∈ (arrayTerm n items).parts,
      (∀ name, p ≠ .ident name) ∧ ∀ x m args, p ≠ .invoke x m args := by
    intro n items p hp
    obtain ⟨args, rfl⟩ | ⟨literals, rfl⟩ | ⟨item, rfl⟩ := mem_parts_arrayTerm hp
    all_goals simp
  cases c with
  | ints ns | longs ns => exact harray _ _
  | floats xs | doubles xs => exact harray _ _
  | date d => simp [constantTerm, Term.int]
  | _ => simp [constantTerm]

/-- The fact record is the only name in lowered code. -/
theorem Lowers.names {n : Node} {e : Element} (h : Lowers s n e) {name : String}
    (hp : .ident name ∈ e.parts) : name = s.env.factName := by
  cases h.origin _ hp with
  | column hc ht hi hp =>
    rcases mem_parts_readColumn.1 hp with hp | hp | hp | hp
    · unfold readColumn at hp
      split at hp <;> cases hp
    · cases hp
    · simpa using hp
    · cases hp
  | constant hc hp => exact absurd rfl ((nameless_constantTerm _ _ hp).1 name)
  | call hf hp => cases hp
  | glue hp => cases hp

/-- The read of a column is part of some code. -/
def ReadIn (s : Site) (c : Column) (parts : List Term) : Prop :=
  ∃ i t, s.env.schema.lookup c.name = some t ∧
    s.columns.findIdx? (fun d => d.name = c.name) = some i ∧
    ∀ p ∈ (readColumn (.ident s.env.factName) i t).parts, p ∈ parts

theorem ReadIn.mono {c : Column} {ps qs : List Term} (h : ReadIn s c ps) (hps : ∀ p ∈ ps, p ∈ qs) :
    ReadIn s c qs := by
  obtain ⟨i, t, ht, hi, hparts⟩ := h
  exact ⟨i, t, ht, hi, fun p hp => hps p (hparts p hp)⟩

mutual

/-- **Every column an expression refers to is read by its code.** -/
theorem Lowers.reads : ∀ {n : Node} {e : Element}, Lowers s n e → ∀ c ∈ n.references,
    ReadIn s c e.parts
  | .column d, _, .column ht hi, c, hc => by
    rw [Node.references, List.mem_singleton] at hc
    subst hc
    exact ⟨_, _, ht, hi, fun _ hp => hp⟩
  | .constant d, _, .constant _, c, hc => by cases hc
  | .arithmetic op l r, _, .arithmetic hl hr ha hb he, c, hc => by
    have hparts := (Operators.arithmetic_parts he).1
    rw [Node.references, List.mem_append] at hc
    rcases hc with hc | hc
    · exact (hl.reads c hc).mono fun p hp => hparts p (.inl ((Element.parts_value ha).1 p hp))
    · exact (hr.reads c hc).mono fun p hp => hparts p (.inr ((Element.parts_value hb).1 p hp))
  | .comparison op l r, _, .comparison hl hr ha hb he, c, hc => by
    have hparts := (Operators.comparison_parts he (hl.ne_ident ha)).1
    rw [Node.references, List.mem_append] at hc
    rcases hc with hc | hc
    · exact (hl.reads c hc).mono fun p hp => hparts p (.inl ((Element.parts_value ha).1 p hp))
    · exact (hr.reads c hc).mono fun p hp => hparts p (.inr ((Element.parts_value hb).1 p hp))
  | .guarded op l r body, _, .guarded hcond hb, c, hc => by
    rw [Node.references, List.mem_append] at hc
    rcases hc with hc | hc
    · exact (hcond.reads c (by rwa [Node.references])).mono fun p hp => List.mem_append_left _ hp
    · exact (hb.reads c hc).mono fun p hp => List.mem_append_right _ hp
  | .choice op l r yes no, _, .choice hcond hy hn he, c, hc => by
    rw [(ternary_some_ok he).1, Element.parts]
    rw [Node.references, List.mem_append, List.mem_append] at hc
    rcases hc with (hc | hc) | hc
    · exact (hcond.reads c (by rwa [Node.references])).mono fun p hp => List.mem_append_left _ hp
    · exact (hy.reads c hc).mono fun p hp => List.mem_append_right _ (List.mem_append_left _ hp)
    · exact (hn.reads c hc).mono fun p hp => List.mem_append_right _ (List.mem_append_right _ hp)
  | .call f args, _, .call ha, c, hc => by
    rw [Node.references] at hc
    exact (ha.reads c hc).mono fun p hp => List.mem_cons_of_mem _ hp

theorem LowersAll.reads : ∀ {ns : List Node} {terms : List TypedTerm}, LowersAll s ns terms →
    ∀ c ∈ (Node.referenceLists ns).flatten, ReadIn s c (Term.partsAll (terms.map TypedTerm.code))
  | [], _, .nil, c, hc => by cases hc
  | n :: rest, _, .cons hn hv hr, c, hc => by
    rw [Node.referenceLists, List.flatten_cons, List.mem_append] at hc
    rw [List.map_cons, Term.partsAll]
    rcases hc with hc | hc
    · exact (hn.reads c hc).mono fun p hp =>
        List.mem_append_left _ ((Element.parts_value hv).1 p hp)
    · exact (hr.reads c hc).mono fun p hp => List.mem_append_right _ hp

end

/-! ## Columns are told apart by name -/

/-- In the code `e` of an expression, a reference to a column is a read of the record at place `i`,
where the first reference of its name stands among the columns. -/
structure ReadAt (env : LoweringEnv) (n : Node) (e : Element) (c : Column) (i : Nat)
    (t : DataType) : Prop where
  type : env.schema.lookup c.name = some t
  lowered : ∀ ws, (node env n.columns (.column c)).runIn ws =
    (.ok (.basic (readColumn (.ident env.factName) i t) t), ws)
  read : readColumn (.ident env.factName) i t ∈ e.parts
  column : n.columns[i]? = n.references.find? fun d => d.name = c.name

theorem ReadAt.of_reference {env : LoweringEnv} {n : Node} {e : Element} {ws ws' : Workspace}
    (h : (n.lower env).runIn ws = (.ok e, ws')) {c : Column} (hc : c ∈ n.references) :
    ∃ i t, ReadAt env n e c i t := by
  have hlowers := (node_lowers h).2 _ (.refl _)
  obtain ⟨i, t, ht, hi, hparts⟩ := hlowers.reads c hc
  have hplace := Node.findIdx?_columns_iff.1 hi
  rw [List.getElem?_map] at hplace
  obtain ⟨d, hd, hname⟩ := Option.map_eq_some_iff.1 hplace
  refine ⟨i, t, ht, fun ws => ?_, hparts _ (Term.self_mem_parts _), ?_⟩
  · -- the site of the relation has the schema of `env` and the columns of `n`
    have ht : env.schema.lookup c.name = some t := ht
    have hi : n.columns.findIdx? (fun d => d.name = c.name) = some i := hi
    rw [node, Lowering.column]
    simp only [ht, hi]
    rfl
  · have hfirst := Node.find?_of_mem_columns (List.mem_of_getElem? hd)
    rw [hname] at hfirst
    rw [hd, hfirst]

theorem ReadAt.place {env : LoweringEnv} {n : Node} {e : Element} {c : Column} {i : Nat}
    {t : DataType} (h : ReadAt env n e c i t) (hc : c ∈ n.references) :
    (n.columns.map Column.name)[i]? = some c.name := by
  obtain ⟨d, hd⟩ : ∃ d, n.references.find? (fun d => d.name = c.name) = some d :=
    Option.isSome_iff_exists.1 (List.find?_isSome.2 ⟨c, hc, by simp⟩)
  have hname : d.name = c.name := by simpa using List.find?_some hd
  rw [List.getElem?_map, h.column, hd, Option.map_some, hname]

end Lowering

open Lowering in
/-- **Columns are told apart by name, whatever their tables.** In an expression that has been
lowered, every reference is a read of the record at the place that the first reference of its name
has among the columns; so two references read different places exactly when they have different
names. -/
theorem Node.lower_tells_names_apart {env : LoweringEnv} {n : Node} {e : Element}
    {ws ws' : Workspace} (h : (n.lower env).runIn ws = (.ok e, ws')) {c d : Column}
    (hc : c ∈ n.references) (hd : d ∈ n.references) :
    ∃ i j t u, ReadAt env n e c i t ∧ ReadAt env n e d j u ∧ (i ≠ j ↔ c.name ≠ d.name) := by
  obtain ⟨i, t, hi⟩ := ReadAt.of_reference h hc
  obtain ⟨j, u, hj⟩ := ReadAt.of_reference h hd
  have hplace := hi.place hc
  have hplace' := hj.place hd
  refine ⟨i, j, t, u, hi, hj, not_congr ⟨fun hij => ?_, fun hname => ?_⟩⟩
  · subst hij
    exact Option.some.inj (hplace.symm.trans hplace')
  · -- a name has one place among the columns
    rw [← hname] at hplace'
    have hfound := Node.findIdx?_columns_iff.2 hplace
    have hfound' := Node.findIdx?_columns_iff.2 hplace'
    exact Option.some.inj (hfound.symm.trans hfound')

/-- The sum of two columns. -/
def Node.plus (c d : Column) : Node := .arithmetic .add (.column c) (.column d)

open Lowering in
/-- Two columns of different tables under different names. -/
theorem Node.lower_tells_names_apart_tables :
    ∃ i j t u, ReadAt { schema := [("a", .int), ("b", .int)] } (.plus ⟨"a", "t"⟩ ⟨"b", "u"⟩)
        (.basic (.binary "+" (readColumn (.ident "fact") 0 .int) (readColumn (.ident "fact") 1 .int))
          .int) ⟨"a", "t"⟩ i t ∧
      ReadAt { schema := [("a", .int), ("b", .int)] } (.plus ⟨"a", "t"⟩ ⟨"b", "u"⟩)
        (.basic (.binary "+" (readColumn (.ident "fact") 0 .int) (readColumn (.ident "fact") 1 .int))
          .int) ⟨"b", "u"⟩ j u ∧ (i ≠ j ↔ "a" ≠ "b") :=
  Node.lower_tells_names_apart (n := .plus ⟨"a", "t"⟩ ⟨"b", "u"⟩) (c := ⟨"a", "t"⟩)
    (d := ⟨"b", "u"⟩)
    (show (Node.lower _ _).runIn {} = (.ok _, {}) from rfl)
    (by simp [plus, references]) (by simp [plus, references])

/-- Two columns of different tables under one name: both are read at the place of the first, and the
second is not among the columns. -/
theorem Node.lower_plus_sameName :
    ((Node.plus ⟨"a", "t"⟩ ⟨"a", "u"⟩).lower { schema := [("a", .int)] }).runIn {} =
      (.ok (.basic (.binary "+" (readColumn (.ident "fact") 0 .int)
        (readColumn (.ident "fact") 0 .int)) .int), {}) ∧
    (Node.plus ⟨"a", "t"⟩ ⟨"a", "u"⟩).references = [⟨"a", "t"⟩, ⟨"a", "u"⟩] ∧
    (Node.plus ⟨"a", "t"⟩ ⟨"a", "u"⟩).columns = [⟨"a", "t"⟩] := by
  refine ⟨rfl, ?_, ?_⟩ <;> simp [plus, references, columns, mergeColumns, firstByName]

end FactFold
