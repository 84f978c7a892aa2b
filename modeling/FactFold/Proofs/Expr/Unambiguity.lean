import FactFold.Proofs.Expr.Grammar

/-!
# The grammar is unambiguous

Phrases with the same tokens are the same phrase (`Phrase.eq_of_tokens`), so that a text has at most
one derivation. The induction needs more than that: two phrases that start the same text are equal
when neither could go on with the token that follows it (`Unambiguous`).

Chains are the hard case, since their longer part stands on the left while the tokens are compared
from the left. `Grows` reads a chain the other way, from its first operand to the right.
-/

namespace FactFold.Grammar

/-! ## Phrases that start a text

The statement is bounded by the number of tokens: inside parentheses there are fewer of them, and all
other categories follow from primaries at the same bound. -/

/-- Phrases of up to `k` tokens are determined by a text they start. -/
def Unambiguous (c : Category) (k : Nat) : Prop :=
  ∀ (d e : Phrase c) (x y : List String), d.tokens.length ≤ k → Stops c x → Stops c y →
    d.tokens ++ x = e.tokens ++ y → d = e ∧ x = y

/-! ## Chains -/

/-- The second chain is the first, followed by the signs and operands whose tokens are given. -/
inductive Grows {l : Level} : Phrase (.chain l) → List String → Phrase (.chain l) → Prop where
  | refl (a : Phrase (.chain l)) : Grows a [] a
  | step {a : Phrase (.chain l)} {t : String} {op : Arithmetic} {h : (t, op) ∈ l.signs}
      {b : Phrase l.operand} {ts : List String} {e : Phrase (.chain l)} :
      Grows (.joined a t op h b) ts e → Grows a (t :: (b.tokens ++ ts)) e

namespace Grows

variable {l : Level} {a d e : Phrase (.chain l)} {ts us x y : List String}

theorem tokens (h : Grows a ts d) : d.tokens = a.tokens ++ ts := by
  induction h with
  | refl a => simp
  | step _ ih => simp [ih, Phrase.tokens]

theorem joined (hg : Grows a ts d) {t : String} {op : Arithmetic} (h : (t, op) ∈ l.signs)
    (b : Phrase l.operand) : Grows a (ts ++ t :: b.tokens) (.joined d t op h b) := by
  induction hg with
  | refl a => simpa using Grows.step (h := h) (.refl (.joined a t op h b))
  | step _ ih => simpa using Grows.step ih

/-- A chain starts with its first operand; it grows from there to the right. -/
theorem of_first : (d : Phrase (.chain l)) → ∃ a ts, Grows (.first a) ts d
  | .first a => ⟨a, [], .refl _⟩
  | .joined d t op h b => by
    obtain ⟨a, ts, hg⟩ := of_first d
    exact ⟨a, _, hg.joined h b⟩

/-- Each operand on the way is over where the next sign stands. -/
theorem stops (h : Grows a ts d) (hx : Stops (.chain l) x) : Stops l.operand (ts ++ x) := by
  cases h with
  | refl => exact hx.operand
  | step => exact .sign ‹_› _

theorem unique {k : Nat} (hu : Unambiguous l.operand k) (hd : Grows a ts d) (he : Grows a us e)
    (hk : ts.length ≤ k) (hx : Stops (.chain l) x) (hy : Stops (.chain l) y)
    (heq : ts ++ x = us ++ y) : d = e ∧ x = y := by
  induction hd generalizing us with
  | refl a =>
    cases he with
    | refl => exact ⟨rfl, heq⟩
    | step =>
      subst heq
      exact absurd hx (not_stops_sign ‹_› _)
  | @step a t op h b ts d hd ih =>
    cases he with
    | refl =>
      obtain rfl := heq
      exact absurd hy (not_stops_sign h _)
    | @step _ t' op' h' b' us _ he =>
      simp only [List.cons_append, List.append_assoc, List.cons.injEq] at heq
      obtain ⟨rfl, heq⟩ := heq
      obtain rfl := sign_unique h h'
      simp only [List.length_cons, List.length_append] at hk
      obtain ⟨rfl, hrest⟩ := hu b b' _ _ (by omega) (hd.stops hx) (he.stops hy) heq
      exact ih he (by omega) hrest

end Grows

theorem unambiguous_chain {l : Level} {k : Nat} (hu : Unambiguous l.operand k) :
    Unambiguous (.chain l) k := by
  intro d e x y hk hx hy heq
  obtain ⟨a, ts, hd⟩ := Grows.of_first d
  obtain ⟨b, us, he⟩ := Grows.of_first e
  simp only [hd.tokens, he.tokens, Phrase.tokens, List.append_assoc] at heq
  simp only [hd.tokens, Phrase.tokens, List.length_append] at hk
  obtain ⟨rfl, hrest⟩ := hu a b _ _ (by omega) (hd.stops hx) (he.stops hy) heq
  exact hd.unique hu he (by omega) hx hy hrest

theorem unambiguous_comparison {k : Nat} (hu : Unambiguous (.chain .sum) k) :
    Unambiguous .comparison k := by
  have hsign {t : String} {op : Comparison} (h : Token.comparison? t = some op) :
      t ∈ Category.comparison.continuations ∧ t ∉ (Category.chain .sum).continuations :=
    comparison?_isSome_iff.1 (by rw [h]; rfl)
  intro d e x y hk hx hy heq
  cases d with
  | lone a =>
    cases e with
    | lone b =>
      obtain ⟨rfl, hrest⟩ := hu a b x y hk hx.sum hy.sum heq
      exact ⟨rfl, hrest⟩
    | compared b t op h b' =>
      simp only [Phrase.tokens, List.append_assoc, List.cons_append] at heq
      -- the sums agree, and then the comparison sign would stand where the phrase is over
      obtain ⟨-, rfl⟩ := hu a b x _ hk hx.sum (stops_cons.2 (hsign h).2) heq
      exact absurd (hsign h).1 (stops_cons.1 hx)
  | compared a t op h a' =>
    simp only [Phrase.tokens, List.length_append, List.length_cons] at hk
    simp only [Phrase.tokens, List.append_assoc, List.cons_append] at heq
    cases e with
    | lone b =>
      obtain ⟨-, rfl⟩ := hu a b _ y (by omega) (stops_cons.2 (hsign h).2) hy.sum heq
      exact absurd (hsign h).1 (stops_cons.1 hy)
    | compared b t' op' h' b' =>
      simp only [Phrase.tokens, List.append_assoc, List.cons_append] at heq
      obtain ⟨rfl, hsigns⟩ := hu a b _ _ (by omega) (stops_cons.2 (hsign h).2)
        (stops_cons.2 (hsign h').2) heq
      obtain ⟨rfl, hright⟩ := List.cons.inj hsigns
      obtain rfl : op = op' := Option.some.inj (h.symm.trans h')
      obtain ⟨rfl, hrest⟩ := hu a' b' x y (by omega) hx.sum hy.sum hright
      exact ⟨rfl, hrest⟩

theorem unambiguous_unary {k : Nat} (hu : Unambiguous .primary k) : Unambiguous .unary k
  | .bare a, .bare b, x, y, hk, hx, hy, heq => by
    obtain ⟨rfl, hrest⟩ := hu a b x y hk hx hy heq
    exact ⟨rfl, hrest⟩
  | .bare a, .negated b, x, y, hk, hx, hy, heq => by
    obtain ⟨t, ts, ha, ht, -⟩ := a.primary_head
    simp only [Phrase.tokens, ha, List.cons_append, List.cons.injEq] at heq
    exact absurd heq.1 ht
  | .negated a, .bare b, x, y, hk, hx, hy, heq => by
    obtain ⟨t, ts, hb, ht, -⟩ := b.primary_head
    simp only [Phrase.tokens, hb, List.cons_append, List.cons.injEq] at heq
    exact absurd heq.1.symm ht
  | .negated a, .negated b, x, y, hk, hx, hy, heq => by
    simp only [Phrase.tokens, List.length_cons] at hk
    obtain ⟨rfl, hrest⟩ :=
      unambiguous_unary hu a b x y (by omega) hx hy (List.cons.inj heq).2
    exact ⟨rfl, hrest⟩

/-! ## Arguments -/

theorem stops_remaining (args : List (Phrase .comparison)) (x : List String) :
    Stops .comparison (Phrase.remaining args ++ x) := by
  cases args with
  | nil => exact stops_cons.2 (by decide)
  | cons => exact stops_cons.2 (by decide)

theorem remaining_unique {k : Nat} (hu : Unambiguous .comparison k) {x y : List String}
    {as bs : List (Phrase .comparison)} (hk : (Phrase.remaining as).length ≤ k)
    (heq : Phrase.remaining as ++ x = Phrase.remaining bs ++ y) : as = bs ∧ x = y := by
  induction as generalizing bs with
  | nil =>
    cases bs with
    | nil => exact ⟨rfl, (List.cons.inj heq).2⟩
    | cons b bs => exact absurd (List.cons.inj heq).1 (by decide)
  | cons a as ih =>
    cases bs with
    | nil => exact absurd (List.cons.inj heq).1 (by decide)
    | cons b bs =>
      simp only [Phrase.remaining, List.length_cons, List.length_append] at hk
      simp only [Phrase.remaining, List.cons_append, List.append_assoc, List.cons.injEq] at heq
      obtain ⟨rfl, hrest⟩ := hu a b _ _ (by omega) (stops_remaining as x) (stops_remaining bs y) heq.2
      obtain ⟨rfl, hxy⟩ := ih (by omega) hrest
      exact ⟨rfl, hxy⟩

theorem listed_unique {k : Nat} (hu : Unambiguous .comparison k) {x y : List String}
    {as bs : List (Phrase .comparison)} (hk : (Phrase.listed as).length ≤ k)
    (heq : Phrase.listed as ++ x = Phrase.listed bs ++ y) : as = bs ∧ x = y := by
  -- no argument starts with the parenthesis that closes an empty list
  have hempty {b : Phrase .comparison} {ts us : List String}
      (h : ")" :: ts = b.tokens ++ us) : False := by
    obtain ⟨t, ts', hb, ht⟩ := b.head_ne
    simp only [hb, List.cons_append, List.cons.injEq] at h
    exact ht h.1.symm
  cases as with
  | nil =>
    cases bs with
    | nil => exact ⟨rfl, (List.cons.inj heq).2⟩
    | cons b bs => exact (hempty (by simpa [Phrase.listed] using heq)).elim
  | cons a as =>
    cases bs with
    | nil => exact (hempty (by simpa [Phrase.listed] using heq.symm)).elim
    | cons b bs =>
      simp only [Phrase.listed, List.length_append] at hk
      simp only [Phrase.listed, List.append_assoc] at heq
      obtain ⟨rfl, hrest⟩ := hu a b _ _ (by omega) (stops_remaining as x) (stops_remaining bs y) heq
      obtain ⟨rfl, hxy⟩ := remaining_unique hu (by omega) hrest
      exact ⟨rfl, hxy⟩

/-! ## Primaries -/

/-- The forms of a primary that its first two tokens tell apart. -/
inductive Shape where
  | enclosed
  | number
  | string
  | column
  | cases
  | condition
  | call

/-- The form of the primary that a text starts with. -/
def Shape.ofTokens : List String → Shape
  | [] => .column
  | t :: ts =>
    if t = "(" then .enclosed
    else if Token.isNumber t then .number
    else if (Token.string? t).isSome then .string
    else if Token.sameWord t "CASE" then .cases
    else if ts.head? = some "(" then if Token.sameWord t "IF" then .condition else .call
    else .column

/-- The form of a primary. -/
def Phrase.shape : Phrase .primary → Shape
  | .enclosed _ => .enclosed
  | .number .. => .number
  | .string .. => .string
  | .column .. => .column
  | .guarded .. => .cases
  | .choice .. => .cases
  | .condition .. => .condition
  | .call .. => .call

theorem ne_parenthesis_of_isNaming {t : String} (h : Token.isNaming t = true) : t ≠ "(" := by
  rintro rfl
  exact absurd h (by decide)

/-- The first two tokens tell the form of a primary. -/
theorem shape_ofTokens (d : Phrase .primary) {x : List String} (hx : Stops .primary x) :
    Shape.ofTokens (d.tokens ++ x) = d.shape := by
  have hnaming {t : String} (h : Token.isNaming t = true) (ts : List String) :
      Shape.ofTokens (t :: ts) = if Token.sameWord t "CASE" then .cases
        else if ts.head? = some "(" then if Token.sameWord t "IF" then .condition else .call
        else .column := by
    simp [Shape.ofTokens, ne_parenthesis_of_isNaming h, Token.isNumber_of_isNaming h,
      Token.string?_of_isNaming h]
  cases d with
  | enclosed a => rfl
  | number t c h hc =>
    have hne : t ≠ "(" := by
      rintro rfl
      exact absurd h (by decide)
    simp [Shape.ofTokens, Phrase.tokens, Phrase.shape, hne, h]
  | string t c h =>
    have hne : t ≠ "(" := by
      rintro rfl
      cases h
    simp [Shape.ofTokens, Phrase.tokens, Phrase.shape, hne, h, Token.isNumber_of_string? h]
  | column t c h =>
    have hcase : Token.sameWord t "CASE" = false := by
      have := Token.isKeyword_of_column? h
      simp_all [Token.isKeyword, Token.keywords]
    have hopen : x.head? ≠ some "(" := fun ht => hx "(" ht (by decide)
    simp [Phrase.tokens, hnaming (Token.isNaming_of_column? h), hcase, hopen, Phrase.shape]
  | guarded k => simp [Phrase.tokens, hnaming (isNaming_of_caseWord k), k.2, Phrase.shape]
  | choice k => simp [Phrase.tokens, hnaming (isNaming_of_caseWord k), k.2, Phrase.shape]
  | condition w args =>
    have hcase : Token.sameWord w.1 "CASE" = false := by
      rw [Bool.eq_false_iff]
      exact fun h => absurd (Token.sameWord_trans w.2 h) (by decide)
    simp [Phrase.tokens, hnaming (isNaming_of_ifWord w), hcase, w.2, Phrase.shape]
  | call t h args =>
    have hname := Token.isNaming_of_isName (isName_of_isCallee h)
    simp only [Token.isCallee, Bool.and_eq_true, Bool.not_eq_true'] at h
    simp [Phrase.tokens, hnaming hname, h.1.2, h.2, Phrase.shape]

/-- Up to its first branch a case expression is determined. -/
theorem cases_unique {k : Nat} (hc : Unambiguous .comparison k) (hs : Unambiguous (.chain .sum) k)
    {w w' : Word "CASE"} {v v' : Word "WHEN"} {c c' : Phrase .comparison} {u u' : Word "THEN"}
    {a a' : Phrase (.chain .sum)} {x y : List String} (hk : c.tokens.length + a.tokens.length ≤ k)
    (hx : Stops .comparison x) (hy : Stops .comparison y)
    (heq : w.1 :: v.1 :: (c.tokens ++ u.1 :: (a.tokens ++ x)) =
      w'.1 :: v'.1 :: (c'.tokens ++ u'.1 :: (a'.tokens ++ y))) :
    w = w' ∧ v = v' ∧ c = c' ∧ u = u' ∧ a = a' ∧ x = y := by
  simp only [List.cons.injEq] at heq
  obtain ⟨hw, hv, hcondition⟩ := heq
  obtain ⟨rfl, hthen⟩ := hc c c' _ _ (by omega) (.word u.2 (by decide) _)
    (.word u'.2 (by decide) _) hcondition
  obtain ⟨hu, hbranch⟩ := List.cons.inj hthen
  obtain ⟨rfl, hxy⟩ := hs a a' x y (by omega) hx.sum hy.sum hbranch
  exact ⟨Subtype.ext hw, Subtype.ext hv, rfl, Subtype.ext hu, rfl, hxy⟩

theorem unambiguous_primary {k : Nat} (hc : Unambiguous .comparison k)
    (hs : Unambiguous (.chain .sum) k) : Unambiguous .primary (k + 1) := by
  intro d e x y hk hx hy heq
  have hshape : d.shape = e.shape := by rw [← shape_ofTokens d hx, ← shape_ofTokens e hy, heq]
  cases d with
  | enclosed a =>
    cases e with
    | enclosed b =>
      simp only [Phrase.tokens, List.length_cons, List.length_append] at hk
      simp only [Phrase.tokens, List.cons_append, List.append_assoc, List.cons.injEq,
        List.nil_append, true_and] at heq
      obtain ⟨rfl, hrest⟩ := hc a b _ _ (by omega) (stops_cons.2 (by decide))
        (stops_cons.2 (by decide)) heq
      exact ⟨rfl, (List.cons.inj hrest).2⟩
    | _ => cases hshape
  | number t c h hc =>
    cases e with
    | number t' c' h' hc' =>
      obtain ⟨rfl, hxy⟩ := List.cons.inj heq
      obtain rfl : c = c' := Except.ok.inj (hc.symm.trans hc')
      exact ⟨rfl, hxy⟩
    | _ => cases hshape
  | string t c h =>
    cases e with
    | string t' c' h' =>
      obtain ⟨rfl, hxy⟩ := List.cons.inj heq
      obtain rfl : c = c' := Except.ok.inj (Option.some.inj (h.symm.trans h'))
      exact ⟨rfl, hxy⟩
    | _ => cases hshape
  | column t c h =>
    cases e with
    | column t' c' h' =>
      obtain ⟨rfl, hxy⟩ := List.cons.inj heq
      obtain rfl : c = c' := Option.some.inj (h.symm.trans h')
      exact ⟨rfl, hxy⟩
    | _ => cases hshape
  | guarded w v c u a z =>
    simp only [Phrase.tokens, List.length_cons, List.length_append] at hk
    simp only [Phrase.tokens, List.cons_append, List.append_assoc, List.nil_append] at heq
    cases e with
    | guarded w' v' c' u' a' z' =>
      simp only [Phrase.tokens, List.cons_append, List.append_assoc, List.nil_append] at heq
      obtain ⟨rfl, rfl, rfl, rfl, rfl, hrest⟩ := cases_unique hc hs (by omega)
        (.word z.2 (by decide) _) (.word z'.2 (by decide) _) heq
      obtain ⟨hz, hxy⟩ := List.cons.inj hrest
      obtain rfl := Subtype.ext hz
      exact ⟨rfl, hxy⟩
    | choice w' v' c' u' a' o' b' z' =>
      simp only [Phrase.tokens, List.cons_append, List.append_assoc, List.nil_append] at heq
      obtain ⟨-, -, -, -, -, hrest⟩ := cases_unique hc hs (by omega)
        (.word z.2 (by decide) _) (.word o'.2 (by decide) _) heq
      -- one token would spell both `END` and `ELSE`
      have hword := Token.sameWord_trans ((List.cons.inj hrest).1 ▸ z.2) o'.2
      exact absurd hword (by decide)
    | _ => cases hshape
  | choice w v c u a o b z =>
    simp only [Phrase.tokens, List.length_cons, List.length_append] at hk
    simp only [Phrase.tokens, List.cons_append, List.append_assoc, List.nil_append] at heq
    cases e with
    | guarded w' v' c' u' a' z' =>
      simp only [Phrase.tokens, List.cons_append, List.append_assoc, List.nil_append] at heq
      obtain ⟨-, -, -, -, -, hrest⟩ := cases_unique hc hs (by omega)
        (.word o.2 (by decide) _) (.word z'.2 (by decide) _) heq
      have hword := Token.sameWord_trans ((List.cons.inj hrest).1 ▸ o.2) z'.2
      exact absurd hword (by decide)
    | choice w' v' c' u' a' o' b' z' =>
      simp only [Phrase.tokens, List.cons_append, List.append_assoc, List.nil_append] at heq
      obtain ⟨rfl, rfl, rfl, rfl, rfl, hrest⟩ := cases_unique hc hs (by omega)
        (.word o.2 (by decide) _) (.word o'.2 (by decide) _) heq
      obtain ⟨ho, hno⟩ := List.cons.inj hrest
      obtain rfl := Subtype.ext ho
      obtain ⟨rfl, hend⟩ := hs b b' _ _ (by omega) (Stops.word z.2 (by decide) x).sum
        (Stops.word z'.2 (by decide) y).sum hno
      obtain ⟨hz, hxy⟩ := List.cons.inj hend
      obtain rfl := Subtype.ext hz
      exact ⟨rfl, hxy⟩
    | _ => cases hshape
  | condition w as =>
    simp only [Phrase.tokens, List.length_cons] at hk
    cases e with
    | condition w' bs =>
      simp only [Phrase.tokens, List.cons_append, List.cons.injEq, true_and] at heq
      obtain ⟨rfl, hxy⟩ := listed_unique hc (by omega) heq.2
      obtain rfl := Subtype.ext heq.1
      exact ⟨rfl, hxy⟩
    | _ => cases hshape
  | call t h as =>
    simp only [Phrase.tokens, List.length_cons] at hk
    cases e with
    | call t' h' bs =>
      simp only [Phrase.tokens, List.cons_append, List.cons.injEq, true_and] at heq
      obtain ⟨rfl, hargs⟩ := heq
      obtain ⟨rfl, hxy⟩ := listed_unique hc (by omega) hargs
      exact ⟨rfl, hxy⟩
    | _ => cases hshape

/-! ## All categories -/

theorem unambiguous_of_primary {k : Nat} (h : Unambiguous .primary k) :
    (c : Category) → Unambiguous c k := by
  have hproduct : Unambiguous (.chain .product) k := unambiguous_chain (unambiguous_unary h)
  have hsum : Unambiguous (.chain .sum) k := unambiguous_chain hproduct
  intro c
  cases c with
  | comparison => exact unambiguous_comparison hsum
  | chain l =>
    cases l with
    | sum => exact hsum
    | product => exact hproduct
  | unary => exact unambiguous_unary h
  | primary => exact h

theorem unambiguous (c : Category) (k : Nat) : Unambiguous c k := by
  refine unambiguous_of_primary ?_ c
  induction k with
  | zero => exact fun d _ _ _ hk => absurd d.length_pos (by omega)
  | succ k ih =>
    -- inside a primary every phrase is shorter, which is what the bound is for
    exact unambiguous_primary (unambiguous_of_primary ih .comparison)
      (unambiguous_of_primary ih (.chain .sum))

/-- The tokens determine the phrase. -/
theorem Phrase.eq_of_tokens {c : Category} {d e : Phrase c} (h : d.tokens = e.tokens) : d = e :=
  (unambiguous c _ d e [] [] (Nat.le_refl _) (.nil c) (.nil c) (by rw [h])).1

end FactFold.Grammar
