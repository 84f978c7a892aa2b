import FactFold.Proofs.Expr.Taking
import Mathlib

/-!
# The parser and the grammar

The parser accepts exactly the texts the grammar derives, and with the expression that the derivation
stands for (`accepts_exactly`).

* **Soundness** (`Takes.derives`) is an induction on what the parser takes. The rest of a chain goes on
  with the chain read so far, and what follows the word of a case expression with that word.
* **Completeness** (`Phrase.takes`) follows the phrase. It is stated with a text behind the phrase, which
  the phrase could not go on with.

Only completeness looks at the order in which a primary is told apart. That its cases exclude one
another is what the module on the grammar says about first characters.
-/

namespace FactFold.Grammar

variable {lookup : Lookup} {ts rest : List String} {n : Node}

/-! ## What is taken is derived -/

/-- The text starts with a phrase that stands for the expression. -/
def Derives (lookup : Lookup) (c : Category) (n : Node) (ts rest : List String) : Prop :=
  ∃ d : Phrase c, d.node? lookup = some n ∧ ts = d.tokens ++ rest

/-- The text starts with arguments that stand for the expressions. -/
def DerivesArguments (lookup : Lookup) (ns : List Node) (ts rest : List String) : Prop :=
  ∃ args, Phrase.nodes? lookup args = some ns ∧ ts = Phrase.listed args ++ rest

/-- What a task takes, the grammar derives. -/
def Task.Derived (lookup : Lookup) : Task → List String → List String → Prop
  | .phrase c n, ts, rest => Derives lookup c n ts rest
  | .tail l a n, ts, rest => ∀ start, Derives lookup (.chain l) a start ts →
    Derives lookup (.chain l) n start rest
  | .caseTail n, ts, rest => ∀ w : Word "CASE", Derives lookup .primary n (w.1 :: ts) rest
  | .arguments comparisons ns, ts, rest => DerivesArguments lookup ns ts rest ∧
    (comparisons = false → ∀ m ∈ ns, m.isComparison = false)
  | .argumentTail comparisons ns, ts, rest => ns ≠ [] ∧ DerivesArguments lookup ns ts rest ∧
    (comparisons = false → ∀ m ∈ ns, m.isComparison = false)

theorem Derives.compared {a b : Node} {t : String} {op : Comparison} {us : List String}
    (h : Token.comparison? t = some op) (ha : Derives lookup (.chain .sum) a ts (t :: us))
    (hb : Derives lookup (.chain .sum) b us rest) :
    Derives lookup .comparison (.comparison op a b) ts rest := by
  obtain ⟨d, hd, rfl⟩ := ha
  obtain ⟨e, he, rfl⟩ := hb
  exact ⟨.compared d t op h e, by simp [Phrase.node?, hd, he], by simp [Phrase.tokens]⟩

theorem Derives.joined {l : Level} {a b : Node} {t : String} {op : Arithmetic} {us : List String}
    (h : (t, op) ∈ l.signs) (ha : Derives lookup (.chain l) a ts (t :: us))
    (hb : Derives lookup l.operand b us rest) :
    Derives lookup (.chain l) (.arithmetic op a b) ts rest := by
  obtain ⟨d, hd, rfl⟩ := ha
  obtain ⟨e, he, rfl⟩ := hb
  exact ⟨.joined d t op h e, by simp [Phrase.node?, hd, he], by simp [Phrase.tokens]⟩

/-- After an argument, more of them are a list after a comma. -/
theorem remaining_of_ne_nil {args : List (Phrase .comparison)} (h : args ≠ []) :
    Phrase.remaining args = "," :: Phrase.listed args := by
  cases args with
  | nil => exact absurd rfl h
  | cons a args => rfl

theorem nodes?_ne_nil {args : List (Phrase .comparison)} {ns : List Node}
    (h : Phrase.nodes? lookup args = some ns) (hns : ns ≠ []) : args ≠ [] := by
  rintro rfl
  exact hns (Option.some.inj h).symm

/-- A name that is called, and that names resolve to, can be called. -/
theorem isCallee_of_callable (hlookup : lookup.NamesOnly) {t : String} {f : Function}
    (ht : Callable t) (hf : lookup t = some f) : Token.isCallee t = true := by
  simp [Token.isCallee, hlookup t f hf, ht.case, ht.if_]

/-- **Whatever the parser takes, the grammar derives.** -/
theorem Takes.derives (hlookup : lookup.NamesOnly) {task : Task} (h : Takes lookup task ts rest) :
    task.Derived lookup ts rest := by
  induction h with
  | lone _ _ ih =>
    obtain ⟨d, hd, rfl⟩ := ih
    exact ⟨.lone d, hd, rfl⟩
  | compared ht _ _ iha ihb => exact Derives.compared ht iha ihb
  -- the rest of the chain goes on with a chain, which so far has one operand
  | chain _ _ iha ihn =>
    obtain ⟨d, hd, rfl⟩ := iha
    exact ihn _ ⟨.first d, hd, rfl⟩
  | stop _ => exact fun _ => id
  | sign ht _ _ ihb ihn => exact fun _ ha => ihn _ (.joined ht ha ihb)
  | negated _ ih =>
    obtain ⟨d, hd, rfl⟩ := ih
    exact ⟨.negated d, by simp [Phrase.node?, hd], rfl⟩
  | bare _ _ ih =>
    obtain ⟨d, hd, rfl⟩ := ih
    exact ⟨.bare d, hd, rfl⟩
  | enclosed _ ih =>
    obtain ⟨d, hd, rfl⟩ := ih
    exact ⟨.enclosed d, hd, by simp [Phrase.tokens]⟩
  | number ht hc => exact ⟨.number _ _ ht hc, rfl, rfl⟩
  | string ht => exact ⟨.string _ _ ht, rfl, rfl⟩
  | column ht _ => exact ⟨.column _ _ ht, rfl, rfl⟩
  | cases w _ ih => exact ih w
  | condition w _ hn ih =>
    obtain ⟨⟨args, hns, rfl⟩, -⟩ := ih
    refine ⟨.condition w args, ?_, by simp [Phrase.tokens]⟩
    -- a phrase has its meaning by the number of arguments, which tells the two conditions apart
    obtain ⟨op, l, r, yes, rfl, rfl⟩ | ⟨op, l, r, yes, no, rfl, rfl⟩ := ofConditionArgs_ok hn
    · simp [Phrase.node?, hns]
    · simp [Phrase.node?, hns]
  | call ht hf _ ih =>
    obtain ⟨⟨args, hns, rfl⟩, hplain⟩ := ih
    exact ⟨.call _ (isCallee_of_callable hlookup ht hf) args,
      by simpa [Phrase.node?, hf, hns] using hplain rfl, by simp [Phrase.tokens]⟩
  | guarded v u z _ _ ihc ihyes =>
    intro w
    obtain ⟨c, hc, rfl⟩ := ihc
    obtain ⟨a, ha, rfl⟩ := ihyes
    exact ⟨.guarded w v c u a z, by simp [Phrase.node?, hc, ha], by simp [Phrase.tokens]⟩
  | choice v u o z _ _ _ ihc ihyes ihno =>
    intro w
    obtain ⟨c, hc, rfl⟩ := ihc
    obtain ⟨a, ha, rfl⟩ := ihyes
    obtain ⟨b, hb, rfl⟩ := ihno
    exact ⟨.choice w v c u a o b z, by simp [Phrase.node?, hc, ha, hb], by simp [Phrase.tokens]⟩
  | empty => exact ⟨⟨[], rfl, rfl⟩, by simp⟩
  | nonempty _ _ ih => exact ih.2
  | single _ hn ih =>
    obtain ⟨d, hd, rfl⟩ := ih
    refine ⟨by simp, ⟨[d], by simp [Phrase.nodes?, hd], by simp [Phrase.listed, Phrase.remaining]⟩, ?_⟩
    rintro rfl
    simpa using hn
  | more _ hn _ ih ihns =>
    obtain ⟨d, hd, rfl⟩ := ih
    obtain ⟨hne, ⟨args, hns, rfl⟩, hothers⟩ := ihns
    -- behind a comma at least one argument follows, so the commas stand where the grammar puts them
    have hlisted := remaining_of_ne_nil (nodes?_ne_nil hns hne)
    refine ⟨by simp, ⟨d :: args, by simp [Phrase.nodes?, hd, hns], ?_⟩, ?_⟩
    · simp [Phrase.listed, hlisted]
    · rintro rfl
      simpa using ⟨hn, hothers rfl⟩

/-! ## What is derived is taken -/

theorem node?_guarded {w : Word "CASE"} {v : Word "WHEN"} {c : Phrase .comparison}
    {u : Word "THEN"} {a : Phrase (.chain .sum)} {z : Word "END"}
    (h : (Phrase.guarded w v c u a z).node? lookup = some n) :
    ∃ op l r yes, c.node? lookup = some (.comparison op l r) ∧ a.node? lookup = some yes ∧
      n = .guarded op l r yes := by
  rw [Phrase.node?] at h
  split at h
  case h_1 op l r hc =>
    obtain ⟨yes, hyes, hn⟩ := Option.bind_eq_some_iff.1 h
    cases hn
    exact ⟨op, l, r, yes, hc, hyes, rfl⟩
  case h_2 => cases h

theorem node?_choice {w : Word "CASE"} {v : Word "WHEN"} {c : Phrase .comparison}
    {u : Word "THEN"} {a b : Phrase (.chain .sum)} {o : Word "ELSE"} {z : Word "END"}
    (h : (Phrase.choice w v c u a o b z).node? lookup = some n) :
    ∃ op l r yes no, c.node? lookup = some (.comparison op l r) ∧ a.node? lookup = some yes ∧
      b.node? lookup = some no ∧ n = .choice op l r yes no := by
  rw [Phrase.node?] at h
  split at h
  case h_1 op l r hc =>
    obtain ⟨yes, hyes, hn⟩ := Option.bind_eq_some_iff.1 h
    obtain ⟨no, hno, hn⟩ := Option.bind_eq_some_iff.1 hn
    cases hn
    exact ⟨op, l, r, yes, no, hc, hyes, hno, rfl⟩
  case h_2 => cases h

theorem node?_condition {w : Word "IF"} {args : List (Phrase .comparison)}
    (h : (Phrase.condition w args).node? lookup = some n) :
    ∃ ns, Phrase.nodes? lookup args = some ns ∧ Node.ofConditionArgs ns = .ok n := by
  rw [Phrase.node?] at h
  split at h
  case h_1 op l r yes hns =>
    cases h
    exact ⟨_, hns, rfl⟩
  case h_2 op l r yes no hns =>
    cases h
    exact ⟨_, hns, rfl⟩
  case h_3 => cases h

/-- Whatever can be called is taken for a name. -/
theorem callable_of_isCallee {t : String} (h : Token.isCallee t = true) : Callable t := by
  have hnaming := Token.isNaming_of_isName (isName_of_isCallee h)
  simp only [Token.isCallee, Bool.and_eq_true, Bool.not_eq_true'] at h
  exact ⟨ne_parenthesis_of_isNaming hnaming, Token.isNumber_of_isNaming hnaming,
    Token.string?_of_isNaming hnaming, h.1.2, h.2⟩

/-- Arguments are taken if those that are at least one are. -/
theorem takes_listed {comparisons : Bool} {args : List (Phrase .comparison)} {ns : List Node}
    {x : List String} (hns : Phrase.nodes? lookup args = some ns)
    (h : args ≠ [] → Takes lookup (.argumentTail comparisons ns) (Phrase.listed args ++ x) x) :
    Takes lookup (.arguments comparisons ns) (Phrase.listed args ++ x) x := by
  cases args with
  | nil =>
    cases hns
    exact .empty
  | cons a args =>
    refine .nonempty ?_ (h (by simp))
    obtain ⟨t, us, ha, ht⟩ := a.head_ne
    simpa [Phrase.listed, ha] using ht

mutual

/-- **A phrase is taken** off a text that goes on with what the phrase could not go on with. -/
theorem Phrase.takes : {c : Category} → (d : Phrase c) → {n : Node} → {x : List String} →
    d.node? lookup = some n → Stops c x → Takes lookup (.phrase c n) (d.tokens ++ x) x
  | _, .lone a, n, x, hn, hx => .lone (a.takes hn hx.sum) hx.comparison?_eq_none
  | _, .compared a t op h b, n, x, hn, hx => by
    obtain ⟨l, hl, hn⟩ := Option.bind_eq_some_iff.1 hn
    obtain ⟨r, hr, hn⟩ := Option.bind_eq_some_iff.1 hn
    cases hn
    -- a comparison sign ends the sum before it, since no chain goes on with one
    have hsign : Stops (.chain .sum) (t :: (b.tokens ++ x)) :=
      stops_cons.2 (comparison?_isSome_iff.1 (by rw [h]; rfl)).2
    rw [Phrase.tokens, List.append_assoc, List.cons_append]
    exact .compared h (a.takes hl hsign) (b.takes hr hx.sum)
  | _, .first a, n, x, hn, hx => .chain (a.takes hn hx.operand) (.stop hx.not_sign)
  | _, .joined a t op h b, n, x, hn, hx => by
    obtain ⟨l, hl, hn⟩ := Option.bind_eq_some_iff.1 hn
    obtain ⟨r, hr, hn⟩ := Option.bind_eq_some_iff.1 hn
    cases hn
    rw [Phrase.tokens, List.append_assoc, List.cons_append]
    -- the last operand is handed over, since a chain is taken from its first operand on
    exact a.takesChain hl (.sign h _) (.sign h (b.takes hr hx.operand) (.stop hx.not_sign))
  | _, .bare a, n, x, hn, hx => by
    obtain ⟨t, us, ha, ht, -⟩ := a.primary_head
    exact .bare (by simpa [Phrase.tokens, ha] using ht) (a.takes hn hx)
  | _, .negated a, n, x, hn, hx => by
    obtain ⟨m, hm, hn⟩ := Option.bind_eq_some_iff.1 hn
    cases hn
    exact .negated (a.takes hm hx)
  | _, .enclosed a, n, x, hn, _ => by
    rw [Phrase.tokens, List.cons_append, List.append_assoc]
    exact .enclosed (a.takes hn (stops_cons.2 (by decide)))
  | _, .number t c h hc, n, x, hn, _ => by
    cases hn
    exact .number h hc
  | _, .string t c h, n, x, hn, _ => by
    cases hn
    exact .string h
  | _, .column t c h, n, x, hn, hx => by
    cases hn
    -- a primary could go on with a parenthesis, which would make a call of the column
    exact .column h fun hhead => hx "(" hhead (by decide)
  | _, .guarded w v c u a z, n, x, hn, _ => by
    obtain ⟨op, l, r, yes, hc, hyes, rfl⟩ := node?_guarded hn
    simp only [Phrase.tokens, List.cons_append, List.append_assoc, List.nil_append]
    exact .cases w (.guarded v u z (c.takes hc (.word u.2 (by decide) _))
      (a.takes hyes (Stops.word z.2 (by decide) x).sum))
  | _, .choice w v c u a o b z, n, x, hn, _ => by
    obtain ⟨op, l, r, yes, no, hc, hyes, hno, rfl⟩ := node?_choice hn
    simp only [Phrase.tokens, List.cons_append, List.append_assoc, List.nil_append]
    exact .cases w (.choice v u o z (c.takes hc (.word u.2 (by decide) _))
      (a.takes hyes (Stops.word o.2 (by decide) _).sum)
      (b.takes hno (Stops.word z.2 (by decide) x).sum))
  | _, .condition w args, n, x, hn, _ => by
    obtain ⟨ns, hns, hnode⟩ := node?_condition hn
    exact .condition w (takes_listed hns fun hne => takesArguments args hne hns (by simp)) hnode
  | _, .call t h args, n, x, hn, _ => by
    obtain ⟨f, hf, hn⟩ := Option.bind_eq_some_iff.1 hn
    obtain ⟨ns, hns, hn⟩ := Option.bind_eq_some_iff.1 hn
    split at hn
    case isTrue => cases hn
    case isFalse hplain =>
      cases hn
      exact .call (callable_of_isCallee h) hf (takes_listed hns fun hne =>
        takesArguments args hne hns fun _ => by simpa using hplain)
termination_by _ d => sizeOf d
decreasing_by
  all_goals simp only [lone.sizeOf_spec, compared.sizeOf_spec, first.sizeOf_spec,
    joined.sizeOf_spec, bare.sizeOf_spec, negated.sizeOf_spec, enclosed.sizeOf_spec,
    guarded.sizeOf_spec, choice.sizeOf_spec, condition.sizeOf_spec, call.sizeOf_spec]
  all_goals omega

/-- A chain is taken up to its last operand, and then what goes on with it. -/
theorem Phrase.takesChain {l : Level} : (d : Phrase (.chain l)) → {m n : Node} →
    {y rest : List String} → d.node? lookup = some m → Stops l.operand y →
      Takes lookup (.tail l m n) y rest → Takes lookup (.phrase (.chain l) n) (d.tokens ++ y) rest
  | .first a, m, n, y, rest, hm, hy, ht => .chain (a.takes hm hy) ht
  | .joined a t op h b, m, n, y, rest, hm, hy, ht => by
    obtain ⟨p, hp, hm⟩ := Option.bind_eq_some_iff.1 hm
    obtain ⟨q, hq, hm⟩ := Option.bind_eq_some_iff.1 hm
    cases hm
    rw [Phrase.tokens, List.append_assoc, List.cons_append]
    exact a.takesChain hp (.sign h _) (.sign h (b.takes hq hy) ht)
termination_by d => sizeOf d
decreasing_by
  all_goals simp only [first.sizeOf_spec, joined.sizeOf_spec]
  all_goals omega

/-- Arguments, at least one, are taken with the closing parenthesis. -/
theorem Phrase.takesArguments : (args : List (Phrase .comparison)) → args ≠ [] →
    {comparisons : Bool} → {ns : List Node} → {x : List String} →
      Phrase.nodes? lookup args = some ns →
      (comparisons = false → ∀ m ∈ ns, m.isComparison = false) →
      Takes lookup (.argumentTail comparisons ns) (Phrase.listed args ++ x) x
  | [], hne, _, _, _, _, _ => absurd rfl hne
  | [a], _, comparisons, ns, x, hns, hplain => by
    obtain ⟨m, hm, hns⟩ := Option.bind_eq_some_iff.1 hns
    cases hns
    have hallowed : (!comparisons && m.isComparison) = false := by
      cases comparisons <;> simp_all
    rw [Phrase.listed, Phrase.remaining, List.append_assoc]
    exact .single (a.takes hm (stops_cons.2 (by decide))) hallowed
  | a :: b :: args, _, comparisons, ns, x, hns, hplain => by
    obtain ⟨m, hm, hns⟩ := Option.bind_eq_some_iff.1 hns
    obtain ⟨ms, hms, hns⟩ := Option.bind_eq_some_iff.1 hns
    cases hns
    have hallowed : (!comparisons && m.isComparison) = false := by
      cases comparisons <;> simp_all
    have hothers := takesArguments (b :: args) (by simp) hms (x := x) fun hc m' hm' =>
      hplain hc m' (by simp [hm'])
    have hlisted : Phrase.listed (a :: b :: args) = a.tokens ++ "," :: Phrase.listed (b :: args) := rfl
    rw [hlisted, List.append_assoc, List.cons_append]
    exact .more (a.takes hm (stops_cons.2 (by decide))) hallowed hothers
termination_by args => sizeOf args
decreasing_by
  all_goals simp only [List.cons.sizeOf_spec]
  all_goals omega

end

/-! ## The parser accepts exactly the grammar -/

/-- The tokens of a phrase are read as what the phrase stands for. -/
theorem parseTokens_of_phrase {d : Phrase .comparison} (hd : d.node? lookup = some n) :
    Parser.parseTokens lookup d.tokens = .ok n := by
  have htakes : Takes lookup (.phrase .comparison n) (d.tokens ++ []) [] := d.takes hd (.nil _)
  rw [List.append_nil] at htakes
  exact parseTokens_iff_takes.2 htakes

theorem parseTokens_iff (hlookup : lookup.NamesOnly) : Parser.parseTokens lookup ts = .ok n ↔
    ∃ d : Phrase .comparison, d.tokens = ts ∧ d.node? lookup = some n := by
  constructor
  · intro h
    obtain ⟨d, hd, rfl⟩ := (parseTokens_iff_takes.1 h).derives hlookup
    exact ⟨d, by simp, hd⟩
  · rintro ⟨d, rfl, hd⟩
    exact parseTokens_of_phrase hd

theorem parse_iff (hlookup : lookup.NamesOnly) {text : String} : Node.parse lookup text = .ok n ↔
    ∃ d : Phrase .comparison, Token.scan text = .ok d.tokens ∧ d.node? lookup = some n := by
  unfold Node.parse
  cases Token.scan text with
  | error e => simp
  | ok ts => simp [parseTokens_iff hlookup, eq_comm]

/-- **The parser reads the grammar and nothing else.** Tokens, and texts by way of their tokens, are
an expression exactly when the grammar derives it, and they have one derivation at most. -/
theorem accepts_exactly (lookup : Lookup) (hlookup : lookup.NamesOnly) :
    (∀ ts n, Parser.parseTokens lookup ts = .ok n ↔
      ∃ d : Phrase .comparison, d.tokens = ts ∧ d.node? lookup = some n) ∧
    (∀ text n, Node.parse lookup text = .ok n ↔
      ∃ d : Phrase .comparison, Token.scan text = .ok d.tokens ∧ d.node? lookup = some n) ∧
    ∀ d e : Phrase .comparison, d.tokens = e.tokens → d = e :=
  ⟨fun _ _ => parseTokens_iff hlookup, fun _ _ => parse_iff hlookup, fun _ _ => Phrase.eq_of_tokens⟩

/-- Knows one function. -/
def lookupAbs : Lookup := fun t =>
  if t = "Math.abs" then some (.existing ⟨"Math", "abs", ""⟩) else none

/-- A product that is one primary. -/
def Phrase.factor (a : Phrase .primary) : Phrase (.chain .product) := .first (.bare a)

/-- The derivation of `-a - Math.abs(b) * 2 - (c)`. -/
def differences : Phrase .comparison :=
  let column (t : String) (h : Token.column? t = some ⟨t, ""⟩) : Phrase .primary := .column t _ h
  let argument : Phrase .comparison := .lone (.first (.factor (column "b" (by decide))))
  let enclosed : Phrase .primary := .enclosed (.lone (.first (.factor (column "c" (by decide)))))
  .lone (.joined
    (.joined (.first (.first (.negated (.bare (column "a" (by decide)))))) "-" .sub (by decide)
      (.joined (.factor (.call "Math.abs" (by decide) [argument])) "*" .mul (by decide)
        (.bare (.number "2" (.int 2) (by decide) (by cbv)))))
    "-" .sub (by decide) (.factor enclosed))

theorem accepts_exactly_differences : lookupAbs.NamesOnly ∧
    Parser.parseTokens lookupAbs
      ["-", "a", "-", "Math.abs", "(", "b", ")", "*", "2", "-", "(", "c", ")"] =
    .ok (.arithmetic .sub
      (.arithmetic .sub (.arithmetic .sub (.constant (.int 0)) (.column ⟨"a", ""⟩))
        (.arithmetic .mul (.call (.existing ⟨"Math", "abs", ""⟩) [.column ⟨"b", ""⟩])
          (.constant (.int 2))))
      (.column ⟨"c", ""⟩)) := by
  have hnames : lookupAbs.NamesOnly := by
    intro t f h
    unfold lookupAbs at h
    split at h
    case isTrue ht =>
      subst ht
      decide
    case isFalse => cases h
  exact ⟨hnames, ((accepts_exactly lookupAbs hnames).1 _ _).2 ⟨differences, by rfl, by rfl⟩⟩

end FactFold.Grammar
