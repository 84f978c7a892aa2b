import FactFold.Proofs.Expr.Spacing

/-!
# The two spellings of a condition

A condition is written with the words of a case expression or like the call of a function. Its parts
are texts of their own, and what they are cut into and read as does not depend on which of the two
surrounds them: words and brackets alike are followed by an operand, so that a minus in front belongs
to the number after it as it does at the start of a text; and the word, comma or parenthesis behind a
part is one that no expression goes on with. So both spellings stand for one tree (`parse_condition`).

There is one exception. Between parentheses the parser looks for a closing parenthesis first, and finds
no arguments where the condition begins with one. That takes a function of the name `)`, which the
words of a case expression let the condition call.
-/

namespace FactFold

namespace Token

variable {last : Option String} {cs : List Char} {ts : List String} {t name : String}

/-! ## Words -/

/-- Of the token before it a text knows only whether an operand is expected. -/
theorem Cuts.congr_last (h : Cuts last cs ts) {last' : Option String}
    (hlast : expectsOperand last' = expectsOperand last) : Cuts last' cs ts := by
  induction h with
  | nil => exact .nil last'
  | space hc _ ih => exact .space hc (ih hlast)
  | token hc hnext htail _ => exact .token hc (hlast ▸ hnext) htail

theorem expectsOperand_keyword (h : sameWord t name = true) (hname : name ∈ keywords) :
    expectsOperand (some t) = true := by
  have hkeyword : isKeyword t = true := List.any_eq_true.2 ⟨name, hname, h⟩
  simp [expectsOperand, hkeyword]

/-- The words that conditions are spelled with. -/
def conditionWords : List String := "IF" :: keywords

/-- Every spelling of a word is made of letters. -/
theorem letters_of_sameWord (h : sameWord t name = true) (hname : name ∈ conditionWords) :
    ∃ c front, t.toList = c :: front ∧ ∀ d ∈ c :: front, startsName d = true := by
  have hwords : ∀ name ∈ conditionWords, name.toList.map Number.asciiLower ≠ [] ∧
      (name.toList.map Number.asciiLower).all isLetter = true := by decide
  have hmap : t.toList.map Number.asciiLower = name.toList.map Number.asciiLower := by
    simpa [sameWord] using h
  obtain ⟨hne, hletters⟩ := hwords name hname
  rw [← hmap] at hne hletters
  obtain ⟨c, front, hcs⟩ : ∃ c front, t.toList = c :: front :=
    List.exists_cons_of_ne_nil (by simpa using hne)
  refine ⟨c, front, hcs, fun d hd => ?_⟩
  have hletter : isLetter d = true := by
    apply isLetter_of_asciiLower
    apply List.all_eq_true.1 hletters
    rw [hcs]
    exact List.mem_map_of_mem hd
  simp [startsName, hletter]

/-- A word is one token before anything it could not go on with. -/
theorem Cuts.word (ht : sameWord t name = true) (hname : name ∈ conditionWords)
    (hcs : ∀ d ∈ cs.head?, continuesName d = false) (h : Cuts (some t) cs ts) :
    Cuts last (t.toList ++ cs) (t :: ts) := by
  obtain ⟨c, front, hlist, hletters⟩ := letters_of_sameWord ht hname
  refine Cuts.name hlist (hletters c (by simp)) (fun d hd => ?_) hcs h
  simp [continuesName, hletters d (by simp [hd])]

/-- A space parts a keyword from what follows, where an operand is expected. -/
theorem Cuts.keyword (ht : sameWord t name = true) (hname : name ∈ keywords)
    (h : ∀ last, expectsOperand last = true → Cuts last cs ts) :
    Cuts last (t.toList ++ ' ' :: cs) (t :: ts) := by
  have hspace : ∀ d ∈ (' ' :: cs).head?, continuesName d = false := by
    simp only [List.head?_cons, Option.mem_some_iff, forall_eq']
    decide
  refine .word ht (List.mem_cons_of_mem _ hname) hspace (.space rfl (h _ ?_))
  exact expectsOperand_keyword ht hname

/-- A text that begins with a word is scanned as it is cut. -/
theorem scan_of_word {x : String} (ht : sameWord t name = true) (hname : name ∈ conditionWords)
    (hx : x.toList = t.toList ++ cs) (h : Cuts none (t.toList ++ cs) ts) : scan x = .ok ts := by
  obtain ⟨c, front, hlist, hletters⟩ := letters_of_sameWord ht hname
  rw [hlist] at hx h
  have hrange := Grammar.ascii_of_startsName (hletters c (by simp))
  have hblank : Text.isBlank c = false := by
    simp [Text.isBlank]
    omega
  exact scan_of_cuts (hx ▸ h) hx hblank

end Token

/-! ## Parts of a condition -/

namespace Grammar

open Token (Cuts Delimited)

variable {lookup : Lookup} {x : String} {ts us : List String} {n : Node}

/-- The text is parsed without a comparison outside of parentheses: it is a sum as a whole. -/
def IsSum (lookup : Lookup) (x : String) (n : Node) : Prop :=
  ∃ ts, Token.scan x = .ok ts ∧ Parser.sum lookup (8 * (ts.length + 1)) ts = .ok (n, [])

/-- The text is cut into tokens that are a phrase of the category. -/
structure Part (lookup : Lookup) (c : Category) (x : String) (n : Node) (ts : List String) :
    Prop where
  scan : Token.scan x = .ok ts
  takes : Takes lookup (.phrase c n) ts []

theorem exists_part (h : Node.parse lookup x = .ok n) : ∃ ts, Part lookup .comparison x n ts := by
  cases hscan : Token.scan x with
  | error e => simp [Node.parse, hscan] at h
  | ok ts =>
    rw [parse_of_scan hscan] at h
    exact ⟨ts, hscan, parseTokens_iff_takes.1 h⟩

theorem IsSum.exists_part (h : IsSum lookup x n) : ∃ ts, Part lookup (.chain .sum) x n ts := by
  obtain ⟨ts, hscan, hsum⟩ := h
  have hsucceeds : (Task.phrase (.chain .sum) n).Succeeds lookup (8 * (ts.length + 1)) ts [] := hsum
  exact ⟨ts, hscan, takes_of_succeeds _ hsucceeds⟩

namespace Part

variable {c : Category} (h : Part lookup c x n ts)

include h

/-- A part is cut as it is by itself wherever an operand is expected. -/
theorem cuts {cs : List Char} (hcs : Delimited cs) (hus : ∀ last, Cuts last cs us)
    {last : Option String} (hlast : Token.expectsOperand last = true) :
    Cuts last (x.toList ++ cs) (ts ++ us) := by
  have hcuts : Cuts last x.toList ts := (Token.cuts_of_scan h.scan).congr_last hlast
  refine hcuts.append hcs.parted (fun t ht => ?_) (hus _)
  -- the last token ends an operand, so it takes in nothing of what follows
  obtain ⟨front, u, hts, hcloses⟩ : Closed ts [] := h.takes.last
  obtain rfl : u = t := by simpa [hts] using ht
  exact hcloses.firm

/-- A part is read as it is by itself before what it could not go on with. -/
theorem before (hstop : Stops c us) : Takes lookup (.phrase c n) (ts ++ us) us := by
  have happend := h.takes.append (x := us) fun _ => hstop
  simpa using happend

end Part

/-- A sum is a comparison that lacks its second side. -/
theorem Part.argument (h : Part lookup (.chain .sum) x n ts) (hstop : Stops .comparison us) :
    Takes lookup (.phrase .comparison n) (ts ++ us) us :=
  .lone (h.before hstop.sum) hstop.comparison?_eq_none

/-! ## Operands and what they begin with -/

/-- An operand is an expression by itself. -/
theorem Takes.alone (hts : ts.head? ≠ some "-") (h : Takes lookup (.phrase .primary n) ts []) :
    Takes lookup (.phrase .comparison n) ts [] := by
  have hunary : Takes lookup (.phrase .unary n) ts [] := .bare hts h
  have hproduct : Takes lookup (.phrase (.chain .product) n) ts [] := .chain hunary (.stop (by simp))
  exact .lone (.chain hproduct (.stop (by simp))) (by simp)

/-- A phrase begins with a closing parenthesis only where a function has that name. -/
def Task.Opens (lookup : Lookup) : Task → List String → Prop
  | .phrase .., ts => ts.head? = some ")" → (lookup ")").isSome = true
  | _, _ => True

theorem Takes.opens {task : Task} (h : Takes lookup task ts us) : task.Opens lookup ts := by
  have hother {t : String} (ht : t ≠ ")") {ts : List String} (hhead : (t :: ts).head? = some ")") :
      (lookup ")").isSome = true := absurd (Option.some.inj hhead) ht
  have hstring : Token.string? ")" = none := by decide
  have hcolumn : Token.column? ")" = none := by decide
  induction h with
  | lone _ _ ih => exact ih
  | compared _ _ _ iha _ => exact iha
  | chain _ _ iha _ => exact iha
  | negated _ _ => exact hother (by decide)
  | bare _ _ ih => exact ih
  | enclosed _ _ => exact hother (by decide)
  | number ht _ => exact hother (by rintro rfl; exact absurd ht (by decide))
  | string ht => exact hother (by rintro rfl; simp [hstring] at ht)
  | column ht _ => exact hother (by rintro rfl; simp [hcolumn] at ht)
  | cases w _ _ => exact hother (fun h => absurd (h ▸ w.2) (by decide))
  | condition w _ _ _ => exact hother (fun h => absurd (h ▸ w.2) (by decide))
  | call _ hf _ _ =>
    intro hhead
    obtain rfl := Option.some.inj hhead
    rw [hf]
    rfl
  | _ => exact trivial

/-- The first token of the text is a closing parenthesis. -/
def startsClosing (x : String) : Bool :=
  match Token.scan x with
  | .ok ts => ts.head? = some ")"
  | .error _ => false

theorem head_ne_minus {t : String} (h : Token.isNaming t = true) (ts : List String) :
    (t :: ts).head? ≠ some "-" := by
  intro hhead
  obtain rfl := Option.some.inj hhead
  exact absurd h (by decide)

/-- No arguments are found before a closing parenthesis. -/
theorem parseTokens_closing (f : Word "IF") (ts : List String) :
    Parser.parseTokens lookup (f.1 :: "(" :: ")" :: ts) = .error (.conditionArity 0) := by
  have hminus := head_ne_minus (isNaming_of_ifWord f) ("(" :: ")" :: ts)
  obtain ⟨g, hg⟩ : ∃ g, 8 * ((f.1 :: "(" :: ")" :: ts).length + 1) = g + 6 := by
    refine ⟨8 * (f.1 :: "(" :: ")" :: ts).length + 2, ?_⟩
    omega
  have harguments : Parser.arguments lookup (g + 1) true (")" :: ts) = .ok ([], ts) := rfl
  rw [Parser.parseTokens, hg, Parser.comparison, Parser.sum, Parser.product, unary_of_head hminus,
    primary_of_ifWord, harguments]
  rfl

/-! ## Conditions up to their first value -/

section Fronts

variable {c a : String} {m yes : Node} {tc ta : List String}
  (hc : Part lookup .comparison c m tc) (ha : Part lookup (.chain .sum) a yes ta)
  (w : Word "CASE") (v : Word "WHEN") (u : Word "THEN") (f : Word "IF")

include hc ha

/-- The tokens of a case expression up to its first value. -/
theorem cuts_case {cs : List Char} (hcs : Delimited cs) (hus : ∀ last, Cuts last cs us) :
    Cuts none (w.1.toList ++ ' ' :: (v.1.toList ++ ' ' :: (c.toList ++ ' ' :: (u.1.toList ++
      ' ' :: (a.toList ++ cs))))) (w.1 :: v.1 :: (tc ++ u.1 :: (ta ++ us))) := by
  refine .keyword w.2 (by decide) fun _ _ => .keyword v.2 (by decide) ?_
  intro last hlast
  refine hc.cuts (by simp [Delimited]) (fun _ => .space rfl ?_) hlast
  exact .keyword u.2 (by decide) fun _ => ha.cuts hcs hus

/-- The tokens of a call up to its second argument. -/
theorem cuts_if {cs : List Char} (hcs : Delimited cs) (hus : ∀ last, Cuts last cs us) :
    Cuts none (f.1.toList ++ '(' :: (c.toList ++ ',' :: ' ' :: (a.toList ++ cs)))
      (f.1 :: "(" :: (tc ++ "," :: (ta ++ us))) := by
  refine .word f.2 (by decide) (by simp; decide) (cuts_open ?_)
  refine hc.cuts (by simp [Delimited]) (fun _ => cuts_comma (.space rfl ?_)) rfl
  exact ha.cuts hcs hus rfl

variable {cs : List Char} (hcs : Delimited cs) (hus : ∀ last, Cuts last cs us)

include hcs hus

/-- A case expression that goes on with `cs` behind its first value. -/
theorem parse_of_case (hx : x.toList = w.1.toList ++ ' ' :: (v.1.toList ++ ' ' :: (c.toList ++
      ' ' :: (u.1.toList ++ ' ' :: (a.toList ++ cs)))))
    (h : Takes lookup (.caseTail n) (v.1 :: (tc ++ u.1 :: (ta ++ us))) []) :
    Node.parse lookup x = .ok n := by
  have hscan := Token.scan_of_word w.2 (by decide) hx (cuts_case hc ha w v u hcs hus)
  rw [parse_of_scan hscan]
  apply parseTokens_iff_takes.2
  apply Takes.alone
  · exact head_ne_minus (isNaming_of_caseWord w) _
  · exact .cases w h

/-- A call that goes on with `cs` behind its second argument. -/
theorem parse_of_if (hx : x.toList = f.1.toList ++ '(' :: (c.toList ++ ',' :: ' ' :: (a.toList ++ cs)))
    {ns : List Node} (h : Takes lookup (.argumentTail true ns) (tc ++ "," :: (ta ++ us)) [])
    (hns : Node.ofConditionArgs ns = .ok n) :
    Node.parse lookup x = if startsClosing c then .error (.conditionArity 0) else .ok n := by
  have hscan := Token.scan_of_word f.2 (by decide) hx (cuts_if hc ha f hcs hus)
  have hlen := hc.takes.length
  simp only [Task.least] at hlen
  have hstarts : startsClosing c = decide (tc.head? = some ")") := by simp [startsClosing, hc.scan]
  rw [parse_of_scan hscan, hstarts]
  -- a closing parenthesis is looked for before the first argument is read
  by_cases hclosing : tc.head? = some ")"
  · obtain ⟨rest, rfl⟩ := List.head?_eq_some_iff.1 hclosing
    rw [if_pos (decide_eq_true hclosing)]
    exact parseTokens_closing f _
  · rw [if_neg (by simpa using hclosing)]
    apply parseTokens_iff_takes.2
    apply Takes.alone
    · exact head_ne_minus (isNaming_of_ifWord f) _
    · exact .condition f (.nonempty (head?_append_ne (by omega) hclosing) h) hns

end Fronts

/-! ## What stands behind a part -/

theorem stops_comma (ts : List String) : Stops .comparison ("," :: ts) := stops_cons.2 (by decide)

theorem stops_close (ts : List String) : Stops .comparison (")" :: ts) := stops_cons.2 (by decide)

theorem stops_keyword {t name : String} (ht : Token.sameWord t name = true)
    (hname : name ∈ Token.keywords) (ts : List String) : Stops .comparison (t :: ts) := by
  have hsigns : ∀ name ∈ Token.keywords, ∀ s ∈ Category.comparison.continuations,
      Token.sameWord s name = false := by decide +kernel
  exact .word ht (hsigns name hname) ts

theorem cuts_end (z : Word "END") (last : Option String) : Cuts last (' ' :: z.1.toList) [z.1] := by
  have hword : Cuts last (z.1.toList ++ []) [z.1] := .word z.2 (by decide) (by simp) (.nil _)
  rw [List.append_nil] at hword
  exact .space rfl hword

theorem cuts_bracket (last : Option String) : Cuts last [')'] [")"] := cuts_close (.nil _)

/-! ## The spellings -/

section Spellings

variable {c a b : String} {op : Comparison} {l r yes no : Node} {tc ta tb : List String}
  (hc : Part lookup .comparison c (.comparison op l r) tc) (ha : Part lookup (.chain .sum) a yes ta)
  (hb : Part lookup (.chain .sum) b no tb) (w : Word "CASE") (v : Word "WHEN") (u : Word "THEN")
  (o : Word "ELSE") (z : Word "END") (f : Word "IF")

include hc ha

theorem parse_guarded_case : Node.parse lookup (" ".intercalate [w.1, v.1, c, u.1, a, z.1]) =
    .ok (.guarded op l r yes) := by
  apply parse_of_case hc ha w v u (by simp [Delimited]) (cuts_end z) (by simp)
  apply Takes.guarded v u z
  · exact hc.before (stops_keyword u.2 (by decide) _)
  · exact ha.before (stops_keyword z.2 (by decide) _).sum

theorem parse_guarded_if : Node.parse lookup (f.1 ++ "(" ++ ", ".intercalate [c, a] ++ ")") =
    if startsClosing c then .error (.conditionArity 0) else .ok (.guarded op l r yes) := by
  have hargs : Takes lookup (.argumentTail true [.comparison op l r, yes])
      (tc ++ "," :: (ta ++ [")"])) [] := by
    apply Takes.more (hc.before (stops_comma _)) rfl
    exact .single (ha.argument (stops_close _)) rfl
  exact parse_of_if hc ha f (by simp [Delimited]) cuts_bracket (by simp) hargs rfl

include hb

theorem parse_choice_case :
    Node.parse lookup (" ".intercalate [w.1, v.1, c, u.1, a, o.1, b, z.1]) =
      .ok (.choice op l r yes no) := by
  have helse (last : Option String) :
      Cuts last (' ' :: (o.1.toList ++ ' ' :: (b.toList ++ ' ' :: z.1.toList)))
        (o.1 :: (tb ++ [z.1])) := by
    apply Cuts.space rfl
    exact .keyword o.2 (by decide) fun _ => hb.cuts (by simp [Delimited]) (cuts_end z)
  apply parse_of_case hc ha w v u (by simp [Delimited]) helse (by simp)
  apply Takes.choice v u o z
  · exact hc.before (stops_keyword u.2 (by decide) _)
  · exact ha.before (stops_keyword o.2 (by decide) _).sum
  · exact hb.before (stops_keyword z.2 (by decide) _).sum

theorem parse_choice_if :
    Node.parse lookup (f.1 ++ "(" ++ ", ".intercalate [c, a, b] ++ ")") =
      if startsClosing c then .error (.conditionArity 0) else .ok (.choice op l r yes no) := by
  have hlast (last : Option String) :
      Cuts last (',' :: ' ' :: (b.toList ++ [')'])) ("," :: (tb ++ [")"])) :=
    cuts_comma (.space rfl (hb.cuts (by simp [Delimited]) cuts_bracket rfl))
  have hargs : Takes lookup (.argumentTail true [.comparison op l r, yes, no])
      (tc ++ "," :: (ta ++ "," :: (tb ++ [")"]))) [] := by
    apply Takes.more (hc.before (stops_comma _)) rfl
    apply Takes.more (ha.argument (stops_comma _)) rfl
    exact .single (hb.argument (stops_close _)) rfl
  exact parse_of_if hc ha f (by simp [Delimited]) hlast (by simp) hargs rfl

end Spellings

/-- **Both spellings of a condition stand for one tree.** Let a text be parsed to a comparison, and
let the values be parsed without a comparison outside of parentheses. The words of a case expression
and the call of a condition are then parsed to the same tree, with two values or with one, and however
the words are spelled; unless the condition begins with a closing parenthesis, the name of a
function, before which the call finds no arguments. -/
theorem parse_condition {lookup : Lookup} {c a : String} {op : Comparison} {l r yes : Node}
    (hc : Node.parse lookup c = .ok (.comparison op l r)) (ha : IsSum lookup a yes)
    (w : Word "CASE") (v : Word "WHEN") (u : Word "THEN") (o : Word "ELSE") (z : Word "END")
    (f : Word "IF") :
    (∀ b no, IsSum lookup b no →
      Node.parse lookup (" ".intercalate [w.1, v.1, c, u.1, a, o.1, b, z.1]) =
        .ok (.choice op l r yes no) ∧
      Node.parse lookup (f.1 ++ "(" ++ ", ".intercalate [c, a, b] ++ ")") =
        if startsClosing c then .error (.conditionArity 0) else .ok (.choice op l r yes no)) ∧
    Node.parse lookup (" ".intercalate [w.1, v.1, c, u.1, a, z.1]) = .ok (.guarded op l r yes) ∧
    Node.parse lookup (f.1 ++ "(" ++ ", ".intercalate [c, a] ++ ")") =
      (if startsClosing c then .error (.conditionArity 0) else .ok (.guarded op l r yes)) ∧
    (startsClosing c = true → (lookup ")").isSome = true) := by
  obtain ⟨tc, hc⟩ := exists_part hc
  obtain ⟨ta, ha⟩ := ha.exists_part
  refine ⟨fun b no hb => ?_, ?_, ?_, fun hstarts => ?_⟩
  · obtain ⟨tb, hb⟩ := hb.exists_part
    exact ⟨parse_choice_case hc ha hb w v u o z, parse_choice_if hc ha hb f⟩
  · exact parse_guarded_case hc ha w v u z
  · exact parse_guarded_if hc ha f
  · have hhead : tc.head? = some ")" := by simpa [startsClosing, hc.scan] using hstarts
    exact hc.takes.opens hhead

/-- Negative numbers stand behind a word as they do behind a parenthesis or a comma. -/
theorem parse_condition_negative :
    let n : Node := .choice .lt (.constant (.int (-1))) (.column ⟨"a", ""⟩) (.constant (.int (-3)))
      (.column ⟨"a", ""⟩)
    Node.parse (fun _ => none) "Case when -1 < a then -3 ELSE a end" = .ok n ∧
      Node.parse (fun _ => none) "if(-1 < a, -3, a)" = .ok n := by
  intro n
  have hscan : Token.scan "-1 < a" = .ok ["-1", "<", "a"] := by decide +kernel
  have hyes : IsSum (fun _ => none) "-3" (.constant (.int (-3))) := ⟨["-3"], by decide +kernel, rfl⟩
  have hno : IsSum (fun _ => none) "a" (.column ⟨"a", ""⟩) := ⟨["a"], by decide +kernel, rfl⟩
  obtain ⟨hboth, -⟩ := parse_condition ((parse_of_scan hscan).trans rfl) hyes ⟨"Case", by decide⟩
    ⟨"when", by decide⟩ ⟨"then", by decide⟩ ⟨"ELSE", by decide⟩ ⟨"end", by decide⟩ ⟨"if", by decide⟩
  have hstarts : startsClosing "-1 < a" = false := by
    rw [startsClosing, hscan]
    rfl
  have hforms := hboth "a" _ hno
  rw [hstarts] at hforms
  exact hforms

/-- Where a function is called like the closing parenthesis, a condition may begin with its call
behind the word, but not as the first argument. -/
theorem parse_closing_condition :
    let lookup : Lookup := fun t => if t = ")" then some (.foreign ⟨")", ""⟩) else none
    (∃ l r, Node.parse lookup ")(a) > b" = .ok (.comparison .gt l r) ∧
      IsSum lookup "a" (.column ⟨"a", ""⟩) ∧
      Node.parse lookup "CASE WHEN )(a) > b THEN a END" =
        .ok (.guarded .gt l r (.column ⟨"a", ""⟩))) ∧
    Node.parse lookup "IF()(a) > b, a)" = .error (.conditionArity 0) := by
  intro lookup
  have hscan : Token.scan ")(a) > b" = .ok [")", "(", "a", ")", ">", "b"] := by decide +kernel
  have hwords : Token.scan "CASE WHEN )(a) > b THEN a END" =
      .ok ["CASE", "WHEN", ")", "(", "a", ")", ">", "b", "THEN", "a", "END"] := by decide +kernel
  have hcall : Token.scan "IF()(a) > b, a)" =
      .ok ["IF", "(", ")", "(", "a", ")", ">", "b", ",", "a", ")"] := by decide +kernel
  refine ⟨⟨_, _, (parse_of_scan hscan).trans rfl, ⟨["a"], by decide +kernel, rfl⟩, ?_⟩, ?_⟩
  · exact (parse_of_scan hwords).trans rfl
  · exact (parse_of_scan hcall).trans (parseTokens_closing ⟨"IF", by decide⟩ _)

end Grammar

end FactFold
