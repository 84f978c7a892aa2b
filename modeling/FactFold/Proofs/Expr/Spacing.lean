import FactFold.Proofs.Expr.Cutting
import FactFold.Proofs.Expr.Printing
import FactFold.Proofs.Expr.Taken
import FactFold.Proofs.Number.Endings

/-!
# Spaces around a minus

A number may be taken off an expression by writing a minus and its digits behind the text, with spaces
around the minus or without. The scanner tells by the token before a minus whether it belongs to the
number after it. That is right after every token an expression can end in (`Closes`) but one: after the
word `END` an operand is expected, so that `END-3` is cut into `END` and `-3`, and the number is left
over. With spaces the minus stands apart from the digits, and the expression goes on after `END` as
after any other operand.

`parse_minus` says both for every text and every resolution of names. It is put together from what is
scanned behind a text (`Token.scan_append`) and what is read behind an expression (`Takes.minus`).
-/

namespace FactFold

namespace Token

variable {t d : String}

/-! ## Digits behind a minus -/

theorem minus_ofList (cs : List Char) : "-" ++ String.ofList cs = String.ofList ('-' :: cs) :=
  String.toList_injective (by simp)

/-- A minus is an operator by itself only. -/
theorem isOperator_minus (c : Char) (cs : List Char) :
    isOperator (String.ofList ('-' :: c :: cs)) = false := by
  have hone : ∀ s ∈ operators, s.toList.head? = some '-' → s.toList.length = 1 := by decide +kernel
  rw [Bool.eq_false_iff]
  intro hop
  have := hone _ (List.contains_iff_mem.1 hop) (by simp)
  simp at this

/-- The constant that digits stand for. -/
def digitsConstant (d : String) : Constant :=
  let n : Int := Nat.ofDigitChars 10 d.toList 0
  if fits32 n then .int n else .long n

/-- Decimal digits that write a number of 64 bits. -/
structure Digits (d : String) : Prop where
  ne : d ≠ ""
  digits : d.toList.all Number.isDigit = true
  range : Nat.ofDigitChars 10 d.toList 0 < 2 ^ 63

namespace Digits

theorem digit (h : Digits d) : ∀ c ∈ d.toList, Number.isDigit c = true := List.all_eq_true.1 h.digits

theorem exists_cons (h : Digits d) : ∃ c cs, d = String.ofList (c :: cs) := by
  cases hd : d.toList with
  | nil => exact absurd (String.toList_eq_nil_iff.1 hd) h.ne
  | cons c cs => exact ⟨c, cs, by rw [← hd, String.ofList_toList]⟩

theorem isNumber (h : Digits d) : isNumber d = true :=
  isNumber_digits h.digit (by simpa using h.ne)

theorem numberOf (h : Digits d) : numberOf d = .ok (digitsConstant d) := by
  have hread := Number.readDecimalInt?_digits (by simpa using h.ne) h.digit h.range
  simp only [Token.numberOf, any_mark_digits h.digit, Bool.false_eq_true, if_false, hread,
    digitsConstant]

theorem cuts (h : Digits d) (last : Option String) : Cuts last d.toList [d] := by
  obtain ⟨c, cs, rfl⟩ := h.exists_cons
  have hdigit := h.digit
  rw [String.toList_ofList] at hdigit ⊢
  simpa using Cuts.digits hdigit (by simp [Delimited]) (.nil _)

/-- With spaces around it the minus is a token of its own. -/
theorem cuts_spaced (h : Digits d) (last : Option String) :
    Cuts last (" - " ++ d).toList ["-", d] := by
  have hsign : Cuts last ("-".toList ++ ' ' :: d.toList) ["-", d] := .sign (by decide) (h.cuts _)
  rw [String.toList_append]
  exact .space rfl hsign

/-- So it is without them, where no operand is expected. -/
theorem cuts_tight (h : Digits d) {last : Option String} (hlast : expectsOperand last = false) :
    Cuts last ("-" ++ d).toList ["-", d] := by
  have hdigits := h.cuts (some "-")
  obtain ⟨c, cs, rfl⟩ := h.exists_cons
  have hpair : isOperator (String.ofList ['-', c]) = false := isOperator_minus c []
  have hminus : isOperator (String.ofList ['-']) = true := by decide
  have hsymbol : takeSymbol? ('-' :: c :: cs) = some (['-'], c :: cs) := by
    simp only [takeSymbol?, hpair, hminus, Bool.false_eq_true, if_false, Bool.true_or, if_true]
  have hnumber : takeNumber? false ('-' :: c :: cs) = none := rfl
  rw [minus_ofList, String.toList_ofList]
  rw [String.toList_ofList] at hdigits
  refine @Cuts.token last '-' [] (c :: cs) _ rfl (fun position => ?_) hdigits
  rw [hlast]
  refine next_iff.2 (.bare (by decide) ?_)
  rw [List.nil_append, hnumber, hsymbol]
  rfl

/-- Where an operand is expected the minus belongs to the number. -/
theorem cuts_negative (h : Digits d) {last : Option String} (hlast : expectsOperand last = true) :
    Cuts last ("-" ++ d).toList ["-" ++ d] := by
  obtain ⟨c, cs, rfl⟩ := h.exists_cons
  have hdigit := h.digit
  rw [String.toList_ofList] at hdigit
  rw [minus_ofList, String.toList_ofList]
  simpa using Cuts.negative hlast hdigit (by simp [Delimited]) (.nil _)

end Digits

end Token

/-! ## The token before the minus -/

namespace Grammar

open Token (Firm Digits digitsConstant)

variable {lookup : Lookup} {t d : String} {ts : List String} {n : Node}

theorem firm_of_numberOf {c : Constant} (h : Token.numberOf t = .ok c) : Firm t := by
  right
  intro c hc
  simp only [Token.numberOf] at h
  split at h
  case isTrue =>
    split at h
    case h_1 x hx =>
      obtain ⟨d, hd, hplain⟩ := Number.readFloat?_ends hx
      obtain rfl : c = d := Option.some.inj (hc.symm.trans hd)
      exact hplain
    case h_2 => cases h
  case isFalse hwhole =>
    have hmem : c ∈ t.toList := List.mem_of_mem_getLast? hc
    simp only [List.any_eq_true, not_exists, not_and, Bool.or_eq_true, decide_eq_true_eq,
      not_or] at hwhole
    exact ⟨(hwhole c hmem).1.2, (hwhole c hmem).2⟩

theorem firm_of_between? {mark : Char} {cs : List Char} (hmark : mark ≠ 'e' ∧ mark ≠ 'E')
    (h : Token.between? mark t = some cs) : Firm t := by
  right
  intro c hc
  unfold Token.between? at h
  split at h
  case h_1 first rest heq =>
    split at h
    case isTrue hends =>
      have hlast : rest.getLast? = some mark := by simp_all
      rw [heq, List.getLast?_cons, hlast] at hc
      obtain rfl : mark = c := Option.some.inj hc
      exact hmark
    case isFalse => cases h
  case h_2 => cases h

theorem firm_of_string? {s : Except ParseError Constant} (h : Token.string? t = some s) :
    Firm t := by
  unfold Token.string? at h
  split at h
  case h_1 body hbody => exact firm_of_between? (by decide) hbody
  case h_2 =>
    obtain ⟨body, hbody, -⟩ := Option.map_eq_some_iff.1 h
    exact firm_of_between? (by decide) hbody

theorem isName_of_endWord (z : Word "END") : Token.isName z.1 = true :=
  Token.isName_of_sameWord z.2 (by decide)

/-- No token that ends an operand takes in a minus. -/
theorem Closes.firm (h : Closes t) : Firm t := by
  cases h with
  | bracket => exact .inr (by simp)
  | number ht hc => exact firm_of_numberOf hc
  | string ht => exact firm_of_string? ht
  | column ht => exact .inl (Token.isNaming_of_column? ht)
  | word z => exact .inl (Token.isNaming_of_isName (isName_of_endWord z))

/-- **Behind an operand no other is expected**, unless the operand ends in the word `END`. -/
theorem Closes.expectsOperand (h : Closes t) (hend : Token.sameWord t "END" = false) :
    Token.expectsOperand (some t) = false := by
  have hsymbols : ∀ s ∈ "(" :: "," :: Token.operators, Token.isNumber s = false ∧
      Token.string? s = none ∧ Token.isNaming s = false := by decide +kernel
  rw [Bool.eq_false_iff]
  intro hexpects
  obtain hsymbol | hkeyword : t ∈ "(" :: "," :: Token.operators ∨ Token.isKeyword t = true := by
    simp only [Token.expectsOperand, Token.isOperator, List.contains_iff_mem, Bool.or_eq_true,
      decide_eq_true_eq] at hexpects
    simp only [List.mem_cons]
    tauto
  · obtain ⟨hnumber, hstring, hnaming⟩ := hsymbols t hsymbol
    cases h with
    | bracket => exact absurd hsymbol (by decide)
    | number ht hc => simp [hnumber] at ht
    | string ht => simp [hstring] at ht
    | column ht => simp [Token.isNaming_of_column? ht] at hnaming
    | word z => simp [z.2] at hend
  · -- a keyword is spelled like a name, and columns are not called by keywords
    have hnaming : Token.isNaming t = true :=
      Token.isNaming_of_isName (Token.isName_of_isKeyword hkeyword)
    cases h with
    | bracket => exact absurd hkeyword (by decide)
    | number ht hc => simp [Token.isNumber_of_isNaming hnaming] at ht
    | string ht => simp [Token.string?_of_isNaming hnaming] at ht
    | column ht => simp [Token.isKeyword_of_column? ht] at hkeyword
    | word z => simp [z.2] at hend

/-! ## Reading the difference -/

/-- The second expression takes the constant off the first: off all of it, or, where it is a
comparison without parentheses around it, off its right side. -/
inductive Lessens (k : Constant) : Node → Node → Prop
  | whole (n : Node) : Lessens k n (.arithmetic .sub n (.constant k))
  | side (op : Comparison) (l r : Node) :
      Lessens k (.comparison op l r) (.comparison op l (.arithmetic .sub r (.constant k)))

theorem takes_digits (hd : Digits d) :
    Takes lookup (.phrase (.chain .product) (.constant (digitsConstant d))) [d] [] := by
  have hminus : d ≠ "-" := by
    rintro rfl
    exact absurd (hd.digit '-' (by decide)) (by decide)
  refine Takes.chain (.bare (by simpa using hminus) (.number hd.isNumber hd.numberOf)) (.stop ?_)
  simp

/-- The rest of a sum goes on with a minus at its end. -/
theorem Takes.minus_tail (hd : Digits d) {a : Node} (h : Takes lookup (.tail .sum a n) ts []) :
    Takes lookup (.tail .sum a (.arithmetic .sub n (.constant (digitsConstant d))))
      (ts ++ ["-", d]) [] := by
  have hsign : ("-", Arithmetic.sub) ∈ Level.sum.signs := by decide
  -- along the signs of the sum: the new one comes after the last of them
  generalize htask : Task.tail .sum a n = task at h
  generalize hrest : ([] : List String) = rest at h
  induction h generalizing a with
  | stop _ =>
    cases htask
    subst hrest
    exact .sign hsign (takes_digits hd) (.stop (by simp))
  | @sign l a b m t op us vs rest ht hb _ _ ihn =>
    cases htask
    subst hrest
    have hstops : vs = [] → (Task.phrase (.chain .product) b).Stops ["-", d] :=
      fun _ => stops_cons.2 (by decide)
    exact .sign ht (hb.append hstops) (ihn rfl rfl)
  | _ => cases htask

theorem Takes.minus_sum (hd : Digits d) (h : Takes lookup (.phrase (.chain .sum) n) ts []) :
    Takes lookup (.phrase (.chain .sum) (.arithmetic .sub n (.constant (digitsConstant d))))
      (ts ++ ["-", d]) [] := by
  cases h with
  | @chain _ a _ _ us _ ha hn =>
    have hstops : us = [] → (Task.phrase (.chain .product) a).Stops ["-", d] :=
      fun _ => stops_cons.2 (by decide)
    exact .chain (ha.append hstops) (hn.minus_tail hd)

/-- **An expression goes on with a minus and a number.** -/
theorem Takes.minus (hd : Digits d) (h : Takes lookup (.phrase .comparison n) ts []) :
    ∃ m, Lessens (digitsConstant d) n m ∧
      Takes lookup (.phrase .comparison m) (ts ++ ["-", d]) [] := by
  cases h with
  | lone h _ => exact ⟨_, .whole n, .lone (h.minus_sum hd) (by simp)⟩
  | @compared a b _ op _ _ _ ht ha hb =>
    exact ⟨_, .side op a b, .compared ht (ha.append (by simp)) (hb.minus_sum hd)⟩

/-- No expression goes on with a negative number. -/
theorem negative_notMem (hd : Digits d) : "-" ++ d ∉ Category.comparison.continuations := by
  have hsigns : ∀ s ∈ Category.comparison.continuations, s = "(" ∨ Token.isOperator s = true := by
    decide +kernel
  obtain ⟨c, cs, rfl⟩ := hd.exists_cons
  rw [Token.minus_ofList]
  intro hmem
  rcases hsigns _ hmem with hopen | hop
  · have := congrArg String.toList hopen
    simp at this
  · rw [Token.isOperator_minus] at hop
    cases hop

/-- The text ends in the word `END`. -/
def endsCase (x : String) : Bool :=
  match Token.scan x with
  | .ok ts => ts.getLast?.any (Token.sameWord · "END")
  | .error _ => false

theorem parse_of_scan {x : String} (h : Token.scan x = .ok ts) :
    Node.parse lookup x = Parser.parseTokens lookup ts := by
  rw [Node.parse, h]

/-- What is written behind an operand is scanned by itself. -/
theorem parse_append {x y : String} {us : List String} (hscan : Token.scan x = .ok ts)
    (hlast : ts.getLast? = some t) (hcloses : Closes t) (hy : Token.Parted y.toList)
    (hcuts : Token.Cuts (some t) y.toList us) :
    Node.parse lookup (x ++ y) = Parser.parseTokens lookup (ts ++ us) := by
  apply parse_of_scan
  rw [← hlast] at hcuts
  refine Token.scan_append hscan hy (fun u hu => ?_) hcuts
  obtain rfl : t = u := Option.some.inj (hlast.symm.trans hu)
  exact hcloses.firm

/-- **Spaces around a minus.** Digits behind a minus are taken off the expression before it. Without
spaces around the minus the result is the same, except that the number is left over where the text
before it ends in the word `END`. -/
theorem parse_minus {lookup : Lookup} {x d : String} {n : Node} (hx : Node.parse lookup x = .ok n)
    (hd : Digits d) :
    ∃ m, Lessens (digitsConstant d) n m ∧ Node.parse lookup (x ++ " - " ++ d) = .ok m ∧
      Node.parse lookup (x ++ "-" ++ d) =
        if endsCase x then .error (.unexpectedToken ("-" ++ d)) else .ok m := by
  cases hscan : Token.scan x with
  | error e => simp [Node.parse, hscan] at hx
  | ok ts =>
    rw [parse_of_scan hscan] at hx
    have htakes := parseTokens_iff_takes.1 hx
    obtain ⟨front, t, hts, hcloses⟩ : Closed ts [] := htakes.last
    have hlast : ts.getLast? = some t := by simp [hts]
    have hends : endsCase x = Token.sameWord t "END" := by simp [endsCase, hscan, hlast]
    have hspace : Token.Parted (" - " ++ d).toList := by simp [Token.Parted]
    have hminus : Token.Parted ("-" ++ d).toList := by simp [Token.Parted]
    obtain ⟨m, hm, hdifference⟩ := htakes.minus hd
    have hparse := parseTokens_iff_takes.2 hdifference
    refine ⟨m, hm, ?_, ?_⟩
    · rw [String.append_assoc, parse_append hscan hlast hcloses hspace (hd.cuts_spaced _), hparse]
    · rw [String.append_assoc, hends]
      by_cases hend : Token.sameWord t "END" = true
      · -- the word is one of the keywords, so the minus goes to the number, which is left over
        have hexpects : Token.expectsOperand (some t) = true := by
          simp [Token.expectsOperand, Token.isKeyword, Token.keywords, hend]
        have hstops : (Task.phrase .comparison n).Stops ["-" ++ d] := stops_cons.2 (negative_notMem hd)
        rw [if_pos hend, parse_append hscan hlast hcloses hminus (hd.cuts_negative hexpects)]
        exact (htakes.append fun _ => hstops).unexpected
      · have hexpects := hcloses.expectsOperand (by simpa using hend)
        rw [if_neg hend, parse_append hscan hlast hcloses hminus (hd.cuts_tight hexpects), hparse]

theorem column_a : Token.column? "a" = some ⟨"a", ""⟩ := by decide

theorem column_b : Token.column? "b" = some ⟨"b", ""⟩ := by decide

/-- The derivation of `CASE WHEN a > b THEN a END`. -/
def larger : Phrase .comparison :=
  let column (t : String) (h : Token.column? t = some ⟨t, ""⟩) : Phrase (.chain .sum) :=
    .first (.factor (.column t _ h))
  .lone (.first (.factor (.guarded ⟨"CASE", by decide⟩ ⟨"WHEN", by decide⟩
    (.compared (column "a" column_a) ">" .gt (by decide) (column "b" column_b))
    ⟨"THEN", by decide⟩ (column "a" column_a) ⟨"END", by decide⟩)))

/-- What it stands for. -/
def largerNode : Node :=
  .guarded .gt (.column ⟨"a", ""⟩) (.column ⟨"b", ""⟩) (.column ⟨"a", ""⟩)

theorem parse_minus_larger : endsCase "CASE WHEN a > b THEN a END" = true ∧
    ∃ m, Lessens (digitsConstant "3") largerNode m ∧
      Node.parse (fun _ => none) ("CASE WHEN a > b THEN a END" ++ " - " ++ "3") = .ok m ∧
      Node.parse (fun _ => none) ("CASE WHEN a > b THEN a END" ++ "-" ++ "3") =
        .error (.unexpectedToken "-3") := by
  have hscan : Token.scan "CASE WHEN a > b THEN a END" =
      .ok ["CASE", "WHEN", "a", ">", "b", "THEN", "a", "END"] := by decide +kernel
  have hends : endsCase "CASE WHEN a > b THEN a END" = true := by
    rw [endsCase, hscan]
    decide
  have hparse : Parser.parseTokens (fun _ => none) ["CASE", "WHEN", "a", ">", "b", "THEN", "a", "END"] =
      .ok largerNode := @parseTokens_of_phrase (fun _ => none) largerNode larger (by rfl)
  have hd : Digits "3" := ⟨by decide, by decide, by decide⟩
  obtain ⟨m, hm, hspaced, htight⟩ := parse_minus ((parse_of_scan hscan).trans hparse) hd
  rw [if_pos hends] at htight
  exact ⟨hends, m, hm, hspaced, htight⟩

end Grammar

end FactFold
