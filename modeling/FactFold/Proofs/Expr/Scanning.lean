import FactFold.Proofs.Expr.Grammar
import FactFold.Proofs.Text.Quoting
import Mathlib

/-!
# Scanning

`Cuts last cs ts` says that the text `cs`, read after the token `last`, is cut into the tokens `ts`. It
leaves out the positions and the fuel, which `scanFrom_of_cuts` puts back. There is a rule for each sort
of token that printed expressions are made of. A number, a name or a string is taken whole when what
follows it could not be part of it (`Delimited`); a sign belongs to a number only where an operand is
expected. A string is over at the first quote that no backslash protects, so that what may stand inside
it is the same notion for both quotes, `Sealed`.
-/

namespace FactFold

/-! ## Decimal integers -/

namespace Number

theorem toList_decimal (n : Int) :
    (decimal n).toList = (if n < 0 then ['-'] else []) ++ Nat.toDigits 10 n.natAbs := by
  simp [decimal, padded]

theorem isDigit_of_mem_toDigits {n : Nat} : ∀ c ∈ Nat.toDigits 10 n, isDigit c = true := by
  intro c hc
  have := Nat.isDigit_of_mem_toDigits (by decide) (by decide) hc
  simpa [isDigit, Char.isDigit, Char.le_def] using this

/-- Digits are read as the number they write. -/
theorem foldlM_digits {ds : List Char} (h : ∀ c ∈ ds, isDigit c = true) (init : Nat) :
    ds.foldlM (fun n c => if isDigit c then some (n * 10 + (c.toNat - 48)) else none) init =
      some (Nat.ofDigitChars 10 ds init) := by
  induction ds generalizing init with
  | nil => rfl
  | cons c ds ih =>
    have hc : isDigit c = true := h c (by simp)
    rw [List.foldlM_cons, if_pos hc, Nat.ofDigitChars_cons, Nat.mul_comm 10 init]
    exact ih (fun d hd => h d (by simp [hd])) _

theorem takeSign_digits {ds : List Char} (h : ∀ c ∈ ds, isDigit c = true) :
    takeSign ds = (false, ds) := by
  unfold takeSign
  split
  · exact absurd (h '-' (by simp)) (by decide)
  · exact absurd (h '+' (by simp)) (by decide)
  · rfl

/-- A decimal integer of 64 bits is read back. -/
theorem readDecimalInt?_decimal {n : Int} (h : fits64 n = true) :
    readDecimalInt? (decimal n).toList = some n := by
  have hvalue := foldlM_digits (isDigit_of_mem_toDigits (n := n.natAbs)) 0
  rw [Nat.ofDigitChars_ten_toDigits] at hvalue
  have hne : (Nat.toDigits 10 n.natAbs).isEmpty = false := by
    simp [Nat.toDigits_ne_nil]
  have hsign : takeSign ((if n < 0 then ['-'] else []) ++ Nat.toDigits 10 n.natAbs) =
      (decide (n < 0), Nat.toDigits 10 n.natAbs) := by
    by_cases hneg : n < 0
    · simp [hneg, takeSign]
    · simp [hneg, takeSign_digits isDigit_of_mem_toDigits]
  -- the sign is put back on the absolute value
  have hback : (if decide (n < 0) = true then -(n.natAbs : Int) else n.natAbs) = n := by
    by_cases hneg : n < 0
    · rw [if_pos (decide_eq_true hneg)]
      omega
    · rw [if_neg (by simpa using hneg)]
      omega
  rw [toList_decimal, readDecimalInt?, hsign]
  simp only [hne, Bool.false_eq_true, if_false, bind, Option.bind, hvalue, hback, h, if_true]

theorem fits64_of_lt {n : Nat} (h : n < 2 ^ 63) : fits64 n = true := by
  have hlow : -(2 ^ 63) ≤ (n : Int) := by omega
  have hhigh : (n : Int) < 2 ^ 63 := by exact_mod_cast h
  simp only [fits64, hlow, hhigh, decide_true, Bool.and_true]

/-- Digits within 64 bits are read as the number they write. -/
theorem readDecimalInt?_digits {cs : List Char} (hne : cs ≠ []) (h : ∀ c ∈ cs, isDigit c = true)
    (hrange : Nat.ofDigitChars 10 cs 0 < 2 ^ 63) :
    readDecimalInt? cs = some (Nat.ofDigitChars 10 cs 0 : Int) := by
  have hvalue := foldlM_digits h 0
  have hempty : cs.isEmpty = false := by simpa using hne
  simp only [readDecimalInt?, takeSign_digits h, hempty, Bool.false_eq_true, if_false, bind,
    Option.bind, hvalue, fits64_of_lt hrange, if_true]

end Number

namespace Token

/-! ## Tokens one after the other -/

/-- The text, read after a token, is cut into these tokens. -/
inductive Cuts : Option String → List Char → List String → Prop
  | nil (last : Option String) : Cuts last [] []
  | space {last : Option String} {c : Char} {cs : List Char} {ts : List String}
      (hc : isSpace c = true) (h : Cuts last cs ts) : Cuts last (c :: cs) ts
  | token {last : Option String} {c : Char} {front tail : List Char} {ts : List String}
      (hc : isSpace c = false)
      (hnext : ∀ position, next position (expectsOperand last) c (front ++ tail) =
        .ok (c :: front, tail))
      (h : Cuts (some (String.ofList (c :: front))) tail ts) :
      Cuts last (c :: front ++ tail) (String.ofList (c :: front) :: ts)

theorem scanFrom_of_cuts {last : Option String} {cs : List Char} {ts : List String}
    (h : Cuts last cs ts) {fuel : Nat} (hfuel : cs.length ≤ fuel) (position : Nat) :
    scanFrom fuel position last cs = .ok ts := by
  induction h generalizing fuel position with
  | nil => cases fuel <;> rfl
  | space hc _ ih =>
    obtain ⟨fuel, rfl⟩ : ∃ f, fuel = f + 1 := ⟨fuel - 1, by simp at hfuel; omega⟩
    rw [scanFrom, if_pos hc]
    exact ih (by simpa using hfuel) _
  | @token last c front tail ts hc hnext _ ih =>
    simp only [List.cons_append, List.length_cons, List.length_append] at hfuel
    obtain ⟨fuel, rfl⟩ : ∃ f, fuel = f + 1 := ⟨fuel - 1, by omega⟩
    have htail : ∀ position, scanFrom fuel position (some (String.ofList (c :: front))) tail = .ok ts :=
      ih (by omega)
    rw [List.cons_append, scanFrom, if_neg (by simp [hc]), hnext]
    simp only [bind, Except.bind, htail, pure, Except.pure]

/-- A text is scanned as it is cut, unless it is blank. -/
theorem scan_of_cuts_mem {text : String} {ts : List String} (h : Cuts none text.toList ts)
    {c : Char} (hmem : c ∈ text.toList) (hc : Text.isBlank c = false) : scan text = .ok ts := by
  have hne : (Text.trimChars text.toList).isEmpty = false := by
    have hfront : text.toList.dropWhile Text.isBlank ≠ [] := by
      -- the character that is not blank stops the trimming
      intro hnil
      have := List.dropWhile_eq_nil_iff.1 hnil c hmem
      simp [hc] at this
    have hhead := List.head_dropWhile_not Text.isBlank hfront
    have hback : (text.toList.dropWhile Text.isBlank).reverse.dropWhile Text.isBlank ≠ [] := by
      intro hnil
      have := List.dropWhile_eq_nil_iff.1 hnil _ (List.mem_reverse.2 (List.head_mem hfront))
      simp [hhead] at this
    simp [Text.trimChars, hback]
  rw [scan, if_neg (by simp [hne])]
  exact scanFrom_of_cuts h (Nat.le_refl _) 0

theorem scan_of_cuts {text : String} {ts : List String} (h : Cuts none text.toList ts)
    {c : Char} {cs : List Char} (htext : text.toList = c :: cs) (hc : Text.isBlank c = false) :
    scan text = .ok ts := scan_of_cuts_mem h (by simp [htext]) hc

/-! ## Signs and brackets -/

/-- Operators start with the character of a sign. -/
theorem isOperator_head {c : Char} {cs : List Char}
    (h : isOperator (String.ofList (c :: cs)) = true) :
    c ∈ ['+', '-', '*', '/', '=', '!', '<', '>'] := by
  have hheads : ∀ s ∈ operators,
      s.toList.head?.all ['+', '-', '*', '/', '=', '!', '<', '>'].contains = true := by
    decide +kernel
  simpa using hheads _ (List.contains_iff_mem.1 h)

/-- Parentheses and commas are tokens whatever surrounds them. -/
theorem Cuts.bracket {last : Option String} {c : Char} {cs : List Char} {ts : List String}
    (hc : c = '(' ∨ c = ')' ∨ c = ',') (h : Cuts (some (String.ofList [c])) cs ts) :
    Cuts last (c :: cs) (String.ofList [c] :: ts) := by
  have hspace : isSpace c = false := by rcases hc with rfl | rfl | rfl <;> decide
  refine @Cuts.token last c [] cs ts hspace (fun position => ?_) h
  have hpair : ∀ d, isOperator (String.ofList [c, d]) = false := by
    -- no operator of two characters starts with a bracket or comma
    intro d
    rw [Bool.eq_false_iff]
    intro hop
    have := isOperator_head hop
    rcases hc with rfl | rfl | rfl <;> simp at this
  have hnumber : takeNumber? (expectsOperand last) (c :: cs) = none := by
    rcases hc with rfl | rfl | rfl <;> simp [takeNumber?, Number.isDigit]
  have hsymbol : takeSymbol? (c :: cs) = some ([c], cs) := by
    cases cs with
    | nil => rcases hc with rfl | rfl | rfl <;> simp [takeSymbol?]
    | cons d cs =>
      simp only [takeSymbol?, hpair, Bool.false_eq_true, if_false]
      rcases hc with rfl | rfl | rfl <;> simp
  have hplain : c ≠ apostrophe ∧ c ≠ '"' ∧ c ≠ backtick := by
    rcases hc with rfl | rfl | rfl <;> decide
  simp [next, hplain, hnumber, hsymbol]

/-- The signs of printed expressions. -/
def signs : List String := ["*", "/", "+", "-", "==", "!=", "<", "<=", ">", ">="]

theorem next_sign {t : String} (ht : t ∈ signs) :
    ∃ c front, t = String.ofList (c :: front) ∧ isSpace c = false ∧
      ∀ position operand cs,
        next position operand c (front ++ ' ' :: cs) = .ok (c :: front, ' ' :: cs) := by
  simp only [signs, List.mem_cons, List.not_mem_nil, or_false] at ht
  rcases ht with rfl | rfl | rfl | rfl | rfl | rfl | rfl | rfl | rfl | rfl
  all_goals exact ⟨_, _, rfl, rfl, fun position operand cs => by cases operand <;> rfl⟩

/-- A sign before a space is a token, a minus too, since no digit follows it. -/
theorem Cuts.sign {last : Option String} {t : String} (ht : t ∈ signs) {cs : List Char}
    {ts : List String} (h : Cuts (some t) cs ts) :
    Cuts last (t.toList ++ ' ' :: cs) (t :: ts) := by
  obtain ⟨c, front, rfl, hspace, hnext⟩ := next_sign ht
  rw [String.toList_ofList]
  exact .token hspace (fun position => hnext position _ cs) (.space rfl h)

/-! ## Numbers and names -/

/-- What follows a token in a printed expression. -/
def Delimited (cs : List Char) : Prop := ∀ c ∈ cs.head?, c = ' ' ∨ c = ')' ∨ c = ','

theorem takeWhile_front {p : Char → Bool} {front tail : List Char} (hfront : ∀ c ∈ front, p c = true)
    (htail : ∀ c ∈ tail.head?, p c = false) :
    (front ++ tail).takeWhile p = front ∧ (front ++ tail).dropWhile p = tail := by
  have hstop : tail.takeWhile p = [] ∧ tail.dropWhile p = tail := by
    cases tail with
    | nil => simp
    | cons c cs =>
      have hc : p c = false := htail c (by simp)
      simp [hc]
  rw [List.takeWhile_append_of_pos hfront, List.dropWhile_append_of_pos hfront, hstop.1, hstop.2]
  simp

theorem takeUnsigned_digits {front tail : List Char} (hfront : ∀ c ∈ front, Number.isDigit c = true)
    (htail : Delimited tail) : takeUnsigned (front ++ tail) = (front, tail) := by
  have hplain : ∀ c ∈ tail.head?,
      Number.isDigit c = false ∧ c ≠ '.' ∧ c ≠ 'e' ∧ c ≠ 'E' := by
    intro c hc
    -- neither a fraction nor an exponent can start with what follows
    rcases htail c hc with rfl | rfl | rfl <;> decide
  obtain ⟨htake, hdrop⟩ := takeWhile_front hfront fun c hc => (hplain c hc).1
  have hfraction : takeFraction tail = ([], tail) := by
    cases tail with
    | nil => rfl
    | cons c cs =>
      have hc := (hplain c (by simp)).2.1
      unfold takeFraction
      split
      · rename_i heq
        exact absurd (List.cons.inj heq).1 hc
      · rfl
  have hexponent : takeExponent tail = ([], tail) := by
    cases tail with
    | nil => rfl
    | cons c cs =>
      have hc := (hplain c (by simp)).2.2
      simp [takeExponent, hc]
  simp [takeUnsigned, htake, hdrop, hfraction, hexponent]

theorem plain_of_isDigit {c : Char} (h : Number.isDigit c = true) :
    isSpace c = false ∧ c ≠ '-' ∧ c ≠ apostrophe ∧ c ≠ '"' ∧ c ≠ backtick := by
  have hlow : 48 ≤ c.toNat ∧ c.toNat ≤ 57 := by
    simpa [Number.isDigit, Char.le_def, UInt32.le_iff_toNat_le] using h
  refine ⟨?_, ?_, ?_, ?_, ?_⟩
  · have hspace : c ≠ ' ' := by
      rintro rfl
      simp at hlow
    simp [isSpace, hspace]
    omega
  all_goals
    rintro rfl
    revert h
    decide

/-- Digits are one token. -/
theorem Cuts.digits {last : Option String} {d : Char} {ds : List Char}
    (hdigits : ∀ c ∈ d :: ds, Number.isDigit c = true) {cs : List Char} {ts : List String}
    (hcs : Delimited cs) (h : Cuts (some (String.ofList (d :: ds))) cs ts) :
    Cuts last (d :: ds ++ cs) (String.ofList (d :: ds) :: ts) := by
  have hd : Number.isDigit d = true := hdigits d (by simp)
  have hunsigned : takeUnsigned (d :: (ds ++ cs)) = (d :: ds, cs) := takeUnsigned_digits hdigits hcs
  have hplain := plain_of_isDigit hd
  refine Cuts.token hplain.1 (fun position => ?_) h
  simp [next, takeNumber?, hd, hunsigned, hplain.2]

/-- With a minus before them they are one token where an operand is expected. -/
theorem Cuts.negative {last : Option String} (hlast : expectsOperand last = true) {d : Char}
    {ds : List Char} (hdigits : ∀ c ∈ d :: ds, Number.isDigit c = true) {cs : List Char}
    {ts : List String} (hcs : Delimited cs)
    (h : Cuts (some (String.ofList ('-' :: d :: ds))) cs ts) :
    Cuts last ('-' :: d :: ds ++ cs) (String.ofList ('-' :: d :: ds) :: ts) := by
  have hd : Number.isDigit d = true := hdigits d (by simp)
  have hunsigned : takeUnsigned (d :: (ds ++ cs)) = (d :: ds, cs) := takeUnsigned_digits hdigits hcs
  refine @Cuts.token last '-' (d :: ds) cs ts rfl (fun position => ?_) h
  -- the minus belongs to the number, since an operand is expected
  rw [hlast]
  simp [next, takeNumber?, startsWithDigit, hd, hunsigned, apostrophe, backtick]

/-- A decimal integer is one token where an operand is expected. -/
theorem Cuts.decimal {last : Option String} (hlast : expectsOperand last = true) (n : Int)
    {cs : List Char} {ts : List String} (hcs : Delimited cs)
    (h : Cuts (some (Number.decimal n)) cs ts) :
    Cuts last ((Number.decimal n).toList ++ cs) (Number.decimal n :: ts) := by
  obtain ⟨d, ds, hds⟩ : ∃ d ds, Nat.toDigits 10 n.natAbs = d :: ds :=
    List.exists_cons_of_ne_nil Nat.toDigits_ne_nil
  have hdigits : ∀ c ∈ d :: ds, Number.isDigit c = true := hds ▸ Number.isDigit_of_mem_toDigits
  have htext : Number.decimal n = String.ofList ((if n < 0 then ['-'] else []) ++ d :: ds) := by
    rw [← hds, ← Number.toList_decimal, String.ofList_toList]
  rw [htext] at h ⊢
  rw [String.toList_ofList]
  by_cases hneg : n < 0
  · rw [if_pos hneg] at h ⊢
    exact Cuts.negative hlast hdigits hcs h
  · rw [if_neg hneg] at h ⊢
    exact Cuts.digits hdigits hcs h

theorem isOperator_of_startsName {c : Char} (h : startsName c = true) (cs : List Char) :
    isOperator (String.ofList (c :: cs)) = false := by
  rw [Bool.eq_false_iff]
  intro hop
  -- operators and names differ in their first characters
  have hheads : ['+', '-', '*', '/', '=', '!', '<', '>'].all (fun d => !startsName d) = true := by
    decide
  have hc := List.all_eq_true.1 hheads c (isOperator_head hop)
  simp [h] at hc

theorem isSpace_of_startsName {c : Char} (h : startsName c = true) : isSpace c = false := by
  have hlow : 36 ≤ c.toNat := by
    simp only [startsName, isLetter, Bool.or_eq_true, Bool.and_eq_true, decide_eq_true_eq,
      Char.le_def, UInt32.le_iff_toNat_le] at h
    rcases h with ((⟨ha, -⟩ | ⟨ha, -⟩) | rfl) | rfl
    · exact le_trans (by decide) ha
    · exact le_trans (by decide) ha
    · decide
    · decide
  have hspace : c ≠ ' ' := by
    rintro rfl
    simp at hlow
  simp [isSpace, hspace]
  omega

theorem ne_of_startsName {c d : Char} (h : startsName c = true) (hd : startsName d = false) :
    c ≠ d := by
  rintro rfl
  simp [hd] at h

/-- Names start neither like numbers nor like symbols. -/
theorem takeNumber?_of_startsName {c : Char} (h : startsName c = true) {operand : Bool}
    {rest : List Char} : takeNumber? operand (c :: rest) = none := by
  have hne : ∀ d, startsName d = false → c ≠ d := fun d => ne_of_startsName h
  simp [takeNumber?, hne '-' (by decide), hne '.' (by decide), isDigit_of_startsName h]

theorem takeSymbol?_of_startsName {c : Char} (h : startsName c = true) {rest : List Char} :
    takeSymbol? (c :: rest) = none := by
  have hne : ∀ d, startsName d = false → c ≠ d := fun d => ne_of_startsName h
  cases rest <;>
    simp only [takeSymbol?, isOperator_of_startsName h, hne '(' (by decide), hne ')' (by decide),
      hne ',' (by decide), decide_false, Bool.or_self, Bool.false_eq_true, if_false]

/-- A name is one token before anything it could not go on with. -/
theorem Cuts.name {last : Option String} {t : String} {c : Char} {front : List Char}
    (ht : t.toList = c :: front) (hc : startsName c = true)
    (hfront : ∀ d ∈ front, continuesName d = true) {cs : List Char} {ts : List String}
    (hcs : ∀ d ∈ cs.head?, continuesName d = false) (h : Cuts (some t) cs ts) :
    Cuts last (t.toList ++ cs) (t :: ts) := by
  obtain rfl : t = String.ofList (c :: front) := by rw [← ht, String.ofList_toList]
  rw [String.toList_ofList]
  refine Cuts.token (isSpace_of_startsName hc) (fun position => ?_) h
  have hall : ∀ d ∈ c :: front, continuesName d = true := by
    rintro d (_ | ⟨_, hd⟩)
    · simp [continuesName, hc]
    · exact hfront d hd
  obtain ⟨htake, hdrop⟩ := takeWhile_front hall hcs
  have hne : ∀ d, startsName d = false → c ≠ d := fun d => ne_of_startsName hc
  rw [List.cons_append] at htake hdrop
  simp [next, hne apostrophe (by decide), hne '"' (by decide), hne backtick (by decide),
    takeNumber?_of_startsName hc, takeSymbol?_of_startsName hc, hc, htake, hdrop]

/-! ## Bodies of quoted strings -/

/-- No quote in the body ends the string: each has a backslash before it that protects it. -/
inductive Sealed (quote : Char) : List Char → Prop
  | nil : Sealed quote []
  | plain {c : Char} {cs : List Char} (hc : c ≠ quote ∧ c ≠ '\\') (h : Sealed quote cs) :
      Sealed quote (c :: cs)
  | escape {cs : List Char} (d : Char) (h : Sealed quote cs) : Sealed quote ('\\' :: d :: cs)

variable {quote : Char} {cs ds : List Char}

theorem Sealed.append (hcs : Sealed quote cs) (hds : Sealed quote ds) : Sealed quote (cs ++ ds) := by
  induction hcs with
  | nil => exact hds
  | plain hc _ ih => exact .plain hc ih
  | escape d _ ih => exact .escape d ih

theorem Sealed.of_forall (h : ∀ c ∈ cs, c ≠ quote ∧ c ≠ '\\') : Sealed quote cs := by
  induction cs with
  | nil => exact .nil
  | cons c cs ih => exact .plain (h c (by simp)) (ih fun d hd => h d (by simp [hd]))

theorem Sealed.flatMap {α : Type} {f : α → List Char} {xs : List α}
    (h : ∀ x ∈ xs, Sealed quote (f x)) : Sealed quote (xs.flatMap f) := by
  induction xs with
  | nil => exact .nil
  | cons x xs ih =>
    rw [List.flatMap_cons]
    exact (h x (by simp)).append (ih fun y hy => h y (by simp [hy]))

/-- Where it does not stand, another quote ends no string either. -/
theorem Sealed.swap {other : Char} (h : Sealed quote cs) (hother : other ∉ cs) :
    Sealed other cs := by
  induction h with
  | nil => exact .nil
  | plain hc _ ih =>
    simp only [List.mem_cons, not_or] at hother
    exact .plain ⟨Ne.symm hother.1, hc.2⟩ (ih hother.2)
  | escape d _ ih =>
    simp only [List.mem_cons, not_or] at hother
    exact .escape d (ih hother.2.2)

/-- A string ends at the first quote that nothing protects. -/
theorem takeQuoted_sealed (hquote : quote = apostrophe ∨ quote = '"') (h : Sealed quote cs)
    (tail : List Char) : takeQuoted quote (cs ++ quote :: tail) = some (cs ++ [quote], tail) := by
  have hslash : '\\' ≠ quote := by rcases hquote with rfl | rfl <;> decide
  induction h with
  | nil =>
    rw [List.nil_append, takeQuoted.eq_def]
    simp
  | plain hc _ ih =>
    rw [List.cons_append, takeQuoted.eq_def]
    simp [hc, ih]
  | escape d _ ih =>
    -- the character behind a backslash is passed over, even if it is the quote
    rw [List.cons_append, List.cons_append, takeQuoted.eq_def]
    simp [hslash, ih]

/-- Up to the end of a string a sealed body is taken, and the quote. -/
theorem sealed_of_takeQuoted {token tail : List Char}
    (h : takeQuoted quote cs = some (token, tail)) :
    ∃ body, cs = body ++ quote :: tail ∧ token = body ++ [quote] ∧ Sealed quote body := by
  fun_induction takeQuoted quote cs generalizing token with
  | case1 => cases h
  | case2 rest =>
    cases h
    exact ⟨[], rfl, rfl, .nil⟩
  | case3 => cases h
  | case4 d rest hquote ih =>
    obtain ⟨⟨more, tail⟩, hmore, hr⟩ := Option.map_eq_some_iff.1 h
    cases hr
    obtain ⟨body, rfl, rfl, hbody⟩ := ih hmore
    exact ⟨_, rfl, rfl, .escape d hbody⟩
  | case5 c rest hquote hslash ih =>
    obtain ⟨⟨more, tail⟩, hmore, hr⟩ := Option.map_eq_some_iff.1 h
    cases hr
    obtain ⟨body, rfl, rfl, hbody⟩ := ih hmore
    exact ⟨_, rfl, rfl, .plain ⟨hquote, hslash⟩ hbody⟩

/-- The text of a string between quotes. -/
def quoted (quote : Char) (body : List Char) : String := String.ofList (quote :: (body ++ [quote]))

/-- A string with a sealed body is one token. -/
theorem Cuts.quoted {last : Option String} (hquote : quote = apostrophe ∨ quote = '"')
    {body : List Char} (hbody : Sealed quote body) {cs : List Char} {ts : List String}
    (h : Cuts (some (quoted quote body)) cs ts) :
    Cuts last ((quoted quote body).toList ++ cs) (quoted quote body :: ts) := by
  have hspace : isSpace quote = false := by rcases hquote with rfl | rfl <;> decide
  rw [Token.quoted, String.toList_ofList]
  refine Cuts.token hspace (fun position => ?_) h
  have htake : takeQuoted quote (body ++ ([quote] ++ cs)) = some (body ++ [quote], cs) :=
    takeQuoted_sealed hquote hbody cs
  rw [List.append_assoc, next, if_pos (by simpa using hquote), htake]

theorem sealed_quotePiece (p : Text.Bytes.Piece) : Sealed '"' (Text.quotePiece false p) := by
  obtain ⟨c, -, hp, hplain⟩ | ⟨d, ds, hp, hds, -⟩ := Text.quotePiece_cases p
  · rw [hp]
    exact .plain ⟨hplain.1, hplain.2.1⟩ .nil
  · rw [hp]
    exact .escape d (.of_forall hds)

/-- A quoted byte string is one token. -/
theorem Cuts.string {last : Option String} (bs : Text.Bytes) {cs : List Char} {ts : List String}
    (h : Cuts (some (Text.quote bs)) cs ts) :
    Cuts last ((Text.quote bs).toList ++ cs) (Text.quote bs :: ts) :=
  Cuts.quoted (.inr rfl) (.flatMap fun p _ => sealed_quotePiece p) h

end Token

end FactFold
