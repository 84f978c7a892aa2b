import FactFold.Proofs.Expr.Cutting

/-!
# Scanning the tokens of a text

Scanning loses and invents nothing: a text is made of its tokens and of spaces around them
(`Cuts.gaps`), and its tokens with one space between each two are scanned into the same tokens again
(`Cuts.intercalate`).

For the second, a token must be cut off its text in the same way when a space follows it instead of
what followed it there (`Next.taken`). Whatever the scanner looks at behind a token can only make the
token longer, and no token goes on with a space. What the scanner looks at before it is the token
before, which stays the same.
-/

namespace FactFold.Token

open Number (isDigit)

variable {cs x tail token front : List Char} {operand : Bool} {c : Char} {rest : List Char}

/-! ## Numbers

What was taken is taken again when something else is behind it that is no part of a number. -/

/-- Nothing that could go on with a number. -/
theorem Delimited.number (hx : Delimited x) : ∀ c ∈ x.head?,
    isDigit c = false ∧ c ≠ '.' ∧ c ≠ 'e' ∧ c ≠ 'E' ∧ c ≠ '+' ∧ c ≠ '-' := by
  intro c hc
  rcases hx c hc with rfl | rfl | rfl <;> decide

theorem takeWhile_taken {p : Char → Bool} (hx : ∀ c ∈ x.head?, p c = false) :
    (cs.takeWhile p ++ x).takeWhile p = cs.takeWhile p ∧ (cs.takeWhile p ++ x).dropWhile p = x :=
  takeWhile_front (fun _ hc => List.mem_takeWhile_imp hc) hx

theorem startsWithDigit_takeWhile (h : startsWithDigit cs = true) (x : List Char) :
    startsWithDigit (cs.takeWhile isDigit ++ x) = true := by
  cases cs with
  | nil => cases h
  | cons d cs =>
    have hd : isDigit d = true := h
    rw [List.takeWhile_cons_of_pos hd]
    exact hd

theorem takeDigits_delimited (hx : Delimited x) : takeDigits x = ([], x) := by
  cases x with
  | nil => rfl
  | cons c x =>
    have hc := hx.number c rfl
    simp [takeDigits, hc]

theorem takeDigits_taken (hx : Delimited x) :
    takeDigits ((takeDigits cs).1 ++ x) = ((takeDigits cs).1, x) := by
  have hstop : ∀ c ∈ x.head?, isDigit c = false := fun c hc => (hx.number c hc).1
  cases cs with
  | nil => exact takeDigits_delimited hx
  | cons s digits =>
    rw [takeDigits]
    split
    case isTrue hsign =>
      obtain ⟨htake, hdrop⟩ := @takeWhile_taken digits x _ hstop
      rw [List.cons_append, takeDigits, if_pos hsign, htake, hdrop]
    case isFalse hsign =>
      cases hs : isDigit s with
      | false =>
        -- no digit at all
        simpa [hs] using takeDigits_delimited hx
      | true =>
        obtain ⟨htake, hdrop⟩ := @takeWhile_taken (s :: digits) x _ hstop
        rw [List.takeWhile_cons_of_pos hs, List.cons_append] at htake hdrop ⊢
        rw [takeDigits, if_neg hsign, htake, hdrop]

theorem takeExponent_delimited (hx : Delimited x) : takeExponent x = ([], x) := by
  cases x with
  | nil => rfl
  | cons c x =>
    have hc := hx.number c rfl
    simp [takeExponent_cons, hc]

theorem takeExponent_taken (hx : Delimited x) :
    takeExponent ((takeExponent cs).1 ++ x) = ((takeExponent cs).1, x) := by
  cases cs with
  | nil => exact takeExponent_delimited hx
  | cons e cs =>
    rw [takeExponent_cons]
    split
    case isTrue he => rw [List.cons_append, takeExponent_cons, if_pos he, takeDigits_taken hx]
    case isFalse => exact takeExponent_delimited hx

/-- An exponent begins with its letter. -/
theorem head?_takeExponent (hx : Delimited x) :
    ∀ c ∈ ((takeExponent cs).1 ++ x).head?, isDigit c = false ∧ c ≠ '.' := by
  have hnone : ∀ c ∈ x.head?, isDigit c = false ∧ c ≠ '.' :=
    fun c hc => ⟨(hx.number c hc).1, (hx.number c hc).2.1⟩
  cases cs with
  | nil => exact hnone
  | cons e cs =>
    rw [takeExponent_cons]
    split
    case isTrue he =>
      have hletter : e = 'e' ∨ e = 'E' := by simpa using he
      rintro c hc
      obtain rfl : e = c := Option.some.inj hc
      rcases hletter with rfl | rfl <;> decide
    case isFalse => exact hnone

theorem takeFraction_taken (hx : ∀ c ∈ x.head?, isDigit c = false ∧ c ≠ '.') :
    takeFraction ((takeFraction cs).1 ++ x) = ((takeFraction cs).1, x) := by
  have hnone : takeFraction x = ([], x) := takeFraction_other fun hpoint => (hx _ hpoint).2 rfl
  by_cases hpoint : cs.head? = some '.'
  · obtain ⟨cs, rfl⟩ := List.head?_eq_some_iff.1 hpoint
    rw [takeFraction_point]
    split
    case isTrue hdigit =>
      obtain ⟨htake, hdrop⟩ := @takeWhile_taken cs x _ fun c hc => (hx c hc).1
      rw [List.cons_append, takeFraction_point, if_pos (startsWithDigit_takeWhile hdigit x), htake,
        hdrop]
    case isFalse => exact hnone
  · rw [takeFraction_other hpoint]
    exact hnone

/-- A fraction begins with its point. -/
theorem head?_takeFraction (hx : ∀ c ∈ x.head?, isDigit c = false) :
    ∀ c ∈ ((takeFraction cs).1 ++ x).head?, isDigit c = false := by
  by_cases hpoint : cs.head? = some '.'
  · obtain ⟨cs, rfl⟩ := List.head?_eq_some_iff.1 hpoint
    rw [takeFraction_point]
    split
    case isTrue =>
      intro c hc
      obtain rfl : '.' = c := Option.some.inj hc
      decide
    case isFalse => exact hx
  · rw [takeFraction_other hpoint]
    exact hx

theorem takeUnsigned_taken (hx : Delimited x) :
    takeUnsigned ((takeUnsigned cs).1 ++ x) = ((takeUnsigned cs).1, x) := by
  -- the number from its end: the exponent, the fraction and the digits in front of it
  have hexponent := @takeExponent_taken (takeFraction (cs.dropWhile isDigit)).2 x hx
  have hafter := @head?_takeExponent (takeFraction (cs.dropWhile isDigit)).2 x hx
  have hfraction := @takeFraction_taken (cs.dropWhile isDigit) _ hafter
  have hpoint := @head?_takeFraction (cs.dropWhile isDigit) _ fun c hc => (hafter c hc).1
  obtain ⟨htake, hdrop⟩ := @takeWhile_taken cs _ _ hpoint
  simp only [takeUnsigned, List.append_assoc, htake, hdrop, hfraction, hexponent]

/-- The number begins with a digit, or with a point and a digit. -/
def startsNumber : List Char → Bool
  | c :: rest => isDigit c || (c = '.' && startsWithDigit rest)
  | [] => false

theorem startsWithDigit_takeUnsigned (h : startsWithDigit cs = true) (x : List Char) :
    startsWithDigit ((takeUnsigned cs).1 ++ x) = true := by
  simp only [takeUnsigned, List.append_assoc]
  exact startsWithDigit_takeWhile h _

theorem startsNumber_takeUnsigned (h : startsNumber cs = true) (x : List Char) :
    startsNumber ((takeUnsigned cs).1 ++ x) = true := by
  cases cs with
  | nil => cases h
  | cons c rest =>
    rcases Bool.or_eq_true_iff.1 h with hdigit | hpoint
    · simp [takeUnsigned, startsNumber, hdigit]
    · obtain ⟨hc, hrest⟩ := Bool.and_eq_true_iff.1 hpoint
      obtain rfl : c = '.' := by simpa using hc
      have hwhole : ('.' :: rest).takeWhile isDigit = [] := rfl
      have hfraction : takeFraction (('.' :: rest).dropWhile isDigit) = _ := takeFraction_point rest
      rw [if_pos hrest] at hfraction
      simp only [takeUnsigned, hwhole, hfraction, List.nil_append, List.cons_append,
        List.append_assoc]
      simp [startsNumber, startsWithDigit_takeWhile hrest]

theorem takeNumber?_taken (hx : Delimited x)
    (h : takeNumber? operand (c :: rest) = some (c :: front, tail)) :
    takeNumber? operand (c :: (front ++ x)) = some (c :: front, x) := by
  rw [takeNumber?_cons] at h
  rw [takeNumber?_cons]
  split at h
  case isTrue hsign =>
    obtain ⟨rfl, -⟩ : (takeUnsigned rest).1 = front ∧ _ := by simpa using h
    have hrest : startsWithDigit rest = true := (Bool.and_eq_true_iff.1 hsign).2
    rw [hrest] at hsign
    rw [startsWithDigit_takeUnsigned hrest x, if_pos hsign, takeUnsigned_taken hx]
  case isFalse hsign =>
    split at h
    case isTrue hstart =>
      have hnumber : (takeUnsigned (c :: rest)).1 = c :: front := by rw [Option.some.inj h]
      have htaken := @takeUnsigned_taken (c :: rest) x hx
      have hstarts := @startsNumber_takeUnsigned (c :: rest) hstart x
      rw [hnumber, List.cons_append] at htaken hstarts
      have hagain : (isDigit c || (c = '.' && startsWithDigit (front ++ x))) = true := hstarts
      -- a number without a sign does not begin like one with a sign
      have hc : c ≠ '-' := by
        rintro rfl
        simp [isDigit] at hstart
      have hfirst : (c = '-' && operand && startsWithDigit (front ++ x)) = false := by simp [hc]
      rw [hfirst, if_neg Bool.false_ne_true, if_pos hagain, htaken]
    case isFalse => cases h

theorem startsWithDigit_front (hx : Delimited x) (h : startsWithDigit (front ++ x) = true) :
    startsWithDigit (front ++ tail) = true := by
  cases front with
  | cons d front => exact h
  | nil =>
    cases x with
    | nil => cases h
    | cons d x =>
      have hd : isDigit d = true := h
      rw [(hx.number d rfl).1] at hd
      cases hd

/-- What did not begin with a number does not begin with one when it is shorter. -/
theorem takeNumber?_front_none (hx : Delimited x)
    (h : takeNumber? operand (c :: (front ++ tail)) = none) :
    takeNumber? operand (c :: (front ++ x)) = none := by
  have hdigit : startsWithDigit (front ++ x) = true → startsWithDigit (front ++ tail) = true :=
    startsWithDigit_front hx
  rw [takeNumber?_cons] at h ⊢
  simp only [Bool.and_eq_true, Bool.or_eq_true, decide_eq_true_eq] at h ⊢
  split at h
  case isTrue => cases h
  case isFalse hsign =>
    split at h
    case isTrue => cases h
    case isFalse hstart =>
      rw [if_neg fun hs => hsign ⟨hs.1, hdigit hs.2⟩,
        if_neg fun hs => hstart (hs.imp_right fun hpoint => ⟨hpoint.1, hdigit hpoint.2⟩)]

/-! ## One token -/

theorem takeSymbol?_taken (hx : Delimited x) (h : takeSymbol? (c :: rest) = some (c :: front, tail)) :
    takeSymbol? (c :: (front ++ x)) = some (c :: front, x) := by
  -- first with nothing behind the symbol
  have halone : takeSymbol? (c :: front) = some (c :: front, []) := by
    cases rest with
    | nil =>
      simp only [takeSymbol?] at h
      split at h <;> cases h
      rw [takeSymbol?, if_pos ‹_›]
    | cons d rest =>
      simp only [takeSymbol?] at h
      split at h
      case isTrue hpair =>
        cases h
        rw [takeSymbol?, if_pos hpair]
      case isFalse =>
        split at h <;> cases h
        rw [takeSymbol?, if_pos ‹_›]
  rw [takeSymbol?_append hx.parted, halone]
  rfl

theorem takeNamed_taken (h : takeNamed cs = some (token, tail)) :
    takeNamed (token ++ x) = some (token, x) := by
  fun_induction takeNamed cs generalizing token with
  | case1 => cases h
  | case2 rest =>
    cases h
    simp [takeNamed]
  | case3 c rest hmark ih =>
    obtain ⟨⟨body, more⟩, hbody, hr⟩ := Option.map_eq_some_iff.1 h
    cases hr
    simp [takeNamed, hmark, ih hbody]

theorem takeQuoted_taken {quote : Char} (hquote : quote = apostrophe ∨ quote = '"')
    (h : takeQuoted quote cs = some (token, tail)) :
    takeQuoted quote (token ++ x) = some (token, x) := by
  obtain ⟨body, -, rfl, hbody⟩ := sealed_of_takeQuoted h
  simpa using takeQuoted_sealed hquote hbody x

/-- **A token is cut off in the same way when a space follows it**, or what may follow it in a printed
expression. -/
theorem Next.taken (h : Next operand c rest (c :: front) tail) (hx : Delimited x) :
    Next operand c (front ++ x) (c :: front) x := by
  have hsplit : rest = front ++ tail := by
    obtain ⟨front', hfront, hrest⟩ := h.split
    rwa [(List.cons.inj hfront).2]
  generalize htoken : c :: front = token at h
  cases h with
  | quoted hc h =>
    cases htoken
    exact .quoted hc (takeQuoted_taken hc h)
  | named hc h =>
    cases htoken
    exact .named hc (takeNamed_taken h)
  | bare hc h =>
    subst htoken
    refine .bare hc ?_
    rcases Option.or_eq_some_iff.1 h with hnumber | ⟨hnone, hsymbol⟩
    · rw [takeNumber?_taken hx hnumber, Option.some_or]
    · rw [hsplit] at hnone
      rw [takeNumber?_front_none hx hnone, Option.none_or, takeSymbol?_taken hx hsymbol]
  | name hc h =>
    have hstop : ∀ d ∈ x.head?, continuesName d = false := by
      have hname := hx.parted.head (p := fun d => !continuesName d) (by decide)
      simpa using hname
    obtain ⟨htake, hdrop⟩ := @takeWhile_taken (c :: rest) x _ hstop
    rw [← htoken, List.cons_append] at htake hdrop
    have hname : Next operand c (front ++ x) _ _ := .name hc (by
      rw [takeNumber?_of_startsName hc, takeSymbol?_of_startsName hc]
      rfl)
    rw [htake, hdrop] at hname
    rwa [← htoken]

/-! ## All tokens -/

/-- A text of spaces. -/
def Gap (w : String) : Prop := ∀ c ∈ w.toList, isSpace c = true

/-- Tokens with the gap behind each. -/
def spaced (ts gaps : List String) : String := String.join (List.zipWith (· ++ ·) ts gaps)

/-- **A text is made of its tokens, and of gaps before, between and behind them.** -/
theorem Cuts.gaps {last : Option String} {ts : List String} (h : Cuts last cs ts) :
    ∃ first gaps, Gap first ∧ (∀ w ∈ gaps, Gap w) ∧ gaps.length = ts.length ∧
      String.ofList cs = first ++ spaced ts gaps := by
  induction h with
  | nil last => exact ⟨"", [], nofun, nofun, rfl, rfl⟩
  | @space last c cs ts hc _ ih =>
    obtain ⟨first, gaps, hfirst, hgaps, hlength, htext⟩ := ih
    refine ⟨String.ofList [c] ++ first, gaps, ?_, hgaps, hlength, ?_⟩
    · intro d hd
      rw [String.toList_append, String.toList_ofList, List.mem_append, List.mem_singleton] at hd
      rcases hd with rfl | hd
      · exact hc
      · exact hfirst d hd
    · rw [String.append_assoc, ← htext, ← String.ofList_append]
      rfl
  | @token last c front tail ts _ _ _ ih =>
    -- the gap before the other tokens is the one behind this token
    obtain ⟨first, gaps, hfirst, hgaps, hlength, htext⟩ := ih
    refine ⟨"", first :: gaps, nofun, ?_, by simp [hlength], ?_⟩
    · rintro w (_ | ⟨_, hw⟩)
      · exact hfirst
      · exact hgaps w hw
    · simp [spaced, String.ofList_append, htext, String.append_assoc]

/-- A character of the text that is no space is a character of a token. -/
theorem Cuts.mem_token {last : Option String} {ts : List String} (h : Cuts last cs ts) (hc : c ∈ cs)
    (hspace : isSpace c = false) : ∃ t ∈ ts, c ∈ t.toList := by
  induction h with
  | nil => cases hc
  | space hspaced _ ih =>
    rcases List.mem_cons.1 hc with rfl | hc
    · rw [hspaced] at hspace
      cases hspace
    · exact ih hc
  | token _ _ _ ih =>
    rcases List.mem_append.1 hc with hc | hc
    · exact ⟨_, List.mem_cons_self, by simpa using hc⟩
    · obtain ⟨t, ht, hmem⟩ := ih hc
      exact ⟨t, List.mem_cons_of_mem _ ht, hmem⟩

theorem Cuts.ne_empty {last : Option String} {ts : List String} (h : Cuts last cs ts) :
    ∀ t ∈ ts, t ≠ "" := by
  induction h with
  | nil => nofun
  | space _ _ ih => exact ih
  | token _ _ _ ih =>
    rintro t (_ | ⟨_, ht⟩)
    · intro hempty
      simpa using congrArg String.toList hempty
    · exact ih t ht

/-- **The tokens with a space between each two are the same tokens again.** -/
theorem Cuts.intercalate {last : Option String} {ts : List String} (h : Cuts last cs ts) :
    Cuts last (" ".intercalate ts).toList ts := by
  induction h with
  | nil last => exact .nil last
  | space _ _ ih => exact ih
  | @token last c front tail ts hc hnext htail ih =>
    have hone : Next (expectsOperand last) c (front ++ tail) (c :: front) tail := next_iff.1 (hnext 0)
    have htoken {x : List Char} (hx : Delimited x)
        (h : Cuts (some (String.ofList (c :: front))) x ts) :
        Cuts last (c :: front ++ x) (String.ofList (c :: front) :: ts) :=
      .token hc (fun _ => next_iff.2 (hone.taken hx)) h
    cases ts with
    | nil =>
      simpa using htoken (x := []) nofun (.nil _)
    | cons t ts =>
      rw [String.intercalate_cons_cons]
      simp only [String.toList_append, String.toList_ofList, List.append_assoc]
      refine htoken (x := ' ' :: (" ".intercalate (t :: ts)).toList) ?_ (.space rfl ih)
      intro d hd
      obtain rfl : ' ' = d := Option.some.inj hd
      exact .inl rfl

theorem isBlank_of_isSpace (h : isSpace c = true) : Text.isBlank c = true := by
  rcases Bool.or_eq_true_iff.1 h with hc | hc
  · obtain rfl : c = ' ' := by simpa using hc
    rfl
  · simp only [Bool.and_eq_true, decide_eq_true_eq] at hc
    simp [Text.isBlank, hc]

theorem mem_intercalate {separator t : String} {ts : List String} (ht : t ∈ ts) (hc : c ∈ t.toList) :
    c ∈ (separator.intercalate ts).toList := by
  induction ts with
  | nil => cases ht
  | cons u ts ih =>
    cases ts with
    | nil =>
      rw [List.mem_singleton] at ht
      rwa [String.intercalate_singleton, ← ht]
    | cons v ts =>
      rw [String.intercalate_cons_cons, String.toList_append, List.mem_append]
      rcases List.mem_cons.1 ht with rfl | ht
      · exact .inl (by simp [hc])
      · exact .inr (ih ht)

/-- **Scanning loses and invents nothing.** The text is its tokens with gaps around them, no token is
empty, and the tokens with a space between each two are scanned into the same tokens. -/
theorem scan_faithful {text : String} {ts : List String} (h : scan text = .ok ts) :
    (∃ first gaps, Gap first ∧ (∀ w ∈ gaps, Gap w) ∧ gaps.length = ts.length ∧
      text = first ++ spaced ts gaps) ∧
    (∀ t ∈ ts, t ≠ "") ∧ scan (" ".intercalate ts) = .ok ts := by
  have hcuts := cuts_of_scan h
  refine ⟨?_, hcuts.ne_empty, ?_⟩
  · simpa using hcuts.gaps
  · -- a character that is not blank lies in a token, and so in the new text
    obtain ⟨c, hc, hblank⟩ := exists_not_blank h
    have hspace : isSpace c = false := by
      rw [Bool.eq_false_iff]
      intro hspace
      rw [isBlank_of_isSpace hspace] at hblank
      cases hblank
    obtain ⟨t, ht, hmem⟩ := hcuts.mem_token hc hspace
    exact scan_of_cuts_mem hcuts.intercalate (mem_intercalate ht hmem) hblank

/-- The minus of the second operand is a token of its own, also with spaces around it. -/
theorem scan_faithful_difference :
    scan " a-1\n" = .ok ["a", "-", "1"] ∧ scan "a - 1" = .ok ["a", "-", "1"] := by
  have hscan : scan " a-1\n" = .ok ["a", "-", "1"] := by decide +kernel
  exact ⟨hscan, (scan_faithful hscan).2.2⟩

end FactFold.Token
