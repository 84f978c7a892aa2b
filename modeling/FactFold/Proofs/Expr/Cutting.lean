import FactFold.Proofs.Expr.Scanning

/-!
# Writing behind a text

A text that is cut into tokens is still cut into them when more is written behind it, provided that
what is added begins with a space, a comma, a closing parenthesis or a minus (`Cuts.append`). Most
tokens end before any of these: names go on with none of them, and no operator has one of them as its
second character. The exception is a number whose last character is the letter of an exponent, which
takes the minus for the sign of the exponent; `Firm` leaves it out.

The scanner is opened here in the other direction too: a text that is scanned is cut into the tokens
it is scanned into (`cuts_of_scan`).
-/

namespace FactFold.Token

open Number (isDigit)

/-- What may be written behind a token: what follows it in a printed expression, or a minus. -/
@[simp] def partings : List Char := [' ', ')', ',', '-']

/-- A text that is empty, or begins with one of these characters. -/
def Parted (x : List Char) : Prop := ∀ c ∈ x.head?, c ∈ partings

/-- The token ends in no letter that a sign could follow; the letters of names do not count. -/
def Firm (t : String) : Prop :=
  isNaming t = true ∨ ∀ c ∈ t.toList.getLast?, c ≠ 'e' ∧ c ≠ 'E'

variable {cs x tail token : List Char} {operand : Bool} {c : Char} {rest : List Char}

/-! ## Numbers -/

theorem takeWhile_append_stop {p : Char → Bool} (hx : ∀ c ∈ x.head?, p c = false) :
    (cs ++ x).takeWhile p = cs.takeWhile p ∧ (cs ++ x).dropWhile p = cs.dropWhile p ++ x := by
  induction cs with
  | nil =>
    have hnone : ∀ c ∈ ([] : List Char), p c = true := by simp
    exact takeWhile_front hnone hx
  | cons c cs ih => cases hc : p c <;> simp [hc, ih]

theorem Delimited.parted (hx : Delimited x) : Parted x := by
  intro c hc
  rcases hx c hc with rfl | rfl | rfl <;> decide

theorem Parted.head {p : Char → Bool} (hx : Parted x) (hp : partings.all p = true) :
    ∀ c ∈ x.head?, p c = true :=
  fun c hc => List.all_eq_true.1 hp c (hx c hc)

theorem Parted.isDigit (hx : Parted x) : ∀ c ∈ x.head?, isDigit c = false := by
  have hdigit := hx.head (p := fun c => !Number.isDigit c) (by decide)
  simpa using hdigit

theorem Parted.startsWithDigit (hx : Parted x) : startsWithDigit (cs ++ x) = startsWithDigit cs := by
  cases cs with
  | cons c cs => rfl
  | nil =>
    cases x with
    | nil => rfl
    | cons c x => exact hx.isDigit c (by simp)

/-- A point is part of the number only before a digit. -/
theorem takeFraction_point (cs : List Char) : takeFraction ('.' :: cs) =
    if startsWithDigit cs then ('.' :: cs.takeWhile isDigit, cs.dropWhile isDigit)
    else ([], '.' :: cs) := by
  cases cs <;> rfl

theorem takeFraction_other (h : cs.head? ≠ some '.') : takeFraction cs = ([], cs) := by
  unfold takeFraction
  split
  · simp at h
  · rfl

theorem takeFraction_append (hx : Parted x) :
    takeFraction (cs ++ x) = ((takeFraction cs).1, (takeFraction cs).2 ++ x) := by
  by_cases hpoint : cs.head? = some '.'
  · obtain ⟨cs, rfl⟩ := List.head?_eq_some_iff.1 hpoint
    obtain ⟨htake, hdrop⟩ := @takeWhile_append_stop cs x _ hx.isDigit
    rw [List.cons_append, takeFraction_point, takeFraction_point, hx.startsWithDigit, htake, hdrop]
    split <;> rfl
  · have hlonger : (cs ++ x).head? ≠ some '.' := by
      cases cs with
      | cons c cs => exact hpoint
      | nil =>
        -- what is added begins with no point
        exact fun hhead => absurd (hx '.' hhead) (by decide)
    rw [takeFraction_other hlonger, takeFraction_other hpoint]

theorem takeFraction_split : (takeFraction cs).1 ++ (takeFraction cs).2 = cs := by
  by_cases hpoint : cs.head? = some '.'
  · obtain ⟨cs, rfl⟩ := List.head?_eq_some_iff.1 hpoint
    rw [takeFraction_point]
    split
    · simp
    · rfl
  · rw [takeFraction_other hpoint]
    rfl

/-- What follows an exponent's letter: perhaps a sign, and the digits. -/
def takeDigits : List Char → List Char × List Char
  | [] => ([], [])
  | s :: digits =>
    if s = '+' || s = '-' then (s :: digits.takeWhile isDigit, digits.dropWhile isDigit)
    else ((s :: digits).takeWhile isDigit, (s :: digits).dropWhile isDigit)

theorem takeExponent_cons (e : Char) (cs : List Char) : takeExponent (e :: cs) =
    if e = 'e' || e = 'E' then (e :: (takeDigits cs).1, (takeDigits cs).2) else ([], e :: cs) := by
  cases cs with
  | nil => rfl
  | cons s digits =>
    simp only [takeExponent, takeDigits]
    split
    · split <;> rfl
    · rfl

theorem takeDigits_split : (takeDigits cs).1 ++ (takeDigits cs).2 = cs := by
  cases cs with
  | nil => rfl
  | cons s digits =>
    rw [takeDigits]
    split <;> simp

theorem takeDigits_append (hx : Parted x) (hcs : cs ≠ []) :
    takeDigits (cs ++ x) = ((takeDigits cs).1, (takeDigits cs).2 ++ x) := by
  cases cs with
  | nil => exact absurd rfl hcs
  | cons s digits =>
    obtain ⟨htake, hdrop⟩ := @takeWhile_append_stop digits x _ hx.isDigit
    obtain ⟨htakes, hdrops⟩ := @takeWhile_append_stop (s :: digits) x _ hx.isDigit
    rw [List.cons_append] at htakes hdrops
    rw [List.cons_append, takeDigits, takeDigits, htake, hdrop, htakes, hdrops]
    split <;> rfl

theorem takeExponent_split : (takeExponent cs).1 ++ (takeExponent cs).2 = cs := by
  cases cs with
  | nil => rfl
  | cons e cs =>
    rw [takeExponent_cons]
    split
    · simp [takeDigits_split]
    · rfl

theorem takeExponent_append (hx : Parted x)
    (hfirm : (takeExponent cs).2 = [] → ∀ c ∈ (takeExponent cs).1.getLast?, c ≠ 'e' ∧ c ≠ 'E') :
    takeExponent (cs ++ x) = ((takeExponent cs).1, (takeExponent cs).2 ++ x) := by
  cases cs with
  | nil =>
    cases x with
    | nil => rfl
    | cons c x =>
      -- nor does it begin with the letter of an exponent
      have hc := hx.head (p := fun c => c ≠ 'e' && c ≠ 'E') (by decide) c (by simp)
      rw [Bool.and_eq_true, decide_eq_true_eq, decide_eq_true_eq] at hc
      simp [takeExponent, hc]
  | cons e cs =>
    rw [takeExponent_cons] at hfirm
    rw [List.cons_append, takeExponent_cons, takeExponent_cons]
    split
    case isTrue he =>
      rw [if_pos he] at hfirm
      have hcs : cs ≠ [] := by
        -- with nothing behind the letter, the sign of an exponent could follow
        rintro rfl
        have := hfirm rfl e (by simp [takeDigits])
        simp [this] at he
      rw [takeDigits_append hx hcs]
    case isFalse => rfl

theorem takeUnsigned_split : (takeUnsigned cs).1 ++ (takeUnsigned cs).2 = cs := by
  have hfraction := @takeFraction_split (cs.dropWhile isDigit)
  have hexponent := @takeExponent_split (takeFraction (cs.dropWhile isDigit)).2
  rw [takeUnsigned]
  simp only [List.append_assoc]
  rw [hexponent, hfraction, List.takeWhile_append_dropWhile]

theorem takeUnsigned_append (hx : Parted x)
    (hfirm : (takeUnsigned cs).2 = [] → ∀ c ∈ (takeUnsigned cs).1.getLast?, c ≠ 'e' ∧ c ≠ 'E') :
    takeUnsigned (cs ++ x) = ((takeUnsigned cs).1, (takeUnsigned cs).2 ++ x) := by
  obtain ⟨htake, hdrop⟩ := @takeWhile_append_stop cs x _ hx.isDigit
  have hend : ∀ c ∈ (takeExponent (takeFraction (cs.dropWhile isDigit)).2).1.getLast?,
      c ∈ (takeUnsigned cs).1.getLast? := by
    -- the exponent, when there is one, is the end of the number
    intro c hc
    show (_ ++ (takeExponent (takeFraction (cs.dropWhile isDigit)).2).1).getLast? = some c
    rw [List.getLast?_append, hc]
    rfl
  have hexponent := @takeExponent_append (takeFraction (cs.dropWhile isDigit)).2 x hx
    fun hrest c hc => hfirm hrest c (hend c hc)
  simp only [takeUnsigned, htake, hdrop, takeFraction_append hx, hexponent]

theorem takeNumber?_cons : takeNumber? operand (c :: rest) =
    if c = '-' && operand && startsWithDigit rest then
      some (c :: (takeUnsigned rest).1, (takeUnsigned rest).2)
    else if isDigit c || (c = '.' && startsWithDigit rest) then some (takeUnsigned (c :: rest))
    else none := rfl

/-- How a number starts. -/
theorem takeNumber?_head (h : takeNumber? operand (c :: rest) = some (token, tail)) :
    c = '-' ∨ isDigit c = true ∨ c = '.' := by
  rw [takeNumber?_cons] at h
  split at h
  case isTrue hsign => simp_all
  case isFalse =>
    split at h
    case isTrue hdigit =>
      rw [Bool.or_eq_true] at hdigit
      exact .inr (hdigit.imp id fun hpoint => by simp_all)
    case isFalse => cases h

/-- What starts like a number is one. -/
theorem takeUnsigned_ne_nil (h : (isDigit c || (c = '.' && startsWithDigit rest)) = true) :
    (takeUnsigned (c :: rest)).1 ≠ [] := by
  have hparts : (takeUnsigned (c :: rest)).1 = (c :: rest).takeWhile isDigit ++
      (takeFraction ((c :: rest).dropWhile isDigit)).1 ++ _ := rfl
  rw [hparts]
  by_cases hc : isDigit c = true
  · simp [hc]
  · obtain ⟨rfl, hdigit⟩ : c = '.' ∧ startsWithDigit rest = true := by simpa [hc] using h
    have hpoint : ('.' :: rest).dropWhile isDigit = '.' :: rest := rfl
    rw [hpoint, takeFraction_point, if_pos hdigit]
    simp

theorem takeNumber?_split (h : takeNumber? operand (c :: rest) = some (token, tail)) :
    ∃ front, token = c :: front ∧ rest = front ++ tail := by
  rw [takeNumber?_cons] at h
  split at h
  case isTrue =>
    obtain ⟨rfl, rfl⟩ := Prod.mk.inj (Option.some.inj h)
    exact ⟨_, rfl, takeUnsigned_split.symm⟩
  case isFalse =>
    split at h
    case isTrue hstart =>
      -- the number is not empty, so the first character is its own
      have hne := takeUnsigned_ne_nil hstart
      have hsplit := @takeUnsigned_split (c :: rest)
      rw [Option.some.inj h] at hne hsplit
      obtain ⟨d, front, rfl⟩ := List.exists_cons_of_ne_nil hne
      obtain ⟨rfl, rfl⟩ := List.cons.inj hsplit
      exact ⟨front, rfl, rfl⟩
    case isFalse => cases h

theorem takeNumber?_append (hx : Parted x)
    (hfirm : ∀ token, takeNumber? operand (c :: rest) = some (token, []) →
      ∀ d ∈ token.getLast?, d ≠ 'e' ∧ d ≠ 'E') :
    takeNumber? operand (c :: (rest ++ x)) =
      (takeNumber? operand (c :: rest)).map fun r => (r.1, r.2 ++ x) := by
  rw [takeNumber?_cons] at hfirm
  rw [takeNumber?_cons, takeNumber?_cons, hx.startsWithDigit]
  split
  case isTrue hsign =>
    rw [if_pos hsign] at hfirm
    have happend : takeUnsigned (rest ++ x) = _ := takeUnsigned_append hx fun hrest d hd => by
      refine hfirm _ (by rw [hrest]) d ?_
      rw [List.getLast?_cons, hd]
      rfl
    rw [happend]
    rfl
  case isFalse hsign =>
    rw [if_neg hsign] at hfirm
    split
    case isTrue hdigit =>
      rw [if_pos hdigit] at hfirm
      have happend : takeUnsigned (c :: rest ++ x) = _ := takeUnsigned_append hx fun hrest d hd =>
        hfirm (takeUnsigned (c :: rest)).1 (by rw [← hrest]) d hd
      rw [← List.cons_append, happend]
      rfl
    case isFalse => rfl

/-! ## Symbols, strings and names -/

/-- No operator has one of these as its second character. -/
theorem isOperator_parted {d : Char} (hd : d ∈ partings) :
    isOperator (String.ofList [c, d]) = false := by
  have hsecond : ∀ s ∈ operators, s.toList.length = 2 →
      s.toList.getLast?.any partings.contains = false := by decide +kernel
  rw [Bool.eq_false_iff]
  intro hop
  have hlast := hsecond _ (List.contains_iff_mem.1 hop) (by simp)
  rw [String.toList_ofList] at hlast
  have hmem : partings.contains d = true := List.contains_iff_mem.2 hd
  exact absurd hmem (by simpa using hlast)

theorem takeSymbol?_append (hx : Parted x) : takeSymbol? (c :: (rest ++ x)) =
    (takeSymbol? (c :: rest)).map fun r => (r.1, r.2 ++ x) := by
  cases rest with
  | cons d rest =>
    simp only [List.cons_append, takeSymbol?]
    split
    · rfl
    · split <;> rfl
  | nil =>
    cases x with
    | nil => simp
    | cons d x =>
      simp only [List.nil_append, takeSymbol?, isOperator_parted (hx d (by simp)),
        Bool.false_eq_true, if_false]
      split <;> rfl

theorem takeSymbol?_split (h : takeSymbol? (c :: rest) = some (token, tail)) :
    ∃ front, token = c :: front ∧ rest = front ++ tail := by
  cases rest with
  | nil =>
    simp only [takeSymbol?] at h
    split at h <;> cases h
    exact ⟨[], rfl, rfl⟩
  | cons d rest =>
    simp only [takeSymbol?] at h
    split at h
    · cases h
      exact ⟨[d], rfl, rfl⟩
    · split at h <;> cases h
      exact ⟨[], rfl, rfl⟩

/-- A quoted string is over at its closing quote, whatever follows. -/
theorem takeQuoted_append {quote : Char} (hquote : quote = apostrophe ∨ quote = '"')
    (h : takeQuoted quote cs = some (token, tail)) :
    cs = token ++ tail ∧ takeQuoted quote (cs ++ x) = some (token, tail ++ x) := by
  obtain ⟨body, rfl, rfl, hbody⟩ := sealed_of_takeQuoted h
  have happend := takeQuoted_sealed hquote hbody (tail ++ x)
  constructor
  · simp
  · simpa using happend

theorem takeNamed_append (h : takeNamed cs = some (token, tail)) :
    cs = token ++ tail ∧ takeNamed (cs ++ x) = some (token, tail ++ x) := by
  fun_induction takeNamed cs generalizing token with
  | case1 => cases h
  | case2 rest =>
    cases h
    simp [takeNamed]
  | case3 c rest hmark ih =>
    obtain ⟨⟨body, more⟩, hbody, hr⟩ := Option.map_eq_some_iff.1 h
    cases hr
    obtain ⟨hsplit, happend⟩ := ih hbody
    rw [hsplit, List.append_assoc] at happend
    rw [hsplit]
    simp [takeNamed, hmark, happend]

/-! ## One token -/

/-- The ways in which a token is cut off a text that starts with no blank. -/
inductive Next (operand : Bool) (c : Char) (rest : List Char) : List Char → List Char → Prop
  | quoted {body tail : List Char} (hc : c = apostrophe ∨ c = '"')
      (h : takeQuoted c rest = some (body, tail)) : Next operand c rest (c :: body) tail
  | named {body tail : List Char} (hc : c = backtick) (h : takeNamed rest = some (body, tail)) :
      Next operand c rest (c :: body) tail
  | bare {token tail : List Char} (hc : c ≠ apostrophe ∧ c ≠ '"' ∧ c ≠ backtick)
      (h : (takeNumber? operand (c :: rest)).or (takeSymbol? (c :: rest)) = some (token, tail)) :
      Next operand c rest token tail
  | name (hc : startsName c = true)
      (h : (takeNumber? operand (c :: rest)).or (takeSymbol? (c :: rest)) = none) :
      Next operand c rest ((c :: rest).takeWhile continuesName) ((c :: rest).dropWhile continuesName)

theorem next_iff {position : Nat} : next position operand c rest = .ok (token, tail) ↔
    Next operand c rest token tail := by
  constructor
  · intro h
    unfold next at h
    split at h
    case isTrue hc =>
      split at h
      case h_1 heq =>
        cases h
        exact .quoted (by simpa using hc) heq
      case h_2 => cases h
    case isFalse hc =>
      split at h
      case isTrue hmark =>
        split at h
        case h_1 heq =>
          cases h
          exact .named hmark heq
        case h_2 => cases h
      case isFalse hmark =>
        split at h
        case h_1 heq =>
          cases h
          refine .bare ?_ heq
          simpa [not_or, and_assoc, hmark] using hc
        case h_2 heq =>
          split at h
          case isTrue hstart =>
            cases h
            exact .name hstart heq
          case isFalse => cases h
  · intro h
    cases h with
    | quoted hc h => simp [next, hc, h]
    | named hc h =>
      subst hc
      simp [next, h, backtick, apostrophe]
    | bare hc h => simp [next, hc, h]
    | name hc h =>
      have hne : ∀ d, startsName d = false → c ≠ d := fun d => ne_of_startsName hc
      simp [next, hne apostrophe (by decide), hne '"' (by decide), hne backtick (by decide), h, hc]

/-- A token is the front of the text, and not empty. -/
theorem Next.split (h : Next operand c rest token tail) :
    ∃ front, token = c :: front ∧ rest = front ++ tail := by
  cases h with
  | quoted hc h => exact ⟨_, rfl, (@takeQuoted_append _ [] _ _ _ hc h).1⟩
  | named hc h => exact ⟨_, rfl, (@takeNamed_append _ [] _ _ h).1⟩
  | bare hc h =>
    rcases Option.or_eq_some_iff.1 h with hnumber | ⟨-, hsymbol⟩
    · exact takeNumber?_split hnumber
    · exact takeSymbol?_split hsymbol
  | name hc h =>
    have hgo : continuesName c = true := by simp [continuesName, hc]
    exact ⟨rest.takeWhile continuesName, by simp [hgo], by simp [hgo]⟩

/-- A number starts like no name. -/
theorem isNaming_of_takeNumber? (h : takeNumber? operand (c :: rest) = some (token, tail)) :
    isNaming (String.ofList token) = false := by
  obtain ⟨front, rfl, -⟩ := takeNumber?_split h
  have hc : startsName c = false ∧ c ≠ backtick := by
    rcases takeNumber?_head h with rfl | hdigit | rfl
    · decide
    · refine ⟨?_, (plain_of_isDigit hdigit).2.2.2.2⟩
      rw [Bool.eq_false_iff]
      intro hstart
      rw [isDigit_of_startsName hstart] at hdigit
      cases hdigit
    · decide
  simp [isNaming, hc]

/-- **A token is cut off the same way when more is written behind the text.** -/
theorem Next.append (h : Next operand c rest token tail) (hx : Parted x)
    (hfirm : tail = [] → Firm (String.ofList token)) :
    Next operand c (rest ++ x) token (tail ++ x) := by
  have hbare (hnumber : ∀ t, takeNumber? operand (c :: rest) = some (t, []) →
      ∀ d ∈ t.getLast?, d ≠ 'e' ∧ d ≠ 'E') :
      (takeNumber? operand (c :: (rest ++ x))).or (takeSymbol? (c :: (rest ++ x))) =
        ((takeNumber? operand (c :: rest)).or (takeSymbol? (c :: rest))).map
          fun r => (r.1, r.2 ++ x) := by
    rw [takeNumber?_append hx hnumber, takeSymbol?_append hx, Option.map_or]
  cases h with
  | quoted hc h => exact .quoted hc (takeQuoted_append hc h).2
  | named hc h => exact .named hc (takeNamed_append h).2
  | bare hc h =>
    have hnumber : ∀ t, takeNumber? operand (c :: rest) = some (t, []) →
        ∀ d ∈ t.getLast?, d ≠ 'e' ∧ d ≠ 'E' := by
      intro t ht d hd
      rw [ht] at h
      cases h
      -- `Firm` makes an exception for names, which no number is
      rcases hfirm rfl with hnaming | hlast
      · rw [isNaming_of_takeNumber? ht] at hnaming
        cases hnaming
      · exact hlast d (by simpa using hd)
    exact .bare hc (by rw [hbare hnumber, h]; rfl)
  | name hc h =>
    have hstop : ∀ d ∈ x.head?, continuesName d = false := by
      have hname := hx.head (p := fun d => !continuesName d) (by decide)
      simpa using hname
    obtain ⟨htake, hdrop⟩ := @takeWhile_append_stop (c :: rest) x _ hstop
    have hnone : takeNumber? operand (c :: rest) = none := (Option.or_eq_none_iff.1 h).1
    rw [← htake, ← hdrop]
    exact .name hc (by rw [hbare (by simp [hnone]), h]; rfl)

/-! ## All tokens -/

theorem cuts_of_scanFrom {fuel position : Nat} {last : Option String} {ts : List String}
    (h : scanFrom fuel position last cs = .ok ts) (hfuel : cs.length ≤ fuel) : Cuts last cs ts := by
  induction fuel generalizing position last cs ts with
  | zero =>
    obtain rfl : cs = [] := List.length_eq_zero_iff.1 (by omega)
    cases h
    exact .nil last
  | succ fuel ih =>
    cases cs with
    | nil =>
      cases h
      exact .nil last
    | cons c rest =>
      rw [List.length_cons] at hfuel
      rw [scanFrom] at h
      split at h
      case isTrue hspace => exact .space hspace (ih h (by omega))
      case isFalse hspace =>
        cases hnext : next position (expectsOperand last) c rest with
        | error e => simp [hnext, bind, Except.bind] at h
        | ok r =>
          obtain ⟨token, tail⟩ := r
          have hone : Next (expectsOperand last) c rest token tail := next_iff.1 hnext
          obtain ⟨front, rfl, rfl⟩ := hone.split
          simp only [hnext, bind, Except.bind] at h
          split at h
          case h_1 => cases h
          case h_2 us hrest =>
            cases h
            rw [List.length_append] at hfuel
            exact .token (by simpa using hspace) (fun q => next_iff.2 hone) (ih hrest (by omega))

/-- A text that is scanned is cut into its tokens. -/
theorem cuts_of_scan {text : String} {ts : List String} (h : scan text = .ok ts) :
    Cuts none text.toList ts := by
  rw [scan] at h
  split at h
  case isTrue => cases h
  case isFalse => exact cuts_of_scanFrom h (Nat.le_refl _)

theorem Cuts.eq_nil {last : Option String} {ts : List String} (h : Cuts last [] ts) : ts = [] := by
  cases h
  rfl

/-- **Writing behind a text leaves its tokens as they are**, unless the last of them could take in what
is added. -/
theorem Cuts.append {last : Option String} {ts us : List String} (h : Cuts last cs ts)
    (hx : Parted x) (hfirm : ∀ t ∈ ts.getLast?, Firm t) (hus : Cuts (ts.getLast?.or last) x us) :
    Cuts last (cs ++ x) (ts ++ us) := by
  induction h with
  | nil => exact hus
  | space hc _ ih => exact .space hc (ih hfirm hus)
  | @token last c front tail ts hc hnext htail ih =>
    have hone : Next (expectsOperand last) c (front ++ tail) (c :: front) tail :=
      next_iff.1 (hnext 0)
    -- a token with text behind it ends inside the text; only the last one could go on
    have hlonger := hone.append hx fun hend => by
      subst hend
      rw [htail.eq_nil] at hfirm
      exact hfirm _ rfl
    rw [List.append_assoc] at hlonger
    rw [List.append_assoc]
    refine .token hc (fun q => next_iff.2 hlonger) (ih ?_ ?_)
    · intro t ht
      exact hfirm t (by rw [List.getLast?_cons, ht]; rfl)
    · rw [List.getLast?_cons] at hus
      cases hts : ts.getLast? <;> simpa [hts] using hus

/-- A text that is scanned is not blank. -/
theorem exists_not_blank {text : String} {ts : List String} (h : scan text = .ok ts) :
    ∃ c ∈ text.toList, Text.isBlank c = false := by
  have hfront : text.toList.dropWhile Text.isBlank ≠ [] := by
    intro hblank
    simp [scan, Text.trimChars, hblank] at h
  have hmem : (text.toList.dropWhile Text.isBlank).head hfront ∈ text.toList :=
    (List.dropWhile_suffix _).subset (List.head_mem hfront)
  exact ⟨_, hmem, List.head_dropWhile_not Text.isBlank hfront⟩

/-- The same for texts. The longer one is not blank either. -/
theorem scan_append {text more : String} {ts us : List String} (h : scan text = .ok ts)
    (hmore : Parted more.toList) (hfirm : ∀ t ∈ ts.getLast?, Firm t)
    (hus : Cuts ts.getLast? more.toList us) : scan (text ++ more) = .ok (ts ++ us) := by
  obtain ⟨c, hmem, hc⟩ := exists_not_blank h
  have hcuts : Cuts none (text.toList ++ more.toList) (ts ++ us) :=
    (cuts_of_scan h).append hmore hfirm (by simpa using hus)
  rw [← String.toList_append] at hcuts
  refine scan_of_cuts_mem hcuts ?_ hc
  rw [String.toList_append]
  exact List.mem_append_left _ hmem

end FactFold.Token
