import FactFold.Number.Reading

/-!
# How numbers end

A floating-point number that is read ends in a digit, a point, an underscore or a letter of a word, and
never in the letter of an exponent: behind that letter there is at least one digit (`readFloat?_ends`).
So a sign behind a number that has been read is no part of it.
-/

namespace FactFold.Number

/-- The text ends in no letter of an exponent. -/
def EndsPlain (cs : List Char) : Prop := ∃ c ∈ cs.getLast?, c ≠ 'e' ∧ c ≠ 'E'

variable {cs : List Char}

theorem EndsPlain.suffix {ds : List Char} (h : EndsPlain ds) (hsuffix : ds <:+ cs) :
    EndsPlain cs := by
  obtain ⟨front, rfl⟩ := hsuffix
  obtain ⟨c, hc, hplain⟩ := h
  refine ⟨c, ?_, hplain⟩
  show (front ++ ds).getLast? = some c
  rw [List.getLast?_append, hc]
  rfl

theorem EndsPlain.of_forall (hne : cs ≠ []) (h : ∀ c ∈ cs, c ≠ 'e' ∧ c ≠ 'E') : EndsPlain cs :=
  ⟨cs.getLast hne, List.getLast?_eq_some_getLast hne, h _ (List.getLast_mem hne)⟩

theorem ne_exponent_of_isDigit {c : Char} (h : isDigit c = true) : c ≠ 'e' ∧ c ≠ 'E' := by
  constructor <;> rintro rfl <;> exact absurd h (by decide)

theorem takeSign_suffix : (takeSign cs).2 <:+ cs := by
  unfold takeSign
  split
  · exact List.suffix_cons _ _
  · exact List.suffix_cons _ _
  · exact List.suffix_refl _

/-- Where digits are added up, there are only digits. -/
theorem isDigit_of_foldlM {f : Nat → Char → Nat} {init value : Nat}
    (h : cs.foldlM (fun n c => if isDigit c then some (f n c) else none) init = some value) :
    ∀ c ∈ cs, isDigit c = true := by
  induction cs generalizing init with
  | nil => simp
  | cons c cs ih =>
    rw [List.foldlM_cons] at h
    by_cases hc : isDigit c = true
    · rw [if_pos hc] at h
      intro d hd
      rcases List.mem_cons.1 hd with rfl | hd
      · exact hc
      · exact ih h d hd
    · simp [hc] at h

theorem readExponent?_ends {e : Int} (h : readExponent? cs = some e) : EndsPlain cs := by
  unfold readExponent? at h
  split at h
  rename_i negative digits hsign
  extract_lets value at h
  have hsuffix : digits <:+ cs := by
    have := @takeSign_suffix cs
    rwa [hsign] at this
  cases digits with
  | nil => cases h
  | cons d ds =>
    refine EndsPlain.suffix (.of_forall (by simp) fun c hc => ?_) hsuffix
    by_cases hd : (!isDigit d) = true
    · simp only [if_pos hd] at h
      cases h
    · simp only [if_neg hd] at h
      obtain ⟨n, hn, -⟩ := Option.bind_eq_some_iff.1 h
      by_cases hunderscore : c = '_'
      · subst hunderscore
        decide
      · have hmem : c ∈ (d :: ds).filter (· ≠ '_') := List.mem_filter.2 ⟨hc, by simpa using hunderscore⟩
        exact ne_exponent_of_isDigit (isDigit_of_foldlM hn c hmem)

/-- A mantissa is the front of the text: digits, points and underscores. -/
theorem takeMantissa_split {isDig : Char → Bool} {seenPoint : Bool} {m : Mantissa}
    {tail : List Char} (h : takeMantissa isDig seenPoint cs = (m, tail)) :
    ∃ front, cs = front ++ tail ∧ (∀ c ∈ front, c = '_' ∨ c = '.' ∨ isDig c = true) ∧
      (m.digits ≠ [] → front ≠ []) := by
  induction cs generalizing seenPoint m tail with
  | nil =>
    cases h
    exact ⟨[], rfl, by simp, by simp⟩
  | cons c cs ih =>
    have hmore {seen : Bool} {m' : Mantissa} (hc : c = '_' ∨ c = '.' ∨ isDig c = true)
        (hrest : takeMantissa isDig seen cs = (m', tail)) :
        ∃ front, c :: cs = front ++ tail ∧ (∀ d ∈ front, d = '_' ∨ d = '.' ∨ isDig d = true) ∧
          front ≠ [] := by
      obtain ⟨front, rfl, hfront, -⟩ := ih hrest
      exact ⟨c :: front, rfl, by simpa using ⟨hc, hfront⟩, by simp⟩
    have hstop : ((⟨[], 0⟩ : Mantissa), c :: cs) = (m, tail) → ∃ front, c :: cs = front ++ tail ∧
        (∀ d ∈ front, d = '_' ∨ d = '.' ∨ isDig d = true) ∧ (m.digits ≠ [] → front ≠ []) := by
      intro heq
      cases heq
      exact ⟨[], rfl, by simp, by simp⟩
    rw [takeMantissa] at h
    split at h
    case isTrue hc =>
      obtain ⟨front, hsplit, hfront, hne⟩ := hmore (.inl hc) h
      exact ⟨front, hsplit, hfront, fun _ => hne⟩
    case isFalse =>
      split at h
      case isTrue hc =>
        split at h
        case isTrue => exact hstop h
        case isFalse =>
          obtain ⟨front, hsplit, hfront, hne⟩ := hmore (.inr (.inl hc)) h
          exact ⟨front, hsplit, hfront, fun _ => hne⟩
      case isFalse =>
        split at h
        case isTrue hc =>
          obtain ⟨-, htail⟩ := Prod.mk.inj h
          obtain ⟨front, hsplit, hfront, hne⟩ := hmore (.inr (.inr hc)) (Prod.ext rfl htail)
          exact ⟨front, hsplit, hfront, fun _ => hne⟩
        case isFalse => exact hstop h

/-- A number in digits is a mantissa, and an exponent or nothing behind it. -/
theorem readDigits?_parts {x : Float} (h : readDigits? cs = some x) :
    ∃ (hex : Bool) (m : Mantissa) (tail : List Char),
      takeMantissa (if hex then isHexDigit else isDigit) false
        (if hex then (takeSign cs).2.drop 2 else (takeSign cs).2) = (m, tail) ∧ m.digits ≠ [] ∧
      (hex = false ∧ tail = [] ∨ ∃ c rest e, tail = c :: rest ∧ readExponent? rest = some e) := by
  unfold readDigits? at h
  split at h
  rename_i negative body hsign
  extract_lets hex at h
  split at h
  rename_i m tail hm
  extract_lets value at h
  clear_value hex
  by_cases hdigits : m.digits.isEmpty = true
  · simp [hdigits] at h
  rw [if_neg hdigits] at h
  refine ⟨hex, m, tail, by rw [hsign]; exact hm, by simpa using hdigits, ?_⟩
  obtain ⟨n, hn, h⟩ := Option.bind_eq_some_iff.1 h
  extract_lets scaled at h
  cases tail with
  | nil =>
    cases hex with
    | false => exact .inl ⟨rfl, rfl⟩
    | true => cases h
  | cons c rest =>
    by_cases hletter : asciiLower c = if hex then 'p' else 'e'
    · simp only [if_pos hletter] at h
      obtain ⟨e, he, -⟩ := Option.bind_eq_some_iff.1 h
      exact .inr ⟨c, rest, e, rfl, he⟩
    · simp only [if_neg hletter] at h
      cases h

theorem readDigits?_ends {x : Float} (h : readDigits? cs = some x) : EndsPlain cs := by
  obtain ⟨hex, m, tail, hm, hdigits, hend⟩ := readDigits?_parts h
  obtain ⟨front, hfront, hchars, hne⟩ := takeMantissa_split hm
  have hbody : (if hex then (takeSign cs).2.drop 2 else (takeSign cs).2) <:+ cs := by
    split
    · exact (List.drop_suffix _ _).trans takeSign_suffix
    · exact takeSign_suffix
  rw [hfront] at hbody
  rcases hend with ⟨rfl, rfl⟩ | ⟨c, rest, e, rfl, he⟩
  · -- the mantissa reaches to the end
    rw [List.append_nil] at hbody
    refine EndsPlain.suffix (.of_forall (hne hdigits) fun c hc => ?_) hbody
    rcases hchars c hc with rfl | rfl | hdigit
    · decide
    · decide
    · exact ne_exponent_of_isDigit hdigit
  · have hrest : rest <:+ front ++ c :: rest := ⟨front ++ [c], by simp⟩
    exact (readExponent?_ends he).suffix (hrest.trans hbody)

/-- A text ends as it does in lower case. -/
theorem EndsPlain.of_lower {word : List Char} (h : cs.map asciiLower = word)
    (hword : ∃ c ∈ word.getLast?, c ≠ 'e') : EndsPlain cs := by
  obtain ⟨d, hd, hplain⟩ := hword
  rw [← h, List.getLast?_map, Option.mem_def, Option.map_eq_some_iff] at hd
  obtain ⟨c, hc, rfl⟩ := hd
  refine ⟨c, hc, ?_, ?_⟩
  · rintro rfl
    exact hplain (by decide)
  · rintro rfl
    exact hplain (by decide)

theorem readWord?_ends {x : Float} (h : readWord? cs = some x) : EndsPlain cs := by
  have hlist {ds : List Char} {word : String} (hword : String.ofList (ds.map asciiLower) = word) :
      ds.map asciiLower = word.toList := by
    rw [← hword, String.toList_ofList]
  unfold readWord? at h
  split at h
  rename_i negative body hsign
  have hsuffix : body <:+ cs := by
    have := @takeSign_suffix cs
    rwa [hsign] at this
  extract_lets word at h
  by_cases hinf : (word = "inf" || word = "infinity") = true
  · refine EndsPlain.suffix ?_ hsuffix
    rw [Bool.or_eq_true, decide_eq_true_eq, decide_eq_true_eq] at hinf
    rcases hinf with hword | hword
    · exact .of_lower (hlist hword) ⟨'f', rfl, by decide⟩
    · exact .of_lower (hlist hword) ⟨'y', rfl, by decide⟩
  · rw [if_neg hinf] at h
    split at h
    case isTrue hnan => exact .of_lower (hlist hnan) ⟨'n', rfl, by decide⟩
    case isFalse => cases h

/-- **A number that is read ends in no letter of an exponent.** -/
theorem readFloat?_ends {x : Float} (h : readFloat? cs = some x) : EndsPlain cs := by
  rcases Option.or_eq_some_iff.1 h with hword | ⟨-, hdigits⟩
  · exact readWord?_ends hword
  · exact readDigits?_ends hdigits

end FactFold.Number
