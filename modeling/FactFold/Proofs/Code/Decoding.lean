import FactFold.Proofs.Code.Literals
import Mathlib

/-!
# String literals are decoded to their strings

Java reads a string literal in two passes. The first runs over the source as a whole and replaces
unicode escapes by UTF-16 code units; it counts backslashes, since one that an odd number of others
stands before starts no escape (`translate`). Only then is the literal recognised, up to the quote that
ends it, and the other escapes are undone (`content`). A string that holds a backslash before a `u`, a
quote, or a character that the first pass would turn into one of these is where the passes could get
in each other's way.

They do not, because a character is written as a piece of its own: the pieces before it end in an even
number of backslashes (`slashesEven`), and no piece is translated to a quote, a backslash or a line
break that was not there. Both passes therefore go piece by piece (`translate_stringChar`).
-/

namespace FactFold.Literal

open Text (hexDigit hexDigits digitsValue? hexValue?)

/-! ## The two passes -/

/-- The code unit of a unicode escape, from what follows its backslash, and the text after it. More
than one `u` may stand before the digits. -/
def unicodeEscape? (cs : List Char) : Option (Nat × List Char) :=
  match cs.dropWhile (· = 'u') with
  | a :: b :: c :: d :: tail => (digitsValue? hexValue? 16 [a, b, c, d]).map (·, tail)
  | _ => none

theorem length_unicodeEscape? {cs tail : List Char} {u : Nat}
    (h : unicodeEscape? cs = some (u, tail)) : tail.length < cs.length := by
  unfold unicodeEscape? at h
  split at h
  case h_1 a b c d rest hdrop =>
    obtain ⟨v, -, heq⟩ := Option.map_eq_some_iff.1 h
    have hle : (cs.dropWhile (· = 'u')).length ≤ cs.length := List.length_dropWhile_le ..
    rw [hdrop] at hle
    simp only [Prod.mk.injEq] at heq
    simp only [List.length_cons, heq.2] at hle
    omega
  case h_2 => cases h

/-- The first pass: source as code units, unicode escapes replaced. The flag tells that an odd number
of backslashes stands directly before the text. There is no result when an escape lacks digits. -/
def translate (odd : Bool) (cs : List Char) : Option (List Nat) :=
  match cs with
  | [] => some []
  | c :: rest =>
    if c ≠ '\\' then (translate false rest).map (units c ++ ·)
    else if odd || rest.head? ≠ some 'u' then (translate (!odd) rest).map ('\\'.toNat :: ·)
    else
      match _h : unicodeEscape? rest with
      | some (u, tail) => (translate false tail).map (u :: ·)
      | none => none
termination_by cs.length
decreasing_by
  · simp
  · simp
  · have := length_unicodeEscape? _h
    simp only [List.length_cons]
    omega

/-- What the second pass makes of the unit after a backslash. -/
def escapes : List (Nat × Nat) :=
  [('b'.toNat, 8), ('t'.toNat, 9), ('n'.toNat, 10), ('f'.toNat, 12), ('r'.toNat, 13),
   ('"'.toNat, 34), ('\\'.toNat, 92)]

/-- The second pass: the content of a literal whose opening quote has been read. The closing quote
must be the end of the text, and no line may end before it. -/
def content : List Nat → Option (List Nat)
  | [] => none
  | u :: rest =>
    if u = '"'.toNat then if rest = [] then some [] else none
    else if u = '\\'.toNat then
      match rest with
      | e :: rest => do
        let v ← escapes.lookup e
        let vs ← content rest
        pure (v :: vs)
      | [] => none
    else if u = '\n'.toNat || u = '\r'.toNat then none
    else (content rest).map (u :: ·)

/-- The code units of the string that a literal stands for. -/
def decode (literal : List Char) : Option (List Nat) := do
  let us ← translate false literal
  match us with
  | u :: rest => if u = '"'.toNat then content rest else none
  | [] => none

/-! ## The first pass, piece by piece -/

theorem translate_plain {c : Char} (hc : c ≠ '\\') (odd : Bool) (rest : List Char) :
    translate odd (c :: rest) = (translate false rest).map (units c ++ ·) := by
  rw [translate, if_pos hc]

theorem translate_slash {odd : Bool} {rest : List Char} (h : odd = true ∨ rest.head? ≠ some 'u') :
    translate odd ('\\' :: rest) = (translate (!odd) rest).map ('\\'.toNat :: ·) := by
  rw [translate, if_neg (by decide), if_pos (by simpa using h)]

/-- A digit of a unicode escape. -/
theorem hexDigits_mem {width n : Nat} :
    ∀ c ∈ hexDigits width n, c ∈ "0123456789abcdef".toList := by
  have hdigit : ∀ k : Fin 16, hexDigit k ∈ "0123456789abcdef".toList := by decide
  induction width generalizing n with
  | zero => simp [hexDigits]
  | succ width ih =>
    intro c hc
    rcases List.mem_append.1 hc with hc | hc
    · exact ih c hc
    · obtain rfl := List.mem_singleton.1 hc
      exact hdigit ⟨n % 16, Nat.mod_lt _ (by omega)⟩

theorem unicodeEscape?_digits {u : Nat} (hu : u < 16 ^ 4) (rest : List Char) :
    unicodeEscape? ('u' :: (hexDigits 4 u ++ rest)) = some (u, rest) := by
  have hvalue := Text.digitsValue?_hexDigits hu
  have hmem : ∀ c ∈ hexDigits 4 u, c ≠ 'u' := by
    have hall : "0123456789abcdef".toList.all (· ≠ 'u') = true := by decide
    exact fun c hc => by simpa using List.all_eq_true.1 hall c (hexDigits_mem c hc)
  unfold unicodeEscape?
  match hexDigits 4 u, Text.length_hexDigits 4 u, hvalue, hmem with
  | [a, b, c, d], _, hvalue, hmem =>
    have ha : a ≠ 'u' := hmem a (by simp)
    simp [ha, hvalue]

theorem translate_unit {u : Nat} (hu : u < 16 ^ 4) (rest : List Char) :
    translate false (unitEscape u ++ rest) = (translate false rest).map (u :: ·) := by
  have hescape := unicodeEscape?_digits hu rest
  rw [unitEscape, List.cons_append, List.cons_append, translate, if_neg (by decide),
    if_neg (by simp)]
  split
  case h_1 v tail heq =>
    rw [hescape] at heq
    cases heq
    rfl
  case h_2 heq =>
    rw [hescape] at heq
    cases heq

theorem translate_units {us : List Nat} (hus : ∀ u ∈ us, u < 16 ^ 4) (rest : List Char) :
    translate false (us.flatMap unitEscape ++ rest) = (translate false rest).map (us ++ ·) := by
  induction us with
  | nil => simp
  | cons u us ih =>
    have hrest := ih fun v hv => hus v (by simp [hv])
    rw [List.flatMap_cons, List.append_assoc, translate_unit (hus u (by simp)), hrest,
      Option.map_map]
    rfl

/-! ## The second pass, piece by piece -/

theorem content_plain {u : Nat} (hquote : u ≠ '"'.toNat) (hslash : u ≠ '\\'.toNat)
    (hline : u ≠ '\n'.toNat ∧ u ≠ '\r'.toNat) (rest : List Nat) :
    content (u :: rest) = (content rest).map (u :: ·) := by
  rw [content.eq_def]
  simp only [hquote, hslash, hline, decide_false, Bool.or_self, Bool.false_eq_true, if_false]

theorem content_escape {e v : Nat} (he : escapes.lookup e = some v) (rest : List Nat) :
    content ('\\'.toNat :: e :: rest) = (content rest).map (v :: ·) := by
  rw [content.eq_def]
  simp only [show '\\'.toNat ≠ '"'.toNat by decide, if_false, if_true, he, Option.pure_def,
    Option.bind_eq_bind, Option.bind_some]
  cases content rest <;> rfl

/-- Units that the second pass leaves as they are. -/
def Inert (u : Nat) : Prop :=
  u ≠ '"'.toNat ∧ u ≠ '\\'.toNat ∧ u ≠ '\n'.toNat ∧ u ≠ '\r'.toNat

theorem content_inert {us : List Nat} (hus : ∀ u ∈ us, Inert u) (rest : List Nat) :
    content (us ++ rest) = (content rest).map (us ++ ·) := by
  induction us with
  | nil => simp
  | cons u us ih =>
    obtain ⟨hquote, hslash, hline⟩ := hus u (by simp)
    rw [List.cons_append, content_plain hquote hslash hline, ih fun v hv => hus v (by simp [hv]),
      Option.map_map]
    rfl

/-! ## Pieces -/

/-- What a character looks like between the quotes: itself, a letter after a backslash, or unicode
escapes. Nothing that the second pass would take for something else is left to the first. -/
theorem stringChar_forms (c : Char) :
    (stringChar c = [c] ∧ (0x20 ≤ c.toNat ∧ c.toNat < 0x7f) ∧ units c = [c.toNat] ∧
        Inert c.toNat) ∨
    (∃ e v, stringChar c = ['\\', e] ∧ e ∈ ['b', 't', 'n', 'f', 'r', '"', '\\'] ∧
      escapes.lookup e.toNat = some v ∧ units c = [v]) ∨
    stringChar c = (units c).flatMap unitEscape ∧ ∀ u ∈ units c, Inert u := by
  unfold stringChar
  split
  case h_8 h₁ h₂ h₃ h₄ h₅ h₆ h₇ =>
    have hinert : Inert c.toNat := ⟨h₆, h₇, h₃, h₅⟩
    split_ifs with hplain hhigh
    · refine .inl ⟨rfl, hplain, ?_, hinert⟩
      rw [units, if_neg (by omega)]
    · -- both halves of a pair lie far above the characters that matter
      refine .inr (.inr ⟨by simp [units, hhigh], fun u hu => ?_⟩)
      have hlarge : 0xd800 ≤ u := by
        rw [units, if_pos hhigh] at hu
        simp only [List.mem_cons, List.not_mem_nil, or_false] at hu
        omega
      have hsmall : '"'.toNat < 0xd800 ∧ '\\'.toNat < 0xd800 ∧ '\n'.toNat < 0xd800 ∧
          '\r'.toNat < 0xd800 := by decide
      refine ⟨?_, ?_, ?_, ?_⟩ <;> omega
    · refine .inr (.inr ⟨by simp [units, hhigh], fun u hu => ?_⟩)
      rw [units, if_neg hhigh, List.mem_singleton] at hu
      rwa [hu]
  all_goals
    rename_i hcode
    have hunit : units c = [c.toNat] := by rw [units, if_neg (by omega)]
    refine .inr (.inl ⟨_, c.toNat, rfl, by decide, ?_, hunit⟩)
    rw [hcode]
    rfl

/-- A letter after a backslash is left to the second pass: the backslash is no unicode escape, and
neither is the letter if it is a backslash itself. -/
theorem translate_letter {e : Char} (he : e ∈ ['b', 't', 'n', 'f', 'r', '"', '\\'])
    (rest : List Char) : translate false ('\\' :: e :: rest) =
      (translate false rest).map (['\\'.toNat, e.toNat] ++ ·) := by
  have hu : e ≠ 'u' := by
    rintro rfl
    exact absurd he (by decide)
  rw [translate_slash (.inr (by simpa using hu))]
  by_cases hslash : e = '\\'
  · subst hslash
    rw [Bool.not_false, translate_slash (.inl rfl), Option.map_map]
    rfl
  · have hunits : units e = [e.toNat] := by
      have hsmall : ['b', 't', 'n', 'f', 'r', '"', '\\'].all (fun d => units d = [d.toNat]) = true := by
        decide
      simpa using List.all_eq_true.1 hsmall e he
    rw [translate_plain hslash, hunits, Option.map_map]
    rfl

/-- Both passes take a character's piece by itself. -/
theorem translate_stringChar (c : Char) :
    ∃ us, (∀ rest, translate false (stringChar c ++ rest) = (translate false rest).map (us ++ ·)) ∧
      ∀ rest, content (us ++ rest) = (content rest).map (units c ++ ·) := by
  obtain ⟨htext, -, hunits, hinert⟩ | ⟨e, v, htext, he, hv, hunits⟩ | ⟨htext, hinert⟩ :=
    stringChar_forms c
  · have hslash : c ≠ '\\' := fun h => hinert.2.1 (h ▸ rfl)
    refine ⟨units c, fun rest => ?_, content_inert ?_⟩
    · rw [htext]
      exact translate_plain hslash false rest
    · simpa [hunits] using hinert
  · refine ⟨['\\'.toNat, e.toNat], fun rest => ?_, fun rest => ?_⟩
    · rw [htext]
      exact translate_letter he rest
    · rw [hunits]
      exact content_escape hv rest
  · refine ⟨units c, fun rest => ?_, content_inert hinert⟩
    rw [htext]
    exact translate_units (units_lt c) rest

/-- A string is decoded to its code units. -/
theorem decode_string (s : String) : decode (string s).toList = some (s.toList.flatMap units) := by
  have hbody : ∀ cs : List Char, ∃ us,
      (∀ rest, translate false (cs.flatMap stringChar ++ rest) =
        (translate false rest).map (us ++ ·)) ∧
      ∀ rest, content (us ++ rest) = (content rest).map (cs.flatMap units ++ ·) := by
    intro cs
    induction cs with
    | nil => exact ⟨[], by simp, by simp⟩
    | cons c cs ih =>
      obtain ⟨us, hus, hcontent⟩ := translate_stringChar c
      obtain ⟨vs, hvs, hrest⟩ := ih
      refine ⟨us ++ vs, fun rest => ?_, fun rest => ?_⟩
      · rw [List.flatMap_cons, List.append_assoc, hus, hvs, Option.map_map]
        simp [Function.comp_def]
      · rw [List.append_assoc, hcontent, hrest, Option.map_map]
        simp [Function.comp_def]
  obtain ⟨us, hus, hcontent⟩ := hbody s.toList
  have hquote : translate false ['"'] = some ['"'.toNat] := by
    rw [translate_plain (by decide), translate]
    rfl
  have hend : content ['"'.toNat] = some [] := by decide
  have hliteral : translate false (string s).toList = some ('"'.toNat :: (us ++ ['"'.toNat])) := by
    rw [string, String.toList_ofList, translate_plain (by decide), hus, hquote]
    rfl
  rw [decode, hliteral]
  simp only [Option.bind_eq_bind, Option.bind_some, if_true]
  rw [hcontent, hend]
  simp

/-! ## Quotes -/

/-- An even number of backslashes ends the text. -/
def slashesEven (cs : List Char) : Bool := (cs.rtakeWhile (· = '\\')).length % 2 = 0

theorem slashesEven_slash (cs : List Char) : slashesEven (cs ++ ['\\']) = !slashesEven cs := by
  rw [slashesEven, List.rtakeWhile_concat_pos _ _ _ (by decide), List.length_append, slashesEven,
    List.length_singleton]
  rcases Nat.mod_two_eq_zero_or_one (cs.rtakeWhile (· = '\\')).length with h | h
  · simp [h, Nat.add_mod]
  · simp [h, Nat.add_mod]

theorem slashesEven_other {c : Char} (hc : c ≠ '\\') (cs : List Char) :
    slashesEven (cs ++ [c]) = true := by
  rw [slashesEven, List.rtakeWhile_concat_neg _ _ _ (by simpa using hc)]
  rfl

theorem slashesEven_units {us : List Nat} (hus : us ≠ []) (front : List Char) :
    slashesEven (front ++ us.flatMap unitEscape) = true := by
  obtain ⟨vs, u, rfl⟩ := (List.eq_nil_or_concat us).resolve_left hus
  -- the last escape ends in a digit
  have hlast : unitEscape u = '\\' :: 'u' :: (hexDigits 3 (u / 16) ++ [hexDigit (u % 16)]) := rfl
  have hdigit : hexDigit (u % 16) ≠ '\\' := (Text.hexDigit_ne (Nat.mod_lt _ (by omega))).2
  rw [List.concat_eq_append, List.flatMap_append, List.flatMap_singleton, hlast, ← List.cons_append, ← List.cons_append,
    ← List.append_assoc, ← List.append_assoc]
  exact slashesEven_other hdigit _

/-- After a character's piece the number of backslashes is even, as it was before. -/
theorem slashesEven_stringChar {front : List Char} (h : slashesEven front = true) (c : Char) :
    slashesEven (front ++ stringChar c) = true := by
  obtain ⟨htext, -, -, hinert⟩ | ⟨e, v, htext, -, -, -⟩ | ⟨htext, -⟩ := stringChar_forms c
  · rw [htext]
    exact slashesEven_other (fun hc => hinert.2.1 (hc ▸ rfl)) front
  · rw [htext, ← List.singleton_append, ← List.append_assoc]
    by_cases he : e = '\\'
    · rw [he, slashesEven_slash, slashesEven_slash, h]
      rfl
    · exact slashesEven_other he _
  · have hne : units c ≠ [] := by
      unfold units
      split <;> simp
    rw [htext]
    exact slashesEven_units hne front

theorem quote_notMem_units (us : List Nat) : '"' ∉ us.flatMap unitEscape := by
  intro h
  obtain ⟨u, -, hu⟩ := List.mem_flatMap.1 h
  simp only [unitEscape, List.mem_cons] at hu
  rcases hu with hu | hu | hu
  · exact absurd hu (by decide)
  · exact absurd hu (by decide)
  · exact absurd rfl (Text.hexDigits_ne _ hu).1

/-- The only quote in a character's piece is the one that a backslash stands before. -/
theorem quote_in_stringChar {c : Char} {pre post : List Char} (h : stringChar c = pre ++ '"' :: post) :
    pre = ['\\'] := by
  obtain ⟨htext, -, -, hinert⟩ | ⟨e, v, htext, -, -, -⟩ | ⟨htext, -⟩ := stringChar_forms c
  · rw [htext, eq_comm, List.append_eq_singleton_iff] at h
    obtain ⟨-, h⟩ | ⟨-, h⟩ := h
    · exact absurd (List.cons.inj h).1.symm fun hc => hinert.1 (hc ▸ rfl)
    · cases h
  · rw [htext] at h
    match pre, h with
    | [], h => exact absurd (List.cons.inj h).1 (by decide)
    | [d], h => rw [(List.cons.inj h).1]
    | d :: f :: pre, h =>
      have hlength := congrArg List.length h
      simp only [List.length_cons, List.length_append, List.length_nil] at hlength
      omega
  · have hmem : '"' ∈ stringChar c := by simp [h]
    rw [htext] at hmem
    exact absurd hmem (quote_notMem_units _)

/-- Every quote between the quotes is escaped, and the backslashes at the end are not left open. -/
theorem quotes_between (cs : List Char) {front : List Char} (hfront : slashesEven front = true) :
    slashesEven (front ++ cs.flatMap stringChar) = true ∧
      ∀ pre post, cs.flatMap stringChar = pre ++ '"' :: post →
        slashesEven (front ++ pre) = false := by
  induction cs generalizing front with
  | nil => exact ⟨by simpa using hfront, by simp⟩
  | cons c cs ih =>
    obtain ⟨hend, hquotes⟩ := ih (slashesEven_stringChar hfront c)
    refine ⟨by rw [List.flatMap_cons, ← List.append_assoc]; exact hend, fun pre post h => ?_⟩
    rw [List.flatMap_cons] at h
    -- the quote stands in a later piece, or in the first one
    obtain ⟨mid, rfl, hrest⟩ | ⟨mid, hpiece, hrest⟩ := List.append_eq_append_iff.1 h
    · rw [← List.append_assoc]
      exact hquotes mid post hrest
    · cases mid with
      | nil =>
        rw [List.append_nil] at hpiece
        rw [← hpiece, ← List.append_nil (stringChar c), ← List.append_assoc]
        exact hquotes [] post (by simpa using hrest.symm)
      | cons d mid =>
        obtain ⟨rfl, -⟩ := List.cons.inj hrest
        rw [quote_in_stringChar hpiece, slashesEven_slash, hfront]
        rfl

theorem printable_stringChar (c : Char) :
    ∀ x ∈ stringChar c, 0x20 ≤ x.toNat ∧ x.toNat < 0x7f := by
  have hletters : ['b', 't', 'n', 'f', 'r', '"', '\\'].all
      (fun e => 0x20 ≤ e.toNat ∧ e.toNat < 0x7f) = true := by decide
  have hdigits : "0123456789abcdef".toList.all
      (fun d => 0x20 ≤ d.toNat ∧ d.toNat < 0x7f) = true := by decide
  intro x hx
  obtain ⟨htext, hplain, -, -⟩ | ⟨e, v, htext, he, -, -⟩ | ⟨htext, -⟩ := stringChar_forms c
  · rw [htext, List.mem_singleton] at hx
    rwa [hx]
  · rw [htext, List.mem_cons, List.mem_singleton] at hx
    rcases hx with rfl | rfl
    · decide
    · simpa using List.all_eq_true.1 hletters x he
  · rw [htext] at hx
    obtain ⟨u, -, hu⟩ := List.mem_flatMap.1 hx
    simp only [unitEscape, List.mem_cons] at hu
    rcases hu with rfl | rfl | hu
    · decide
    · decide
    · simpa using List.all_eq_true.1 hdigits x (hexDigits_mem x hu)

/-! ## Literals -/

/-- The literal of a text. -/
abbrev ofText (s : String) : List Char := (text "String" (.scalar (.text (.ofText s)))).toList

theorem ofText_eq (s : String) : ofText s = '"' :: (s.toList.flatMap stringChar ++ ['"']) := by
  have hplain : Datum.plainText (.scalar (.text (.ofText s))) = s := by
    rw [Datum.plainText, Scalar.plainText, Text.Bytes.lossy_ofText]
  show (string _).toList = _
  rw [hplain, string, String.toList_ofList]

/-- The first and the last quote are those that no backslash escapes. -/
theorem slashesEven_iff_outermost {s : String} {pre post : List Char}
    (h : ofText s = pre ++ '"' :: post) : slashesEven pre = true ↔ pre = [] ∨ post = [] := by
  have hopen : slashesEven ['"'] = true := by decide
  obtain ⟨hend, hquotes⟩ := quotes_between s.toList hopen
  rw [ofText_eq] at h
  cases pre with
  | nil => exact ⟨fun _ => .inl rfl, fun _ => by decide⟩
  | cons d pre =>
    rw [List.cons_append, List.cons.injEq] at h
    obtain ⟨rfl, hrest⟩ := h
    rcases List.eq_nil_or_concat post with rfl | ⟨post, x, rfl⟩
    · have hpre : s.toList.flatMap stringChar = pre := List.append_cancel_right hrest
      rw [hpre] at hend
      exact ⟨fun _ => .inr rfl, fun _ => hend⟩
    · -- a quote with something after it stands between the two
      rw [List.concat_eq_append, ← List.cons_append, ← List.append_assoc] at hrest
      have hbody := (List.append_inj' hrest rfl).1
      have hodd : slashesEven ('"' :: pre) = false := hquotes pre post hbody
      simp [hodd]

/-- **A string literal stands for its string.** The literal of a text is made of printable ASCII. Its
first and last characters are quotes, and of all quotes in it just these are not escaped, that is, have
an even number of backslashes before them. Read as Java reads it, it gives the UTF-16 code units of
the text; so texts with the same literal are the same. -/
theorem literal_decodes (s : String) :
    (∀ c ∈ ofText s, 0x20 ≤ c.toNat ∧ c.toNat < 0x7f) ∧
    (∃ body, ofText s = '"' :: (body ++ ['"'])) ∧
    (∀ pre post, ofText s = pre ++ '"' :: post →
      (slashesEven pre = true ↔ pre = [] ∨ post = [])) ∧
    decode (ofText s) = some (s.toList.flatMap units) ∧
    ∀ s', ofText s' = ofText s → s' = s := by
  have hdecode : ∀ s, decode (ofText s) = some (s.toList.flatMap units) := by
    intro s
    rw [ofText_eq, ← decode_string, string, String.toList_ofList]
  refine ⟨fun c hc => ?_, ⟨_, ofText_eq s⟩, fun pre post h => slashesEven_iff_outermost h, hdecode s,
    fun s' h => ?_⟩
  · rw [ofText_eq, List.mem_cons, List.mem_append, List.mem_singleton] at hc
    rcases hc with rfl | hc | rfl
    · decide
    · obtain ⟨d, -, hd⟩ := List.mem_flatMap.1 hc
      exact printable_stringChar d c hd
    · decide
  · have hunits : s'.toList.flatMap units = s.toList.flatMap units := by
      apply Option.some.inj
      rw [← hdecode s', ← hdecode s, h]
    have hchars : s'.toList = s.toList := by
      rw [← ofUnits_flatMap s'.toList, hunits, ofUnits_flatMap]
    exact String.toList_inj.1 hchars

end FactFold.Literal
