import FactFold.Proofs.Expr.Conditions

/-!
# String literals

A string is written between single or between double quotes. The scanner ends both in the same way, at
the first quote that no backslash protects. The parser reads the body between double quotes as it
stands. A body between single quotes it turns around first, in two steps that do not look at one
another: the backslash before every single quote is dropped, and every double quote gets a backslash.

* With backslashes and single quotes escaped, single quotes can hold every text that has no line break
  (`Node.parse_singleQuoted`). In what the two steps make of such a body nothing is escaped but
  backslashes and double quotes, whatever the text is.
* A body without single quotes means the same between both quotes as long as it has no double quote
  either. To stand between double quotes such a quote is escaped already, and the second step gives it
  another backslash: the two backslashes are read as one, and the quote ends the string too early
  (`Node.parse_swapped`).
-/

namespace FactFold

namespace Token

variable {last : Option String} {quote : Char} {cs body : List Char} {ts : List String}

/-! ## A text that is one string -/

/-- A string with a sealed body is scanned as one token. -/
theorem scan_quoted (hquote : quote = apostrophe ∨ quote = '"') (hbody : Sealed quote body) :
    scan (quoted quote body) = .ok [quoted quote body] := by
  have hcuts : Cuts none (quoted quote body).toList [quoted quote body] := by
    simpa using @Cuts.quoted _ none hquote _ hbody [] [] (.nil _)
  apply scan_of_cuts hcuts String.toList_ofList
  rcases hquote with rfl | rfl <;> decide

/-- Only blanks are cut into no token. -/
theorem Cuts.blank (h : Cuts last cs []) : ∀ c ∈ cs, isSpace c = true := by
  induction cs generalizing last with
  | nil => simp
  | cons c cs ih =>
    cases h with
    | space hc h =>
      rw [List.forall_mem_cons]
      exact ⟨hc, ih h⟩

/-- At a double quote a string with a sealed body is cut off. -/
theorem sealed_of_next {position : Nat} {operand : Bool} {rest token tail : List Char}
    (h : next position operand '"' rest = .ok (token, tail)) :
    ∃ body, token = '"' :: (body ++ ['"']) ∧ Sealed '"' body := by
  rw [next, if_pos (by simp)] at h
  split at h
  case h_1 front more htake =>
    obtain ⟨body, -, rfl, hbody⟩ := sealed_of_takeQuoted htake
    cases h
    exact ⟨body, rfl, hbody⟩
  case h_2 => cases h

/-- The first token of a text between double quotes is a string with a sealed body. It is all of the
text when no token follows. -/
theorem Cuts.opened (h : Cuts none ('"' :: (cs ++ ['"'])) ts) :
    ∃ body us, ts = Token.quoted '"' body :: us ∧ Sealed '"' body ∧ (us = [] → cs = body) := by
  generalize htext : '"' :: (cs ++ ['"']) = text at h
  cases h with
  | nil => cases htext
  | space hc h =>
    obtain ⟨rfl, -⟩ := List.cons.inj htext
    cases hc
  | @token _ c front tail us hc hnext h =>
    obtain ⟨rfl, hrest⟩ := List.cons.inj htext
    obtain ⟨body, hfront, hbody⟩ := sealed_of_next (hnext 0)
    obtain rfl : front = body ++ ['"'] := (List.cons.inj hfront).2
    refine ⟨body, us, rfl, hbody, ?_⟩
    rintro rfl
    rcases List.eq_nil_or_concat tail with rfl | ⟨init, d, rfl⟩
    · have hbare : cs ++ ['"'] = body ++ ['"'] := by simpa using hrest
      exact List.append_cancel_right hbare
    · -- what follows the string ends in a quote, which is no blank
      have hlong : cs ++ ['"'] = (body ++ '"' :: init) ++ [d] := by simpa using hrest
      obtain ⟨-, hlast⟩ := List.append_inj' hlong rfl
      obtain rfl := List.head_eq_of_cons_eq hlast
      cases h.blank '"' (by simp)

/-! ## Turning a body around -/

/-- A character is left as it is, unless it is a backslash before a single quote. -/
theorem bareApostrophes_cons {c : Char} (h : c ≠ '\\' ∨ cs.head? ≠ some apostrophe) :
    bareApostrophes (c :: cs) = c :: bareApostrophes cs := by
  rw [bareApostrophes.eq_def]
  split
  case h_1 heq =>
    obtain ⟨rfl, rfl⟩ := List.cons.inj heq
    rcases h with h | h
    · exact absurd rfl h
    · exact absurd rfl h
  case h_2 heq =>
    obtain ⟨rfl, rfl⟩ := List.cons.inj heq
    rfl
  case h_3 heq => cases heq

theorem bareApostrophes_of_notMem (h : apostrophe ∉ cs) : bareApostrophes cs = cs := by
  induction cs with
  | nil => rfl
  | cons c cs ih =>
    have hcs : apostrophe ∉ cs := fun hmem => h (List.mem_cons_of_mem c hmem)
    rw [bareApostrophes_cons (.inr fun hhead => hcs (List.mem_of_mem_head? hhead)), ih hcs]

theorem escapeQuotes_of_notMem (h : '"' ∉ cs) : escapeQuotes cs = cs := by
  have hsame : ∀ c ∈ cs, (if c = '"' then ['\\', c] else [c]) = [c] := by
    intro c hc
    rw [if_neg]
    rintro rfl
    exact h hc
  rw [escapeQuotes, List.flatMap_congr hsame, List.flatMap_singleton']

theorem escapeQuotes_append (ds : List Char) :
    escapeQuotes (cs ++ ds) = escapeQuotes cs ++ escapeQuotes ds := List.flatMap_append

/-! ## Escaped texts -/

/-- Puts a backslash before every backslash and before every mark. -/
def escaped (mark : Char) (cs : List Char) : List Char :=
  cs.flatMap fun c => if c = '\\' ∨ c = mark then ['\\', c] else [c]

theorem escaped_cons (mark c : Char) (cs : List Char) :
    escaped mark (c :: cs) =
      (if c = '\\' ∨ c = mark then ['\\', c] else [c]) ++ escaped mark cs := List.flatMap_cons

theorem sealed_escaped (mark : Char) (cs : List Char) : Sealed mark (escaped mark cs) := by
  refine .flatMap fun c _ => ?_
  split_ifs with hc
  · exact .escape c .nil
  · rw [not_or] at hc
    exact .plain hc.symm .nil

/-- An escaped text never starts with the mark itself. -/
theorem head?_escaped {mark : Char} (hmark : mark ≠ '\\') (cs : List Char) :
    (escaped mark cs).head? ≠ some mark := by
  cases cs with
  | nil => simp [escaped]
  | cons c cs =>
    rw [escaped_cons]
    split_ifs with hc
    · simpa using hmark.symm
    · simpa using fun h => hc (.inr h)

/-- **Turned around, what was escaped for single quotes is escaped for double quotes.** -/
theorem escapeQuotes_bareApostrophes_escaped (cs : List Char) :
    escapeQuotes (bareApostrophes (escaped apostrophe cs)) = escaped '"' cs := by
  induction cs with
  | nil => rfl
  | cons c cs ih =>
    have hhead : (escaped apostrophe cs).head? ≠ some apostrophe := head?_escaped (by decide) cs
    rw [escaped_cons, escaped_cons, ← ih]
    by_cases hslash : c = '\\'
    · -- the second backslash of the two stands before no single quote
      subst hslash
      show escapeQuotes (bareApostrophes ('\\' :: '\\' :: escaped apostrophe cs)) = _
      rw [bareApostrophes_cons (.inr (by simp [apostrophe])), bareApostrophes_cons (.inr hhead)]
      rfl
    by_cases hmark : c = apostrophe
    · subst hmark
      rfl
    · rw [if_neg (not_or.2 ⟨hslash, hmark⟩), List.singleton_append,
        bareApostrophes_cons (.inl hslash)]
      simp only [hslash, false_or]
      exact List.flatMap_cons

/-- An escaped text is read back, when no line break is in it. -/
theorem unquoteBody_escaped (cs : List Char) : Text.unquoteBody (escaped '"' cs) =
    if '\n' ∈ cs then none else some (cs.flatMap String.utf8EncodeChar) := by
  show Text.unquoteFrom 0 (escaped '"' cs) = _
  induction cs with
  | nil => rfl
  | cons c cs ih =>
    rw [escaped_cons, List.flatMap_cons]
    by_cases hc : c = '\\' ∨ c = '"'
    · have hescape : Text.Escapes [c] (String.utf8EncodeChar c) := by
        rcases hc with rfl | rfl
        · exact .letter rfl
        · exact .letter rfl
      have hline : '\n' ≠ c := by rcases hc with rfl | rfl <;> decide
      have hread := Text.unquoteFrom_escape (hescape.reads (escaped '"' cs))
      rw [if_pos hc]
      rw [List.singleton_append, ih] at hread
      show Text.unquoteFrom 0 ('\\' :: c :: escaped '"' cs) = _
      rw [hread]
      simp only [List.mem_cons, hline, false_or]
      split_ifs <;> rfl
    · rw [if_neg hc, List.singleton_append]
      rw [not_or] at hc
      by_cases hline : c = '\n'
      · subst hline
        rw [if_pos List.mem_cons_self]
        rfl
      · rw [Text.unquoteFrom_plain ⟨hc.2, hc.1, hline⟩, ih]
        simp only [List.mem_cons, Ne.symm hline, false_or]
        split_ifs <;> rfl

/-- **What a body with a double quote stands for is lost once the quote is escaped again.** -/
theorem unquoteBody_escapeQuotes {bs : Text.Bytes} (h : Text.Denotes cs bs) (hmem : '"' ∈ cs) :
    Text.unquoteBody (escapeQuotes cs) = none := by
  show Text.unquoteFrom 0 (escapeQuotes cs) = none
  induction h with
  | nil => cases hmem
  | @plain c cs bs hc _ ih =>
    have hrest : '"' ∈ cs := (List.mem_cons.1 hmem).resolve_left hc.1.symm
    have hsame : escapeQuotes (c :: cs) = c :: escapeQuotes cs := by
      simp [escapeQuotes, hc.1]
    rw [hsame, Text.unquoteFrom_plain hc, ih hrest]
    rfl
  | @escape ds cs b bs hds _ ih =>
    rcases hds.quote with rfl | hnone
    · -- the two backslashes are one escape, and the quote stands alone
      have hslash : Text.Escapes ['\\'] [92] := .letter rfl
      exact Text.unquoteFrom_escape (hslash.reads ('"' :: escapeQuotes cs))
    · have hrest : '"' ∈ cs := by simpa [hnone] using hmem
      have hsame : escapeQuotes ('\\' :: (ds ++ cs)) = '\\' :: (ds ++ escapeQuotes cs) := by
        show '\\' :: escapeQuotes (ds ++ cs) = _
        rw [escapeQuotes_append, escapeQuotes_of_notMem hnone]
      rw [hsame, Text.unquoteFrom_escape (hds.reads _), ih hrest]
      rfl

end Token

/-! ## Expressions that are one string -/

namespace Grammar

variable {lookup : Lookup} {t : String} {ts : List String} {c : Constant}

/-- One more operator makes the expression more than a constant. -/
theorem Takes.tail_constant {l : Level} {n : Node} {us : List String}
    (h : Takes lookup (.tail l n (.constant c)) ts us) : n = .constant c ∧ us = ts := by
  generalize htask : Task.tail l n (.constant c) = task at h
  induction h generalizing n with
  | stop h =>
    cases htask
    exact ⟨rfl, rfl⟩
  | sign ht hb hn _ ih =>
    cases htask
    cases (ih rfl).1
  | _ => cases htask

/-- A constant is written by its own operand. -/
theorem Takes.chain_constant {l : Level} {us : List String}
    (h : Takes lookup (.phrase (.chain l) (.constant c)) ts us) :
    Takes lookup (.phrase l.operand (.constant c)) ts us := by
  cases h with
  | chain ha hn =>
    obtain ⟨rfl, rfl⟩ := hn.tail_constant
    exact ha

/-- An operand that starts with a string is this string. -/
theorem Takes.primary_string {s : Except ParseError Constant} (hs : Token.string? t = some s)
    {n : Node} {us : List String} (h : Takes lookup (.phrase .primary n) (t :: ts) us) :
    ∃ c, s = .ok c ∧ n = .constant c ∧ us = ts := by
  have hname : Token.isNaming t ≠ true := by
    intro hnaming
    rw [Token.string?_of_isNaming hnaming] at hs
    cases hs
  cases h with
  | enclosed h => cases hs
  | number ht hc =>
    rw [Token.isNumber_of_string? hs] at ht
    cases ht
  | string ht =>
    cases hs.symm.trans ht
    exact ⟨_, rfl, rfl, rfl⟩
  | column ht hrest => exact absurd (Token.isNaming_of_column? ht) hname
  | cases w h => exact absurd (isNaming_of_caseWord w) hname
  | condition w h hn => exact absurd (isNaming_of_ifWord w) hname
  | call ht hf h =>
    rw [ht.string] at hs
    cases hs

/-- An expression that starts with a string and is a constant is this string. -/
theorem Takes.string_constant {s : Except ParseError Constant} (hs : Token.string? t = some s)
    (h : Takes lookup (.phrase .comparison (.constant c)) (t :: ts) []) : s = .ok c ∧ ts = [] := by
  -- neither a comparison nor an operator is left in a constant
  have hoperand : Takes lookup (.phrase .unary (.constant c)) (t :: ts) [] := by
    cases h with
    | lone h _ => exact h.chain_constant.chain_constant
  cases hoperand with
  | bare _ h =>
    obtain ⟨d, rfl, hd, rfl⟩ := h.primary_string hs
    cases hd
    exact ⟨rfl, rfl⟩

/-- A string by itself is read as its constant, or fails as the string does. -/
theorem parseTokens_string {s : Except ParseError Constant} (hs : Token.string? t = some s) :
    Parser.parseTokens lookup [t] = s.map .constant := by
  have hopen : t ≠ "(" := by
    rintro rfl
    cases hs
  have hminus : [t].head? ≠ some "-" := by
    intro h
    cases h
    cases hs
  -- one token gives 16 units of fuel, of which the operand is handed 12
  have hprimary : Parser.primary lookup 12 [t] = s >>= fun c => pure (.constant c, []) := by
    unfold Parser.primary
    simp only [hopen, if_false, Token.isNumber_of_string? hs, Bool.false_eq_true, hs]
  have hcomparison : Parser.comparison lookup 16 [t] = s >>= fun c => pure (.constant c, []) := by
    rw [Parser.comparison, Parser.sum, Parser.product, unary_of_head hminus, hprimary]
    cases s <;> rfl
  show (Parser.comparison lookup 16 [t] >>= _) = _
  rw [hcomparison]
  cases s <;> rfl

end Grammar

namespace Node

open Token (Sealed apostrophe escaped quoted)

variable {lookup : Lookup} {quote : Char} {body w : List Char} {bs : Text.Bytes}

theorem parse_quoted (hquote : quote = apostrophe ∨ quote = '"') (hbody : Sealed quote body)
    {s : Except ParseError Constant} (hs : Token.string? (quoted quote body) = some s) :
    Node.parse lookup (quoted quote body) = s.map .constant := by
  rw [Grammar.parse_of_scan (Token.scan_quoted hquote hbody)]
  exact Grammar.parseTokens_string hs

/-- A text between double quotes is a string as a whole exactly when its body is sealed and stands for
the bytes. -/
theorem parse_double_iff : Node.parse lookup (quoted '"' w) = .ok (.constant (.string bs)) ↔
    Sealed '"' w ∧ Text.Denotes w bs := by
  constructor
  · intro h
    obtain ⟨ts, hscan, htakes⟩ := Grammar.exists_part h
    have hcuts := Token.cuts_of_scan hscan
    rw [quoted, String.toList_ofList] at hcuts
    obtain ⟨body, us, rfl, hbody, hwhole⟩ := hcuts.opened
    -- tokens behind the string would make it a part of a larger expression
    obtain ⟨hread, rfl⟩ := htakes.string_constant (Token.string?_double body)
    obtain rfl := hwhole rfl
    refine ⟨hbody, Text.unquoteBody_iff.1 ?_⟩
    unfold Token.stringOf at hread
    split at hread
    case h_1 more hmore =>
      cases hread
      exact hmore
    case h_2 => cases hread
  · rintro ⟨hsealed, hdenotes⟩
    rw [parse_quoted (.inr rfl) hsealed (Token.string?_double w), Token.stringOf,
      Text.unquoteBody_iff.2 hdenotes]
    rfl

/-- The literal for a text between single quotes, with its backslashes and single quotes escaped. -/
def singleQuoted (s : String) : String := quoted apostrophe (escaped apostrophe s.toList)

/-- **Single quotes hold every text.** The literal is one token, and is read as the text itself exactly
when there is no line break in it. -/
theorem parse_singleQuoted (s : String) :
    Token.scan (singleQuoted s) = .ok [singleQuoted s] ∧
      (Node.parse lookup (singleQuoted s) = .ok (.constant (.string (.ofText s))) ↔
        '\n' ∉ s.toList) := by
  have hbody := Token.sealed_escaped apostrophe s.toList
  have hstring := Token.string?_single (escaped apostrophe s.toList)
  rw [Token.escapeQuotes_bareApostrophes_escaped, Token.stringOf, Token.unquoteBody_escaped] at hstring
  have hparse : Node.parse lookup (singleQuoted s) = _ := parse_quoted (.inl rfl) hbody hstring
  refine ⟨Token.scan_quoted (.inl rfl) hbody, ?_⟩
  rw [hparse]
  by_cases hline : '\n' ∈ s.toList
  · simp [hline, Except.map]
  · simp [hline, Except.map, Text.Bytes.ofText]

/-- **What a body means between double quotes it means between single quotes too, unless there is a
double quote in it.** Such a body is refused between single quotes, with the text it is turned into. -/
theorem parse_swapped (hw : apostrophe ∉ w)
    (h : Node.parse lookup (quoted '"' w) = .ok (.constant (.string bs))) :
    Node.parse lookup (quoted apostrophe w) =
      if '"' ∈ w then .error (.badString (quoted '"' (Token.escapeQuotes w)))
      else .ok (.constant (.string bs)) := by
  obtain ⟨hsealed, hdenotes⟩ := parse_double_iff.1 h
  have hstring := Token.string?_single w
  rw [Token.bareApostrophes_of_notMem hw] at hstring
  rw [parse_quoted (.inl rfl) (hsealed.swap hw) hstring, Token.stringOf]
  split_ifs with hquote
  · rw [Token.unquoteBody_escapeQuotes hdenotes hquote]
    rfl
  · rw [Token.escapeQuotes_of_notMem hquote, Text.unquoteBody_iff.2 hdenotes]
    rfl

/-- An escaped double quote is refused between single quotes; an escaped line break is not. -/
theorem parse_swapped_escapes :
    Node.parse (fun _ => none) (quoted apostrophe ['\\', '"']) =
        .error (.badString (quoted '"' ['\\', '\\', '"'])) ∧
      Node.parse (fun _ => none) (quoted apostrophe ['\\', 'n']) =
        .ok (.constant (.string [10])) := by
  have hmark : Node.parse (fun _ => none) (quoted '"' ['\\', '"']) =
      .ok (.constant (.string [34])) :=
    parse_double_iff.2 ⟨.escape _ .nil, .escape (.letter rfl) .nil⟩
  have hline : Node.parse (fun _ => none) (quoted '"' ['\\', 'n']) =
      .ok (.constant (.string [10])) :=
    parse_double_iff.2 ⟨.escape _ .nil, .escape (.letter rfl) .nil⟩
  exact ⟨parse_swapped (by decide) hmark, parse_swapped (by decide) hline⟩

end Node

end FactFold
