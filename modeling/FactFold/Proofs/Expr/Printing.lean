import FactFold.Proofs.Expr.Parsing
import FactFold.Proofs.Expr.Scanning

/-!
# Printed expressions are read back

The text of an expression is read as that expression when its parts are legible: columns whose names
are identifiers, integers of the width their size asks for, strings, and calls of functions that their
names resolve to (`Node.isLegible`). Every printed expression is a primary: an operand that is one
token, or something between parentheses. `prints` finds its phrase together with the way its text is
cut into tokens, by induction on the expression, and the parser's completeness does the rest.
-/

namespace FactFold

/-! ## Legible expressions -/

/-- The column's name is an identifier, and so is its table, if it has one. What stands before the
first point must be what the column has as its table. -/
def Column.isLegible (c : Column) : Bool :=
  Token.isIdentifier c.name &&
    if c.table = "" then !c.name.toList.contains '.' && !Token.isKeyword c.name
    else Token.isIdentifier c.table && !c.table.toList.contains '.'

/-- A string, or an integer whose type is the one its size asks for. -/
def Constant.isLegible : Constant → Bool
  | .int n => fits32 n
  | .long n => !fits32 n && Number.fits64 n
  | .string _ => true
  | _ => false

namespace Node

mutual

/-- Columns and constants are legible, and functions are found under their names, which are single
tokens. No argument of a call is a comparison. -/
def isLegible (lookup : Lookup) : Node → Bool
  | .column c => c.isLegible
  | .constant c => c.isLegible
  | .arithmetic _ l r => l.isLegible lookup && r.isLegible lookup
  | .comparison _ l r => l.isLegible lookup && r.isLegible lookup
  | .guarded _ l r body => l.isLegible lookup && r.isLegible lookup && body.isLegible lookup
  | .choice _ l r yes no =>
    l.isLegible lookup && r.isLegible lookup && yes.isLegible lookup && no.isLegible lookup
  | .call f args =>
    Token.isCallee f.name && f.name.toList.all Token.continuesName && lookup f.name = some f &&
      !args.any isComparison && areLegible lookup args

/-- Every expression is legible. -/
def areLegible (lookup : Lookup) : List Node → Bool
  | [] => true
  | n :: rest => n.isLegible lookup && areLegible lookup rest

end

end Node

/-! ## Columns -/

namespace Token

/-- What is no separator stands in one of the parts. -/
theorem exists_mem_splitOnP {α : Type} {p : α → Bool} {xs : List α} {x : α} (hx : x ∈ xs)
    (hp : p x = false) : ∃ part ∈ xs.splitOnP p, x ∈ part := by
  induction xs with
  | nil => simp at hx
  | cons y ys ih =>
    rw [List.splitOnP_cons_eq_if_modifyHead]
    rcases List.mem_cons.1 hx with rfl | hx
    · rw [if_neg (by simp [hp])]
      cases hparts : ys.splitOnP p with
      | nil => exact absurd hparts (List.splitOnP_ne_nil _ _)
      | cons part parts => exact ⟨x :: part, by simp, by simp⟩
    · obtain ⟨part, hpart, hin⟩ := ih hx
      split_ifs
      · exact ⟨part, by simp [hpart], hin⟩
      · cases hparts : ys.splitOnP p with
        | nil => exact absurd hparts (List.splitOnP_ne_nil _ _)
        | cons first parts =>
          rw [hparts] at hpart
          rcases List.mem_cons.1 hpart with rfl | hpart
          · exact ⟨y :: part, by simp, by simp [hin]⟩
          · exact ⟨part, by simp [hpart], hin⟩

theorem continuesName_of_isIdentifier {t : String} (h : isIdentifier t = true) :
    ∀ d ∈ t.toList, continuesName d = true := by
  intro d hd
  by_cases hpoint : d = '.'
  · subst hpoint
    decide
  · obtain ⟨part, hpart, hin⟩ := exists_mem_splitOnP (p := (· = '.')) hd (by simpa using hpoint)
    have hall := List.all_eq_true.1 h part hpart
    cases part with
    | nil => simp at hin
    | cons c rest =>
      simp only [Bool.and_eq_true, Bool.or_eq_true, decide_eq_true_eq, List.all_eq_true] at hall
      rcases List.mem_cons.1 hin with rfl | hin
      · rcases hall.1 with hc | rfl
        · simp [continuesName, startsName, hc]
        · decide
      · rcases hall.2 d hin with (hc | hc) | rfl
        · simp [continuesName, startsName, hc]
        · simp [continuesName, hc]
        · decide

/-- An identifier starts a name and goes on as one. -/
theorem exists_name_of_isIdentifier {t : String} (h : isIdentifier t = true) :
    ∃ c front, t.toList = c :: front ∧ startsName c = true ∧
      ∀ d ∈ front, continuesName d = true := by
  have hall := continuesName_of_isIdentifier h
  have hnaming := isNaming_of_isIdentifier h
  cases ht : t.toList with
  | nil => simp [isNaming, ht] at hnaming
  | cons c front =>
    rw [ht] at hall
    refine ⟨c, front, rfl, ?_, fun d hd => hall d (by simp [hd])⟩
    have hc : startsName c = true ∨ c = backtick := by simpa [isNaming, ht] using hnaming
    rcases hc with hc | rfl
    · exact hc
    · exact absurd (hall backtick (by simp)) (by decide)

theorem between?_of_startsName {t : String} {c : Char} {front : List Char}
    (ht : t.toList = c :: front) (hc : startsName c = true) : between? backtick t = none := by
  cases hb : between? backtick t with
  | none => rfl
  | some cs =>
    have hhead := head_of_between? hb
    rw [ht] at hhead
    exact absurd (Option.some.inj hhead) (ne_of_startsName hc (by decide))

/-- No word of a case expression has a point. -/
theorem isKeyword_of_point {t : String} (h : '.' ∈ t.toList) : isKeyword t = false := by
  rw [Bool.eq_false_iff]
  intro hkeyword
  obtain ⟨word, hmem, hword⟩ := List.any_eq_true.1 hkeyword
  have hpoint : '.' ∈ word.toList.map Number.asciiLower := by
    rw [← of_decide_eq_true hword]
    exact List.mem_map.2 ⟨'.', h, by decide⟩
  have hnone : ∀ w ∈ keywords, '.' ∉ w.toList.map Number.asciiLower := by decide
  exact hnone word hmem hpoint

theorem columnOf_plain {t : String} (h : '.' ∉ t.toList) : columnOf t = ⟨t, ""⟩ := by
  have hdrop := (@takeWhile_front (· ≠ '.') t.toList []
    (fun c hc => by simpa using fun (heq : c = '.') => h (heq ▸ hc)) (by simp)).2
  rw [List.append_nil] at hdrop
  rw [columnOf, hdrop]

theorem columnOf_qualified {table name : String} (h : '.' ∉ table.toList) :
    columnOf (table ++ "." ++ name) = ⟨name, table⟩ := by
  have hlist : (table ++ "." ++ name).toList = table.toList ++ '.' :: name.toList := by simp
  obtain ⟨htake, hdrop⟩ := @takeWhile_front (· ≠ '.') table.toList
    ('.' :: name.toList) (fun c hc => by simpa using fun (heq : c = '.') => h (heq ▸ hc))
    (by simp)
  rw [columnOf, hlist, htake, hdrop]
  simp

theorem isIdentifier_qualified {table name : String} (htable : isIdentifier table = true)
    (hname : isIdentifier name = true) : isIdentifier (table ++ "." ++ name) = true := by
  have hlist : (table ++ "." ++ name).toList = table.toList ++ '.' :: name.toList := by simp
  unfold isIdentifier at htable hname ⊢
  rw [hlist, List.splitOnP_append_cons _ _ (by simp), List.all_append, htable, hname]
  rfl

/-- The token of a legible column is an identifier, and is read as that column. -/
theorem column?_text {c : Column} (h : c.isLegible = true) :
    isIdentifier c.text = true ∧ column? c.text = some c := by
  have hread : isIdentifier c.text = true ∧ isKeyword c.text = false ∧ columnOf c.text = c := by
    obtain ⟨name, table⟩ := c
    simp only [Column.isLegible, Bool.and_eq_true] at h
    obtain ⟨hname, h⟩ := h
    by_cases htable : table = ""
    · subst htable
      simp only [if_true, Bool.and_eq_true, Bool.not_eq_true', List.contains_eq_mem,
        decide_eq_false_iff_not] at h
      exact ⟨hname, h.2, columnOf_plain h.1⟩
    · simp only [htable, if_false, Bool.and_eq_true, Bool.not_eq_true', List.contains_eq_mem,
        decide_eq_false_iff_not] at h
      simp only [Column.text, htable, if_false]
      exact ⟨isIdentifier_qualified h.1 hname, isKeyword_of_point (by simp),
        columnOf_qualified h.2⟩
  obtain ⟨hid, hkeyword, hof⟩ := hread
  obtain ⟨d, front, ht, hd, -⟩ := exists_name_of_isIdentifier hid
  refine ⟨hid, ?_⟩
  rw [column?, between?_of_startsName ht hd]
  simp [hid, hkeyword, hof]

end Token

/-! ## Constants -/

namespace Constant

theorem text_int (n : Int) : (Constant.int n).text = Number.decimal n :=
  Text.Bytes.lossy_ofText (Number.decimal n)

theorem text_long (n : Int) : (Constant.long n).text = Number.decimal n := text_int n

end Constant

namespace Token

theorem isNumberFrom_digits {ds : List Char} (h : ∀ c ∈ ds, Number.isDigit c = true)
    {seen : Bool} (hds : seen = true ∨ ds ≠ []) : isNumberFrom seen false ds = true := by
  induction ds generalizing seen with
  | nil => simpa [isNumberFrom] using hds
  | cons c ds ih =>
    rw [isNumberFrom, if_pos (h c (by simp))]
    exact ih (fun d hd => h d (by simp [hd])) (.inl rfl)

theorem isNumber_digits {t : String} (h : ∀ c ∈ t.toList, Number.isDigit c = true)
    (hne : t.toList ≠ []) : isNumber t = true := by
  unfold isNumber
  split
  case h_1 rest heq => exact absurd (h '-' (by simp [heq])) (by decide)
  case h_2 => exact isNumberFrom_digits h (.inr hne)

theorem isNumber_decimal (n : Int) : isNumber (Number.decimal n) = true := by
  by_cases hneg : n < 0
  · unfold isNumber
    rw [Number.toList_decimal, if_pos hneg]
    exact isNumberFrom_digits Number.isDigit_of_mem_toDigits (.inr Nat.toDigits_ne_nil)
  · have htext : (Number.decimal n).toList = Nat.toDigits 10 n.natAbs := by
      rw [Number.toList_decimal, if_neg hneg, List.nil_append]
    refine isNumber_digits ?_ ?_ <;> rw [htext]
    · exact Number.isDigit_of_mem_toDigits
    · exact Nat.toDigits_ne_nil

/-- Among digits there is neither a point nor the letter of an exponent. -/
theorem any_mark_digits {ds : List Char} (h : ∀ c ∈ ds, Number.isDigit c = true) :
    (ds.any fun c => c = '.' || c = 'e' || c = 'E') = false := by
  rw [List.any_eq_false]
  intro c hc hmark
  have hdigit := h c hc
  simp only [Bool.or_eq_true, decide_eq_true_eq] at hmark
  rcases hmark with (rfl | rfl) | rfl
  all_goals exact absurd hdigit (by decide)

/-- A decimal integer of 64 bits is a constant of the type its size asks for. -/
theorem numberOf_decimal {n : Int} (h : Number.fits64 n = true) :
    numberOf (Number.decimal n) = .ok (if fits32 n then .int n else .long n) := by
  have hwhole : ((Number.decimal n).toList.any fun c => c = '.' || c = 'e' || c = 'E') = false := by
    rw [Number.toList_decimal, List.any_append, any_mark_digits Number.isDigit_of_mem_toDigits]
    split <;> simp
  simp only [numberOf, hwhole, Bool.false_eq_true, if_false, Number.readDecimalInt?_decimal h]

theorem between?_quoted (mark quote : Char) (body : List Char) :
    between? mark (quoted quote body) = if quote = mark then some body else none := by
  simp only [between?, quoted, String.toList_ofList]
  by_cases h : quote = mark
  · simp [h]
  · simp [h]

/-- Between double quotes the body of a string is read as it stands. -/
theorem string?_double (body : List Char) : string? (quoted '"' body) = some (stringOf body) := by
  rw [string?, between?_quoted, between?_quoted, if_neg (by decide), if_pos rfl, Option.map_some]

/-- Between single quotes it is read once the quotes in it are turned around. -/
theorem string?_single (body : List Char) : string? (quoted apostrophe body) =
    some (stringOf (escapeQuotes (bareApostrophes body))) := by
  rw [string?, between?_quoted, if_pos rfl]

theorem string?_quote (bs : Text.Bytes) : string? (Text.quote bs) = some (.ok (.string bs)) := by
  show string? (quoted '"' (bs.pieces.flatMap (Text.quotePiece false))) = _
  rw [string?_double, stringOf, Text.unquoteBody_quote]

end Token

/-! ## Phrases of printed expressions -/

namespace Grammar

open Token (Cuts Delimited expectsOperand)

variable {lookup : Lookup}

/-- A primary as a whole comparison. -/
def Phrase.alone (d : Phrase .primary) : Phrase .comparison := .lone (.first (.first (.bare d)))

@[simp] theorem Phrase.tokens_alone (d : Phrase .primary) : d.alone.tokens = d.tokens := rfl

@[simp] theorem Phrase.node?_alone (d : Phrase .primary) :
    d.alone.node? lookup = d.node? lookup := rfl

/-- The expression is what the phrase stands for, and its text, where an operand is expected and
before the end of an operand, is cut into the phrase's tokens. -/
structure Prints (lookup : Lookup) (n : Node) (d : Phrase .primary) : Prop where
  node : d.node? lookup = some n
  cuts : ∀ {last cs ts}, expectsOperand last = true → Delimited cs → (∀ l, Cuts l cs ts) →
    Cuts last (n.text.toList ++ cs) (d.tokens ++ ts)
  head : ∃ c cs, n.text.toList = c :: cs ∧ 33 ≤ c.toNat ∧ c.toNat < 127

theorem cuts_open {last : Option String} {cs : List Char} {ts : List String}
    (h : Cuts (some "(") cs ts) : Cuts last ('(' :: cs) ("(" :: ts) := .bracket (.inl rfl) h

theorem cuts_close {last : Option String} {cs : List Char} {ts : List String}
    (h : Cuts (some ")") cs ts) : Cuts last (')' :: cs) (")" :: ts) := .bracket (.inr (.inl rfl)) h

theorem cuts_comma {last : Option String} {cs : List Char} {ts : List String}
    (h : Cuts (some ",") cs ts) : Cuts last (',' :: cs) ("," :: ts) := .bracket (.inr (.inr rfl)) h

/-- Two operands around a sign between parentheses. -/
theorem cuts_infix {l r : Node} {a b : Phrase .primary} (hl : Prints lookup l a)
    (hr : Prints lookup r b) {t : String} (ht : t ∈ Token.signs) {last : Option String}
    {cs : List Char} {ts : List String} (h : ∀ l, Cuts l cs ts) :
    Cuts last ((Node.infixText l.text t r.text).toList ++ cs)
      ("(" :: (a.tokens ++ t :: (b.tokens ++ ")" :: ts))) := by
  have htext : (Node.infixText l.text t r.text).toList ++ cs =
      '(' :: (l.text.toList ++ ' ' :: (t.toList ++ ' ' :: (r.text.toList ++ ')' :: cs))) := by
    simp [Node.infixText]
  have hsign : ∀ u ∈ Token.signs, expectsOperand (some u) = true := by decide
  have hright : Cuts (some t) (r.text.toList ++ ')' :: cs) (b.tokens ++ ")" :: ts) :=
    hr.cuts (hsign t ht) (by simp [Delimited]) fun l => cuts_close (h _)
  rw [htext]
  refine cuts_open (hl.cuts rfl (by simp [Delimited]) fun l => ?_)
  exact .space rfl (.sign ht hright)

/-! ### Operands of one token -/

theorem continuesName_of_delimited {cs : List Char} (h : Delimited cs) :
    ∀ d ∈ cs.head?, Token.continuesName d = false := by
  intro d hd
  rcases h d hd with rfl | rfl | rfl <;> decide

theorem ascii_of_startsName {c : Char} (h : Token.startsName c = true) :
    33 ≤ c.toNat ∧ c.toNat < 127 := by
  simp only [Token.startsName, Token.isLetter, Bool.or_eq_true, Bool.and_eq_true,
    decide_eq_true_eq, Char.le_def, UInt32.le_iff_toNat_le] at h
  rcases h with ((⟨ha, hz⟩ | ⟨ha, hz⟩) | rfl) | rfl
  · exact ⟨le_trans (by decide) ha, lt_of_le_of_lt hz (by decide)⟩
  · exact ⟨le_trans (by decide) ha, lt_of_le_of_lt hz (by decide)⟩
  · decide
  · decide

theorem prints_column {c : Column} (h : c.isLegible = true) :
    ∃ d, Prints lookup (.column c) d := by
  obtain ⟨hid, hcolumn⟩ := Token.column?_text h
  obtain ⟨a, front, ht, ha, hfront⟩ := Token.exists_name_of_isIdentifier hid
  refine ⟨.column c.text c hcolumn, rfl, fun hlast hcs hrest => ?_, ?_⟩
  · rw [Node.text]
    exact .name ht ha hfront (continuesName_of_delimited hcs) (hrest _)
  · rw [Node.text]
    exact ⟨a, front, ht, ascii_of_startsName ha⟩

/-- The first character of a decimal integer. -/
theorem head_decimal (n : Int) :
    ∃ c cs, (Number.decimal n).toList = c :: cs ∧ 33 ≤ c.toNat ∧ c.toNat < 127 := by
  rw [Number.toList_decimal]
  by_cases hneg : n < 0
  · rw [if_pos hneg]
    exact ⟨'-', _, rfl, by decide⟩
  · obtain ⟨d, ds, hds⟩ : ∃ d ds, Nat.toDigits 10 n.natAbs = d :: ds :=
      List.exists_cons_of_ne_nil Nat.toDigits_ne_nil
    have hd : Number.isDigit d = true :=
      Number.isDigit_of_mem_toDigits (n := n.natAbs) d (by simp [hds])
    simp only [Number.isDigit, Bool.and_eq_true, decide_eq_true_eq, Char.le_def,
      UInt32.le_iff_toNat_le] at hd
    rw [if_neg hneg, hds]
    exact ⟨d, ds, rfl, le_trans (by decide) hd.1, lt_of_le_of_lt hd.2 (by decide)⟩

theorem prints_decimal {n : Int} {k : Constant} (htext : k.text = Number.decimal n)
    (hk : Token.numberOf (Number.decimal n) = .ok k) : ∃ d, Prints lookup (.constant k) d := by
  refine ⟨.number (Number.decimal n) k (Token.isNumber_decimal n) hk, rfl,
    fun hlast hcs hrest => ?_, ?_⟩
  · rw [Node.text, htext]
    exact .decimal hlast n hcs (hrest _)
  · rw [Node.text, htext]
    exact head_decimal n

theorem prints_constant {k : Constant} (h : k.isLegible = true) :
    ∃ d, Prints lookup (.constant k) d := by
  cases k with
  | int n =>
    have hfits : Number.fits64 n = true := by
      simp only [Constant.isLegible, fits32, Bool.and_eq_true, decide_eq_true_eq] at h
      simp only [Number.fits64, Bool.and_eq_true, decide_eq_true_eq]
      omega
    refine prints_decimal (Constant.text_int n) ?_
    rw [Token.numberOf_decimal hfits, if_pos (show fits32 n = true from h)]
  | long n =>
    simp only [Constant.isLegible, Bool.and_eq_true, Bool.not_eq_true'] at h
    refine prints_decimal (Constant.text_long n) ?_
    rw [Token.numberOf_decimal h.2, if_neg (by simp [h.1])]
  | string bs =>
    refine ⟨.string (Text.quote bs) (.string bs) (Token.string?_quote bs), rfl,
      fun hlast hcs hrest => ?_, ⟨'"', _, String.toList_ofList, by decide⟩⟩
    exact .string bs (hrest _)
  | _ => cases h

/-! ### Operands between parentheses -/

theorem head_infix {l t r : String} :
    ∃ c cs, (Node.infixText l t r).toList = c :: cs ∧ 33 ≤ c.toNat ∧ c.toNat < 127 := by
  refine ⟨'(', l.toList ++ ' ' :: (t.toList ++ ' ' :: (r.toList ++ [')'])), ?_, by decide⟩
  simp [Node.infixText]

theorem prints_arithmetic {l r : Node} {a b : Phrase .primary} (op : Arithmetic)
    (hl : Prints lookup l a) (hr : Prints lookup r b) :
    ∃ d, Prints lookup (.arithmetic op l r) d := by
  have hsign : op.symbol ∈ Token.signs := by cases op <;> decide
  -- the phrase puts the operator on the level it belongs to
  obtain ⟨e, he, hnode⟩ : ∃ e : Phrase .comparison,
      e.tokens = a.tokens ++ op.symbol :: b.tokens ∧
        e.node? lookup = some (.arithmetic op l r) := by
    have hsum (h : (op.symbol, op) ∈ Level.sum.signs) : ∃ e : Phrase .comparison,
        e.tokens = a.tokens ++ op.symbol :: b.tokens ∧
          e.node? lookup = some (.arithmetic op l r) :=
      ⟨.lone (.joined (.first (.first (.bare a))) op.symbol op h (.first (.bare b))), rfl, by
        simp [Phrase.node?, hl.node, hr.node]⟩
    have hproduct (h : (op.symbol, op) ∈ Level.product.signs) : ∃ e : Phrase .comparison,
        e.tokens = a.tokens ++ op.symbol :: b.tokens ∧
          e.node? lookup = some (.arithmetic op l r) :=
      ⟨.lone (.first (.joined (.first (.bare a)) op.symbol op h (.bare b))), rfl, by
        simp [Phrase.node?, hl.node, hr.node]⟩
    cases op with
    | add | sub => exact hsum (by decide)
    | mul | div => exact hproduct (by decide)
  refine ⟨.enclosed e, hnode, fun _ _ hrest => ?_, ?_⟩
  · rw [Node.text]
    simpa [Phrase.tokens, he] using cuts_infix hl hr hsign hrest
  · rw [Node.text]
    exact head_infix

theorem prints_comparison {l r : Node} {a b : Phrase .primary} (op : Comparison)
    (hl : Prints lookup l a) (hr : Prints lookup r b) :
    ∃ d, Prints lookup (.comparison op l r) d := by
  have hsign : op.symbol ∈ Token.signs := by cases op <;> decide
  have hread : Token.comparison? op.symbol = some op := by cases op <;> rfl
  refine ⟨.enclosed (.compared (.first (.first (.bare a))) op.symbol op hread
    (.first (.first (.bare b)))), ?_, fun _ _ hrest => ?_, ?_⟩
  · simp [Phrase.node?, hl.node, hr.node]
  · rw [Node.text]
    simpa [Phrase.tokens] using cuts_infix hl hr hsign hrest
  · rw [Node.text]
    exact head_infix

/-! ### Lists of operands -/

/-- Every expression has its phrase. -/
inductive PrintsAll (lookup : Lookup) : List Node → List (Phrase .comparison) → Prop
  | nil : PrintsAll lookup [] []
  | cons {n : Node} {ns : List Node} {d : Phrase .primary} {ds : List (Phrase .comparison)}
      (h : Prints lookup n d) (hs : PrintsAll lookup ns ds) :
      PrintsAll lookup (n :: ns) (d.alone :: ds)

theorem PrintsAll.nodes {ns : List Node} {ds : List (Phrase .comparison)}
    (h : PrintsAll lookup ns ds) : Phrase.nodes? lookup ds = some ns := by
  induction h with
  | nil => rfl
  | cons h _ ih => simp [Phrase.nodes?, h.node, ih]

/-- Texts that follow others in a list. -/
def following (ts : List String) : List Char := ts.flatMap fun t => ',' :: ' ' :: t.toList

theorem delimited_following (ts : List String) (cs : List Char) :
    Delimited (following ts ++ ')' :: cs) := by
  cases ts <;> simp [following, Delimited]

theorem PrintsAll.cuts_remaining {ns : List Node} {ds : List (Phrase .comparison)}
    (h : PrintsAll lookup ns ds) {cs : List Char} {ts : List String} (hrest : ∀ l, Cuts l cs ts)
    (last : Option String) :
    Cuts last (following (Node.texts ns) ++ ')' :: cs) (Phrase.remaining ds ++ ts) := by
  induction h generalizing last with
  | nil => exact cuts_close (hrest _)
  | cons h _ ih =>
    have hmore := h.cuts (show expectsOperand (some ",") = true from rfl) (delimited_following _ _) ih
    simpa [Node.texts, following, Phrase.remaining] using cuts_comma (.space rfl hmore)

theorem toList_intercalate (t : String) (ts : List String) :
    (String.intercalate ", " (t :: ts)).toList = t.toList ++ following ts := by
  induction ts generalizing t with
  | nil => simp [following]
  | cons u ts ih =>
    have hrest := ih u
    simp only [String.toList_intercalate] at hrest ⊢
    simp_all [following]

/-- A word and the operands of its list, up to the closing parenthesis. -/
theorem PrintsAll.cuts_applied {ns : List Node} {ds : List (Phrase .comparison)}
    (h : PrintsAll lookup ns ds) {t : String} {c : Char} {front : List Char}
    (ht : t.toList = c :: front) (hc : Token.startsName c = true)
    (hfront : ∀ d ∈ front, Token.continuesName d = true) {last : Option String} {cs : List Char}
    {ts : List String} (hrest : ∀ l, Cuts l cs ts) :
    Cuts last (t.toList ++ '(' :: ((String.intercalate ", " (Node.texts ns)).toList ++ ')' :: cs))
      (t :: "(" :: (Phrase.listed ds ++ ts)) := by
  refine .name ht hc hfront (by simp [Token.continuesName, Token.startsName, Token.isLetter,
    Number.isDigit]) (cuts_open ?_)
  cases h with
  | nil => exact cuts_close (hrest _)
  | cons h hs =>
    rw [Node.texts, toList_intercalate, List.append_assoc, Phrase.listed, List.append_assoc]
    exact h.cuts rfl (delimited_following _ _) (hs.cuts_remaining hrest)

theorem prints_applied {ns : List Node} {ds : List (Phrase .comparison)}
    (h : PrintsAll lookup ns ds) {t : String} (ht : Token.isName t = true)
    (hall : t.toList.all Token.continuesName = true) {n : Node} {d : Phrase .primary}
    (htext : n.text = t ++ "(" ++ String.intercalate ", " (Node.texts ns) ++ ")")
    (hd : d.tokens = t :: "(" :: Phrase.listed ds) (hnode : d.node? lookup = some n) :
    Prints lookup n d := by
  obtain ⟨c, front, hlist⟩ : ∃ c front, t.toList = c :: front := by
    cases hlist : t.toList with
    | nil => simp [Token.isName, hlist] at ht
    | cons c front => exact ⟨c, front, rfl⟩
  have hc : Token.startsName c = true := by simpa [Token.isName, hlist] using ht
  have hfront : ∀ e ∈ front, Token.continuesName e = true := by
    intro e he
    exact List.all_eq_true.1 hall e (by simp [hlist, he])
  refine ⟨hnode, fun _ _ hrest => ?_,
    ⟨c, front ++ '(' :: ((String.intercalate ", " (Node.texts ns)).toList ++ [')']), ?_,
      ascii_of_startsName hc⟩⟩
  · rw [htext, hd]
    simpa using h.cuts_applied hlist hc hfront hrest
  · rw [htext]
    simp [hlist]

/-! ### All expressions -/

mutual

/-- A legible expression has its phrase. -/
theorem prints : ∀ {n : Node}, n.isLegible lookup = true → ∃ d, Prints lookup n d
  | .column c, h => prints_column (by simpa [Node.isLegible] using h)
  | .constant k, h => prints_constant (by simpa [Node.isLegible] using h)
  | .arithmetic op l r, h => by
    simp only [Node.isLegible, Bool.and_eq_true] at h
    obtain ⟨a, hl⟩ := prints h.1
    obtain ⟨b, hr⟩ := prints h.2
    exact prints_arithmetic op hl hr
  | .comparison op l r, h => by
    simp only [Node.isLegible, Bool.and_eq_true] at h
    obtain ⟨a, hl⟩ := prints h.1
    obtain ⟨b, hr⟩ := prints h.2
    exact prints_comparison op hl hr
  | .guarded op l r body, h => by
    simp only [Node.isLegible, Bool.and_eq_true] at h
    obtain ⟨a, hl⟩ := prints h.1.1
    obtain ⟨b, hr⟩ := prints h.1.2
    obtain ⟨c, hc⟩ := prints_comparison op hl hr
    obtain ⟨d, hd⟩ := prints h.2
    have hall := PrintsAll.cons hc (.cons hd .nil)
    exact ⟨.condition ⟨"if", by decide⟩ [c.alone, d.alone],
      prints_applied hall (t := "if") (by decide) (by decide)
        (String.toList_inj.1 (by simp [Node.text, Node.texts])) rfl
        (by simp [Phrase.node?, hall.nodes])⟩
  | .choice op l r yes no, h => by
    simp only [Node.isLegible, Bool.and_eq_true] at h
    obtain ⟨a, hl⟩ := prints h.1.1.1
    obtain ⟨b, hr⟩ := prints h.1.1.2
    obtain ⟨c, hc⟩ := prints_comparison op hl hr
    obtain ⟨d, hd⟩ := prints h.1.2
    obtain ⟨e, he⟩ := prints h.2
    have hall := PrintsAll.cons hc (.cons hd (.cons he .nil))
    exact ⟨.condition ⟨"if", by decide⟩ [c.alone, d.alone, e.alone],
      prints_applied hall (t := "if") (by decide) (by decide)
        (String.toList_inj.1 (by simp [Node.text, Node.texts])) rfl
        (by simp [Phrase.node?, hall.nodes])⟩
  | .call f args, h => by
    simp only [Node.isLegible, Bool.and_eq_true, Bool.not_eq_true', decide_eq_true_eq] at h
    obtain ⟨⟨⟨⟨hcallee, hname⟩, hlookup⟩, hplain⟩, hargs⟩ := h
    obtain ⟨ds, hds⟩ := printsAll hargs
    exact ⟨.call f.name hcallee ds,
      prints_applied hds (isName_of_isCallee hcallee) hname (by rw [Node.text]) rfl
        (by simpa [Phrase.node?, hlookup, hds.nodes] using hplain)⟩

/-- Legible expressions have their phrases. -/
theorem printsAll : ∀ {ns : List Node}, Node.areLegible lookup ns = true →
    ∃ ds, PrintsAll lookup ns ds
  | [], _ => ⟨[], .nil⟩
  | n :: rest, h => by
    simp only [Node.areLegible, Bool.and_eq_true] at h
    obtain ⟨d, hd⟩ := prints h.1
    obtain ⟨ds, hds⟩ := printsAll h.2
    exact ⟨d.alone :: ds, .cons hd hds⟩

end

/-- **Printing and parsing.** The text of a legible expression is read as that expression, the types
of its constants included. -/
theorem parse_text {lookup : Lookup} {n : Node} (h : n.isLegible lookup = true) :
    Node.parse lookup n.text = .ok n := by
  obtain ⟨d, hd⟩ := prints h
  have hcuts : Cuts none n.text.toList d.alone.tokens := by
    have hoperand : expectsOperand none = true := rfl
    have hend : Delimited [] := by simp [Delimited]
    simpa using hd.cuts hoperand hend fun l => .nil l
  obtain ⟨c, cs, htext, hlow, hhigh⟩ := hd.head
  have hblank : Text.isBlank c = false := by
    simp [Text.isBlank]
    omega
  rw [Node.parse, Token.scan_of_cuts hcuts htext hblank]
  exact parseTokens_of_phrase (by simpa using hd.node)

/-- Knows one function. -/
def lookupRound : Lookup := fun t =>
  if t = "Math.round" then some (.existing ⟨"Math", "round", ""⟩) else none

/-- A guarded call over a qualified column, negative numbers and a string that holds a quote. -/
def nested : Node :=
  .guarded .ne (.arithmetic .sub (.column ⟨"a", "t"⟩) (.constant (.int (-7))))
    (.constant (.long (-2147483649)))
    (.call (.existing ⟨"Math", "round", ""⟩)
      [.arithmetic .mul (.column ⟨"b", ""⟩) (.constant (.string [113, 34]))])

theorem parse_text_nested :
    nested.isLegible lookupRound = true ∧ Node.parse lookupRound nested.text = .ok nested := by
  have h : nested.isLegible lookupRound = true := by decide +kernel
  exact ⟨h, parse_text h⟩

end Grammar

end FactFold
