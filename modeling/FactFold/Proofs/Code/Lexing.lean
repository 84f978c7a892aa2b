import FactFold.Proofs.Code.Spelling

/-!
# The lexemes of printed code

Printed code is cut into words, signs, marks and quoted strings, without regard to blanks, line ends
and indentation. `Lexes cs ts` says that the text `cs` is cut into `ts` before everything that does
not go on with a word; there is a rule for each sort of lexeme, and texts that are lexed may be
joined.

`Term.lexemes` and `Stmt.lexemes` print code as lexemes right away, and `lexes_text` and
`lex_textAll` say that this is what the text is cut into. Printing at a depth adds blanks only, so
that depth does not show.
-/

namespace FactFold.Code

/-! ## Cutting a text -/

/-- A piece of printed code. -/
inductive Lexeme where
  /-- A name, a reserved word or a number with its sign and mark. -/
  | word (s : String)
  /-- What stands between the quotes of a string, as it is written. -/
  | quoted (raw : List Char)
  /-- An operator. -/
  | sign (s : String)
  /-- A bracket or a separator. -/
  | mark (c : Char)
  deriving DecidableEq

def isWordChar (c : Char) : Bool :=
  c = '_' || c = '$' || ('a' ≤ c && c ≤ 'z') || ('A' ≤ c && c ≤ 'Z') || ('0' ≤ c && c ≤ '9')

def isSignChar (c : Char) : Bool :=
  ['+', '-', '*', '/', '=', '!', '<', '>', '&', '|', '?', ':'].contains c

/-- The beginning of a lexeme that may go on. -/
inductive Pending where
  | blank
  | word (cs : List Char)
  | sign (cs : List Char)
  /-- A string, of which the last character may have been a backslash that escapes the next. -/
  | quoted (cs : List Char) (escaping : Bool)

namespace Pending

/-- The lexeme that is complete if nothing more belongs to it. -/
def lexemes : Pending → List Lexeme
  | .blank => []
  | .word cs => [.word (String.ofList cs)]
  | .sign cs => [.sign (String.ofList cs)]
  | .quoted .. => []

/-- A character outside of strings. -/
def plain (p : Pending) (c : Char) : List Lexeme × Pending :=
  if isWordChar c then
    match p with
    | .word cs => ([], .word (cs ++ [c]))
    -- a sign right before a digit belongs to the number
    | .sign ['-'] => ([], .word ['-', c])
    | p => (p.lexemes, .word [c])
  else if isSignChar c then
    match p with
    -- a negation only goes on as an inequality
    | .sign ['!'] => if c = '=' then ([], .sign ['!', '=']) else ([.sign "!"], .sign [c])
    | .sign cs => ([], .sign (cs ++ [c]))
    | p => (p.lexemes, .sign [c])
  else if c = '"' then (p.lexemes, .quoted [] false)
  else if c = ' ' || c = '\n' then (p.lexemes, .blank)
  else (p.lexemes ++ [.mark c], .blank)

/-- What the next character completes, and what it begins or continues. -/
def next (p : Pending) (c : Char) : List Lexeme × Pending :=
  match p with
  | .quoted cs true => ([], .quoted (cs ++ [c]) false)
  | .quoted cs false =>
    if c = '"' then ([.quoted cs], .blank) else ([], .quoted (cs ++ [c]) (c = '\\'))
  | p => p.plain c

end Pending

/-- The lexemes of a text after the beginning of one. -/
def lexFrom (p : Pending) : List Char → List Lexeme
  | [] => p.lexemes
  | c :: cs => (p.next c).1 ++ lexFrom (p.next c).2 cs

/-- The lexemes of a text. -/
abbrev lex (cs : List Char) : List Lexeme := lexFrom .blank cs

/-! ## Words end where something else begins -/

/-- The text goes on neither with a word nor with an equals sign. -/
def Ends (cs : List Char) : Prop := ∀ c ∈ cs.head?, isWordChar c = false ∧ c ≠ '='

theorem Ends.append {cs ds : List Char} (hcs : Ends cs) (hds : Ends ds) : Ends (cs ++ ds) := by
  cases cs with
  | nil => exact hds
  | cons c cs => exact hcs

theorem Ends.cons {c : Char} (hc : isWordChar c = false ∧ c ≠ '=') (cs : List Char) :
    Ends (c :: cs) := by
  intro d hd
  obtain rfl : c = d := by simpa using hd
  exact hc

theorem lexFrom_word {w : List Char} (hw : w.all isWordChar = true) (v rest : List Char) :
    lexFrom (.word v) (w ++ rest) = lexFrom (.word (v ++ w)) rest := by
  induction w generalizing v with
  | nil => rw [List.append_nil]; rfl
  | cons c w ih =>
    obtain ⟨hc, hw⟩ := Bool.and_eq_true_iff.1 hw
    have hnext : (Pending.word v).next c = ([], .word (v ++ [c])) := by
      simp [Pending.next, Pending.plain, hc]
    rw [List.cons_append, lexFrom, hnext]
    show lexFrom (.word (v ++ [c])) (w ++ rest) = _
    rw [ih hw, List.append_assoc]
    rfl

theorem lexFrom_ends {w rest : List Char} (h : Ends rest) :
    lexFrom (.word w) rest = .word (String.ofList w) :: lex rest := by
  cases rest with
  | nil => rfl
  | cons c rest =>
    have hc : isWordChar c = false := (h c rfl).1
    -- the character does to the rest what it does at the beginning of a text
    have hnext : (Pending.word w).next c =
        (.word (String.ofList w) :: (Pending.blank.next c).1, (Pending.blank.next c).2) := by
      simp only [Pending.next, Pending.plain, hc, Bool.false_eq_true, if_false]
      split_ifs <;> rfl
    rw [lex, lexFrom, lexFrom, hnext]
    rfl

/-! ## Texts and their lexemes -/

/-- The text is cut into the lexemes, whatever follows that does not go on with a word. It does not
begin with an equals sign, so that it may stand after a negation. -/
structure Lexes (cs : List Char) (ts : List Lexeme) : Prop where
  cut : ∀ rest, Ends rest → lex (cs ++ rest) = ts ++ lex rest
  first : ∀ c ∈ cs.head?, c ≠ '='

namespace Lexes

variable {cs ds : List Char} {ts us : List Lexeme}

theorem nil : Lexes [] [] := ⟨fun _ _ => rfl, nofun⟩

theorem append (h : Lexes cs ts) (h' : Lexes ds us) (hds : Ends ds) :
    Lexes (cs ++ ds) (ts ++ us) := by
  constructor
  · intro rest hrest
    rw [List.append_assoc, h.cut _ (hds.append hrest), h'.cut _ hrest, List.append_assoc]
  · cases cs with
    | nil => exact h'.first
    | cons c cs => exact h.first

theorem ne_of_isWordChar {c : Char} (hc : isWordChar c = true) : c ≠ '=' := by
  rintro rfl
  revert hc
  decide

theorem word {w : List Char} (hne : w ≠ []) (hw : w.all isWordChar = true) :
    Lexes w [.word (String.ofList w)] := by
  cases w with
  | nil => exact absurd rfl hne
  | cons c w =>
    obtain ⟨hc, hw⟩ := Bool.and_eq_true_iff.1 hw
    constructor
    · intro rest hrest
      have hnext : Pending.blank.next c = ([], .word [c]) := by
        simp [Pending.next, Pending.plain, Pending.lexemes, hc]
      rw [List.cons_append, lex, lexFrom, hnext]
      show lexFrom (.word [c]) (w ++ rest) = _
      rw [lexFrom_word hw, lexFrom_ends hrest]
      rfl
    · intro d hd
      obtain rfl : c = d := by simpa using hd
      exact ne_of_isWordChar hc

/-- A number with its sign. -/
theorem negative {w : List Char} (hne : w ≠ []) (hw : w.all isWordChar = true) :
    Lexes ('-' :: w) [.word (String.ofList ('-' :: w))] := by
  cases w with
  | nil => exact absurd rfl hne
  | cons c w =>
    obtain ⟨hc, hw⟩ := Bool.and_eq_true_iff.1 hw
    constructor
    · intro rest hrest
      have hsign : Pending.blank.next '-' = ([], .sign ['-']) := rfl
      have hnext : (Pending.sign ['-']).next c = ([], .word ['-', c]) := by
        simp [Pending.next, Pending.plain, hc]
      rw [List.cons_append, List.cons_append, lex, lexFrom, hsign, lexFrom, hnext]
      show lexFrom (.word ['-', c]) (w ++ rest) = _
      rw [lexFrom_word hw, lexFrom_ends hrest]
      rfl
    · intro d hd
      obtain rfl : '-' = d := by simpa using hd
      decide

theorem mark {c : Char} (hc : Pending.blank.next c = ([.mark c], .blank)) (h : Lexes ds us) :
    Lexes (c :: ds) (.mark c :: us) := by
  constructor
  · intro rest hrest
    rw [List.cons_append, lex, lexFrom, hc]
    show Lexeme.mark c :: lex (ds ++ rest) = _
    rw [h.cut rest hrest]
    rfl
  · intro d hd
    obtain rfl : c = d := by simpa using hd
    rintro rfl
    cases hc

theorem blank {c : Char} (hc : c = ' ' ∨ c = '\n') (h : Lexes ds us) : Lexes (c :: ds) us := by
  rcases hc with rfl | rfl
  · exact ⟨h.cut, by simp⟩
  · exact ⟨h.cut, by simp⟩

theorem indented (n : Nat) (h : Lexes ds us) : Lexes (List.replicate n ' ' ++ ds) us := by
  induction n with
  | zero => exact h
  | succ n ih => exact ih.blank (.inl rfl)

/-- A negation, which no equals sign follows. -/
theorem negation (h : Lexes ds us) : Lexes ('!' :: ds) (.sign "!" :: us) := by
  refine ⟨fun rest hrest => ?_, by simp⟩
  have hcut : lexFrom (.sign ['!']) (ds ++ rest) = .sign "!" :: lex (ds ++ rest) := by
    have hfirst : ∀ c ∈ (ds ++ rest).head?, c ≠ '=' := by
      cases ds with
      | nil => exact fun c hc => (hrest c hc).2
      | cons d ds => exact h.first
    cases hlist : ds ++ rest with
    | nil => rfl
    | cons c cs =>
      have hc : c ≠ '=' := hfirst c (by rw [hlist]; rfl)
      have hnext : (Pending.sign ['!']).next c =
          (.sign "!" :: (Pending.blank.next c).1, (Pending.blank.next c).2) := by
        simp only [Pending.next, Pending.plain]
        split_ifs <;> rfl
      rw [lex, lexFrom, lexFrom, hnext]
      rfl
  rw [List.cons_append, lex, lexFrom]
  show lexFrom (.sign ['!']) (ds ++ rest) = _
  rw [hcut, h.cut rest hrest]
  rfl

/-- An infix sign between blanks. -/
theorem operator {s : String} (hs : s ∈ "?" :: ":" :: "=" :: Term.operators) (h : Lexes ds us) :
    Lexes (' ' :: (s.toList ++ ' ' :: ds)) (.sign s :: us) := by
  refine ⟨fun rest hrest => ?_, by simp⟩
  rw [List.cons_append, List.append_assoc, List.cons_append]
  show lex (s.toList ++ ' ' :: (ds ++ rest)) = _
  have hsign : lex (s.toList ++ ' ' :: (ds ++ rest)) = .sign s :: lex (ds ++ rest) := by
    simp only [Term.operators, List.mem_cons, List.not_mem_nil, or_false] at hs
    rcases hs with rfl | rfl | rfl | rfl | rfl | rfl | rfl | rfl | rfl | rfl | rfl | rfl | rfl | rfl |
      rfl <;> rfl
  rw [hsign, h.cut rest hrest]
  rfl

end Lexes

/-! ## Strings -/

theorem lexFrom_unescaped {ds : List Char} (hds : ∀ d ∈ ds, d ≠ '"' ∧ d ≠ '\\')
    (v rest : List Char) :
    lexFrom (.quoted v false) (ds ++ rest) = lexFrom (.quoted (v ++ ds) false) rest := by
  induction ds generalizing v with
  | nil => rw [List.append_nil]; rfl
  | cons d ds ih =>
    obtain ⟨hquote, hslash⟩ := hds d (by simp)
    have hnext : (Pending.quoted v false).next d = ([], .quoted (v ++ [d]) false) := by
      simp [Pending.next, hquote, hslash]
    rw [List.cons_append, lexFrom, hnext]
    show lexFrom (.quoted (v ++ [d]) false) (ds ++ rest) = _
    rw [ih fun e he => hds e (by simp [he]), List.append_assoc]
    rfl

/-- A backslash takes the character after it along, whatever it is. -/
theorem lexFrom_escape (v : List Char) (e : Char) (rest : List Char) :
    lexFrom (.quoted v false) ('\\' :: e :: rest) = lexFrom (.quoted (v ++ ['\\', e]) false) rest := by
  show lexFrom (.quoted (v ++ ['\\'] ++ [e]) false) rest = _
  rw [List.append_assoc]
  rfl

theorem lexFrom_units (us : List Nat) (v rest : List Char) :
    lexFrom (.quoted v false) (us.flatMap Literal.unitEscape ++ rest) =
      lexFrom (.quoted (v ++ us.flatMap Literal.unitEscape) false) rest := by
  induction us generalizing v with
  | nil => rw [List.flatMap_nil, List.append_nil]; rfl
  | cons u us ih =>
    rw [List.flatMap_cons, List.append_assoc, Literal.unitEscape, List.cons_append, List.cons_append,
      lexFrom_escape, lexFrom_unescaped Text.hexDigits_ne, ih, List.append_assoc, List.append_assoc]
    rfl

theorem lexFrom_stringChar (c : Char) (v rest : List Char) :
    lexFrom (.quoted v false) (Literal.stringChar c ++ rest) =
      lexFrom (.quoted (v ++ Literal.stringChar c) false) rest := by
  obtain ⟨htext, hquote, hslash, -⟩ | ⟨e, htext, -, -⟩ | htext := Literal.stringChar_cases c
  · rw [htext]
    exact lexFrom_unescaped (by simp [hquote, hslash]) v rest
  · rw [htext]
    exact lexFrom_escape v e rest
  · rw [htext]
    exact lexFrom_units _ v rest

theorem lexFrom_string (cs v rest : List Char) :
    lexFrom (.quoted v false) (cs.flatMap Literal.stringChar ++ '"' :: rest) =
      .quoted (v ++ cs.flatMap Literal.stringChar) :: lex rest := by
  induction cs generalizing v with
  | nil => rw [List.flatMap_nil, List.append_nil]; rfl
  | cons c cs ih =>
    rw [List.flatMap_cons, List.append_assoc, lexFrom_stringChar, ih, List.append_assoc]

/-- A string literal is one lexeme. -/
theorem Lexes.string (s : String) :
    Lexes (Literal.string s).toList [.quoted (s.toList.flatMap Literal.stringChar)] := by
  rw [Literal.string, String.toList_ofList]
  refine ⟨fun rest _ => ?_, by simp⟩
  rw [List.cons_append, List.append_assoc]
  show lexFrom (.quoted [] false) (s.toList.flatMap Literal.stringChar ++ '"' :: rest) = _
  rw [lexFrom_string]
  rfl

/-! ## Names and numbers -/

theorem isWordChar_of_isPlainName {s : String} (h : isPlainName s = true) :
    s.toList ≠ [] ∧ s.toList.all isWordChar = true := by
  unfold isPlainName at h
  dsimp only at h
  split at h
  · cases h
  · rename_i c cs hlist
    obtain ⟨hc, hcs⟩ := Bool.and_eq_true_iff.1 h
    have hletter : ∀ d : Char, (d = '_' || d = '$' || ('a' ≤ d && d ≤ 'z') || ('A' ≤ d && d ≤ 'Z')) →
        isWordChar d = true := by
      intro d hd
      rw [isWordChar, hd]
      rfl
    refine ⟨by rw [hlist]; simp, ?_⟩
    rw [hlist, List.all_cons, hletter c hc, Bool.true_and]
    exact hcs

theorem Lexes.name {s : String} (h : isCodeName s = true) : Lexes s.toList [.word s] := by
  obtain ⟨hne, hall⟩ := isWordChar_of_isPlainName (Bool.and_eq_true_iff.1 h).1
  have hword := Lexes.word hne hall
  rwa [String.ofList_toList] at hword

theorem isWordChar_of_isDigit {c : Char} (h : Number.isDigit c = true) : isWordChar c = true := by
  simp only [Number.isDigit] at h
  simp [isWordChar, h]

theorem Lexes.number {type : String} (htype : type = "int" ∨ type = "long") {k : IntKind} {n : Int}
    (h : Number.fits64 n = true) :
    Lexes (Literal.text type (.scalar (.int k n))).toList
      [.word (Literal.text type (.scalar (.int k n)))] := by
  have hdigits : (Nat.toDigits 10 n.natAbs).all isWordChar = true :=
    List.all_eq_true.2 fun c hc => isWordChar_of_isDigit (Number.isDigit_of_mem_toDigits c hc)
  have hmark : (if type = "long" then "L" else "").toList.all isWordChar = true := by
    split <;> decide
  have hne : Nat.toDigits 10 n.natAbs ≠ [] := Nat.toDigits_ne_nil
  -- digits and mark are one word, and the sign of a negative number joins it
  have hword : (Nat.toDigits 10 n.natAbs ++ (if type = "long" then "L" else "").toList).all
      isWordChar = true := by rw [List.all_append, hdigits, hmark]; rfl
  have hword_ne : Nat.toDigits 10 n.natAbs ++ (if type = "long" then "L" else "").toList ≠ [] := by
    simp [hne]
  rw [Literal.text_int htype h]
  generalize htext : Number.decimal n ++ (if type = "long" then "L" else "") = t
  have hlist : t.toList = (if n < 0 then ['-'] else []) ++
      (Nat.toDigits 10 n.natAbs ++ (if type = "long" then "L" else "").toList) := by
    rw [← htext, String.toList_append, Number.toList_decimal, List.append_assoc]
  rw [show Lexeme.word t = .word (String.ofList t.toList) by rw [String.ofList_toList], hlist]
  by_cases hneg : n < 0
  · rw [if_pos hneg]
    exact .negative hword_ne hword
  · rw [if_neg hneg]
    exact .word hword_ne hword

/-! ## Code as lexemes -/

/-- An operand in parentheses if need be. -/
def enclosed (compound : Bool) (ts : List Lexeme) : List Lexeme :=
  if compound then .mark '(' :: (ts ++ [.mark ')']) else ts

/-- A list with commas between its items. -/
def listed (tss : List (List Lexeme)) : List Lexeme := List.intercalate [.mark ','] tss

/-- The name of a function, which may be a method of a class. -/
def calleeLexemes (f : String) : List Lexeme :=
  match ExistingFunction.ofCall? f "" with
  | some g => [.word g.className, .mark '.', .word g.method]
  | none => [.word f]

/-- A literal: a string between its quotes, or a word. -/
def literalLexemes (type : String) : Datum → List Lexeme
  | .scalar (.text bs) => [.quoted (bs.lossy.toList.flatMap Literal.stringChar)]
  | value => [.word (Literal.text type value)]

end FactFold.Code

namespace FactFold

open Code

namespace Term

mutual

/-- The lexemes of an expression. -/
def lexemes : Term → List Lexeme
  | .ident name => [.word name]
  | .lit type value => literalLexemes type value
  | .null => [.word "null"]
  | .binary op x y => enclosed x.isCompound x.lexemes ++ .sign op :: enclosed y.isCompound y.lexemes
  | .unary op x => .sign op :: enclosed (x.isCompound || x.isNegativeLiteral) x.lexemes
  | .call method args =>
    calleeLexemes method ++ .mark '(' :: (listed (lexemesEach args) ++ [.mark ')'])
  | .invoke receiver method args =>
    enclosed receiver.isCompound receiver.lexemes ++
      .mark '.' :: .word method :: .mark '(' :: (listed (lexemesEach args) ++ [.mark ')'])
  | .new type args =>
    .word "new" :: .word type :: .mark '(' :: (listed (lexemesEach args) ++ [.mark ')'])
  | .newArray element items =>
    .word "new" :: .word element :: .mark '[' :: .mark ']' :: .mark '\x7b' ::
      (listed (lexemesEach items) ++ [.mark '\x7d'])
  | .cast type x => .mark '(' :: .word type :: .mark ')' :: enclosed x.isCompound x.lexemes
  | .cond c yes no =>
    enclosed c.isCompound c.lexemes ++ .sign "?" ::
      (enclosed yes.isCompound yes.lexemes ++ .sign ":" :: enclosed no.isCompound no.lexemes)
  | .hole => []

/-- The lexemes of each expression. -/
def lexemesEach : List Term → List (List Lexeme)
  | [] => []
  | x :: rest => x.lexemes :: lexemesEach rest

end

end Term

namespace Stmt

mutual

/-- The lexemes of a statement. -/
def lexemes : Stmt → List Lexeme
  | .decl type name value => .word type :: .word name :: .sign "=" :: (value.lexemes ++ [.mark ';'])
  | .run x => x.lexemes ++ [.mark ';']
  | .cond c yes no =>
    .word "if" :: .mark '(' :: (c.lexemes ++ .mark ')' :: .mark '\x7b' ::
      (lexemesAll yes ++ .mark '\x7d' :: (if no.isEmpty then []
        else .word "else" :: .mark '\x7b' :: (lexemesAll no ++ [.mark '\x7d']))))
  | .ret value => .word "return" :: (value.lexemes ++ [.mark ';'])
  | .raw _ | .hole => []

/-- The lexemes of statements. -/
def lexemesAll : List Stmt → List Lexeme
  | [] => []
  | s :: rest => s.lexemes ++ lexemesAll rest

end

end Stmt

/-! ## Expressions are cut into their lexemes -/

namespace Code

theorem Lexes.enclosed {s : String} {ts : List Lexeme} (h : Lexes s.toList ts) (compound : Bool) :
    Lexes (Term.enclose compound s).toList (enclosed compound ts) := by
  cases compound with
  | false => exact h
  | true =>
    have hclose : Lexes [')'] [.mark ')'] := .mark rfl .nil
    have hinner : Lexes (s.toList ++ [')']) (ts ++ [.mark ')']) := h.append hclose (.cons (by decide) _)
    simp only [Term.enclose, if_true, String.toList_append]
    exact .mark rfl hinner

/-- What stands between brackets goes with them. -/
theorem Lexes.bracketed {cs : List Char} {ts : List Lexeme} (h : Lexes cs ts) {l r : Char}
    (hl : Pending.blank.next l = ([.mark l], .blank)) (hr : Pending.blank.next r = ([.mark r], .blank))
    (hends : isWordChar r = false ∧ r ≠ '=') :
    Lexes (l :: (cs ++ [r])) (.mark l :: (ts ++ [.mark r])) :=
  .mark hl (h.append (.mark hr .nil) (.cons hends _))

theorem Lexes.callee {f : String} (h : isCallee f = true) : Lexes f.toList (calleeLexemes f) := by
  unfold isCallee at h
  unfold calleeLexemes
  cases hg : ExistingFunction.ofCall? f "" with
  | some g =>
    simp only [hg, Bool.and_eq_true] at h
    obtain ⟨hclass, hmethod⟩ := h
    rw [ExistingFunction.eq_call hg, String.toList_append, String.toList_append, List.append_assoc]
    exact (Lexes.name hclass).append (.mark (c := '.') rfl (.name hmethod)) (.cons (by decide) _)
  | none =>
    simp only [hg] at h
    exact .name h

/-- A reserved word with a blank after it. -/
theorem Lexes.reserved {s : String} (hne : s.toList ≠ []) (hs : s.toList.all isWordChar = true)
    {ds : List Char} {us : List Lexeme} (h : Lexes ds us) :
    Lexes (s.toList ++ ' ' :: ds) (.word s :: us) := by
  have hword := Lexes.word hne hs
  rw [String.ofList_toList] at hword
  exact hword.append (.blank (.inl rfl) h) (.cons (by decide) _)

theorem Lexes.literal {type : String} {value : Datum} (h : Literal.isSpelled type value = true) :
    Lexes (Literal.text type value).toList (literalLexemes type value) := by
  obtain ⟨k, n, rfl, htype, hn⟩ | ⟨b, rfl, rfl⟩ | ⟨s, rfl, rfl⟩ := Literal.isSpelled_cases h
  · exact .number htype hn
  · rw [literalLexemes, Literal.text_bool]
    · cases b with
      | false => exact .word (w := "false".toList) (by decide) (by decide)
      | true => exact .word (w := "true".toList) (by decide) (by decide)
    · nofun
  · rw [literalLexemes, Literal.text_text, Text.Bytes.lossy_ofText]
    exact .string s

/-- Texts that are lexed one by one are lexed as a list. -/
theorem Lexes.listed {ss : List String} {tss : List (List Lexeme)}
    (h : List.Forall₂ (fun s ts => Lexes s.toList ts) ss tss) :
    Lexes (String.intercalate ", " ss).toList (listed tss) := by
  rw [String.toList_intercalate, Code.listed]
  induction h with
  | nil => exact .nil
  | @cons s ts ss tss hfirst hrest ih =>
    cases hrest with
    | nil => simpa using hfirst
    | cons hsecond hrest =>
      rw [List.map_cons, List.map_cons, List.intercalate_cons_cons, List.intercalate_cons_cons,
        List.append_assoc, List.append_assoc]
      exact hfirst.append (.mark (c := ',') rfl (.blank (.inl rfl) ih)) (.cons (by decide) _)

end Code

namespace Term

mutual

/-- **The text of an expression is cut into its lexemes.** -/
theorem lexes_text : ∀ {x : Term}, x.isSpelled = true → Lexes x.text.toList x.lexemes
  | .ident _, h => by
    rw [isSpelled] at h
    rw [text, lexemes]
    exact .name h
  | .lit .., h => by
    rw [isSpelled] at h
    rw [text, lexemes]
    exact .literal h
  | .null, _ => by
    rw [text, lexemes]
    exact .word (w := "null".toList) (by decide) (by decide)
  | .binary op x y, h => by
    simp only [isSpelled, Bool.and_eq_true, List.contains_iff_mem] at h
    have hx := (lexes_text h.1.2).enclosed x.isCompound
    have hy := (lexes_text h.2).enclosed y.isCompound
    simp only [text, lexemes, String.toList_append, List.append_assoc]
    exact hx.append (.operator (by simp [h.1.1]) hy) (.cons (by decide) _)
  | .unary op x, h => by
    simp only [isSpelled, Bool.and_eq_true, decide_eq_true_eq] at h
    obtain ⟨rfl, h⟩ := h
    have hx := (lexes_text h).enclosed (x.isCompound || x.isNegativeLiteral)
    simp only [text, lexemes, String.toList_append]
    exact .negation hx
  | .call .., h => by
    simp only [isSpelled, Bool.and_eq_true] at h
    have hargs := (Lexes.listed (lexes_texts h.2)).bracketed (l := '(') (r := ')') rfl rfl (by decide)
    simp only [text, lexemes, String.toList_append, List.append_assoc]
    exact (Lexes.callee h.1).append hargs (.cons (by decide) _)
  | .invoke receiver method args, h => by
    simp only [isSpelled, Bool.and_eq_true] at h
    have hreceiver := (lexes_text h.1.1).enclosed receiver.isCompound
    have hargs := (Lexes.listed (lexes_texts h.2)).bracketed (l := '(') (r := ')') rfl rfl (by decide)
    have hmethod := (Lexes.name h.1.2).append hargs (.cons (by decide) _)
    simp only [text, lexemes, String.toList_append, List.append_assoc]
    exact hreceiver.append (.mark rfl hmethod) (.cons (by decide) _)
  | .new .., h => by
    simp only [isSpelled, Bool.and_eq_true] at h
    have hargs := (Lexes.listed (lexes_texts h.2)).bracketed (l := '(') (r := ')') rfl rfl (by decide)
    have htype := (Lexes.name h.1).append hargs (.cons (by decide) _)
    simp only [text, lexemes, String.toList_append, List.append_assoc]
    exact htype.reserved (s := "new") (by decide) (by decide)
  | .newArray .., h => by
    simp only [isSpelled, Bool.and_eq_true] at h
    have hitems := (Lexes.listed (lexes_texts h.2)).bracketed (l := '\x7b') (r := '\x7d') rfl rfl
      (by decide)
    have htype := (Lexes.name h.1).append
      (.mark (c := '[') rfl (.mark (c := ']') rfl (.blank (.inl rfl) hitems)))
      (.cons (by decide) _)
    simp only [text, lexemes, String.toList_append, List.append_assoc]
    exact htype.reserved (s := "new") (by decide) (by decide)
  | .cast type x, h => by
    simp only [isSpelled, Bool.and_eq_true] at h
    have hx := (lexes_text h.2).enclosed x.isCompound
    have htype := (Lexes.name h.1).append (.mark (c := ')') rfl (.blank (.inl rfl) hx))
      (.cons (by decide) _)
    simp only [text, lexemes, String.toList_append, List.append_assoc]
    exact .mark rfl htype
  | .cond c yes no, h => by
    simp only [isSpelled, Bool.and_eq_true] at h
    have hc := (lexes_text h.1.1).enclosed c.isCompound
    have hyes := (lexes_text h.1.2).enclosed yes.isCompound
    have hno := (lexes_text h.2).enclosed no.isCompound
    have hbranches := hyes.append (.operator (s := ":") (by simp) hno) (.cons (by decide) _)
    simp only [text, lexemes, String.toList_append, List.append_assoc]
    exact hc.append (.operator (s := "?") (by simp) hbranches) (.cons (by decide) _)

theorem lexes_texts : ∀ {xs : List Term}, isSpelledAll xs = true →
    List.Forall₂ (fun s ts => Lexes s.toList ts) (texts xs) (lexemesEach xs)
  | [], _ => by
    rw [texts, lexemesEach]
    exact .nil
  | _ :: _, h => by
    simp only [isSpelledAll, Bool.and_eq_true] at h
    rw [texts, lexemesEach]
    exact .cons (lexes_text h.1) (lexes_texts h.2)

end

end Term

/-! ## Statements are cut into their lexemes -/

namespace Code

/-- A line is cut into its lexemes whatever follows it, however far it is indented. -/
theorem Lexes.line {cs : List Char} {ts : List Lexeme} (h : Lexes cs ts) (depth : Nat)
    (rest : List Char) :
    lex ((Stmt.indent depth).toList ++ (cs ++ '\n' :: rest)) = ts ++ lex rest := by
  have hindented := (h.indented (4 * depth)).cut ('\n' :: rest) (.cons (by decide) _)
  rw [List.append_assoc] at hindented
  rw [Stmt.indent, String.toList_ofList, hindented]
  rfl

/-- What ends with a semicolon. -/
theorem Lexes.ended {cs : List Char} {ts : List Lexeme} (h : Lexes cs ts) :
    Lexes (cs ++ [';']) (ts ++ [.mark ';']) :=
  h.append (.mark rfl .nil) (.cons (by decide) _)

end Code

namespace Stmt

mutual

theorem lex_text : ∀ {s : Stmt}, s.isSpelled = true → ∀ (depth : Nat) (rest : List Char),
    lex ((s.text depth).toList ++ rest) = s.lexemes ++ lex rest
  | .decl type name value, h, depth, rest => by
    simp only [isSpelled, Bool.and_eq_true] at h
    have hvalue : Lexes (' ' :: ('=' :: ' ' :: (value.text.toList ++ [';']))) _ :=
      .operator (s := "=") (by simp) (Term.lexes_text h.2).ended
    have hname := (Lexes.name h.1.2).append hvalue (.cons (by decide) _)
    have hline := (Lexes.name h.1.1).append (.blank (.inl rfl) hname) (.cons (by decide) _)
    have hcut := hline.line depth rest
    rw [lexemes, text]
    simpa using hcut
  | .run x, h, depth, rest => by
    rw [isSpelled] at h
    have hcut := (Term.lexes_text h).ended.line depth rest
    rw [lexemes, text]
    simpa using hcut
  | .ret value, h, depth, rest => by
    rw [isSpelled] at h
    have hvalue := (Term.lexes_text h).ended.reserved (s := "return") (by decide) (by decide)
    have hcut := hvalue.line depth rest
    rw [lexemes, text]
    simpa using hcut
  | .cond c yes no, h, depth, rest => by
    simp only [isSpelled, Bool.and_eq_true] at h
    -- the line of the condition, the line between the branches and the last one
    have hopen : Lexes [')', ' ', '\x7b'] [.mark ')', .mark '\x7b'] :=
      .mark rfl (.blank (.inl rfl) (.mark rfl .nil))
    have hbody := (Term.lexes_text h.1.1).append hopen (.cons (by decide) _)
    have hif := (Lexes.mark (c := '(') rfl hbody).reserved (s := "if") (by decide) (by decide)
    have helse : Lexes "\x7d else \x7b".toList [.mark '\x7d', .word "else", .mark '\x7b'] :=
      .mark rfl (.blank (.inl rfl) (Lexes.reserved (s := "else") (by decide) (by decide)
        (.mark rfl .nil)))
    have hclose : Lexes ['\x7d'] [.mark '\x7d'] := .mark rfl .nil
    rw [lexemes, text]
    cases hno : no.isEmpty with
    | true =>
      have hlast := hclose.line depth rest
      have hcut := hif.line depth ((textAll (depth + 1) yes).toList ++
        ((indent depth).toList ++ (['\x7d'] ++ '\n' :: rest)))
      rw [lex_textAll h.1.2, hlast] at hcut
      simpa using hcut
    | false =>
      have hlast := hclose.line depth rest
      have hmiddle := helse.line depth ((textAll (depth + 1) no).toList ++
        ((indent depth).toList ++ (['\x7d'] ++ '\n' :: rest)))
      have hcut := hif.line depth ((textAll (depth + 1) yes).toList ++
        ((indent depth).toList ++ ("\x7d else \x7b".toList ++ '\n' :: ((textAll (depth + 1) no).toList ++
          ((indent depth).toList ++ (['\x7d'] ++ '\n' :: rest))))))
      rw [lex_textAll h.1.2, hmiddle, lex_textAll h.2, hlast] at hcut
      simpa using hcut

/-- **The text of statements is cut into their lexemes, at every depth.** -/
theorem lex_textAll : ∀ {ss : List Stmt}, isSpelledAll ss = true →
    ∀ (depth : Nat) (rest : List Char),
    lex ((textAll depth ss).toList ++ rest) = lexemesAll ss ++ lex rest
  | [], _, _, _ => by rw [textAll, lexemesAll]; rfl
  | s :: ss, h, depth, rest => by
    simp only [isSpelledAll, Bool.and_eq_true] at h
    rw [textAll, lexemesAll, String.toList_append, List.append_assoc, lex_text h.1, lex_textAll h.2,
      List.append_assoc]

end

end Stmt

end FactFold
