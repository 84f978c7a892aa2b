import FactFold.Expr.Parser

/-!
# The grammar of expressions

The grammar by itself, without a parser. Its derivations are the trees of `Phrase`:

* a comparison is a sum, or two sums with a comparison sign between them;
* a sum is a product, or a sum, `+` or `-`, and a product;
* a product is a unary phrase, or a product, `*` or `/`, and a unary phrase;
* a unary phrase is a primary, or `-` and a unary phrase;
* a primary is a comparison in parentheses, a number, a quoted string, a column, `CASE WHEN` with
  `THEN`, perhaps `ELSE`, and `END`, or a word and a list of comparisons in parentheses.

Sums and products are the two levels of one rule, `Category.chain`, which puts the longer part on the
left. A phrase has its tokens (`Phrase.tokens`) and, where it makes sense, the expression it stands
for (`Phrase.node?`).

The rest of the module is what the first token of a phrase and the token after it tell: which classes
of tokens exclude one another, with which tokens a phrase could go on (`Stops`), and with which it can
start.
-/

namespace FactFold

namespace Token

/-- The token starts the way a name does. -/
def isName (t : String) : Bool := t.toList.head?.any startsName

/-- A name that can be called: the words of the two conditions are none. -/
def isCallee (t : String) : Bool := isName t && !sameWord t "CASE" && !sameWord t "IF"

/-- The column of a token: a name between backticks, or a name that is no word of a case
expression. -/
def column? (t : String) : Option Column :=
  match between? backtick t with
  | some name => some ⟨String.ofList name, ""⟩
  | none => if isIdentifier t && !isKeyword t then some (columnOf t) else none

end Token

/-- Only names are resolved. -/
def Lookup.NamesOnly (lookup : Lookup) : Prop :=
  ∀ t f, lookup t = some f → Token.isName t = true

/-- The node of a comparison. -/
def Node.isComparison : Node → Bool
  | .comparison .. => true
  | _ => false

namespace Grammar

/-! ## Phrases -/

/-- The levels at which operands are joined from the left. -/
inductive Level where
  | sum
  | product
  deriving DecidableEq

/-- What the phrases of a grammar are called. -/
inductive Category where
  | comparison
  | chain (level : Level)
  | unary
  | primary
  deriving DecidableEq

/-- The signs of a level. -/
def Level.signs : Level → List (String × Arithmetic)
  | .sum => [("+", .add), ("-", .sub)]
  | .product => [("*", .mul), ("/", .div)]

/-- What a level joins. -/
def Level.operand : Level → Category
  | .sum => .chain .product
  | .product => .unary

/-- A spelling of a word. -/
abbrev Word (word : String) := {t : String // Token.sameWord t word = true}

/-- The derivations of the grammar. -/
inductive Phrase : Category → Type where
  | lone (a : Phrase (.chain .sum)) : Phrase .comparison
  | compared (a : Phrase (.chain .sum)) (t : String) (op : Comparison)
      (h : Token.comparison? t = some op) (b : Phrase (.chain .sum)) : Phrase .comparison
  | first {l : Level} (a : Phrase l.operand) : Phrase (.chain l)
  | joined {l : Level} (a : Phrase (.chain l)) (t : String) (op : Arithmetic)
      (h : (t, op) ∈ l.signs) (b : Phrase l.operand) : Phrase (.chain l)
  | bare (a : Phrase .primary) : Phrase .unary
  | negated (a : Phrase .unary) : Phrase .unary
  | enclosed (a : Phrase .comparison) : Phrase .primary
  | number (t : String) (c : Constant) (h : Token.isNumber t = true)
      (hc : Token.numberOf t = .ok c) : Phrase .primary
  | string (t : String) (c : Constant) (h : Token.string? t = some (.ok c)) : Phrase .primary
  | column (t : String) (c : Column) (h : Token.column? t = some c) : Phrase .primary
  | guarded (caseWord : Word "CASE") (whenWord : Word "WHEN") (condition : Phrase .comparison)
      (thenWord : Word "THEN") (yes : Phrase (.chain .sum)) (endWord : Word "END") : Phrase .primary
  | choice (caseWord : Word "CASE") (whenWord : Word "WHEN") (condition : Phrase .comparison)
      (thenWord : Word "THEN") (yes : Phrase (.chain .sum)) (elseWord : Word "ELSE")
      (no : Phrase (.chain .sum)) (endWord : Word "END") : Phrase .primary
  | condition (word : Word "IF") (args : List (Phrase .comparison)) : Phrase .primary
  | call (t : String) (h : Token.isCallee t = true) (args : List (Phrase .comparison)) :
      Phrase .primary

namespace Phrase

mutual

/-- The tokens of a phrase. -/
def tokens : {c : Category} → Phrase c → List String
  | _, .lone a => a.tokens
  | _, .compared a t _ _ b => a.tokens ++ t :: b.tokens
  | _, .first a => a.tokens
  | _, .joined a t _ _ b => a.tokens ++ t :: b.tokens
  | _, .bare a => a.tokens
  | _, .negated a => "-" :: a.tokens
  | _, .enclosed a => "(" :: (a.tokens ++ [")"])
  | _, .number t .. => [t]
  | _, .string t .. => [t]
  | _, .column t .. => [t]
  | _, .guarded k w c h yes e =>
    k.1 :: w.1 :: (c.tokens ++ h.1 :: (yes.tokens ++ [e.1]))
  | _, .choice k w c h yes o no e =>
    k.1 :: w.1 :: (c.tokens ++ h.1 :: (yes.tokens ++ o.1 :: (no.tokens ++ [e.1])))
  | _, .condition w args => w.1 :: "(" :: listed args
  | _, .call t _ args => t :: "(" :: listed args

/-- The tokens of arguments between commas, with the closing parenthesis. -/
def listed : List (Phrase .comparison) → List String
  | [] => [")"]
  | a :: args => a.tokens ++ remaining args

/-- The tokens that follow an argument. -/
def remaining : List (Phrase .comparison) → List String
  | [] => [")"]
  | a :: args => "," :: (a.tokens ++ remaining args)

end

mutual

/-- The expression a phrase stands for. A condition has to be a comparison, and arguments of a call
must not be. -/
def node? (lookup : Lookup) : {c : Category} → Phrase c → Option Node
  | _, .lone a => a.node? lookup
  | _, .compared a _ op _ b => do return .comparison op (← a.node? lookup) (← b.node? lookup)
  | _, .first a => a.node? lookup
  | _, .joined a _ op _ b => do return .arithmetic op (← a.node? lookup) (← b.node? lookup)
  | _, .bare a => a.node? lookup
  | _, .negated a => do return .arithmetic .sub (.constant (.int 0)) (← a.node? lookup)
  | _, .enclosed a => a.node? lookup
  | _, .number _ c .. => some (.constant c)
  | _, .string _ c _ => some (.constant c)
  | _, .column _ c _ => some (.column c)
  | _, .guarded _ _ c _ yes _ =>
    match c.node? lookup with
    | some (.comparison op l r) => do return .guarded op l r (← yes.node? lookup)
    | _ => none
  | _, .choice _ _ c _ yes _ no _ =>
    match c.node? lookup with
    | some (.comparison op l r) => do
      return .choice op l r (← yes.node? lookup) (← no.node? lookup)
    | _ => none
  | _, .condition _ args =>
    match nodes? lookup args with
    | some [.comparison op l r, yes] => some (.guarded op l r yes)
    | some [.comparison op l r, yes, no] => some (.choice op l r yes no)
    | _ => none
  | _, .call t _ args => do
    let f ← lookup t
    let ns ← nodes? lookup args
    if ns.any Node.isComparison then none else return .call f ns

/-- The expressions of arguments. -/
def nodes? (lookup : Lookup) : List (Phrase .comparison) → Option (List Node)
  | [] => some []
  | a :: args => do return (← a.node? lookup) :: (← nodes? lookup args)

end

end Phrase

end Grammar

/-! ## First characters

The classes of tokens that a primary can start with are told apart by their first character. -/

namespace Token

/-- The token starts like a name, or with a backtick. -/
def isNaming (t : String) : Bool := t.toList.head?.any fun c => startsName c || c = backtick

theorem isNaming_of_isName {t : String} (h : isName t = true) : isNaming t = true := by
  unfold isName at h
  unfold isNaming
  cases hc : t.toList.head? with
  | none => simp [hc] at h
  | some c => simp_all

theorem isLetter_of_asciiLower {c : Char} (h : isLetter (Number.asciiLower c) = true) :
    isLetter c = true := by
  unfold Number.asciiLower at h
  split at h
  case isTrue hc => simp_all [isLetter]
  case isFalse => exact h

/-- Another spelling of a word that starts with a letter is a name. -/
theorem isName_of_sameWord {t word : String} (h : sameWord t word = true)
    (hword : (word.toList.map Number.asciiLower).head?.any isLetter = true) : isName t = true := by
  have hmap : t.toList.map Number.asciiLower = word.toList.map Number.asciiLower := by
    simpa [sameWord] using h
  rw [← hmap] at hword
  unfold isName
  cases ht : t.toList with
  | nil => simp [ht] at hword
  | cons c rest =>
    have hc : isLetter c = true := isLetter_of_asciiLower (by simpa [ht] using hword)
    simp [startsName, hc]

/-- What two tokens can both spell is the same word. -/
theorem sameWord_trans {t v w : String} (hv : sameWord t v = true) (hw : sameWord t w = true) :
    sameWord v w = true := by
  simp only [sameWord, decide_eq_true_eq] at *
  exact hv.symm.trans hw

theorem isName_of_isKeyword {t : String} (h : isKeyword t = true) : isName t = true := by
  obtain ⟨word, hmem, hword⟩ := List.any_eq_true.1 h
  have hletter : ∀ w ∈ keywords, (w.toList.map Number.asciiLower).head?.any isLetter = true := by
    decide
  exact isName_of_sameWord hword (hletter word hmem)

/-- What a quoted or named token starts with. -/
theorem head_of_between? {mark : Char} {t : String} {cs : List Char}
    (h : between? mark t = some cs) : t.toList.head? = some mark := by
  unfold between? at h
  cases ht : t.toList with
  | nil => simp [ht] at h
  | cons c rest => simp_all

theorem isNaming_of_isIdentifier {t : String} (h : isIdentifier t = true) : isNaming t = true := by
  unfold isIdentifier at h
  unfold isNaming
  cases ht : t.toList with
  | nil => simp [ht] at h
  | cons c rest =>
    rw [ht, List.splitOnP_cons_eq_if_modifyHead] at h
    split at h
    case isTrue => simp at h
    case isFalse =>
      cases hparts : List.splitOnP (· = '.') rest with
      | nil => exact absurd hparts (List.splitOnP_ne_nil _ _)
      | cons part parts =>
        simp only [hparts, List.modifyHead_cons, List.all_cons, Bool.and_eq_true] at h
        simp_all [startsName]

theorem isNaming_of_column? {t : String} {c : Column} (h : column? t = some c) :
    isNaming t = true := by
  unfold column? at h
  split at h
  case h_1 name hname => simp [isNaming, head_of_between? hname]
  case h_2 =>
    split at h
    case isTrue hid => exact isNaming_of_isIdentifier (by simp_all)
    case isFalse => cases h

theorem isKeyword_of_column? {t : String} {c : Column} (h : column? t = some c) :
    isKeyword t = false := by
  rw [Bool.eq_false_iff]
  intro hkeyword
  unfold column? at h
  split at h
  case h_1 name hname =>
    have hname' := isName_of_isKeyword hkeyword
    rw [isName, head_of_between? hname] at hname'
    exact absurd hname' (by decide)
  case h_2 => simp [hkeyword] at h

/-- No digit starts a name. -/
theorem isDigit_of_startsName {c : Char} (h : startsName c = true) : Number.isDigit c = false := by
  rw [Bool.eq_false_iff]
  intro hdigit
  obtain ⟨hzero, hnine⟩ : '0' ≤ c ∧ c ≤ '9' := by simpa [Number.isDigit] using hdigit
  simp only [startsName, isLetter, Bool.or_eq_true, Bool.and_eq_true, decide_eq_true_eq] at h
  rcases h with ((⟨ha, -⟩ | ⟨ha, -⟩) | rfl) | rfl
  · exact absurd (Char.le_trans ha hnine) (by decide)
  · exact absurd (Char.le_trans ha hnine) (by decide)
  · exact absurd hnine (by decide)
  · exact absurd hzero (by decide)

theorem isNumber_of_isNaming {t : String} (h : isNaming t = true) : isNumber t = false := by
  unfold isNumber
  split
  case h_1 rest ht =>
    rw [isNaming, ht] at h
    exact absurd h (by simp only [List.head?_cons, Option.any_some]; decide)
  case h_2 =>
    cases ht : t.toList with
    | nil => rfl
    | cons c rest =>
      have hc : startsName c = true ∨ c = backtick := by simpa [isNaming, ht] using h
      have hdigit : Number.isDigit c = false := by
        rcases hc with hc | rfl
        · exact isDigit_of_startsName hc
        · decide
      have hpoint : c ≠ '.' := by
        rintro rfl
        revert hc
        decide
      simp [isNumberFrom, hdigit, hpoint]

theorem string?_of_isNaming {t : String} (h : isNaming t = true) : string? t = none := by
  have hmark {mark : Char} (hm : (startsName mark || mark = backtick) = false) :
      between? mark t = none := by
    cases hcs : between? mark t with
    | none => rfl
    | some cs =>
      rw [isNaming, head_of_between? hcs, Option.any_some, hm] at h
      cases h
  rw [string?, hmark (by decide), hmark (by decide)]
  rfl

/-- A quoted token is no number. -/
theorem isNumber_of_string? {t : String} {s : Except ParseError Constant}
    (h : string? t = some s) : isNumber t = false := by
  have hhead : t.toList.head? = some apostrophe ∨ t.toList.head? = some '"' := by
    unfold string? at h
    split at h
    case h_1 body hbody => exact .inl (head_of_between? hbody)
    case h_2 =>
      obtain ⟨body, hbody, -⟩ := Option.map_eq_some_iff.1 h
      exact .inr (head_of_between? hbody)
  unfold isNumber
  cases ht : t.toList with
  | nil => simp [ht] at hhead
  | cons c rest =>
    rw [ht] at hhead
    simp only [List.head?_cons, Option.some.injEq] at hhead
    rcases hhead with rfl | rfl <;> rfl

end Token

namespace Grammar

/-! ## Where a phrase ends

A phrase is followed by a token that it could not go on with. A parenthesis counts among these for
every category, since after a name it starts a list of arguments. -/

/-- The tokens a phrase could go on with. -/
def Category.continuations : Category → List String
  | .primary | .unary => ["("]
  | .chain .product => ["(", "*", "/"]
  | .chain .sum => ["(", "*", "/", "+", "-"]
  | .comparison => ["(", "*", "/", "+", "-", "=", "==", "!=", "<>", "<", "<=", ">", ">="]

/-- A phrase before this text is over. -/
def Stops (c : Category) (ts : List String) : Prop := ∀ t ∈ ts.head?, t ∉ c.continuations

theorem Stops.nil (c : Category) : Stops c [] := by simp [Stops]

theorem stops_cons {c : Category} {t : String} {ts : List String} :
    Stops c (t :: ts) ↔ t ∉ c.continuations := by
  simp [Stops]

theorem Stops.weaken {c c' : Category} {ts : List String} (h : Stops c ts)
    (hsub : ∀ t ∈ c'.continuations, t ∈ c.continuations) : Stops c' ts :=
  fun t ht hc => h t ht (hsub t hc)

theorem Stops.sum {ts : List String} (h : Stops .comparison ts) : Stops (.chain .sum) ts :=
  h.weaken (by decide)

theorem Stops.operand {l : Level} {ts : List String} (h : Stops (.chain l) ts) :
    Stops l.operand ts := by
  cases l
  · exact h.weaken (by decide)
  · exact h.weaken (by decide)

/-- A sign ends the operand before it. -/
theorem Stops.sign {l : Level} {t : String} {op : Arithmetic} (h : (t, op) ∈ l.signs)
    (ts : List String) : Stops l.operand (t :: ts) := by
  have hall : ∀ p ∈ l.signs, p.1 ∉ l.operand.continuations := by cases l <;> decide
  exact stops_cons.2 (hall _ h)

/-- A sign goes on with the chain before it. -/
theorem not_stops_sign {l : Level} {t : String} {op : Arithmetic} (h : (t, op) ∈ l.signs)
    (ts : List String) : ¬Stops (.chain l) (t :: ts) := by
  have hall : ∀ p ∈ l.signs, p.1 ∈ (Category.chain l).continuations := by cases l <;> decide
  exact fun hs => stops_cons.1 hs (hall _ h)

/-- So no sign follows where a chain is over. -/
theorem Stops.not_sign {l : Level} {ts : List String} (h : Stops (.chain l) ts) :
    ∀ t ∈ ts.head?, ∀ op, (t, op) ∉ l.signs := by
  intro t ht op hop
  obtain ⟨us, rfl⟩ := List.head?_eq_some_iff.1 ht
  exact not_stops_sign hop us h

/-- The signs of comparisons are what a comparison goes on with and a sum does not. -/
theorem comparison?_isSome_iff {t : String} : (Token.comparison? t).isSome = true ↔
    t ∈ Category.comparison.continuations ∧ t ∉ (Category.chain .sum).continuations := by
  constructor
  · intro h
    unfold Token.comparison? at h
    split at h
    all_goals first | decide | cases h
  · rintro ⟨h, hsum⟩
    revert hsum
    revert t
    decide

/-- No comparison goes on before a text that ends it. -/
theorem Stops.comparison?_eq_none {ts : List String} (h : Stops .comparison ts) :
    ∀ t ∈ ts.head?, Token.comparison? t = none := by
  intro t ht
  cases hop : Token.comparison? t with
  | none => rfl
  | some op => exact absurd (comparison?_isSome_iff.1 (by rw [hop]; rfl)).1 (h t ht)

/-- A word that no sign spells ends every phrase. -/
theorem Stops.word {t word : String} (h : Token.sameWord t word = true)
    (hword : ∀ u ∈ Category.comparison.continuations, Token.sameWord u word = false)
    (ts : List String) : Stops .comparison (t :: ts) := by
  refine stops_cons.2 fun ht => ?_
  rw [hword t ht] at h
  cases h

theorem sign_unique {l : Level} {t : String} {op op' : Arithmetic} (h : (t, op) ∈ l.signs)
    (h' : (t, op') ∈ l.signs) : op = op' := by
  have hall : ∀ p ∈ l.signs, ∀ q ∈ l.signs, p.1 = q.1 → p.2 = q.2 := by cases l <;> decide
  exact hall _ h _ h' rfl

/-! ## How a phrase starts -/

theorem isNaming_of_caseWord (w : Word "CASE") : Token.isNaming w.1 = true :=
  Token.isNaming_of_isName (Token.isName_of_sameWord w.2 (by decide))

theorem isNaming_of_ifWord (w : Word "IF") : Token.isNaming w.1 = true :=
  Token.isNaming_of_isName (Token.isName_of_sameWord w.2 (by decide))

theorem isName_of_isCallee {t : String} (h : Token.isCallee t = true) : Token.isName t = true := by
  simp only [Token.isCallee, Bool.and_eq_true] at h
  exact h.1.1

namespace Phrase

/-- No primary starts with a minus or a closing parenthesis. -/
theorem primary_head (d : Phrase .primary) :
    ∃ t ts, d.tokens = t :: ts ∧ t ≠ "-" ∧ t ≠ ")" := by
  have hnaming {t : String} (h : Token.isNaming t = true) : t ≠ "-" ∧ t ≠ ")" := by
    constructor
    · rintro rfl
      exact absurd h (by decide)
    · rintro rfl
      exact absurd h (by decide)
  cases d with
  | enclosed a => exact ⟨_, _, rfl, by decide, by decide⟩
  | number t c h hc =>
    refine ⟨t, [], rfl, ?_, ?_⟩
    · rintro rfl
      exact absurd h (by decide)
    · rintro rfl
      exact absurd h (by decide)
  | string t c h =>
    refine ⟨t, [], rfl, ?_, ?_⟩
    · rintro rfl
      cases h
    · rintro rfl
      cases h
  | column t c h => exact ⟨t, [], rfl, hnaming (Token.isNaming_of_column? h)⟩
  | guarded k => exact ⟨_, _, rfl, hnaming (isNaming_of_caseWord k)⟩
  | choice k => exact ⟨_, _, rfl, hnaming (isNaming_of_caseWord k)⟩
  | condition w args => exact ⟨_, _, rfl, hnaming (isNaming_of_ifWord w)⟩
  | call t h args =>
    exact ⟨_, _, rfl, hnaming (Token.isNaming_of_isName (isName_of_isCallee h))⟩

/-- Every phrase has a token, and no phrase starts with a closing parenthesis. -/
theorem head_ne : {c : Category} → (d : Phrase c) → ∃ t ts, d.tokens = t :: ts ∧ t ≠ ")"
  | _, .lone a => a.head_ne
  | _, .compared a t _ _ b => by
    obtain ⟨u, us, ha, hu⟩ := a.head_ne
    exact ⟨u, us ++ t :: b.tokens, by simp [tokens, ha], hu⟩
  | _, .first a => a.head_ne
  | _, .joined a t _ _ b => by
    obtain ⟨u, us, ha, hu⟩ := a.head_ne
    exact ⟨u, us ++ t :: b.tokens, by simp [tokens, ha], hu⟩
  | _, .bare a => by
    obtain ⟨u, us, ha, -, hu⟩ := a.primary_head
    exact ⟨u, us, ha, hu⟩
  | _, .negated a => ⟨"-", a.tokens, rfl, by decide⟩
  | .primary, d => by
    obtain ⟨u, us, ha, -, hu⟩ := d.primary_head
    exact ⟨u, us, ha, hu⟩

theorem length_pos {c : Category} (d : Phrase c) : 0 < d.tokens.length := by
  obtain ⟨t, ts, h, -⟩ := d.head_ne
  simp [h]

end Phrase

end Grammar

end FactFold
