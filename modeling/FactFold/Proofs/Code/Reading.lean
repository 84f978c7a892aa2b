import FactFold.Proofs.Code.Lexing

/-!
# Printed code is read back

A reader takes one lexeme after another. It holds the expression it is at, which is at most a prefix
operator, a left operand or the beginning of a choice with one operand after it, since longer
expressions stand in parentheses; the brackets around that expression; the statements before it; and
the blocks around them. Nothing is looked up ahead: what stands in parentheses turns out to be the
type of a cast when the parenthesis closes.

`reads` says that an expression is read as its canonical form wherever it may stand,
`read_lexemesAll` that statements are. So the text of code determines the code up to that form
(`print_eq_iff_canonicalAll`).
-/

namespace FactFold.Code

/-! ## The state of the reader -/

/-- What the reader has of an operand. -/
inductive Atom where
  | none
  | whole (x : Term)
  /-- An operand and a point. -/
  | dotted (x : Term)
  /-- An operand, a point and the name of a method. -/
  | method (x : Term) (m : String)
  /-- The word before a constructor. -/
  | fresh
  | freshOf (type : String)
  /-- The word before a condition. -/
  | heading
  /-- A condition. -/
  | tested (c : Term)

/-- What stands before the operand in its expression. -/
inductive Before where
  | start
  | negation
  | cast (type : String)
  | left (x : Term) (op : String)
  | test (c : Term)
  | branch (c yes : Term)

/-- An expression that is being read. -/
structure Draft where
  before : Before := .start
  atom : Atom := .none

/-- What the items of a list are given to. -/
inductive Head where
  | call (f : String)
  | invoke (receiver : Term) (m : String)
  | new (type : String)
  | array (element : String)

/-- What is around the expression. -/
inductive Level where
  /-- Parentheses around an operand. -/
  | group (before : Before)
  /-- The brackets of a list, with the items before this one. -/
  | list (before : Before) (head : Head) (items : List Term)
  /-- A statement that is an expression. -/
  | run
  | decl (type name : String)
  | ret
  /-- The condition of a conditional block. -/
  | test

/-- A block that is open, with the statements before it, last first. -/
inductive Block where
  | yes (c : Term) (earlier : List Stmt)
  | no (c : Term) (yes earlier : List Stmt)

/-- The state of the reader; the statements of the innermost block are held last first. -/
structure Reader where
  draft : Draft := {}
  levels : List Level := [.run]
  written : List Stmt := []
  blocks : List Block := []

/-! ## Its steps -/

/-- The expression as it stands. -/
def Draft.term : Draft → Term
  | ⟨.start, .whole x⟩ => x
  | ⟨.negation, .whole x⟩ => .unary "!" x
  | ⟨.cast type, .whole x⟩ => .cast type x
  | ⟨.left x op, .whole y⟩ => .binary op x y
  | ⟨.branch c yes, .whole no⟩ => .cond c yes no
  | _ => .hole

/-- A name by itself, which is a type if parentheses are around it. -/
def Draft.castType? : Draft → Option String
  | ⟨.start, .whole (.ident type)⟩ => some type
  | _ => none

/-- The last item of a list, which is missing in an empty one. -/
def Draft.items : Draft → List Term
  | ⟨.start, .none⟩ => []
  | d => [d.term]

def Head.build (items : List Term) : Head → Term
  | .call f => .call f items
  | .invoke receiver m => .invoke receiver m items
  | .new type => .new type items
  | .array element => .newArray element items

def startsNumber (c : Char) : Bool := c = '-' || Number.isDigit c

/-- The number a word spells. -/
def number (w : List Char) : Term :=
  if w.getLast? = some 'L' then
    .lit "long" (.scalar (.long ((Number.readDecimalInt? w.dropLast).getD 0)))
  else .lit "int" (.scalar (.long ((Number.readDecimalInt? w).getD 0)))

/-- An operand that is a word, or a word that begins one. -/
def leaf (w : String) : Atom :=
  if w.toList.head?.any startsNumber then .whole (number w.toList)
  else if w = "new" then .fresh
  else if w = "if" then .heading
  else if w = "null" then .whole .null
  else if w = "true" then .whole (.lit "boolean" (.scalar (.bool true)))
  else if w = "false" then .whole (.lit "boolean" (.scalar (.bool false)))
  else .whole (.ident w)

namespace Reader

def word (r : Reader) (w : String) : Reader :=
  match r.draft with
  | ⟨b, .none⟩ => if w = "return" then { r with levels := [.ret] } else { r with draft := ⟨b, leaf w⟩ }
  -- two names in a row declare the second
  | ⟨_, .whole (.ident type)⟩ => { r with draft := {}, levels := [.decl type w] }
  | ⟨b, .dotted x⟩ => { r with draft := ⟨b, .method x w⟩ }
  | ⟨b, .fresh⟩ => { r with draft := ⟨b, .freshOf w⟩ }
  | _ => r

def quoted (r : Reader) (raw : List Char) : Reader :=
  let s := String.ofList (Literal.ofUnits (Literal.unescaped raw))
  { r with draft := ⟨r.draft.before, .whole (.lit "String" (.scalar (.text (.ofText s))))⟩ }

def sign (r : Reader) (s : String) : Reader :=
  match r.draft with
  | ⟨.start, .none⟩ => if s = "!" then { r with draft := ⟨.negation, .none⟩ } else r
  | ⟨.start, .whole x⟩ =>
    { r with draft := ⟨if s = "?" then .test x else .left x s, .none⟩ }
  | ⟨.test c, .whole yes⟩ => { r with draft := ⟨.branch c yes, .none⟩ }
  | _ => r

/-- Opens the brackets of a list. -/
def enter (r : Reader) (head : Head) : Reader :=
  { r with draft := {}, levels := .list r.draft.before head [] :: r.levels }

def openParen (r : Reader) : Reader :=
  match r.draft with
  | ⟨b, .none⟩ => { r with draft := {}, levels := .group b :: r.levels }
  | ⟨_, .whole (.ident f)⟩ => r.enter (.call f)
  | ⟨_, .method x m⟩ => r.enter (.invoke x m)
  | ⟨_, .freshOf type⟩ => r.enter (.new type)
  | ⟨_, .heading⟩ => { r with draft := {}, levels := [.test] }
  | _ => r

def openBrace (r : Reader) : Reader :=
  match r.draft.atom, r.written with
  | .freshOf element, _ => r.enter (.array element)
  | .tested c, earlier => { r with draft := {}, written := [], blocks := .yes c earlier :: r.blocks }
  -- the alternative of the conditional block that was closed last
  | _, .cond c yes _ :: earlier =>
    { r with draft := {}, written := [], blocks := .no c yes earlier :: r.blocks }
  | _, _ => r

/-- Closes the block around the statements. -/
def leaveBlock (r : Reader) : Reader :=
  match r.blocks with
  | .yes c earlier :: blocks =>
    { r with written := .cond c r.written.reverse [] :: earlier, blocks := blocks }
  | .no c yes earlier :: blocks =>
    { r with written := .cond c yes r.written.reverse :: earlier, blocks := blocks }
  | [] => r

/-- Closes what is around the expression. -/
def leave (r : Reader) : Reader :=
  match r.levels with
  | .group b :: levels =>
    match r.draft.castType? with
    | some type => { r with draft := ⟨.cast type, .none⟩, levels := levels }
    | none => { r with draft := ⟨b, .whole r.draft.term⟩, levels := levels }
  | .list b head items :: levels =>
    { r with draft := ⟨b, .whole (head.build (items ++ r.draft.items))⟩, levels := levels }
  | [.test] => { r with draft := ⟨.start, .tested r.draft.term⟩, levels := [.run] }
  | _ => r.leaveBlock

def comma (r : Reader) : Reader :=
  match r.levels with
  | .list b head items :: levels =>
    { r with draft := {}, levels := .list b head (items ++ r.draft.items) :: levels }
  | _ => r

def point (r : Reader) : Reader :=
  match r.draft with
  | ⟨b, .whole x⟩ => { r with draft := ⟨b, .dotted x⟩ }
  | _ => r

/-- Ends a statement. -/
def finish (r : Reader) : Reader :=
  let stmt := match r.levels with
    | [.decl type name] => .decl type name r.draft.term
    | [.ret] => .ret r.draft.term
    | _ => Stmt.run r.draft.term
  { r with draft := {}, levels := [.run], written := stmt :: r.written }

def mark (r : Reader) : Char → Reader
  | '(' => r.openParen
  | ')' => r.leave
  | '\x7b' => r.openBrace
  | '\x7d' => r.leave
  | ',' => r.comma
  | '.' => r.point
  | ';' => r.finish
  | _ => r

/-- Takes a lexeme. -/
def step (r : Reader) : Lexeme → Reader
  | .word w => r.word w
  | .quoted raw => r.quoted raw
  | .sign s => r.sign s
  | .mark c => r.mark c

/-- Takes lexemes one after another. -/
def read (r : Reader) (ts : List Lexeme) : Reader := ts.foldl step r

@[simp] theorem read_cons (r : Reader) (t : Lexeme) (ts : List Lexeme) :
    r.read (t :: ts) = (r.step t).read ts := rfl

@[simp] theorem read_append (r : Reader) (ts us : List Lexeme) :
    r.read (ts ++ us) = (r.read ts).read us := List.foldl_append

end Reader

end FactFold.Code

namespace FactFold

open Code

/-! ## Operands -/

/-- What the reader holds after an expression. -/
def Term.draft : Term → Draft
  | .binary op x y => ⟨.left x.canonical op, .whole y.canonical⟩
  | .unary _ x => ⟨.negation, .whole x.canonical⟩
  | .cast type x => ⟨.cast type, .whole x.canonical⟩
  | .cond c yes no => ⟨.branch c.canonical yes.canonical, .whole no.canonical⟩
  | x => ⟨.start, .whole x.canonical⟩

theorem Term.term_draft {x : Term} (h : x.isSpelled = true) : x.draft.term = x.canonical := by
  cases x with
  | unary op x =>
    simp only [isSpelled, Bool.and_eq_true, decide_eq_true_eq] at h
    obtain ⟨rfl, -⟩ := h
    rw [canonical]
    rfl
  | binary | cast | cond => rw [canonical]; rfl
  | _ => rfl

/-- An expression that may be taken for a type between parentheses is a name. -/
theorem Term.castType?_draft {x : Term} (h : ∀ name, x ≠ .ident name) :
    x.draft.castType? = none := by
  cases x with
  | ident name => exact absurd rfl (h name)
  | call f args =>
    simp only [draft, canonical]
    split <;> rfl
  | _ => rfl

namespace Code

/-- The reader at an expression. -/
def Reader.holding (r : Reader) (d : Draft) : Reader := { r with draft := d }

/-- An expression is read by itself, and as an operand after whatever may stand before one. -/
structure Reads (x : Term) : Prop where
  alone : ∀ r : Reader, (r.holding {}).read x.lexemes = r.holding x.draft
  operand : ∀ (r : Reader) (b : Before), (r.holding ⟨b, .none⟩).read
    (enclosed x.isCompound x.lexemes) = r.holding ⟨b, .whole x.canonical⟩

/-- What stands in parentheses is read as one operand. -/
theorem read_parenthesised {x : Term} (hx : x.isSpelled = true) (hname : ∀ name, x ≠ .ident name)
    (halone : ∀ r : Reader, (r.holding {}).read x.lexemes = r.holding x.draft) (r : Reader)
    (b : Before) :
    (r.holding ⟨b, .none⟩).read (enclosed true x.lexemes) = r.holding ⟨b, .whole x.canonical⟩ := by
  have hinner := halone { r with levels := .group b :: r.levels }
  show (Reader.read _ (x.lexemes ++ [.mark ')'])) = _
  rw [Reader.read_append]
  show (Reader.read (Reader.read (Reader.holding { r with levels := .group b :: r.levels } {}) _) _) = _
  rw [hinner]
  -- the parenthesis closes around no bare name, so this is no cast
  show (Reader.leave ⟨x.draft, .group b :: r.levels, r.written, r.blocks⟩) = _
  simp only [Reader.leave, Term.castType?_draft hname, Term.term_draft hx]
  rfl

theorem Reads.of_compound {x : Term} (hx : x.isSpelled = true) (hcompound : x.isCompound = true)
    (halone : ∀ r : Reader, (r.holding {}).read x.lexemes = r.holding x.draft) : Reads x := by
  refine ⟨halone, fun r b => ?_⟩
  have hname : ∀ name, x ≠ .ident name := by
    rintro name rfl
    cases hcompound
  rw [hcompound]
  exact read_parenthesised hx hname halone r b

theorem Reads.of_simple {x : Term} (hcompound : x.isCompound = false)
    (h : ∀ (r : Reader) (b : Before), (r.holding ⟨b, .none⟩).read x.lexemes =
      r.holding ⟨b, .whole x.canonical⟩) : Reads x := by
  have hdraft : x.draft = ⟨.start, .whole x.canonical⟩ := by
    cases x <;> first | rfl | cases hcompound
  constructor
  · intro r
    rw [hdraft]
    exact h r .start
  · rw [hcompound]
    exact h

/-! ## Names and literals -/

theorem startsNumber_name {s : String} (h : isPlainName s = true) :
    s.toList.head?.any startsNumber = false := by
  unfold isPlainName at h
  dsimp only at h
  split at h
  · cases h
  · rename_i c cs hlist
    obtain ⟨hc, -⟩ := Bool.and_eq_true_iff.1 h
    simp only [Bool.or_eq_true, Bool.and_eq_true, decide_eq_true_eq, Char.le_def,
      UInt32.le_iff_toNat_le] at hc
    rw [hlist, List.head?_cons, Option.any_some, startsNumber, Bool.or_eq_false_iff]
    constructor
    · refine decide_eq_false ?_
      rintro rfl
      revert hc
      decide
    · -- digits come before all letters
      rw [Number.isDigit, Bool.and_eq_false_iff, decide_eq_false_iff_not, decide_eq_false_iff_not,
        Char.le_def, Char.le_def, UInt32.le_iff_toNat_le, UInt32.le_iff_toNat_le]
      obtain ((rfl | rfl) | hc) | hc := hc
      · decide
      · decide
      · exact .inr (by simp at hc ⊢; omega)
      · exact .inr (by simp at hc ⊢; omega)

theorem leaf_name {s : String} (h : isCodeName s = true) :
    s ≠ "return" ∧ leaf s = .whole (.ident s) := by
  obtain ⟨hplain, hword⟩ := Bool.and_eq_true_iff.1 h
  simp only [reservedWords, List.contains_cons, List.contains_nil, Bool.not_eq_true',
    Bool.or_eq_false_iff, beq_eq_false_iff_ne, and_true] at hword
  obtain ⟨hnull, htrue, hfalse, hnew, hreturn, hif⟩ := hword
  refine ⟨hreturn, ?_⟩
  rw [leaf, startsNumber_name hplain, if_neg hnew, if_neg hif, if_neg hnull, if_neg htrue,
    if_neg hfalse]
  rfl

theorem step_name {s : String} (h : isCodeName s = true) (r : Reader) (b : Before) :
    (r.holding ⟨b, .none⟩).step (.word s) = r.holding ⟨b, .whole (.ident s)⟩ := by
  obtain ⟨hreturn, hleaf⟩ := leaf_name h
  simp only [Reader.step, Reader.word, Reader.holding, if_neg hreturn, hleaf]

/-- An integer is read back with its mark. -/
theorem leaf_number {type : String} (htype : type = "int" ∨ type = "long") {n : Int}
    (hn : Number.fits64 n = true) {w : String}
    (hw : w = Number.decimal n ++ (if type = "long" then "L" else "")) :
    w ≠ "return" ∧ leaf w = .whole (.lit type (.scalar (.long n))) := by
  have hlist : w.toList = (Number.decimal n).toList ++ (if type = "long" then "L" else "").toList := by
    rw [hw, String.toList_append]
  have hdigits : ∀ c ∈ Nat.toDigits 10 n.natAbs, Number.isDigit c = true :=
    Number.isDigit_of_mem_toDigits
  have hfirst : w.toList.head?.any startsNumber = true := by
    rw [hlist, Number.toList_decimal]
    by_cases hneg : n < 0
    · simp [hneg, startsNumber]
    · cases hd : Nat.toDigits 10 n.natAbs with
      | nil => exact absurd hd Nat.toDigits_ne_nil
      | cons c cs =>
        have hc := hdigits c (by rw [hd]; simp)
        simp [hneg, startsNumber, hc]
  have hreturn : w ≠ "return" := by
    rintro rfl
    revert hfirst
    decide
  refine ⟨hreturn, ?_⟩
  rw [leaf, if_pos hfirst, number, hlist]
  rcases htype with rfl | rfl
  · -- a number without a mark ends with a digit
    have hlast : (Number.decimal n).toList.getLast? ≠ some 'L' := by
      intro hmem
      have hmem := List.mem_of_getLast? hmem
      rw [Number.toList_decimal, List.mem_append] at hmem
      rcases hmem with hsign | hdigit
      · split at hsign <;> simp at hsign
      · exact absurd (hdigits _ hdigit) (by decide)
    simp [hlast, Number.readDecimalInt?_decimal hn]
  · simp [Number.readDecimalInt?_decimal hn]

theorem Reads.literal {type : String} {value : Datum} (h : Literal.isSpelled type value = true) :
    Reads (.lit type value) := by
  refine .of_simple rfl fun r b => ?_
  rw [Term.lexemes, Term.canonical]
  obtain ⟨k, n, rfl, htype, hn⟩ | ⟨t, rfl, rfl⟩ | ⟨s, rfl, rfl⟩ := Literal.isSpelled_cases h
  · obtain ⟨hreturn, hleaf⟩ := leaf_number htype hn (Literal.text_int (k := k) htype hn)
    show (r.holding ⟨b, .none⟩).word _ = _
    simp only [Reader.word, Reader.holding, if_neg hreturn, hleaf, Datum.canonical]
  · rw [literalLexemes, Literal.text_bool]
    · cases t <;> rfl
    · simp
  · show Reader.quoted _ _ = _
    simp only [Reader.quoted, Text.Bytes.lossy_ofText, Literal.ofUnits_unescaped, String.ofList_toList]
    rfl

/-! ## Lists -/

theorem items_draft {x : Term} (h : x.isSpelled = true) : x.draft.items = [x.canonical] := by
  have hitems : x.draft.items = [x.draft.term] := by cases x <;> rfl
  rw [hitems, Term.term_draft h]

/-- The reader between the brackets of a list. -/
def Reader.within (r : Reader) (b : Before) (head : Head) (items : List Term) : Reader :=
  { r with draft := {}, levels := .list b head items :: r.levels }

/-- The items of a list and the bracket after them. -/
theorem read_listed {c : Char} (hc : c = ')' ∨ c = '\x7d') {xs : List Term}
    (hxs : ∀ x ∈ xs, x.isSpelled = true ∧ Reads x) (r : Reader) (b : Before)
    (head : Head) (items : List Term) :
    (r.within b head items).read (listed (Term.lexemesEach xs) ++ [.mark c]) =
      r.holding ⟨b, .whole (head.build (items ++ Term.canonicalAll xs))⟩ := by
  have hclose : ∀ s : Reader, s.step (.mark c) = s.leave := by
    rcases hc with rfl | rfl <;> intro s <;> rfl
  induction xs generalizing items with
  | nil =>
    show (r.within b head items).step (.mark c) = _
    rw [hclose, Term.canonicalAll]
    rfl
  | cons x xs ih =>
    obtain ⟨hspelled, hreads⟩ := hxs x (by simp)
    have hitem := hreads.alone (r.within b head items)
    have hcanonical := items_draft hspelled
    rw [Term.lexemesEach, Term.canonicalAll]
    cases xs with
    | nil =>
      rw [Term.lexemesEach, Term.canonicalAll, listed, List.intercalate_singleton, Reader.read_append]
      show ((((r.within b head items).holding {}).read x.lexemes).step (.mark c)) = _
      rw [hitem, hclose, ← hcanonical]
      rfl
    | cons y ys =>
      have hrest := ih (fun z hz => hxs z (by simp [hz])) (items ++ [x.canonical])
      rw [Term.lexemesEach] at hrest ⊢
      rw [listed, List.intercalate_cons_cons, List.append_assoc, List.append_assoc, Reader.read_append,
        Reader.read_append]
      show Reader.read (Reader.comma (((r.within b head items).holding {}).read x.lexemes)) _ = _
      rw [hitem]
      -- the comma takes the item to those before it
      have hcomma : ((r.within b head items).holding x.draft).comma =
          r.within b head (items ++ [x.canonical]) := by
        rw [← hcanonical]
        rfl
      rw [hcomma]
      exact hrest.trans (by rw [List.append_assoc]; rfl)

/-- A call is read with its name, which may be a method of a class. -/
theorem read_callee {f : String} (h : isCallee f = true) (r : Reader) (b : Before)
    (args : List Term) :
    ∃ head : Head, head.build (Term.canonicalAll args) = (Term.call f args).canonical ∧
      (r.holding ⟨b, .none⟩).read (calleeLexemes f ++ [.mark '(']) = r.within b head [] := by
  unfold isCallee at h
  rw [Term.canonical, calleeLexemes]
  cases hg : ExistingFunction.ofCall? f "" with
  | some g =>
    simp only [hg, Bool.and_eq_true] at h
    refine ⟨.invoke (.ident g.className) g.method, rfl, ?_⟩
    rw [List.cons_append, Reader.read_cons, step_name h.1]
    rfl
  | none =>
    simp only [hg] at h
    refine ⟨.call f, rfl, ?_⟩
    rw [List.cons_append, Reader.read_cons, step_name h]
    rfl

/-! ## Expressions -/

mutual

/-- **An expression is read back, wherever it stands.** -/
theorem reads : ∀ {x : Term}, x.isSpelled = true → Reads x
  | .ident _, h => by
    rw [Term.isSpelled] at h
    refine .of_simple rfl fun r b => ?_
    rw [Term.lexemes, Term.canonical]
    exact step_name h r b
  | .lit .., h => by
    rw [Term.isSpelled] at h
    exact .literal h
  | .null, _ => by
    refine .of_simple rfl fun r b => ?_
    rw [Term.lexemes, Term.canonical]
    rfl
  | .binary op x y, h => by
    have hspelled := h
    simp only [Term.isSpelled, Bool.and_eq_true] at h
    have hop : op ≠ "?" := by
      rintro rfl
      exact absurd h.1.1 (by decide)
    refine .of_compound hspelled rfl fun r => ?_
    rw [Term.lexemes, Reader.read_append, (reads h.1.2).operand, Reader.read_cons]
    show (r.holding ⟨if op = "?" then .test x.canonical else .left x.canonical op, .none⟩).read _ = _
    rw [if_neg hop, (reads h.2).operand]
    rfl
  | .unary op x, h => by
    have hspelled := h
    simp only [Term.isSpelled, Bool.and_eq_true, decide_eq_true_eq] at h
    obtain ⟨rfl, hx⟩ := h
    refine .of_compound hspelled rfl fun r => ?_
    rw [Term.lexemes, Reader.read_cons]
    show (r.holding ⟨.negation, .none⟩).read _ = r.holding ⟨.negation, .whole x.canonical⟩
    -- a negative number stands in parentheses after a negation only
    cases hnegative : x.isNegativeLiteral with
    | false =>
      rw [Bool.or_false]
      exact (reads hx).operand r .negation
    | true =>
      have hname : ∀ name, x ≠ .ident name := by
        rintro name rfl
        cases hnegative
      rw [Bool.or_true]
      exact read_parenthesised hx hname (reads hx).alone r .negation
  | .call f args, h => by
    simp only [Term.isSpelled, Bool.and_eq_true] at h
    refine .of_simple rfl fun r b => ?_
    obtain ⟨head, hbuild, hhead⟩ := read_callee h.1 r b args
    have hargs := read_listed (.inl rfl) (readsAll h.2) r b head []
    rw [Reader.read_append] at hhead
    rw [Term.lexemes, Reader.read_append, Reader.read_cons, ← hbuild]
    exact (congrArg (Reader.read · _) hhead).trans hargs
  | .invoke receiver m args, h => by
    simp only [Term.isSpelled, Bool.and_eq_true] at h
    refine .of_simple rfl fun r b => ?_
    have hargs := read_listed (.inl rfl) (readsAll h.2) r b (.invoke receiver.canonical m) []
    rw [Term.lexemes, Term.canonical, Reader.read_append, (reads h.1.1).operand]
    exact hargs
  | .new type args, h => by
    simp only [Term.isSpelled, Bool.and_eq_true] at h
    refine .of_simple rfl fun r b => ?_
    have hargs := read_listed (.inl rfl) (readsAll h.2) r b (.new type) []
    rw [Term.lexemes, Term.canonical]
    exact hargs
  | .newArray element items, h => by
    simp only [Term.isSpelled, Bool.and_eq_true] at h
    refine .of_simple rfl fun r b => ?_
    have hitems := read_listed (.inr rfl) (readsAll h.2) r b (.array element) []
    rw [Term.lexemes, Term.canonical]
    exact hitems
  | .cast type x, h => by
    have hspelled := h
    simp only [Term.isSpelled, Bool.and_eq_true] at h
    refine .of_compound hspelled rfl fun r => ?_
    have htype := step_name h.1 { r with levels := .group .start :: r.levels } .start
    -- the parenthesis closes around a bare name, which is the type
    have hcast : (r.holding {}).read [.mark '(', .word type, .mark ')'] =
        r.holding ⟨.cast type, .none⟩ :=
      (congrArg (fun s : Reader => s.step (.mark ')')) htype).trans rfl
    have hx := (reads h.2).operand r (.cast type)
    rw [Term.lexemes]
    exact (congrArg (Reader.read · _) hcast).trans hx
  | .cond c yes no, h => by
    have hspelled := h
    simp only [Term.isSpelled, Bool.and_eq_true] at h
    refine .of_compound hspelled rfl fun r => ?_
    rw [Term.lexemes, Reader.read_append, (reads h.1.1).operand, Reader.read_cons]
    show (r.holding ⟨.test c.canonical, .none⟩).read _ = _
    rw [Reader.read_append, (reads h.1.2).operand, Reader.read_cons]
    exact (reads h.2).operand r (.branch c.canonical yes.canonical)

theorem readsAll : ∀ {xs : List Term}, Term.isSpelledAll xs = true →
    ∀ x ∈ xs, x.isSpelled = true ∧ Reads x
  | [], _ => nofun
  | x :: xs, h => by
    simp only [Term.isSpelledAll, Bool.and_eq_true] at h
    have hx := reads h.1
    have hxs := readsAll h.2
    intro y hy
    rcases List.mem_cons.1 hy with rfl | hy
    · exact ⟨h.1, hx⟩
    · exact hxs y hy

end

end Code

/-! ## Statements -/

namespace Stmt

mutual

theorem read_lexemes : ∀ {s : Stmt}, s.isSpelled = true →
    ∀ (written : List Stmt) (blocks : List Block),
      Reader.read ⟨{}, [.run], written, blocks⟩ s.lexemes =
        ⟨{}, [.run], s.canonical :: written, blocks⟩
  | .decl type name value, h, written, blocks => by
    simp only [isSpelled, Bool.and_eq_true] at h
    have htype := step_name h.1.1 ⟨{}, [.run], written, blocks⟩ .start
    have hvalue := (reads h.2).alone ⟨{}, [.decl type name], written, blocks⟩
    have hopening : Reader.read ⟨{}, [.run], written, blocks⟩ [.word type, .word name, .sign "="] =
        ⟨{}, [.decl type name], written, blocks⟩ :=
      (congrArg (Reader.read · [.word name, .sign "="]) htype).trans rfl
    rw [lexemes, canonical, ← Term.term_draft h.2]
    show Reader.read (Reader.read ⟨{}, [.run], written, blocks⟩ [.word type, .word name, .sign "="])
      (value.lexemes ++ [.mark ';']) = _
    rw [hopening, Reader.read_append]
    exact (congrArg (Reader.read · _) hvalue).trans rfl
  | .run x, h, written, blocks => by
    rw [isSpelled] at h
    have hx := (reads h).alone ⟨{}, [.run], written, blocks⟩
    rw [lexemes, canonical, Reader.read_append, ← Term.term_draft h]
    exact (congrArg (Reader.read · _) hx).trans rfl
  | .ret value, h, written, blocks => by
    rw [isSpelled] at h
    have hvalue := (reads h).alone ⟨{}, [.ret], written, blocks⟩
    rw [lexemes, canonical, Reader.read_cons, Reader.read_append, ← Term.term_draft h]
    exact (congrArg (Reader.read · _) hvalue).trans rfl
  | .cond c yes no, h, written, blocks => by
    simp only [isSpelled, Bool.and_eq_true] at h
    have hc := (reads h.1.1).alone ⟨{}, [.test], written, blocks⟩
    -- the condition opens a block, whose end leaves a conditional block without alternative
    have hheading : Reader.read ⟨{}, [.run], written, blocks⟩
        (.word "if" :: .mark '(' :: (c.lexemes ++ [.mark ')', .mark '\x7b'])) =
        ⟨{}, [.run], [], .yes c.canonical written :: blocks⟩ := by
      rw [Reader.read_cons, Reader.read_cons, Reader.read_append, ← Term.term_draft h.1.1]
      exact (congrArg (Reader.read · _) hc).trans rfl
    have hyes : Reader.read ⟨{}, [.run], [], .yes c.canonical written :: blocks⟩
        (lexemesAll yes ++ [.mark '\x7d']) =
        ⟨{}, [.run], .cond c.canonical (canonicalAll yes) [] :: written, blocks⟩ := by
      rw [Reader.read_append, read_lexemesAll h.1.2, List.append_nil]
      show Reader.mk _ _ (.cond c.canonical (canonicalAll yes).reverse.reverse [] :: written) _ = _
      rw [List.reverse_reverse]
    have hif : Reader.read ⟨{}, [.run], written, blocks⟩ (.word "if" :: .mark '(' :: (c.lexemes ++
        .mark ')' :: .mark '\x7b' :: (lexemesAll yes ++ [.mark '\x7d']))) =
        ⟨{}, [.run], .cond c.canonical (canonicalAll yes) [] :: written, blocks⟩ := by
      rw [← hyes, ← hheading, ← Reader.read_append]
      simp
    have hno : Reader.read ⟨{}, [.run], [], .no c.canonical (canonicalAll yes) written :: blocks⟩
        (lexemesAll no ++ [.mark '\x7d']) =
        ⟨{}, [.run], .cond c.canonical (canonicalAll yes) (canonicalAll no) :: written, blocks⟩ := by
      rw [Reader.read_append, read_lexemesAll h.2, List.append_nil]
      show Reader.mk _ _ (.cond c.canonical _ (canonicalAll no).reverse.reverse :: written) _ = _
      rw [List.reverse_reverse]
    rw [lexemes, canonical]
    cases no with
    | nil =>
      rw [canonicalAll]
      exact hif
    | cons s ss =>
      -- the alternative reopens what was closed last
      have helse : Reader.read ⟨{}, [.run], .cond c.canonical (canonicalAll yes) [] :: written, blocks⟩
          [.word "else", .mark '\x7b'] =
          ⟨{}, [.run], [], .no c.canonical (canonicalAll yes) written :: blocks⟩ := rfl
      rw [← hno, ← helse, ← hif, ← Reader.read_append, ← Reader.read_append]
      simp

/-- **Statements are read back after the statements before them.** -/
theorem read_lexemesAll : ∀ {ss : List Stmt}, isSpelledAll ss = true →
    ∀ (written : List Stmt) (blocks : List Block), Reader.read ⟨{}, [.run], written, blocks⟩
      (lexemesAll ss) = ⟨{}, [.run], (canonicalAll ss).reverse ++ written, blocks⟩
  | [], _, _, _ => by rw [lexemesAll, canonicalAll]; rfl
  | s :: ss, h, written, blocks => by
    simp only [isSpelledAll, Bool.and_eq_true] at h
    rw [lexemesAll, canonicalAll, Reader.read_append, read_lexemes h.1, read_lexemesAll h.2,
      List.reverse_cons, List.append_assoc]
    rfl

end

/-- The code a text is read as. -/
def ofText (t : String) : List Stmt := (Reader.read {} (lex t.toList)).written.reverse

/-- The text of code is read as its canonical form. -/
theorem ofText_textAll {ss : List Stmt} (h : isSpelledAll ss = true) (depth : Nat) :
    ofText (textAll depth ss) = canonicalAll ss := by
  have hlex := lex_textAll h depth []
  rw [List.append_nil] at hlex
  have hread := read_lexemesAll h [] []
  rw [ofText, hlex]
  show (Reader.read {} (lexemesAll ss ++ [])).written.reverse = _
  rw [List.append_nil]
  show (Reader.read ⟨{}, [.run], [], []⟩ (lexemesAll ss)).written.reverse = _
  rw [hread]
  simp

/-- **The text of code determines the code.** Statements that are spelled out are printed at every
depth, and other such statements are printed as the same text just when they are the same up to
their canonical form. Where integers are held in 64 bits, they are the same up to calls: `C.m(x)`
may be a static method of a class or a method of a variable. -/
theorem print_eq_iff_canonicalAll {ss ts : List Stmt} (hss : isSpelledAll ss = true)
    (hts : isSpelledAll ts = true) (depth : Nat) :
    ∃ t, print depth ss = .ok t ∧
      (print depth ts = .ok t ↔ canonicalAll ss = canonicalAll ts) ∧
      (Term.Wide (partsAll ss) → Term.Wide (partsAll ts) →
        (print depth ts = .ok t ↔ asMethodsAll ss = asMethodsAll ts)) := by
  have htext : print depth ts = .ok (textAll depth ss) ↔ canonicalAll ss = canonicalAll ts := by
    rw [print_eq_ok hts depth, Except.ok.injEq]
    constructor
    · intro htext
      rw [← ofText_textAll hss depth, ← ofText_textAll hts depth, htext]
    · intro hcanonical
      rw [← textAll_canonicalAll hss, ← textAll_canonicalAll hts, hcanonical]
  refine ⟨textAll depth ss, print_eq_ok hss depth, htext, fun hws hwt => ?_⟩
  rw [htext, canonicalAll_of_wide hws, canonicalAll_of_wide hwt]

/-- A static method and a method of a variable, in a block of the same routine. -/
theorem print_eq_iff_canonicalAll_static :
    let ss : List Stmt := [.cond (.ident "x") [.run (.call "C.m" [.int 1])] []]
    let ts : List Stmt := [.cond (.ident "x") [.run (.invoke (.ident "C") "m" [.int 1])] []]
    asMethodsAll ss = asMethodsAll ts ∧ ∃ t, print 1 ss = .ok t ∧ print 1 ts = .ok t := by
  intro ss ts
  have hsame : asMethodsAll ss = asMethodsAll ts := by rfl
  have hwide : Term.Wide (partsAll ss) ∧ Term.Wide (partsAll ts) := by
    constructor
    all_goals
      intro type k n hmem
      have hlit : type = "int" ∧ k = .int64 ∧ n = 1 := by simpa [ss, ts, Term.int] using hmem
      exact hlit.2.1
  have hspelled : isSpelledAll ss = true ∧ isSpelledAll ts = true := by decide
  obtain ⟨t, hss, -, hts⟩ := print_eq_iff_canonicalAll hspelled.1 hspelled.2 1
  exact ⟨hsame, t, hss, (hts hwide.1 hwide.2).2 hsame⟩

end Stmt

end FactFold
