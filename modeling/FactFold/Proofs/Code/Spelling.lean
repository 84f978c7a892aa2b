import FactFold.Code.Printer
import FactFold.Function.Registry
import FactFold.Proofs.Code.Literals
import FactFold.Proofs.Code.Parts
import FactFold.Proofs.Number.Wrap

/-!
# Code that is spelled out

Code is spelled out when all its names are names of the language, its operators are those of the
language, and its literals are integers, truth values and well-formed texts. Raw source and empty
places are not.

Two pieces of code may be spelled alike. A static method of a class, `C.m(x)`, looks like the method
`m` of a variable `C`; an integer looks the same whatever width it is held in. `canonical` is the
same code with these choices made, and it is spelled as before (`textAll_canonicalAll`). Where all
integers are held in 64 bits, only the first choice is left (`canonicalAll_of_wide`). An alternative
that is missing and one without statements are the same code from the start.
-/

namespace FactFold

/-! ## Names -/

/-- Words that are no names. -/
def reservedWords : List String := ["null", "true", "false", "new", "return", "if"]

/-- ASCII letters, digits, underscores and dollar signs, no digit in front, and no reserved word. -/
def isCodeName (s : String) : Bool := isPlainName s && !reservedWords.contains s

/-- A name, or a class and a method joined by a point. -/
def isCallee (f : String) : Bool :=
  match ExistingFunction.ofCall? f "" with
  | some g => isCodeName g.className && isCodeName g.method
  | none => isCodeName f

/-- A class and a method are joined by a point. -/
theorem ExistingFunction.eq_call {f : String} {g : ExistingFunction} (h : ofCall? f "" = some g) :
    f = g.className ++ "." ++ g.method := by
  have hpoint : (fun c : Char => decide (c = '.')) = fun c => c == '.' := by
    funext c
    exact (beq_eq_decide c '.').symm
  have hjoin : ['.'].intercalate (f.toList.splitOn '.') = f.toList := List.intercalate_splitOn '.'
  unfold ofCall? at h
  rw [hpoint] at h
  rw [List.splitOn] at hjoin
  split at h
  · rename_i c m hparts
    split at h
    · cases h
    · obtain rfl := Option.some.inj h
      rw [hparts] at hjoin
      apply String.toList_injective
      simpa [List.intercalate] using hjoin.symm
  · cases h

/-! ## Literals -/

namespace Literal

/-- An integer of 64 bits, a truth value or a well-formed text, each under its own type. -/
def isSpelled (type : String) : Datum → Bool
  | .scalar (.int _ n) => (type = "int" || type = "long") && Number.fits64 n
  | .scalar (.bool _) => type = "boolean"
  | .scalar (.text bs) => type = "String" && bs.toText?.isSome
  | _ => false

end Literal

/-- The same value, an integer in 64 bits. -/
def Datum.canonical : Datum → Datum
  | .scalar (.int _ n) => .scalar (.long n)
  | d => d

namespace Literal

/-- Where dropping the stray bytes leaves as many pieces, there were none. -/
theorem bytes_of_chars {f : Text.Bytes.Piece → Option Char} (hchar : ∀ c, f (.char c) = some c)
    (hstray : ∀ b, f (.stray b) = none) :
    ∀ ps : List Text.Bytes.Piece, (ps.filterMap f).length = ps.length →
      ps.flatMap Text.Bytes.Piece.bytes = (ps.filterMap f).flatMap String.utf8EncodeChar := by
  intro ps
  induction ps with
  | nil => intro _; rfl
  | cons p ps ih =>
    intro hlength
    cases p with
    | char c =>
      rw [List.filterMap_cons_some (hchar c)] at hlength ⊢
      rw [List.flatMap_cons, List.flatMap_cons, ih (by simpa using hlength)]
      rfl
    | stray b =>
      -- a stray byte is dropped, and nothing makes up for it
      have hle := List.length_filterMap_le f ps
      rw [List.filterMap_cons_none (hstray b), List.length_cons] at hlength
      omega

/-- A byte string that reads as a text is the bytes of that text. -/
theorem ofText_of_toText? {bs : Text.Bytes} {s : String} (h : bs.toText? = some s) :
    bs = Text.Bytes.ofText s := by
  unfold Text.Bytes.toText? at h
  dsimp only at h
  split at h
  · rename_i hlength
    have hbytes := bytes_of_chars (fun _ => rfl) (fun _ => rfl) bs.pieces hlength
    rw [Text.Bytes.bytes_pieces] at hbytes
    obtain rfl := Option.some.inj h
    rw [Text.Bytes.ofText, String.toList_ofList]
    exact hbytes
  · cases h

/-- What a literal that is spelled out can be. -/
theorem isSpelled_cases {type : String} {value : Datum} (h : isSpelled type value = true) :
    (∃ k n, value = .scalar (.int k n) ∧ (type = "int" ∨ type = "long") ∧ Number.fits64 n = true) ∨
    (∃ b, value = .scalar (.bool b) ∧ type = "boolean") ∨
    ∃ s, value = .scalar (.text (.ofText s)) ∧ type = "String" := by
  unfold isSpelled at h
  split at h
  · rename_i k n
    simp only [Bool.and_eq_true, Bool.or_eq_true, decide_eq_true_eq] at h
    exact .inl ⟨k, n, rfl, h.1, h.2⟩
  · rename_i b
    exact .inr (.inl ⟨b, rfl, of_decide_eq_true h⟩)
  · rename_i bs
    simp only [Bool.and_eq_true, decide_eq_true_eq, Option.isSome_iff_exists] at h
    obtain ⟨htype, s, hs⟩ := h
    exact .inr (.inr ⟨s, by rw [ofText_of_toText? hs], htype⟩)
  · cases h

theorem longOrZero_int {k : IntKind} {n : Int} (h : Number.fits64 n = true) :
    (Datum.scalar (.int k n)).operand.longOrZero = n := by
  simp only [Number.fits64, Bool.and_eq_true, decide_eq_true_eq] at h
  exact Number.wrap64_of_range h.1 h.2

/-- The text of an integer literal: its digits, and the mark of a long one. -/
theorem text_int {type : String} (htype : type = "int" ∨ type = "long") {k : IntKind} {n : Int}
    (h : Number.fits64 n = true) :
    text type (.scalar (.int k n)) = Number.decimal n ++ (if type = "long" then "L" else "") := by
  rcases htype with rfl | rfl
  · show Number.decimal (Datum.scalar (.int k n)).operand.longOrZero = _
    rw [longOrZero_int h]
    simp
  · show Number.decimal (Datum.scalar (.int k n)).operand.longOrZero ++ "L" = _
    rw [longOrZero_int h]
    simp

theorem text_bool (b : Bool) : text "boolean" (.scalar (.bool b)) = Scalar.boolText b := by
  show Datum.plainText (.scalar (.bool b)) = _
  rw [Datum.plainText, Scalar.plainText]

theorem text_text (s : String) : text "String" (.scalar (.text (.ofText s))) = string s := by
  show string (Datum.plainText (.scalar (.text (.ofText s)))) = _
  rw [Datum.plainText, Scalar.plainText, Text.Bytes.lossy_ofText]

theorem text_canonical {type : String} {value : Datum} (h : isSpelled type value = true) :
    text type value.canonical = text type value := by
  obtain ⟨k, n, rfl, htype, hn⟩ | ⟨b, rfl, rfl⟩ | ⟨s, rfl, rfl⟩ := isSpelled_cases h
  · rw [Datum.canonical, text_int htype hn, text_int htype hn]
  · rfl
  · rfl

theorem isMismatch_of_isSpelled {type : String} {value : Datum} (h : isSpelled type value = true) :
    isMismatch type value = false := by
  obtain ⟨k, n, rfl, rfl | rfl, -⟩ | ⟨b, rfl, rfl⟩ | ⟨s, rfl, rfl⟩ := isSpelled_cases h <;> rfl

end Literal

/-! ## Expressions -/

namespace Term

/-- The infix operators of the language. -/
def operators : List String := ["+", "-", "*", "/", "==", "!=", "<", "<=", ">", ">=", "&&", "||"]

mutual

/-- The expression is spelled out. -/
def isSpelled : Term → Bool
  | .ident name => isCodeName name
  | .lit type value => Literal.isSpelled type value
  | .null => true
  | .binary op x y => operators.contains op && x.isSpelled && y.isSpelled
  | .unary op x => op = "!" && x.isSpelled
  | .call method args => isCallee method && isSpelledAll args
  | .invoke receiver method args => receiver.isSpelled && isCodeName method && isSpelledAll args
  | .new type args => isCodeName type && isSpelledAll args
  | .newArray element items => isCodeName element && isSpelledAll items
  | .cast type x => isCodeName type && x.isSpelled
  | .cond c yes no => c.isSpelled && yes.isSpelled && no.isSpelled
  | .hole => false

/-- Every expression is spelled out. -/
def isSpelledAll : List Term → Bool
  | [] => true
  | x :: rest => x.isSpelled && isSpelledAll rest

end

mutual

/-- The same expression with static methods of a class as methods of the class's name, and integers
in 64 bits. -/
def canonical : Term → Term
  | .ident name => .ident name
  | .lit type value => .lit type value.canonical
  | .null => .null
  | .binary op x y => .binary op x.canonical y.canonical
  | .unary op x => .unary op x.canonical
  | .call method args =>
    match ExistingFunction.ofCall? method "" with
    | some g => .invoke (.ident g.className) g.method (canonicalAll args)
    | none => .call method (canonicalAll args)
  | .invoke receiver method args => .invoke receiver.canonical method (canonicalAll args)
  | .new type args => .new type (canonicalAll args)
  | .newArray element items => .newArray element (canonicalAll items)
  | .cast type x => .cast type x.canonical
  | .cond c yes no => .cond c.canonical yes.canonical no.canonical
  | .hole => .hole

/-- The same expressions in that form. -/
def canonicalAll : List Term → List Term
  | [] => []
  | x :: rest => x.canonical :: canonicalAll rest

end

mutual

/-- The same expression with static methods of a class as methods of the class's name. -/
def asMethods : Term → Term
  | .ident name => .ident name
  | .lit type value => .lit type value
  | .null => .null
  | .binary op x y => .binary op x.asMethods y.asMethods
  | .unary op x => .unary op x.asMethods
  | .call method args =>
    match ExistingFunction.ofCall? method "" with
    | some g => .invoke (.ident g.className) g.method (asMethodsAll args)
    | none => .call method (asMethodsAll args)
  | .invoke receiver method args => .invoke receiver.asMethods method (asMethodsAll args)
  | .new type args => .new type (asMethodsAll args)
  | .newArray element items => .newArray element (asMethodsAll items)
  | .cast type x => .cast type x.asMethods
  | .cond c yes no => .cond c.asMethods yes.asMethods no.asMethods
  | .hole => .hole

/-- The same expressions in that form. -/
def asMethodsAll : List Term → List Term
  | [] => []
  | x :: rest => x.asMethods :: asMethodsAll rest

end

/-- Every integer among these expressions is held in 64 bits. -/
def Wide (xs : List Term) : Prop := ∀ type k n, .lit type (.scalar (.int k n)) ∈ xs → k = .int64

theorem wide_append {xs ys : List Term} : Wide (xs ++ ys) ↔ Wide xs ∧ Wide ys := by
  simp only [Wide, List.mem_append, or_imp, forall_and]

theorem Wide.tail {x : Term} {xs : List Term} (h : Wide (x :: xs)) : Wide xs :=
  fun type k n hmem => h type k n (List.mem_cons_of_mem _ hmem)

mutual

/-- With integers in 64 bits nothing but calls has another form. -/
theorem canonical_of_wide : ∀ {x : Term}, Wide x.parts → x.canonical = x.asMethods
  | .ident _, _ | .null, _ | .hole, _ => by rw [canonical, asMethods]
  | .lit type value, h => by
    rw [canonical, asMethods]
    unfold Datum.canonical
    split
    · rename_i k n
      rw [h type k n (by simp)]
    · rfl
  | .binary .., h => by
    obtain ⟨hx, hy⟩ := wide_append.1 h.tail
    rw [canonical, asMethods, canonical_of_wide hx, canonical_of_wide hy]
  | .unary .., h | .cast .., h => by
    rw [canonical, asMethods, canonical_of_wide h.tail]
  | .call .., h => by
    rw [canonical, asMethods, canonicalAll_of_wide h.tail]
  | .new .., h | .newArray .., h => by
    rw [canonical, asMethods, canonicalAll_of_wide h.tail]
  | .invoke .., h => by
    obtain ⟨hx, hargs⟩ := wide_append.1 h.tail
    rw [canonical, asMethods, canonical_of_wide hx, canonicalAll_of_wide hargs]
  | .cond .., h => by
    obtain ⟨hc, h⟩ := wide_append.1 h.tail
    obtain ⟨hyes, hno⟩ := wide_append.1 h
    rw [canonical, asMethods, canonical_of_wide hc, canonical_of_wide hyes, canonical_of_wide hno]

theorem canonicalAll_of_wide : ∀ {xs : List Term}, Wide (partsAll xs) →
    canonicalAll xs = asMethodsAll xs
  | [], _ => by rw [canonicalAll, asMethodsAll]
  | _ :: _, h => by
    obtain ⟨hx, hxs⟩ := wide_append.1 h
    rw [canonicalAll, asMethodsAll, canonical_of_wide hx, canonicalAll_of_wide hxs]

end

theorem isCompound_canonical (x : Term) : x.canonical.isCompound = x.isCompound := by
  cases x with
  | call method args => rw [canonical]; split <;> rfl
  | _ => rw [canonical] <;> rfl

theorem isNegativeLiteral_canonical {x : Term} (h : x.isSpelled = true) :
    x.canonical.isNegativeLiteral = x.isNegativeLiteral := by
  cases x with
  | lit type value =>
    rw [isSpelled] at h
    rw [canonical, isNegativeLiteral, isNegativeLiteral, Literal.text_canonical h]
  | call method args => rw [canonical]; split <;> rfl
  | _ => rw [canonical] <;> rfl

mutual

/-- The canonical form is spelled as the expression. -/
theorem text_canonical : ∀ {x : Term}, x.isSpelled = true → x.canonical.text = x.text
  | .ident _, _ => by rw [canonical]
  | .lit _ _, h => by
    rw [isSpelled] at h
    rw [canonical, text, text, Literal.text_canonical h]
  | .null, _ => by rw [canonical]
  | .binary .., h => by
    simp only [isSpelled, Bool.and_eq_true] at h
    rw [canonical, text, text, isCompound_canonical, isCompound_canonical, text_canonical h.1.2,
      text_canonical h.2]
  | .unary .., h => by
    simp only [isSpelled, Bool.and_eq_true] at h
    rw [canonical, text, text, isCompound_canonical, isNegativeLiteral_canonical h.2,
      text_canonical h.2]
  | .call method args, h => by
    simp only [isSpelled, Bool.and_eq_true] at h
    rw [canonical]
    split
    · rename_i g hg
      -- the point between class and method is the point before the method
      rw [text, text, texts_canonicalAll h.2, ExistingFunction.eq_call hg]
      rfl
    · rw [text, text, texts_canonicalAll h.2]
  | .invoke .., h => by
    simp only [isSpelled, Bool.and_eq_true] at h
    rw [canonical, text, text, isCompound_canonical, text_canonical h.1.1, texts_canonicalAll h.2]
  | .new .., h => by
    simp only [isSpelled, Bool.and_eq_true] at h
    rw [canonical, text, text, texts_canonicalAll h.2]
  | .newArray .., h => by
    simp only [isSpelled, Bool.and_eq_true] at h
    rw [canonical, text, text, texts_canonicalAll h.2]
  | .cast .., h => by
    simp only [isSpelled, Bool.and_eq_true] at h
    rw [canonical, text, text, isCompound_canonical, text_canonical h.2]
  | .cond .., h => by
    simp only [isSpelled, Bool.and_eq_true] at h
    rw [canonical, text, text, isCompound_canonical, isCompound_canonical, isCompound_canonical,
      text_canonical h.1.1, text_canonical h.1.2, text_canonical h.2]

theorem texts_canonicalAll : ∀ {xs : List Term}, isSpelledAll xs = true →
    texts (canonicalAll xs) = texts xs
  | [], _ => by rw [canonicalAll]
  | _ :: _, h => by
    simp only [isSpelledAll, Bool.and_eq_true] at h
    rw [canonicalAll, texts, texts, text_canonical h.1, texts_canonicalAll h.2]

end

mutual

/-- Nothing keeps an expression that is spelled out from being printed. -/
theorem faults_eq_nil : ∀ {x : Term}, x.isSpelled = true → x.faults = []
  | .ident _, _ => by rw [faults]
  | .lit _ _, h => by
    rw [isSpelled] at h
    rw [faults, Literal.isMismatch_of_isSpelled h]
    rfl
  | .null, _ => by rw [faults]
  | .binary .., h => by
    simp only [isSpelled, Bool.and_eq_true] at h
    rw [faults, faults_eq_nil h.1.2, faults_eq_nil h.2]
    rfl
  | .unary .., h => by
    simp only [isSpelled, Bool.and_eq_true] at h
    rw [faults, faults_eq_nil h.2]
  | .call .., h | .new .., h | .newArray .., h => by
    simp only [isSpelled, Bool.and_eq_true] at h
    rw [faults, faultsAll_eq_nil h.2]
  | .invoke .., h => by
    simp only [isSpelled, Bool.and_eq_true] at h
    rw [faults, faults_eq_nil h.1.1, faultsAll_eq_nil h.2]
    rfl
  | .cast .., h => by
    simp only [isSpelled, Bool.and_eq_true] at h
    rw [faults, faults_eq_nil h.2]
  | .cond .., h => by
    simp only [isSpelled, Bool.and_eq_true] at h
    rw [faults, faults_eq_nil h.1.1, faults_eq_nil h.1.2, faults_eq_nil h.2]
    rfl

theorem faultsAll_eq_nil : ∀ {xs : List Term}, isSpelledAll xs = true → faultsAll xs = []
  | [], _ => by rw [faultsAll]
  | _ :: _, h => by
    simp only [isSpelledAll, Bool.and_eq_true] at h
    rw [faultsAll, faults_eq_nil h.1, faultsAll_eq_nil h.2]
    rfl

end

end Term

/-! ## Statements -/

namespace Stmt

mutual

/-- The statement is spelled out. -/
def isSpelled : Stmt → Bool
  | .decl type name value => isCodeName type && isCodeName name && value.isSpelled
  | .run x => x.isSpelled
  | .cond c yes no => c.isSpelled && isSpelledAll yes && isSpelledAll no
  | .ret value => value.isSpelled
  | .raw _ => false
  | .hole => false

/-- Every statement is spelled out. -/
def isSpelledAll : List Stmt → Bool
  | [] => true
  | s :: rest => s.isSpelled && isSpelledAll rest

end

mutual

/-- The same statement with its expressions in canonical form. -/
def canonical : Stmt → Stmt
  | .decl type name value => .decl type name value.canonical
  | .run x => .run x.canonical
  | .cond c yes no => .cond c.canonical (canonicalAll yes) (canonicalAll no)
  | .ret value => .ret value.canonical
  | .raw s => .raw s
  | .hole => .hole

/-- The same statements in that form. -/
def canonicalAll : List Stmt → List Stmt
  | [] => []
  | s :: rest => s.canonical :: canonicalAll rest

end

mutual

/-- The same statement with static methods as methods of the class's name. -/
def asMethods : Stmt → Stmt
  | .decl type name value => .decl type name value.asMethods
  | .run x => .run x.asMethods
  | .cond c yes no => .cond c.asMethods (asMethodsAll yes) (asMethodsAll no)
  | .ret value => .ret value.asMethods
  | .raw s => .raw s
  | .hole => .hole

/-- The same statements in that form. -/
def asMethodsAll : List Stmt → List Stmt
  | [] => []
  | s :: rest => s.asMethods :: asMethodsAll rest

end

mutual

theorem canonical_of_wide : ∀ {s : Stmt}, Term.Wide s.parts → s.canonical = s.asMethods
  | .decl .., h | .run _, h | .ret _, h => by
    rw [canonical, asMethods, Term.canonical_of_wide h]
  | .cond .., h => by
    obtain ⟨hc, h⟩ := Term.wide_append.1 h
    obtain ⟨hyes, hno⟩ := Term.wide_append.1 h
    rw [canonical, asMethods, Term.canonical_of_wide hc, canonicalAll_of_wide hyes,
      canonicalAll_of_wide hno]
  | .raw _, _ | .hole, _ => by rw [canonical, asMethods]

/-- With integers in 64 bits nothing but calls has another form. -/
theorem canonicalAll_of_wide : ∀ {ss : List Stmt}, Term.Wide (partsAll ss) →
    canonicalAll ss = asMethodsAll ss
  | [], _ => by rw [canonicalAll, asMethodsAll]
  | _ :: _, h => by
    obtain ⟨hs, hss⟩ := Term.wide_append.1 h
    rw [canonicalAll, asMethodsAll, canonical_of_wide hs, canonicalAll_of_wide hss]

end

theorem isEmpty_canonicalAll (ss : List Stmt) : (canonicalAll ss).isEmpty = ss.isEmpty := by
  cases ss with
  | nil => rw [canonicalAll]
  | cons s rest => rw [canonicalAll]; rfl

mutual

theorem text_canonical : ∀ {s : Stmt}, s.isSpelled = true → ∀ depth : Nat,
    s.canonical.text depth = s.text depth
  | .decl .., h, depth => by
    simp only [isSpelled, Bool.and_eq_true] at h
    rw [canonical, text, text, Term.text_canonical h.2]
  | .run _, h, depth => by
    rw [isSpelled] at h
    rw [canonical, text, text, Term.text_canonical h]
  | .cond .., h, depth => by
    simp only [isSpelled, Bool.and_eq_true] at h
    rw [canonical, text, text, Term.text_canonical h.1.1, textAll_canonicalAll h.1.2,
      textAll_canonicalAll h.2, isEmpty_canonicalAll]
  | .ret _, h, depth => by
    rw [isSpelled] at h
    rw [canonical, text, text, Term.text_canonical h]

/-- **The canonical form of statements is spelled as the statements are.** -/
theorem textAll_canonicalAll : ∀ {ss : List Stmt}, isSpelledAll ss = true → ∀ depth : Nat,
    textAll depth (canonicalAll ss) = textAll depth ss
  | [], _, _ => by rw [canonicalAll]
  | _ :: _, h, depth => by
    simp only [isSpelledAll, Bool.and_eq_true] at h
    rw [canonicalAll, textAll, textAll, text_canonical h.1, textAll_canonicalAll h.2]

end

mutual

theorem faults_eq_nil : ∀ {s : Stmt}, s.isSpelled = true → s.faults = []
  | .decl .., h => by
    simp only [isSpelled, Bool.and_eq_true] at h
    rw [faults, Term.faults_eq_nil h.2]
  | .run _, h | .ret _, h => by
    rw [isSpelled] at h
    rw [faults, Term.faults_eq_nil h]
  | .cond .., h => by
    simp only [isSpelled, Bool.and_eq_true] at h
    rw [faults, Term.faults_eq_nil h.1.1, faultsAll_eq_nil h.1.2, faultsAll_eq_nil h.2]
    rfl

theorem faultsAll_eq_nil : ∀ {ss : List Stmt}, isSpelledAll ss = true → faultsAll ss = []
  | [], _ => by rw [faultsAll]
  | _ :: _, h => by
    simp only [isSpelledAll, Bool.and_eq_true] at h
    rw [faultsAll, faults_eq_nil h.1, faultsAll_eq_nil h.2]
    rfl

end

/-- Statements that are spelled out are printed. -/
theorem print_eq_ok {ss : List Stmt} (h : isSpelledAll ss = true) (depth : Nat) :
    print depth ss = .ok (textAll depth ss) := by
  rw [print, faultsAll_eq_nil h]

end Stmt

end FactFold
