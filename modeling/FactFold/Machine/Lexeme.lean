import FactFold.Machine.Formula
import FactFold.Number.Reading
import FactFold.Text.Blank

/-!
# Lexemes of evaluator source

The source of a formula is cut into names, numbers, quoted texts, operators and brackets. Blanks
separate them and comments count as blanks. The words that act as operators are told apart from other
names, except after a point, where the parser takes either.
-/

namespace FactFold.Machine

/-- A unit of the evaluator's language. -/
inductive Lexeme where
  | name (s : String)
  | number (s : String)
  | text (bytes : Text.Bytes)
  | operator (s : String)
  | bracket (c : Char)
  deriving Repr, DecidableEq

namespace Lexeme

/-- Words that act as operators. -/
def wordOperators : List String :=
  ["in", "or", "and", "matches", "contains", "startsWith", "endsWith", "let"]

/-- Words that a preceding negation may belong to. -/
def negatableWords : List String := ["in", "matches", "contains", "startsWith", "endsWith"]

/-- A step of reading: what was read, and the rest. -/
abbrev Step := Option (Option Lexeme × List Char)

/-- The operator that starts with a sign: some signs take a second one. -/
def operatorFrom (c : Char) (second : List Char) (rest : List Char) : Step :=
  match rest with
  | d :: rest' =>
    if second.contains d then some (some (.operator (String.ofList [c, d])), rest')
    else some (some (.operator (String.singleton c)), rest)
  | [] => some (some (.operator (String.singleton c)), [])

/-! ## Numbers -/

/-- The characters that continue a number after its base mark, if it has one. -/
def takeBase : List Char → List Char × (Char → Bool) × List Char
  | '0' :: c :: rest =>
    let digits (ds : String) (d : Char) : Bool := ds.toList.contains d
    if c = 'x' || c = 'X' then (['0', c], digits "0123456789abcdefABCDEF_", rest)
    else if c = 'o' || c = 'O' then (['0', c], digits "01234567_", rest)
    else if c = 'b' || c = 'B' then (['0', c], digits "01_", rest)
    else ([], digits "0123456789_", '0' :: c :: rest)
  | cs => ([], fun d => "0123456789_".toList.contains d, cs)

/-- The decimal part of a number; two points are a range and end it. -/
def takePlaces (isDigit : Char → Bool) : List Char → List Char × List Char
  | '.' :: '.' :: rest => ([], '.' :: '.' :: rest)
  | '.' :: rest => ('.' :: rest.takeWhile isDigit, rest.dropWhile isDigit)
  | cs => ([], cs)

/-- The exponent of a number. -/
def takePower (isDigit : Char → Bool) : List Char → List Char × List Char
  | c :: rest =>
    if c = 'e' || c = 'E' then
      let (sign, rest) := match rest with
        | '+' :: rest => (['+'], rest)
        | '-' :: rest => (['-'], rest)
        | rest => ([], rest)
      (c :: sign ++ rest.takeWhile isDigit, rest.dropWhile isDigit)
    else ([], c :: rest)
  | [] => ([], [])

/-- A number at the front of a text; no letter or digit may follow it. A range after the digits
leaves no place for an exponent. -/
def takeNumber (cs : List Char) : Step :=
  let (mark, isDigit, cs) := takeBase cs
  let whole := cs.takeWhile isDigit
  let cs := cs.dropWhile isDigit
  let (places, cs) := takePlaces isDigit cs
  let (power, rest) := takePower isDigit cs
  if (rest.head?.map isNameChar).getD false then none
  else some (some (.number (String.ofList (mark ++ whole ++ places ++ power))), rest)

/-! ## Texts -/

/-- The value of digits in a base. -/
def escapeValue? (value? : Char → Option Nat) (base : Nat) (ds : List Char) : Option Nat :=
  Text.digitsValue? value? base ds

/-- The bytes of the character an escape denotes. -/
def escapeBytes? (n : Nat) : Option Text.Bytes :=
  if n < 0x110000 then
    some (String.utf8EncodeChar (if n.isValidChar then Char.ofNat n else '\ufffd'))
  else none

/-- An escape after its backslash, and the rest; `mark` is the quote in use. -/
def takeEscape? (mark : Char) : List Char → Option (Text.Bytes × List Char)
  | 'x' :: a :: b :: rest => do
    pure (← escapeBytes? (← escapeValue? Text.hexValue? 16 [a, b]), rest)
  | 'u' :: a :: b :: c :: d :: rest => do
    pure (← escapeBytes? (← escapeValue? Text.hexValue? 16 [a, b, c, d]), rest)
  | 'U' :: a :: b :: c :: d :: e :: f :: g :: h :: rest => do
    pure (← escapeBytes? (← escapeValue? Text.hexValue? 16 [a, b, c, d, e, f, g, h]), rest)
  | c :: rest =>
    if c = mark then some (String.utf8EncodeChar c, rest)
    else if c = '"' then none
    else
      match Text.escapeLetter? c with
      | some b => some ([b], rest)
      | none =>
        match rest with
        | b :: d :: rest =>
          if '0' ≤ c && c ≤ '3' then do
            pure (← escapeBytes? (← escapeValue? Text.octalValue? 8 [c, b, d]), rest)
          else none
        | _ => none
  | [] => none

/-- The text up to its closing quote, and the rest. Every round takes a character, so that the
length of the source suffices as `fuel`. -/
def takeText? (mark : Char) : (fuel : Nat) → List Char → Option (Text.Bytes × List Char)
  | 0, _ | _, [] => none
  | fuel + 1, c :: rest =>
    if c = mark then some ([], rest)
    else if c = '\n' then none
    else if c = '\\' then do
      let (bs, rest) ← takeEscape? mark rest
      let (more, rest) ← takeText? mark fuel rest
      pure (bs ++ more, rest)
    else do
      let (more, rest) ← takeText? mark fuel rest
      -- line ends of every kind read as one
      pure (String.utf8EncodeChar (if c = '\r' then '\n' else c) ++ more, rest)

/-- The text between back quotes, where a doubled one stands for itself. -/
def takeRaw? : List Char → Option (Text.Bytes × List Char)
  | '\x60' :: '\x60' :: rest => do
    let (more, rest) ← takeRaw? rest
    pure ([0x60] ++ more, rest)
  | '\x60' :: rest => some ([], rest)
  | c :: rest => do
    let (more, rest) ← takeRaw? rest
    pure (String.utf8EncodeChar c ++ more, rest)
  | [] => none

/-! ## Comments and words -/

/-- What follows a comment that ends with its line. -/
def skipLine : List Char → List Char
  | [] => []
  | '\n' :: rest => rest
  | _ :: rest => skipLine rest

/-- What follows a comment that ends with its mark. -/
def skipComment? : List Char → Option (List Char)
  | '*' :: '/' :: rest => some rest
  | _ :: rest => skipComment? rest
  | [] => none

/-- A word at the front of a text. -/
def takeWord (cs : List Char) : Lexeme × List Char :=
  let word := String.ofList (cs.takeWhile isNameChar)
  let rest := cs.dropWhile isNameChar
  if word = "not" || wordOperators.contains word then (.operator word, rest) else (.name word, rest)

/-! ## Reading -/

/-- The lexeme or the blank at the front of a text that is not empty. -/
def next (fuel : Nat) (c : Char) (rest : List Char) : Step :=
  if Text.isBlank c then some (none, rest)
  else if c = '\x27' || c = '"' then
    (takeText? c fuel rest).map fun (bs, rest) => (some (.text bs), rest)
  else if c = '\x60' then
    (takeRaw? rest).map fun (bs, rest) => (some (.text bs), rest)
  else if Number.isDigit c then takeNumber (c :: rest)
  else if c = '?' then operatorFrom c ['.', '?'] rest
  else if c = '/' then
    match rest with
    | '/' :: rest => some (none, skipLine rest)
    | '*' :: rest => (skipComment? rest).map fun rest => (none, rest)
    | rest => some (some (.operator "/"), rest)
  else if c = '|' then operatorFrom c ['|'] rest
  else if "([\x7b)]\x7d".toList.contains c then some (some (.bracket c), rest)
  else if ",:;%+-^".toList.contains c then some (some (.operator (String.singleton c)), rest)
  else if "&!=*<>".toList.contains c then operatorFrom c ['&', '=', '*'] rest
  else if c = '.' then
    match rest with
    | d :: _ => if Number.isDigit d then takeNumber (c :: rest) else operatorFrom c ['.'] rest
    | [] => operatorFrom c ['.'] rest
  else if isNameChar c then
    let (w, rest) := takeWord (c :: rest)
    some (some w, rest)
  else none

/-- The lexemes of a text. Every round takes a character, so that the length of the text suffices as
`fuel`. -/
def scan? : (fuel : Nat) → List Char → Option (List Lexeme)
  | 0, _ | _, [] => some []
  | fuel + 1, c :: rest => do
    let (lexeme, rest) ← next fuel c rest
    let more ← scan? fuel rest
    pure (lexeme.toList ++ more)

end Lexeme

end FactFold.Machine
