import FactFold.Number.Decimal
import FactFold.Number.Reading
import FactFold.Text.Blank

/-!
# Tokens

An expression in text form is cut into tokens: numbers, names, operators, parentheses, commas, quoted
strings and names between backticks. A minus belongs to the number after it only where no binary
minus could stand, which the token before decides.
-/

namespace FactFold

open Number (isDigit asciiLower)

/-- Why a text cannot be cut into tokens. -/
inductive TokenError where
  | empty
  | unterminatedString
  | unterminatedName
  /-- A byte that starts no token, shown as the character of its number, and its position. -/
  | unexpected (byte : UInt8) (position : Nat)
  deriving Repr, DecidableEq

/-- The wording of the reason. -/
def TokenError.message : TokenError → String
  | .empty => "empty expression"
  | .unterminatedString => "unterminated string literal"
  | .unterminatedName => "unterminated backtick identifier"
  | .unexpected b i =>
    "unexpected character '" ++ String.singleton (Char.ofNat b.toNat) ++ "' at position " ++
      Number.decimal i

namespace Token

/-- The backtick, which encloses names. -/
def backtick : Char := '\x60'

/-- The single quote. -/
def apostrophe : Char := '\x27'

/-! ## Classes -/

/-- Blanks between tokens. -/
def isSpace (c : Char) : Bool := c = ' ' || (9 ≤ c.toNat && c.toNat ≤ 13)

/-- A letter of the basic alphabet. -/
def isLetter (c : Char) : Bool := ('a' ≤ c && c ≤ 'z') || ('A' ≤ c && c ≤ 'Z')

/-- A name may start with this character. -/
def startsName (c : Char) : Bool := isLetter c || c = '_' || c = '$'

/-- A name may go on with this character. -/
def continuesName (c : Char) : Bool := startsName c || isDigit c || c = '.'

/-- The operators. -/
def operators : List String :=
  ["+", "-", "*", "/", "=", "==", "!=", "<>", ">", "<", ">=", "<="]

/-- The operator's spelling. -/
def isOperator (s : String) : Bool := operators.contains s

/-- Two words agree but for the case of their letters; keywords are spelled in the basic alphabet. -/
def sameWord (s word : String) : Bool := s.toList.map asciiLower = word.toList.map asciiLower

/-- The words of a case expression. -/
def keywords : List String := ["CASE", "WHEN", "THEN", "ELSE", "END"]

/-- A word of a case expression. -/
def isKeyword (s : String) : Bool := keywords.any (sameWord s)

/-- After this token an operand comes. -/
def expectsOperand : Option String → Bool
  | none => true
  | some last => last = "(" || last = "," || isOperator last || isKeyword last

/-! ## Cutting off one token -/

/-- The rest of a quoted string, its closing quote included, and what follows it. A backslash
protects the character after it. -/
def takeQuoted (quote : Char) : List Char → Option (List Char × List Char)
  | [] => none
  | c :: rest =>
    if c = quote then some ([c], rest)
    else if c = '\\' then
      match rest with
      | [] => none
      | d :: rest => (takeQuoted quote rest).map fun (body, tail) => (c :: d :: body, tail)
    else (takeQuoted quote rest).map fun (body, tail) => (c :: body, tail)

/-- The rest of a name between backticks, the closing one included, and what follows it. -/
def takeNamed : List Char → Option (List Char × List Char)
  | [] => none
  | c :: rest =>
    if c = backtick then some ([c], rest)
    else (takeNamed rest).map fun (body, tail) => (c :: body, tail)

/-- The fraction of a number: a point that a digit follows, and the digits. -/
def takeFraction (cs : List Char) : List Char × List Char :=
  match cs with
  | '.' :: d :: rest =>
    if isDigit d then ('.' :: (d :: rest).takeWhile isDigit, (d :: rest).dropWhile isDigit)
    else ([], cs)
  | _ => ([], cs)

/-- The exponent of a number: its letter, an optional sign, and digits, of which there may be
none. -/
def takeExponent (cs : List Char) : List Char × List Char :=
  match cs with
  | e :: rest =>
    if e = 'e' || e = 'E' then
      match rest with
      | s :: digits =>
        if s = '+' || s = '-' then
          (e :: s :: digits.takeWhile isDigit, digits.dropWhile isDigit)
        else (e :: rest.takeWhile isDigit, rest.dropWhile isDigit)
      | [] => ([e], [])
    else ([], cs)
  | [] => ([], [])

/-- An unsigned number and what follows it. -/
def takeUnsigned (cs : List Char) : List Char × List Char :=
  let whole := cs.takeWhile isDigit
  let (fraction, rest) := takeFraction (cs.dropWhile isDigit)
  let (exponent, rest) := takeExponent rest
  (whole ++ fraction ++ exponent, rest)

/-- The text starts with a digit. -/
def startsWithDigit : List Char → Bool
  | c :: _ => isDigit c
  | [] => false

/-- The number at the front of a text, where a sign may stand only if an operand is expected. -/
def takeNumber? (operand : Bool) : List Char → Option (List Char × List Char)
  | [] => none
  | c :: rest =>
    if c = '-' && operand && startsWithDigit rest then
      let (number, tail) := takeUnsigned rest
      some (c :: number, tail)
    else if isDigit c || (c = '.' && startsWithDigit rest) then some (takeUnsigned (c :: rest))
    else none

/-- The operator, parenthesis or comma at the front of a text; of two operators the longer. -/
def takeSymbol? : List Char → Option (List Char × List Char)
  | [] => none
  | c :: rest =>
    match rest with
    | d :: tail =>
      if isOperator (String.ofList [c, d]) then some ([c, d], tail)
      else if isOperator (String.ofList [c]) || c = '(' || c = ')' || c = ',' then some ([c], rest)
      else none
    | [] =>
      if isOperator (String.ofList [c]) || c = '(' || c = ')' || c = ',' then some ([c], rest)
      else none

/-- The token at the front of a text that starts with no blank, and what follows it. -/
def next (position : Nat) (operand : Bool) (c : Char) (rest : List Char) :
    Except TokenError (List Char × List Char) :=
  if c = apostrophe || c = '"' then
    match takeQuoted c rest with
    | some (body, tail) => .ok (c :: body, tail)
    | none => .error .unterminatedString
  else if c = backtick then
    match takeNamed rest with
    | some (body, tail) => .ok (c :: body, tail)
    | none => .error .unterminatedName
  else
    match (takeNumber? operand (c :: rest)).or (takeSymbol? (c :: rest)) with
    | some t => .ok t
    | none =>
      if startsName c then
        .ok ((c :: rest).takeWhile continuesName, (c :: rest).dropWhile continuesName)
      else .error (.unexpected ((String.utf8EncodeChar c).headD 0) position)

/-- Number of bytes of a text. -/
def byteLength (cs : List Char) : Nat := cs.foldl (fun n c => n + c.utf8Size) 0

/-- The tokens of a text that starts at a position after the token `last`. Every round takes at least
one character, so that the length of the text suffices as `fuel`. -/
def scanFrom (fuel : Nat) (position : Nat) (last : Option String) (cs : List Char) :
    Except TokenError (List String) :=
  match fuel, cs with
  | _, [] => .ok []
  | 0, _ => .ok []
  | fuel + 1, c :: rest =>
    if isSpace c then scanFrom fuel (position + 1) last rest
    else do
      let (token, tail) ← next position (expectsOperand last) c rest
      let t := String.ofList token
      let ts ← scanFrom fuel (position + byteLength token) (some t) tail
      pure (t :: ts)

/-- The tokens of a text. -/
def scan (text : String) : Except TokenError (List String) :=
  if (Text.trimChars text.toList).isEmpty then .error .empty
  else scanFrom text.toList.length 0 none text.toList

end Token

end FactFold
