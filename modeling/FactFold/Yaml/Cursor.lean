/-!
# Places in a text

Documents are read from the front. A cursor is what is left of the text together with its place: how
many characters came before it, on which line it is, and in which column. A line ends with a line
feed, a carriage return, both of them, or one of three rarer breaks; all but two of these stand for a
line feed.
-/

namespace FactFold.Yaml

/-- A blank within a line. -/
def isBlank (c : Char) : Bool := c = ' ' || c = '\t'

/-- A line break. -/
def isBreak (c : Char) : Bool :=
  c = '\n' || c = '\r' || c = '\u0085' || c = '\u2028' || c = '\u2029'

/-- A blank or a line break. -/
def isSpace (c : Char) : Bool := isBlank c || isBreak c

/-- The text ends here, or goes on with a character of some sort. -/
def endsOr (p : Char → Bool) : List Char → Bool
  | [] => true
  | c :: _ => p c

/-- A blank, a line break or the end of the text comes next. -/
def isGap (cs : List Char) : Bool := endsOr isSpace cs

/-- A document may hold the character: no control character but tabulators and line breaks. -/
def isAllowed (c : Char) : Bool :=
  let n := c.toNat
  n = 0x09 || n = 0x0a || n = 0x0d || (0x20 ≤ n && n ≤ 0x7e) || n = 0x85 ||
    (0xa0 ≤ n && n ≤ 0xfffd) || 0x10000 ≤ n

/-- A place in a text. -/
structure Cursor where
  rest : List Char
  index : Nat := 0
  line : Nat := 0
  column : Nat := 0

namespace Cursor

/-- Passes over characters of a line. -/
def advance (c : Cursor) (n : Nat) : Cursor :=
  { c with rest := c.rest.drop n, index := c.index + n, column := c.column + n }

/-- Passes over all characters of some sort, of which none is a line break. -/
def skipWhile (p : Char → Bool) (c : Cursor) : Cursor := c.advance (c.rest.takeWhile p).length

/-- Passes over what is left of the line. -/
def skipToBreak (c : Cursor) : Cursor := c.skipWhile fun ch => !isBreak ch

/-- Passes over a line break, and tells what it stands for. -/
def takeBreak (c : Cursor) : List Char × Cursor :=
  let next (n : Nat) : Cursor :=
    { rest := c.rest.drop n, index := c.index + n, line := c.line + 1, column := 0 }
  match c.rest with
  | '\r' :: '\n' :: _ => (['\n'], next 2)
  | ch :: _ =>
    if ch = '\u2028' || ch = '\u2029' then ([ch], next 1)
    else if isBreak ch then (['\n'], next 1)
    else ([], c)
  | [] => ([], c)

/-- The next character is a given one. -/
def isAt (c : Cursor) (ch : Char) : Bool := c.rest.head? = some ch

/-- The next character is of some sort. -/
def has (c : Cursor) (p : Char → Bool) : Bool := c.rest.head?.any p

/-- The line starts with a mark of three characters that stands alone. -/
def atMark (c : Cursor) (mark : String) : Bool :=
  c.column = 0 && c.rest.take 3 = mark.toList && isGap (c.rest.drop 3)

/-- The line starts or ends a document. -/
def atDocumentMark (c : Cursor) : Bool := c.atMark "---" || c.atMark "..."

end Cursor

end FactFold.Yaml
