import FactFold.Yaml.Token

/-!
# The queue of tokens

Tokens are taken from the text one after the other and wait in a queue until the document is built
from them. Indentation decides where lists and mappings outside brackets start and end. Whether a
scalar or a bracket starts a key shows only at the colon after it, on the same line and not too far
away; until then the place is remembered, and the tokens for the key and for its mapping are put in
there afterwards, or at the end when the place has left the queue. A place in the column of a mapping
has to turn out as a key.

The queue is filled only as far as needed: two tokens beyond the first, and on as long as the first is
awaited, since it may still turn out to be a key. What is wrong with the text further on does not
matter then. An opening bracket is no longer awaited once it is closed with no place for a key seen in
between.
-/

namespace FactFold.Yaml

/-- A place where a key may have started. -/
structure KeyPlace where
  /-- The place may still turn out as a key. -/
  possible : Bool
  /-- The place has to turn out as a key. -/
  required : Bool
  /-- The number of the token there. -/
  number : Nat
  index : Nat
  line : Nat
  column : Nat

/-- How far a colon may be from the start of its key. -/
def keyLimit : Nat := 1024

/-- A colon at a cursor would make a key of the place. -/
def KeyPlace.holds (k : KeyPlace) (c : Cursor) : Bool :=
  k.line = c.line && c.index ≤ k.index + keyLimit

/-- The tokens that wait, and how far the text has been read. -/
structure Queue where
  cursor : Cursor
  tokens : List Token := []
  /-- The number of tokens that have left the queue. -/
  taken : Nat := 0
  /-- The column of the innermost list or mapping by indentation. -/
  indent : Int := -1
  /-- The columns of those around it. -/
  outer : List Int := []
  /-- A key may start here. -/
  keyAllowed : Bool := true
  /-- Where a key may have started, for every bracket that is open and for the outside of all,
  innermost first. -/
  keys : List KeyPlace := [⟨false, false, 0, 0, 0, 0⟩]
  /-- The numbers of the tokens that are awaited, with how many brackets are open around each. -/
  awaited : List (Nat × Nat) := []

namespace Queue

/-- Some bracket is open. -/
def inBrackets (q : Queue) : Bool := 1 < q.keys.length

/-- Adds a token. -/
def push (q : Queue) (t : Token) : Queue := { q with tokens := q.tokens ++ [t] }

/-- Adds a token at the cursor `c` after it. -/
def pushAt (q : Queue) (t : Token) (c : Cursor) : Queue := { q.push t with cursor := c }

/-- Adds a token of one character. -/
def pushMark (q : Queue) (t : Token) : Queue := q.pushAt t (q.cursor.advance 1)

/-- Puts a token in before those of a number on, and at the end when that number has left. -/
def insert (q : Queue) (number : Nat) (t : Token) : Queue :=
  if number < q.taken then q.push t
  else
    let n := number - q.taken
    { q with tokens := q.tokens.take n ++ t :: q.tokens.drop n }

/-- The number of the next token. -/
def nextNumber (q : Queue) : Nat := q.taken + q.tokens.length

/-- The cursor as a place for a key, before the next token. -/
def placeHere (q : Queue) (possible : Bool) : KeyPlace :=
  { possible := possible
    required := possible && !q.inBrackets && q.indent = q.cursor.column
    number := q.nextNumber
    index := q.cursor.index
    line := q.cursor.line
    column := q.cursor.column }

/-- The place where a key may have started inside the innermost bracket, if it may still. -/
def place? (q : Queue) : Option KeyPlace := q.keys.head?.filter (·.possible)

/-- Sets the place where a key may have started inside the innermost bracket. -/
def setPlace (q : Queue) (k : KeyPlace) : Queue := { q with keys := k :: q.keys.drop 1 }

/-- The token of a number is no longer awaited. -/
def unawait (q : Queue) (number : Nat) : Queue :=
  { q with awaited := q.awaited.filter (·.1 ≠ number) }

/-- Gives up the place where a key may have started; none when it had to be a key. -/
def dropKey? (q : Queue) : Option Queue :=
  match q.place? with
  | some k =>
    if k.required then none
    else some ((q.setPlace { k with possible := false }).unawait k.number)
  | none => some q

/-- Remembers that a key may start here, if it may. -/
def saveKey? (q : Queue) : Option Queue :=
  if q.keyAllowed then do
    let k := q.placeHere true
    let q ← q.dropKey?
    let q := (q.setPlace k).unawait k.number
    pure { q with awaited := (k.number, q.keys.length - 1) :: q.awaited }
  else some q

/-! ## Indentation -/

/-- Starts a list or mapping in a column, if it is deeper than the innermost one; its token goes
before those of a number on. -/
def deepen (q : Queue) (column : Nat) (number : Nat) (t : Token) : Queue :=
  if q.inBrackets || (column : Int) ≤ q.indent then q
  else { q.insert number t with indent := column, outer := q.indent :: q.outer }

/-- Starts a list or mapping here, if it is deeper than the innermost one. -/
def deepenHere (q : Queue) (t : Token) : Queue :=
  q.deepen q.cursor.column q.nextNumber t

/-- How many of the columns lie beyond a column, and what is left of them. -/
def columnsLeft (column : Int) (indent : Int) : List Int → Nat × Int × List Int
  | [] => (0, indent, [])
  | next :: rest =>
    if column < indent then
      let (n, indent, outer) := columnsLeft column next rest
      (n + 1, indent, outer)
    else (0, indent, next :: rest)

/-- Ends the lists and mappings beyond a column. -/
def dedent (q : Queue) (column : Int) : Queue :=
  if q.inBrackets then q
  else
    let (n, indent, outer) := columnsLeft column q.indent q.outer
    { q with
      indent := indent
      outer := outer
      tokens := q.tokens ++ List.replicate n .blockEnd }

/-! ## Between tokens -/

/-- Passes over blanks and line breaks. -/
def skipSpace (fuel : Nat) (c : Cursor) : Cursor :=
  match fuel with
  | 0 => c
  | fuel + 1 =>
    let c := c.skipWhile isBlank
    if c.has isBreak then skipSpace fuel c.takeBreak.2 else c

/-- Passes over a comment, and over the comments that follow with nothing but space between them. -/
def skipComments (fuel : Nat) (c : Cursor) : Cursor :=
  match fuel with
  | 0 => c
  | fuel + 1 =>
    let c := c.skipToBreak
    let next := skipSpace (c.rest.length + 1) c
    if next.isAt '#' then skipComments fuel next else c

/-- Goes to the next token. Tabulators do not count as blanks where a key may start. A key may start
on a new line outside brackets. -/
def toToken (fuel : Nat) (q : Queue) : Queue :=
  match fuel with
  | 0 => q
  | fuel + 1 =>
    let c := q.cursor
    let c := if c.column = 0 && c.isAt '\ufeff' then c.advance 1 else c
    let tabs := q.inBrackets || !q.keyAllowed
    let c := c.skipWhile fun ch => ch = ' ' || (tabs && ch = '\t')
    let c := if c.isAt '#' then skipComments c.rest.length c else c
    if c.has isBreak then
      toToken fuel { q with cursor := c.takeBreak.2, keyAllowed := q.keyAllowed || !q.inBrackets }
    else { q with cursor := c }

/-- Passes over the comment behind a token. -/
def skipRemark (q : Queue) : Queue :=
  let c := q.cursor.skipWhile isBlank
  if c.isAt '#' then { q with cursor := c.skipToBreak } else q

/-! ## Taking tokens -/

/-- The text has ended. -/
def takeEnd? (q : Queue) : Option Queue := do
  let c := q.cursor
  let c := if c.column = 0 then c else { c with line := c.line + 1, column := 0 }
  let q ← ({ q with cursor := c }.dedent (-1)).dropKey?
  pure ({ q with keyAllowed := false }.push .streamEnd)

/-- A mark of three characters that starts or ends a document. -/
def takeDocumentMark? (q : Queue) (t : Token) : Option Queue := do
  let q ← (q.dedent (-1)).dropKey?
  pure ({ q with keyAllowed := false }.pushAt t (q.cursor.advance 3))

/-- A directive. -/
def takeDirective? (q : Queue) : Option Queue := do
  let q ← (q.dedent (-1)).dropKey?
  let (t, c) ← directive? q.cursor
  pure ({ q with keyAllowed := false }.pushAt t c)

/-- An opening bracket. -/
def takeOpen? (q : Queue) (t : Token) : Option Queue := do
  let q ← q.saveKey?
  pure ({ q with keys := q.placeHere false :: q.keys, keyAllowed := true }.pushMark t)

/-- Leaves the innermost bracket; the token of its last place is no longer awaited. -/
def leave (q : Queue) : Queue :=
  match q.keys with
  | k :: outer :: rest => { q with keys := outer :: rest }.unawait k.number
  | _ => q

/-- A closing bracket. -/
def takeClose? (q : Queue) (t : Token) : Option Queue := do
  let q ← q.dropKey?
  pure ({ q.leave with keyAllowed := false }.pushMark t)

/-- A comma within brackets. -/
def takeComma? (q : Queue) : Option Queue := do
  let q ← q.dropKey?
  pure ({ q with keyAllowed := true }.pushMark .comma)

/-- The dash of an item. -/
def takeItem? (q : Queue) : Option Queue :=
  if !q.inBrackets && !q.keyAllowed then none
  else do
    let q ← (q.deepenHere .listStart).dropKey?
    pure ({ q with keyAllowed := true }.pushMark .item)

/-- The mark of a key of any sort. -/
def takeKey? (q : Queue) : Option Queue :=
  if !q.inBrackets && !q.keyAllowed then none
  else do
    let q ← (q.deepenHere .mappingStart).dropKey?
    pure ({ q with keyAllowed := !q.inBrackets }.pushMark .key)

/-- A colon after a key of any sort. -/
def takeLongValue? (q : Queue) : Option Queue :=
  if !q.inBrackets && !q.keyAllowed then none
  else
    let q := q.deepenHere .mappingStart
    some ({ q with keyAllowed := !q.inBrackets }.pushMark .value)

/-- A colon, which makes a key of the place where one may have started. -/
def takeValue? (q : Queue) : Option Queue :=
  match q.place? with
  | none => q.takeLongValue?
  | some k =>
    if k.holds q.cursor then
      let q := (q.insert k.number .key).deepen k.column k.number .mappingStart
      let q := (q.setPlace { k with possible := false }).unawait k.number
      some ({ q with keyAllowed := false }.pushMark .value)
    else if k.required then none
    else (q.setPlace { k with possible := false }).takeLongValue?

/-- A name after its mark. -/
def takeName? (q : Queue) (t : String → Token) : Option Queue := do
  let q ← q.saveKey?
  let (name, c) ← name? q.cursor
  pure ({ q with keyAllowed := false }.pushAt (t name) c)

/-- A tag. -/
def takeTag? (q : Queue) : Option Queue := do
  let q ← q.saveKey?
  let (t, c) ← tag? q.cursor
  pure ({ q with keyAllowed := false }.pushAt t c)

/-- A block of lines. -/
def takeBlock? (q : Queue) : Option Queue := do
  let q ← q.dropKey?
  let (s, c) ← block? q.indent q.cursor
  pure ({ q with keyAllowed := true }.pushAt (.scalar s) c)

/-- A scalar between quotes. -/
def takeQuoted? (q : Queue) : Option Queue := do
  let q ← q.saveKey?
  let (s, c) ← quoted? q.cursor
  pure ({ q with keyAllowed := false }.pushAt (.scalar s) c)

/-- A plain scalar. A key may start behind it if it ends with a line break. -/
def takePlain? (q : Queue) : Option Queue := do
  let q ← q.saveKey?
  let (s, broken, c) ← plain? q.inBrackets (q.indent + 1) q.cursor
  let q := { q with keyAllowed := broken }.pushAt (.scalar s) c
  pure (if broken then q else q.skipRemark)

/-- The characters that start no plain scalar, or only before some others. -/
def isMark (c : Char) : Bool :=
  ['-', '?', ':', ',', '[', ']', '\x7b', '\x7d', '#', '&', '*', '!', '|', '>', '\x27', '"', '%', '@',
    '\x60'].contains c

/-- A plain scalar starts with a character before the rest of the text. -/
def startsPlain (inBrackets : Bool) (c : Char) (rest : List Char) : Bool :=
  !(isSpace c || isMark c) || (c = '-' && !rest.head?.any isBlank) ||
    (!inBrackets && (c = '?' || c = ':') && !isGap rest)

/-- Takes the token that starts with a character before the rest of the text. -/
def takeToken? (q : Queue) (c : Char) (rest : List Char) : Option Queue :=
  if c = '[' then skipRemark <$> q.takeOpen? .openList
  else if c = '\x7b' then skipRemark <$> q.takeOpen? .openMapping
  else if c = ']' then skipRemark <$> q.takeClose? .closeList
  else if c = '\x7d' then skipRemark <$> q.takeClose? .closeMapping
  else if c = ',' then skipRemark <$> q.takeComma?
  else if c = '-' && isGap rest then q.takeItem?
  else if c = '?' && (q.inBrackets || isGap rest) then skipRemark <$> q.takeKey?
  else if c = ':' && (q.inBrackets || isGap rest) then skipRemark <$> q.takeValue?
  else if c = '*' then skipRemark <$> q.takeName? .alias
  else if c = '&' then skipRemark <$> q.takeName? .anchor
  else if c = '!' then skipRemark <$> q.takeTag?
  else if (c = '|' || c = '>') && !q.inBrackets then q.takeBlock?
  else if c = '\x27' || c = '"' then skipRemark <$> q.takeQuoted?
  else if startsPlain q.inBrackets c rest then q.takePlain?
  else none

/-- Takes the next token from the text, none when there is none it could be. -/
def takeNext? (q : Queue) : Option Queue :=
  let q := q.toToken (q.cursor.rest.length + 1)
  let q := q.dedent q.cursor.column
  let c := q.cursor
  match c.rest with
  | [] => q.takeEnd?
  | ch :: rest =>
    if c.column = 0 && ch = '%' then q.takeDirective?
    else if c.atMark "---" then q.takeDocumentMark? .documentStart
    else if c.atMark "..." then q.takeDocumentMark? .documentEnd
    else q.takeToken? ch rest

/-! ## Filling the queue -/

/-- The place of the first token, if it is awaited. -/
def firstPlace? (q : Queue) : Option KeyPlace :=
  (q.awaited.lookup q.taken).bind fun depth => (q.keys.reverse[depth]?).filter (·.possible)

/-- Fills the queue as far as needed. Every round takes a token, so that the length of the text and
some more suffices as `fuel`. -/
def fill? (fuel : Nat) (q : Queue) : Option Queue :=
  match fuel with
  | 0 => some q
  | fuel + 1 =>
    if q.tokens.length < 3 then q.takeNext? >>= fill? fuel
    else
      match q.firstPlace? with
      | none => some q
      | some k =>
        if k.holds q.cursor then q.takeNext? >>= fill? fuel
        else if k.required then none
        else some q

/-- The first token, with the queue filled. -/
def peek? (q : Queue) : Option (Token × Queue) := do
  let q ← q.fill? (q.cursor.rest.length + 4)
  let t ← q.tokens.head?
  pure (t, q)

/-- The queue without its first token. -/
def drop (q : Queue) : Queue := { q with tokens := q.tokens.drop 1, taken := q.taken + 1 }

/-- The queue before a text. A byte order mark in front does not count. -/
def start (cs : List Char) : Queue :=
  { cursor := { rest := if cs.head? = some '\ufeff' then cs.drop 1 else cs } }

end Queue

end FactFold.Yaml
