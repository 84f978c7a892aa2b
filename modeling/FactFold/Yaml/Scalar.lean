import FactFold.Text.Quoted
import FactFold.Yaml.Cursor

/-!
# Scalars

A scalar is a text written plainly, between quotes, or as a block of lines. Where a scalar other than
a block goes over several lines, a line break within it counts as one blank, and every further break
as a line feed; the blanks around breaks do not count. A plain scalar ends at a comment, at a colon
before a gap, and within brackets at any of their marks.
-/

namespace FactFold.Yaml

/-- A scalar. -/
structure Scalar where
  text : String
  /-- Written neither between quotes nor as a block. -/
  plain : Bool
  /-- The tag that tells what the scalar stands for, if it is given. -/
  tag : Option String := none
  deriving Repr, DecidableEq

/-! ## Gaps between words -/

/-- What stands between two words of a scalar. -/
structure Gap where
  /-- The blanks, while there is no line break. -/
  blanks : List Char := []
  /-- There is a line break. -/
  broken : Bool := false
  /-- What the first line break stands for; nothing when it was escaped. -/
  first : List Char := []
  /-- What the later line breaks stand for. -/
  later : List Char := []

namespace Gap

/-- Adds a line break. -/
def addBreak (g : Gap) (stands : List Char) : Gap :=
  if g.broken then { g with later := g.later ++ stands }
  else { broken := true, first := stands }

/-- The text a gap stands for. -/
def text (g : Gap) : List Char :=
  if !g.broken then g.blanks
  else if g.first.head? = some '\n' then if g.later.isEmpty then [' '] else g.later
  else g.first ++ g.later

/-- Reads a gap; a tabulator may not stand before the column `indent` of a new line. Every round takes
a character, so that the length of the text suffices as `fuel`. -/
def takeFrom? (indent : Int) (fuel : Nat) (g : Gap) (c : Cursor) : Option (Gap × Cursor) :=
  match fuel, c.rest with
  | 0, _ | _, [] => some (g, c)
  | fuel + 1, ch :: _ =>
    if isBlank ch then
      if !g.broken then takeFrom? indent fuel { g with blanks := g.blanks ++ [ch] } (c.advance 1)
      else if ch = '\t' && (c.column : Int) < indent then none
      else takeFrom? indent fuel g (c.advance 1)
    else if isBreak ch then
      let (stands, c) := c.takeBreak
      takeFrom? indent fuel (g.addBreak stands) c
    else some (g, c)

/-- Reads a gap that continues a given one. -/
def take? (indent : Int) (g : Gap) (c : Cursor) : Option (Gap × Cursor) :=
  takeFrom? indent c.rest.length g c

end Gap

/-! ## Plain scalars -/

/-- A mark of lists and mappings in brackets. -/
def isBracketMark (c : Char) : Bool :=
  c = ',' || c = '?' || c = '[' || c = ']' || c = '\x7b' || c = '\x7d'

/-- The character ends a plain scalar before the rest of the text. -/
def endsPlain (inBrackets : Bool) (c : Char) (rest : List Char) : Bool :=
  (c = ':' && isGap rest) || (inBrackets && isBracketMark c)

/-- A word of a plain scalar. -/
def takeWord (inBrackets : Bool) : List Char → List Char
  | [] => []
  | c :: rest =>
    if isSpace c || endsPlain inBrackets c rest then [] else c :: takeWord inBrackets rest

/-- Reads a plain scalar from a gap on, with the text so far. Its lines, outside brackets, start at
the column `indent` or later. The result tells whether the scalar ends with a line break. Every round
takes a word, so that the length of the text suffices as `fuel`. -/
def plainFrom? (inBrackets : Bool) (indent : Int) (fuel : Nat) (text : List Char) (g : Gap)
    (c : Cursor) : Option (List Char × Bool × Cursor) :=
  match fuel with
  | 0 => some (text, g.broken, c)
  | fuel + 1 =>
    if c.atDocumentMark || c.isAt '#' then some (text, g.broken, c)
    else
      let word := takeWord inBrackets c.rest
      if word.isEmpty then some (text, g.broken, c)
      else
        let text := text ++ g.text ++ word
        let c := c.advance word.length
        if !c.has isSpace then some (text, false, c)
        else do
          let (g, c) ← Gap.take? indent {} c
          if !inBrackets && (c.column : Int) < indent then pure (text, g.broken, c)
          else plainFrom? inBrackets indent fuel text g c

/-- Reads a plain scalar, and tells whether it ends with a line break. -/
def plain? (inBrackets : Bool) (indent : Int) (c : Cursor) : Option (Scalar × Bool × Cursor) := do
  let (text, broken, c) ← plainFrom? inBrackets indent (c.rest.length + 1) [] {} c
  pure (⟨String.ofList text, true, none⟩, broken, c)

/-! ## Quoted scalars -/

/-- The character of a number given in hexadecimal digits. -/
def hexChar? (digits : List Char) : Option Char := do
  let n ← Text.digitsValue? Text.hexValue? 16 digits
  if n.isValidChar then pure (Char.ofNat n) else none

/-- The number of hexadecimal digits after the letter of an escape. -/
def escapeWidth : Char → Nat
  | 'x' => 2
  | 'u' => 4
  | 'U' => 8
  | _ => 0

/-- The character a letter stands for after a backslash. -/
def escapeLetter? : Char → Option Char
  | '0' => some '\x00'
  | 'a' => some '\x07'
  | 'b' => some '\x08'
  | 't' | '\t' => some '\t'
  | 'n' => some '\n'
  | 'v' => some '\x0b'
  | 'f' => some '\x0c'
  | 'r' => some '\r'
  | 'e' => some '\x1b'
  | ' ' => some ' '
  | '"' => some '"'
  | '\x27' => some '\x27'
  | '\\' => some '\\'
  | 'N' => some '\u0085'
  | '_' => some '\u00a0'
  | 'L' => some '\u2028'
  | 'P' => some '\u2029'
  | _ => none

/-- What an escape stands for, from the characters after the backslash, with how many of them belong
to it. -/
def escape? : List Char → Option (Char × Nat)
  | [] => none
  | c :: rest =>
    let width := escapeWidth c
    if width = 0 then (escapeLetter? c).map fun ch => (ch, 1)
    else if rest.length < width then none
    else (hexChar? (rest.take width)).map fun ch => (ch, width + 1)

/-- A word of a quoted scalar up to a gap or the closing quote, with the text so far. The result tells
whether an escaped line break ends it. -/
def quotedWord? (quote : Char) (fuel : Nat) (text : List Char) (c : Cursor) :
    Option (List Char × Bool × Cursor) :=
  match fuel, c.rest with
  | 0, _ | _, [] => some (text, false, c)
  | fuel + 1, ch :: rest =>
    if isSpace ch then some (text, false, c)
    else if ch = quote then
      if quote = '\x27' && rest.head? = some '\x27' then
        quotedWord? quote fuel (text ++ ['\x27']) (c.advance 2)
      else some (text, false, c)
    else if quote = '"' && ch = '\\' then
      if rest.head?.any isBreak then some (text, true, (c.advance 1).takeBreak.2)
      else do
        let (stands, n) ← escape? rest
        quotedWord? quote fuel (text ++ [stands]) (c.advance (n + 1))
    else quotedWord? quote fuel (text ++ [ch]) (c.advance 1)

/-- Reads a quoted scalar up to its closing quote, with the text so far. Every round takes a gap, so
that the length of the text suffices as `fuel`. -/
def quotedFrom? (quote : Char) (fuel : Nat) (text : List Char) (c : Cursor) :
    Option (List Char × Cursor) :=
  match fuel with
  | 0 => none
  | fuel + 1 =>
    if c.atDocumentMark || c.rest.isEmpty then none
    else do
      let (text, escaped, c) ← quotedWord? quote c.rest.length text c
      if c.isAt quote then pure (text, c.advance 1)
      else
        let (g, c) ← Gap.take? 0 { broken := escaped } c
        quotedFrom? quote fuel (text ++ g.text) c

/-- Reads a scalar from its opening quote on. -/
def quoted? (c : Cursor) : Option (Scalar × Cursor) := do
  let quote ← c.rest.head?
  let (text, c) ← quotedFrom? quote (c.rest.length + 1) [] (c.advance 1)
  pure (⟨String.ofList text, false, none⟩, c)

/-! ## Blocks of lines -/

/-- What is kept of the line breaks at the end of a block. -/
inductive Ending where
  | none
  | one
  | all
  deriving Repr, DecidableEq

/-- The mark for what is kept at the end of a block. -/
def takeEnding (c : Cursor) : Ending × Cursor :=
  if c.isAt '+' then (.all, c.advance 1)
  else if c.isAt '-' then (.none, c.advance 1)
  else (.one, c)

/-- The digit for the indentation of a block, zero when there is none; a zero cannot be given. -/
def takeDepth? (c : Cursor) : Option (Nat × Cursor) :=
  match c.rest with
  | ch :: _ =>
    if ch = '0' then none
    else if '1' ≤ ch && ch ≤ '9' then some (ch.toNat - 48, c.advance 1)
    else some (0, c)
  | [] => some (0, c)

/-- The marks after the one that starts a block, in either order. -/
def blockMarks? (c : Cursor) : Option (Ending × Nat × Cursor) :=
  if c.isAt '+' || c.isAt '-' then do
    let (ending, c) := takeEnding c
    let (depth, c) ← takeDepth? c
    pure (ending, depth, c)
  else do
    let (depth, c) ← takeDepth? c
    let (ending, c) := if depth = 0 then (Ending.one, c) else takeEnding c
    pure (ending, depth, c)

/-- Passes over indentation and void lines, and gives the line breaks and the deepest indentation. An
unknown indentation is zero. -/
def blockBreaks? (indent : Nat) (fuel : Nat) (deepest : Nat) (breaks : List Char) (c : Cursor) :
    Option (Nat × List Char × Cursor) :=
  match fuel with
  | 0 => some (deepest, breaks, c)
  | fuel + 1 =>
    let blanks := (c.rest.takeWhile (· = ' ')).length
    let c := c.advance (if indent = 0 then blanks else min blanks (indent - c.column))
    let deepest := max deepest c.column
    if (indent = 0 || c.column < indent) && c.isAt '\t' then none
    else if c.has isBreak then
      let (stands, c) := c.takeBreak
      blockBreaks? indent fuel deepest (breaks ++ stands) c
    else some (deepest, breaks, c)

/-- A block as far as it has been read. -/
structure Block where
  text : List Char := []
  /-- What the break after the last line stands for. -/
  last : List Char := []
  /-- What the void lines after it stand for. -/
  void : List Char := []
  /-- The last line starts with a blank. -/
  blank : Bool := false

/-- Reads the lines of a block. Every round takes a line, so that the length of the text suffices as
`fuel`. -/
def blockLines? (literal : Bool) (indent : Nat) (fuel : Nat) (b : Block) (c : Cursor) :
    Option (Block × Cursor) :=
  match fuel with
  | 0 => some (b, c)
  | fuel + 1 =>
    if c.column ≠ indent || c.rest.isEmpty then some (b, c)
    else do
      let blank := c.has isBlank
      let folds := !literal && !b.blank && !blank && b.last.head? = some '\n'
      let between := if folds then (if b.void.isEmpty then [' '] else []) else b.last
      let line := c.rest.takeWhile fun ch => !isBreak ch
      let (last, c) := c.skipToBreak.takeBreak
      let (_, void, c) ← blockBreaks? indent (c.rest.length + 1) 0 [] c
      blockLines? literal indent fuel
        { text := b.text ++ between ++ b.void ++ line, last := last, void := void, blank := blank } c

/-- Reads a block from the mark that starts it on, in a collection of the given indentation. -/
def block? (indent : Int) (c : Cursor) : Option (Scalar × Cursor) := do
  let literal := c.isAt '|'
  let (ending, depth, c) ← blockMarks? (c.advance 1)
  let c := c.skipWhile isBlank
  let c := if c.isAt '#' then c.skipToBreak else c
  if !endsOr isBreak c.rest then none
  else
    let c := c.takeBreak.2
    let known := if depth = 0 then 0 else ((max indent 0) + depth).toNat
    let (deepest, void, c) ← blockBreaks? known (c.rest.length + 1) 0 [] c
    let own := if known = 0 then max (max deepest (indent + 1).toNat) 1 else known
    let (b, c) ← blockLines? literal own (c.rest.length + 1) { void := void } c
    let tail :=
      match ending with
      | .none => []
      | .one => b.last
      | .all => b.last ++ b.void
    pure (⟨String.ofList (b.text ++ tail), false, none⟩, c)

end FactFold.Yaml
