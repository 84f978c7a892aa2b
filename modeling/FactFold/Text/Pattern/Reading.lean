import FactFold.Number.Reading
import FactFold.Text.Letter
import FactFold.Text.Pattern.Basic
import FactFold.Text.Quoted

/-!
# Reading patterns

The written form of patterns: characters stand for themselves, `.` for any but a line end, brackets
for classes, `|` for alternatives, and `*`, `+`, `?` and counts in braces for repetition. Letters after
a backslash name classes and places. A group may set how the rest of its own group is read: without
regard to case, line by line, or with `.` for line ends too.
-/

namespace FactFold.Text.Pattern

open Number (isDigit)

/-- How characters are read. -/
structure Mode where
  anyCase : Bool := false
  lineByLine : Bool := false
  dotTakesAll : Bool := false

/-- The pattern of one character. -/
def Mode.char (m : Mode) (c : Char) : Pattern := .one (.single m.anyCase c)

/-- The pattern of a set of characters. -/
def Mode.set (m : Mode) (s : CharSet) : Pattern := .one { sets := [s], anyCase := m.anyCase }

/-! ## Escapes -/

/-- Up to `n` octal digits after those with the value `value`. -/
def takeOctal : (n : Nat) → (value : Nat) → List Char → Nat × List Char
  | n + 1, value, c :: rest =>
    match octalValue? c with
    | some d => takeOctal n (value * 8 + d) rest
    | none => (value, c :: rest)
  | _, value, cs => (value, cs)

/-- The character of hexadecimal digits. -/
def hexChar? (ds : List Char) : Option Char := do
  if ds.isEmpty then none
  let n ← digitsValue? hexValue? 16 ds
  if n < 0x110000 then pure (Char.ofNat n) else none

/-- A character written after a backslash. -/
def takeEscaped? : List Char → Option (Char × List Char)
  | 'x' :: '\x7b' :: rest => do
    let ds := rest.takeWhile (· ≠ '\x7d')
    match rest.dropWhile (· ≠ '\x7d') with
    | _ :: rest => pure (← hexChar? ds, rest)
    | [] => none
  | 'x' :: a :: b :: rest => do pure (← hexChar? [a, b], rest)
  | 'a' :: rest => some ('\x07', rest)
  | 'f' :: rest => some ('\x0c', rest)
  | 'n' :: rest => some ('\n', rest)
  | 'r' :: rest => some ('\r', rest)
  | 't' :: rest => some ('\t', rest)
  | 'v' :: rest => some ('\x0b', rest)
  | '0' :: rest =>
    let (n, rest) := takeOctal 2 0 rest
    some (Char.ofNat n, rest)
  | c :: rest =>
    match octalValue? c, rest with
    | some d, e :: _ =>
      if (octalValue? e).isSome then
        let (n, rest) := takeOctal 2 d rest
        some (Char.ofNat n, rest)
      else none
    | some _, [] => none
    | none, rest => if c.toNat < 0x80 && !c.isAlphanum then some (c, rest) else none
  | [] => none

/-- The digits. -/
def basicDigits : List (Nat × Nat) := [(0x30, 0x39)]

/-- The blanks of the basic alphabet. -/
def spaceRanges : List (Nat × Nat) := [(0x09, 0x0a), (0x0c, 0x0d), (0x20, 0x20)]

/-- The set a letter after a backslash names. -/
def letterSet? : Char → Option CharSet
  | 'd' => some ⟨basicDigits, false⟩
  | 'D' => some ⟨basicDigits, true⟩
  | 's' => some ⟨spaceRanges, false⟩
  | 'S' => some ⟨spaceRanges, true⟩
  | 'w' => some ⟨wordRanges, false⟩
  | 'W' => some ⟨wordRanges, true⟩
  | _ => none

/-- The ranges of a class of characters in all scripts, by its name. -/
def scriptRanges? : String → Option (List (Nat × Nat))
  | "L" => some letterRanges
  | "Nd" => some digitRanges
  | "Any" => some [(0, 0x10ffff)]
  | _ => none

/-- The set of a class of characters in all scripts, from its mark on. -/
def takeScript? : List Char → Option (CharSet × List Char)
  | p :: rest =>
    if p = 'p' || p = 'P' then do
      let (name, rest) ←
        match rest with
        | '\x7b' :: rest =>
          match rest.dropWhile (· ≠ '\x7d') with
          | _ :: after => some (rest.takeWhile (· ≠ '\x7d'), after)
          | [] => none
        | c :: rest => some ([c], rest)
        | [] => none
      let (negated, name) := match name with
        | '^' :: name => (true, name)
        | name => (false, name)
      pure (⟨← scriptRanges? (String.ofList name), negated != (p = 'P')⟩, rest)
    else none
  | [] => none

/-- The named set at the front of a text that follows a backslash. -/
def takeNamedSet? (cs : List Char) : Option (CharSet × List Char) :=
  match cs with
  | c :: rest => ((letterSet? c).map fun s => (s, rest)).or (takeScript? cs)
  | [] => none

/-! ## Classes in brackets -/

/-- The ranges of a class of the basic alphabet by its name. -/
def basicRanges? : String → Option (List (Nat × Nat))
  | "alnum" => some [(0x30, 0x39), (0x41, 0x5a), (0x61, 0x7a)]
  | "alpha" => some [(0x41, 0x5a), (0x61, 0x7a)]
  | "ascii" => some [(0x00, 0x7f)]
  | "blank" => some [(0x09, 0x09), (0x20, 0x20)]
  | "cntrl" => some [(0x00, 0x1f), (0x7f, 0x7f)]
  | "digit" => some basicDigits
  | "graph" => some [(0x21, 0x7e)]
  | "lower" => some [(0x61, 0x7a)]
  | "print" => some [(0x20, 0x7e)]
  | "punct" => some [(0x21, 0x2f), (0x3a, 0x40), (0x5b, 0x60), (0x7b, 0x7e)]
  | "space" => some [(0x09, 0x0d), (0x20, 0x20)]
  | "upper" => some [(0x41, 0x5a)]
  | "word" => some wordRanges
  | "xdigit" => some [(0x30, 0x39), (0x41, 0x46), (0x61, 0x66)]
  | _ => none

/-- The name before a colon and a closing bracket, and what follows. -/
def takeClassName? : List Char → Option (List Char × List Char)
  | ':' :: ']' :: rest => some ([], rest)
  | c :: rest => (takeClassName? rest).map fun (name, rest) => (c :: name, rest)
  | [] => none

/-- A character in brackets. -/
def takeClassChar? : List Char → Option (Char × List Char)
  | '\\' :: rest => takeEscaped? rest
  | c :: rest => some (c, rest)
  | [] => none

/-- A character or a range of characters in brackets. -/
def takeRange? (cs : List Char) : Option (CharSet × List Char) := do
  let (first, rest) ← takeClassChar? cs
  match rest with
  | '-' :: ']' :: _ => pure (⟨[(first.toNat, first.toNat)], false⟩, rest)
  | '-' :: rest => do
    let (last, rest) ← takeClassChar? rest
    if last < first then none else pure (⟨[(first.toNat, last.toNat)], false⟩, rest)
  | rest => pure (⟨[(first.toNat, first.toNat)], false⟩, rest)

/-- One part of a class in brackets. -/
def takeClassPart? (cs : List Char) : Option (CharSet × List Char) :=
  match cs with
  | '[' :: ':' :: rest =>
    match takeClassName? rest with
    | none => takeRange? cs
    | some (name, rest) =>
      let (negated, name) := match name with
        | '^' :: name => (true, name)
        | name => (false, name)
      (basicRanges? (String.ofList name)).map fun rs => (⟨rs, negated⟩, rest)
  | '\\' :: c :: rest =>
    if c = 'p' || c = 'P' then takeScript? (c :: rest)
    else (takeNamedSet? (c :: rest)).or (takeRange? cs)
  | cs => takeRange? cs

/-- The parts of a class up to its closing bracket, which stands for itself in the first place. -/
def takeClassParts? : (fuel : Nat) → (first : Bool) → List Char → Option (List CharSet × List Char)
  | 0, _, _ => none
  | fuel + 1, first, cs =>
    match first, cs with
    | false, ']' :: rest => some ([], rest)
    | _, cs => do
      let (s, rest) ← takeClassPart? cs
      let (more, rest) ← takeClassParts? fuel false rest
      pure (s :: more, rest)

/-- A class after its opening bracket. -/
def takeClass? (m : Mode) (cs : List Char) : Option (Pattern × List Char) :=
  let (negated, cs) := match cs with
    | '^' :: cs => (true, cs)
    | cs => (false, cs)
  (takeClassParts? (cs.length + 1) true cs).map fun (sets, rest) =>
    (.one ⟨sets, negated, m.anyCase⟩, rest)

/-! ## Repetition -/

/-- The highest count of repetitions. -/
def countLimit : Nat := 1000

/-- A count, without zeros before it. -/
def takeCount? (cs : List Char) : Option (Nat × List Char) :=
  match cs.takeWhile isDigit with
  | [] => none
  | '0' :: _ :: _ => none
  | ds => (digitsValue? digitValue? 10 ds).map fun n => (n, cs.dropWhile isDigit)
where
  /-- The value of a digit. -/
  digitValue? (c : Char) : Option Nat := if isDigit c then some (c.toNat - 48) else none

/-- The counts in braces, after the opening one. -/
def takeCounts? (cs : List Char) : Option ((Nat × Option Nat) × List Char) := do
  let (least, rest) ← takeCount? cs
  match rest with
  | '\x7d' :: rest => pure ((least, some least), rest)
  | ',' :: '\x7d' :: rest => pure ((least, none), rest)
  | ',' :: rest => do
    let (most, rest) ← takeCount? rest
    match rest with
    | '\x7d' :: rest => pure ((least, some most), rest)
    | _ => none
  | _ => none

/-- What repeats the pattern before it, if anything does, and the rest. -/
def takeRepeat? : List Char → Option ((Nat × Option Nat) × List Char)
  | '*' :: rest => some ((0, none), rest)
  | '+' :: rest => some ((1, none), rest)
  | '?' :: rest => some ((0, some 1), rest)
  | '\x7b' :: rest => takeCounts? rest
  | _ => none

/-- The counts are in order and none is too high. -/
def countsFit : Nat × Option Nat → Bool
  | (least, none) => least ≤ countLimit
  | (least, some most) => least ≤ most && most ≤ countLimit

/-- A pattern with what repeats it. Only one thing may. -/
def takeRepeated? (x : Pattern) (cs : List Char) : Option (Pattern × List Char) :=
  match takeRepeat? cs with
  | none => some (x, cs)
  | some (counts, rest) =>
    let rest := match rest with
      | '?' :: rest => rest
      | rest => rest
    let p : Pattern := .times x counts.1 counts.2
    if countsFit counts && p.repeatsWithin countLimit && (takeRepeat? rest).isNone then
      some (p, rest)
    else none

/-! ## Groups -/

/-- Reads the letters that set a mode, up to a colon or a closing parenthesis, which is given back.
After a minus they take back, and at least one must follow it. -/
def takeMode? (on seen : Bool) (m : Mode) : List Char → Option (Mode × Char × List Char)
  | 'i' :: rest => takeMode? on true { m with anyCase := on } rest
  | 'm' :: rest => takeMode? on true { m with lineByLine := on } rest
  | 's' :: rest => takeMode? on true { m with dotTakesAll := on } rest
  | 'U' :: rest => takeMode? on true m rest
  | '-' :: rest => if on then takeMode? false false m rest else none
  | c :: rest => if (c = ':' || c = ')') && (on || seen) then some (m, c, rest) else none
  | [] => none

/-- The name of a group up to its closing mark, and what follows. -/
def takeGroupName? (cs : List Char) : Option (List Char) :=
  let name := cs.takeWhile (· ≠ '>')
  if name.isEmpty || !name.all isWordChar then none
  else
    match cs.dropWhile (· ≠ '>') with
    | _ :: rest => some rest
    | [] => none

/-- The text between the marks of a quotation, and what follows; without a closing mark it is all of
the text. -/
def takeVerbatim : List Char → List Char × List Char
  | '\\' :: 'E' :: rest => ([], rest)
  | c :: rest =>
    let (body, rest) := takeVerbatim rest
    (c :: body, rest)
  | [] => ([], [])

/-! ## Whole patterns -/

/-- What follows a backslash outside brackets. -/
def takeBackslash? (m : Mode) (cs : List Char) : Option (Pattern × List Char) :=
  match cs with
  | 'A' :: rest => some (.isAt .textStart, rest)
  | 'z' :: rest => some (.isAt .textEnd, rest)
  | 'b' :: rest => some (.isAt .wordEdge, rest)
  | 'B' :: rest => some (.isAt .insideOrOutside, rest)
  | 'p' :: _ | 'P' :: _ => (takeScript? cs).map fun (s, rest) => (m.set s, rest)
  | cs =>
    ((takeNamedSet? cs).map fun (s, rest) => (m.set s, rest)).or
      ((takeEscaped? cs).map fun (c, rest) => (m.char c, rest))

/-- A character that stands for a class or a place. -/
def sign? (m : Mode) : Char → Option Pattern
  | '.' => some (.one { sets := if m.dotTakesAll then [] else [⟨[(0x0a, 0x0a)], false⟩], negated := true })
  | '^' => some (.isAt (if m.lineByLine then .lineStart else .textStart))
  | '$' => some (.isAt (if m.lineByLine then .lineEnd else .textEnd))
  | _ => none

mutual

/-- Alternatives, up to a closing parenthesis or the end. -/
def alternatives : (fuel : Nat) → Mode → List Char → Option (Pattern × List Char)
  | 0, _, _ => none
  | fuel + 1, m, cs => do
    let (p, m, rest) ← parts fuel m cs
    match rest with
    | '|' :: rest => do
      let (q, rest) ← alternatives fuel m rest
      pure (.either p q, rest)
    | rest => pure (p, rest)

/-- Patterns one after the other, up to the end of an alternative, and the mode they leave. -/
def parts : (fuel : Nat) → Mode → List Char → Option (Pattern × Mode × List Char)
  | 0, _, _ => none
  | _ + 1, m, [] => some (.empty, m, [])
  | fuel + 1, m, c :: rest =>
    if c = '|' || c = ')' then some (.empty, m, c :: rest)
    else if c = '(' then
      match rest with
      | '?' :: 'P' :: '<' :: rest | '?' :: '<' :: rest => do
        let rest ← takeGroupName? rest
        group fuel m m rest
      | '?' :: rest => do
        match ← takeMode? true false m rest with
        | (inner, ':', rest) => group fuel m inner rest
        | (inner, _, rest) => parts fuel inner rest
      | rest => group fuel m m rest
    else if (takeRepeat? (c :: rest)).isSome then none
    else if c = '[' then do
      let (x, rest) ← takeClass? m rest
      andThen fuel m x rest
    else if c = '\\' then
      match rest with
      | 'Q' :: rest =>
        let (body, rest) := takeVerbatim rest
        match body.reverse with
        | [] => parts fuel m rest
        | last :: before => do
          let (q, m, rest) ← andThen fuel m (m.char last) rest
          pure (before.foldl (fun q c => .both (m.char c) q) q, m, rest)
      | rest => do
        let (x, rest) ← takeBackslash? m rest
        andThen fuel m x rest
    else andThen fuel m ((sign? m c).getD (m.char c)) rest

/-- A group that is read in a mode of its own, and what follows it. -/
def group : (fuel : Nat) → (outer inner : Mode) → List Char → Option (Pattern × Mode × List Char)
  | 0, _, _, _ => none
  | fuel + 1, outer, inner, cs => do
    let (x, rest) ← alternatives fuel inner cs
    match rest with
    | ')' :: rest => andThen fuel outer x rest
    | _ => none

/-- A pattern with what repeats it, and what follows. -/
def andThen : (fuel : Nat) → Mode → Pattern → List Char → Option (Pattern × Mode × List Char)
  | 0, _, _, _ => none
  | fuel + 1, m, x, cs => do
    let (x, rest) ← takeRepeated? x cs
    let (y, m, rest) ← parts fuel m rest
    pure (.both x y, m, rest)

end

/-- The pattern of a written form, none when it is malformed. No more than four calls are open per
character. -/
def read? (cs : List Char) : Option Pattern := do
  match ← alternatives (4 * (cs.length + 1)) {} cs with
  | (p, []) => pure p
  | _ => none

end FactFold.Text.Pattern
