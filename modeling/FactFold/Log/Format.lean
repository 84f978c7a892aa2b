import FactFold.Log.Verb
import FactFold.Number.Reading

/-!
# Formatted messages

A message is a template in which each directive, a percent sign with flags and a verb, shows an
argument: the next one, or the one whose number it gives in brackets. A star stands for a width or a
precision that is itself an argument. What is wrong with a directive is told in its place, and the
arguments left over are listed at the end, unless a directive chose its argument by number.
-/

namespace FactFold.Log

open Text (Bytes)

/-! ## Reading directives -/

/-- Numbers beyond this are not taken for a width or a precision. -/
def numberLimit : Nat := 1000000

/-- Reads the digits at the front of a text as a number, from the digits `n` before them. A number
that grows beyond the limit before its last digit swallows the text. -/
def takeNumberFrom (n : Option Nat) : List Char → Option Nat × List Char
  | [] => (n, [])
  | c :: rest =>
    if Number.isDigit c then
      if numberLimit < n.getD 0 then (none, [])
      else takeNumberFrom (some (n.getD 0 * 10 + (c.toNat - 48))) rest
    else (n, c :: rest)

/-- Reads the digits at the front of a text as a number. -/
def takeNumber (cs : List Char) : Option Nat × List Char := takeNumberFrom none cs

/-- Adds a flag character; none for any other character. -/
def Flags.add? (f : Flags) (c : Char) : Option Flags :=
  match c with
  | '+' => some { f with plus := true }
  | '-' => some { f with minus := true }
  | '#' => some { f with sharp := true }
  | ' ' => some { f with space := true }
  | '0' => some { f with zero := true }
  | _ => none

/-- Reads the flag characters at the front of a text. -/
def takeFlags (f : Flags) : List Char → Flags × List Char
  | [] => (f, [])
  | c :: rest =>
    match f.add? c with
    | some f => takeFlags f rest
    | none => (f, c :: rest)

/-- How far a directive has been read. -/
structure Reading where
  rest : List Char
  flags : Flags := {}
  /-- The number of the argument to be taken next. -/
  next : Nat
  /-- All numbers of arguments were good. -/
  good : Bool := true
  /-- Some directive gave the number of an argument. -/
  reordered : Bool
  /-- What was read last is the number of an argument. -/
  numbered : Bool := false
  /-- Remarks on the width and the precision. -/
  remarks : Bytes := []

/-- The number of an argument in brackets at the front of a text, counted from one, if it is one, and
what follows. Without a closing bracket only the opening one is passed over. -/
def takeBracketed (cs : List Char) : Option Nat × List Char :=
  let inner := cs.drop 1
  if cs.length < 3 || !inner.contains ']' then (none, inner)
  else
    let number :=
      match takeNumber (inner.takeWhile (· ≠ ']')) with
      | (some n, []) => some n
      | _ => none
    (number, (inner.dropWhile (· ≠ ']')).drop 1)

namespace Reading

/-- Reads the number of an argument, if one comes next. -/
def takeIndex (r : Reading) (count : Nat) : Reading :=
  if r.rest.head? ≠ some '[' then { r with numbered := false }
  else
    let r := { r with reordered := true }
    match takeBracketed r.rest with
    | (some n, rest) =>
      if 0 < n && n ≤ count then { r with rest := rest, next := n - 1, numbered := true }
      else { r with rest := rest, good := false, numbered := true }
    | (none, rest) => { r with rest := rest, good := false, numbered := false }

/-- An argument as a width or a precision. -/
def setting? : Arg → Option Int
  | .int _ n => if n.natAbs ≤ numberLimit then some n else none
  | _ => none

/-- The next argument as a width or a precision. -/
def takeSetting (r : Reading) (args : List Arg) : Option Int × Reading :=
  match args[r.next]? with
  | some a => (setting? a, { r with next := r.next + 1 })
  | none => (none, r)

/-- Adds a remark. -/
def remark (r : Reading) (s : String) : Reading := { r with remarks := r.remarks ++ .ofText s }

/-- Reads the width. A negative one asks for fillers behind. -/
def takeWidth (r : Reading) (args : List Arg) : Reading :=
  match r.rest with
  | '*' :: rest =>
    let (n, r) := { r with rest := rest, numbered := false }.takeSetting args
    match n with
    | some n =>
      { r with flags := { r.flags with width := n.natAbs, minus := r.flags.minus || n < 0 } }
    | none => r.remark "%!(BADWIDTH)"
  | rest =>
    let (n, rest) := takeNumber rest
    { r with
      rest := rest
      flags := { r.flags with width := n }
      good := r.good && !(r.numbered && n.isSome) }

/-- Reads the precision; a point without digits is a precision of zero. -/
def takePrecision (r : Reading) (args : List Arg) : Reading :=
  match r.rest with
  | '.' :: rest =>
    let r := { r with rest := rest, good := r.good && !r.numbered }.takeIndex args.length
    match r.rest with
    | '*' :: rest =>
      let (n, r) := { r with rest := rest, numbered := false }.takeSetting args
      match n with
      | some (.ofNat n) => { r with flags := { r.flags with precision := some n } }
      | _ => r.remark "%!(BADPREC)"
    | rest =>
      let (n, rest) := takeNumber rest
      { r with rest := rest, flags := { r.flags with precision := some (n.getD 0) } }
  | _ => r

/-- Reads all that stands before a verb. -/
def take (r : Reading) (args : List Arg) : Reading :=
  let (flags, rest) := takeFlags {} r.rest
  let r := { r with rest := rest, flags := flags }.takeIndex args.length
  let r := (r.takeWidth args).takePrecision args
  if r.numbered then r else r.takeIndex args.length

end Reading

/-! ## Messages -/

/-- A remark on a verb. -/
def verbRemark (verb : Char) (remark : String) : Bytes :=
  .ofText ("%!" ++ String.singleton verb ++ "(" ++ remark ++ ")")

/-- What a directive shows under its verb, and the number of the argument to be taken next. -/
def directive (r : Reading) (verb : Char) (args : List Arg) : Bytes × Nat :=
  if verb = '%' then (.ofText "%", r.next)
  else if !r.good then (verbRemark verb "BADINDEX", r.next)
  else
    match args[r.next]? with
    | none => (verbRemark verb "MISSING", r.next)
    | some a =>
      let f := if verb = 'v' || verb = 'w' then r.flags.ofAny else r.flags
      (shownUnder f verb a, r.next + 1)

/-- The arguments no directive took. -/
def leftOver (args : List Arg) : Bytes :=
  let item (a : Arg) : Bytes :=
    match a with
    | .null => nullText
    | a => .ofText (a.typeName ++ "=") ++ under {} 'v' a
  if args.isEmpty then [] else .ofText "%!(EXTRA " ++ joined ", " (args.map item) ++ .ofText ")"

/-- The message a template gives from the argument `next` on. Every round takes at least one
character, so that the length of the template suffices as `fuel`. -/
def formatFrom (args : List Arg) (fuel next : Nat) (reordered : Bool) (cs : List Char) : Bytes :=
  match fuel, cs with
  | 0, _ | _, [] => if reordered then [] else leftOver (args.drop next)
  | fuel + 1, '%' :: rest =>
    let r := Reading.take { rest := rest, next := next, reordered := reordered } args
    match r.rest with
    | [] =>
      r.remarks ++ .ofText "%!(NOVERB)" ++ formatFrom args fuel r.next r.reordered []
    | verb :: rest =>
      let (shown, next) := directive r verb args
      r.remarks ++ shown ++ formatFrom args fuel next r.reordered rest
  | fuel + 1, c :: rest => String.utf8EncodeChar c ++ formatFrom args fuel next reordered rest

/-- The message a template gives with its arguments; bytes that make up no character show as the
replacement character. -/
def format (template : String) (args : List Arg) : String :=
  (formatFrom args (template.toList.length + 1) 0 false template.toList).lossy

end FactFold.Log
