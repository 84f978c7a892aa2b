import FactFold.Log.Arg
import FactFold.Number.Rounded
import FactFold.Text.Quoted

/-!
# Arguments under a verb

A directive shows its argument under a verb, a single character, with flags that ask for signs, marks,
a width and a precision. A verb that does not fit its argument leaves a remark with the argument in
its plain form. Lists are shown item by item, each with all the flags. An instant, like anything that
knows its own text, is shown by that text where the verb is for texts; elsewhere, and in a remark, it
is shown as the numbers it consists of.
-/

namespace FactFold.Log

-- powers are those of the core library, whatever other powers are in sight
attribute [local instance (2000)] instPowNat

open Text (Bytes)

/-! ## Flags -/

/-- What stands between a percent sign and its verb. -/
structure Flags where
  plus : Bool := false
  minus : Bool := false
  sharp : Bool := false
  space : Bool := false
  zero : Bool := false
  /-- Values are shown as in source. -/
  source : Bool := false
  /-- Fields are shown with their names. -/
  names : Bool := false
  width : Option Nat := none
  precision : Option Nat := none
  deriving Repr, DecidableEq

/-- Characters as bytes. -/
def ofChars (cs : List Char) : Bytes := cs.flatMap String.utf8EncodeChar

namespace Flags

/-- Under the verbs for any value the sharp flag asks for source and the plus flag for names. -/
def ofAny (f : Flags) : Flags :=
  { f with sharp := false, plus := false, source := f.sharp, names := f.plus }

/-- As many fillers as told: zeros where asked, if they come first, and otherwise blanks. -/
def fill (f : Flags) (n : Nat) : Bytes :=
  ofChars (List.replicate n (if f.zero && !f.minus then '0' else ' '))

/-- Fills up to the width. -/
def pad (f : Flags) (bs : Bytes) : Bytes :=
  let filling := f.fill (f.width.getD 0 - bs.pieces.length)
  if f.minus then bs ++ filling else filling ++ bs

/-- Fills up to the width with blanks. -/
def padBlank (f : Flags) (bs : Bytes) : Bytes := { f with zero := false }.pad bs

/-- The sign before a number, where one is shown. -/
def sign (f : Flags) (negative : Bool) : List Char :=
  if negative then ['-'] else if f.plus then ['+'] else if f.space then [' '] else []

end Flags

/-! ## Integers -/

/-- Letters of digits in upper case. -/
def upperDigits (cs : List Char) : List Char :=
  cs.map fun c => if 'a' ≤ c ∧ c ≤ 'z' then Char.ofNat (c.toNat - 32) else c

/-- The mark of a base before digits. -/
def baseMark (base : Nat) (digits : List Char) : List Char :=
  match base with
  | 2 => ['0', 'b']
  | 8 => if digits.head? = some '0' then [] else ['0']
  | 16 => ['0', 'x']
  | _ => []

/-- An integer in a base; `marked` sets the mark of octal digits before it. -/
def integer (f : Flags) (base : Nat) (upper marked : Bool) (n : Int) : Bytes :=
  if f.precision = some 0 && n = 0 then { f with zero := false }.fill (f.width.getD 0)
  else
    let sign := f.sign (n < 0)
    let least :=
      match f.precision with
      | some count => count
      | none => if f.zero && !f.minus then f.width.getD 0 - sign.length else 0
    let digits := Nat.toDigits base n.natAbs
    let digits := List.replicate (least - digits.length) '0' ++ digits
    let digits := if f.sharp then baseMark base digits ++ digits else digits
    let digits := if upper then upperDigits digits else digits
    f.padBlank (ofChars (sign ++ (if marked then ['0', 'o'] else []) ++ digits))

/-- The number of a machine word that holds an integer. -/
def wordOf (n : Int) : Nat := (n % 2 ^ (64 : Nat)).toNat

/-- The character of a number; the replacement character where there is none. -/
def charOf (n : Int) : Char :=
  if (wordOf n).isValidChar then Char.ofNat (wordOf n) else '\ufffd'

/-- A code point: at least four digits, and the character itself where asked. -/
def codePoint (f : Flags) (n : Int) : Bytes :=
  let word := wordOf n
  let digits := upperDigits (Nat.toDigits 16 word)
  let zeros := List.replicate (max 4 (f.precision.getD 0) - digits.length) '0'
  let c := charOf n
  let shown :=
    if f.sharp && word.isValidChar && Text.isPrintable c then [' ', '\x27', c, '\x27'] else []
  f.padBlank (ofChars (['U', '+'] ++ zeros ++ digits ++ shown))

/-- An integer under a verb. -/
def intUnder? (f : Flags) (verb : Char) (k : IntKind) (n : Int) : Option Bytes :=
  match verb with
  | 'v' =>
    if f.source && !k.signed then some (integer { f with sharp := true } 16 false false n)
    else some (integer f 10 false false n)
  | 'd' => some (integer f 10 false false n)
  | 'b' => some (integer f 2 false false n)
  | 'o' => some (integer f 8 false false n)
  | 'O' => some (integer f 8 false true n)
  | 'x' => some (integer f 16 false false n)
  | 'X' => some (integer f 16 true false n)
  | 'c' => some (f.pad (ofChars [charOf n]))
  | 'q' => some (f.pad (.ofText (Text.quoteOne f.plus (charOf n))))
  | 'U' => some (codePoint f n)
  | _ => none

/-! ## Numbers -/

/-- The digits of a number up to its exponent, and the exponent with its mark. -/
def splitExponent (hex : Bool) (cs : List Char) : List Char × List Char :=
  cs.span fun c => c ≠ 'p' && (hex || c ≠ 'e')

/-- Significant digits in the front part of a number. -/
def countSignificant (front : List Char) : Nat :=
  ((front.filter (· ≠ '.')).dropWhile (· = '0')).length

/-- A number that shows its point, and all its digits in the styles that leave out zeros. -/
def withPoint (keepsZeros hex : Bool) (precision : Option Nat) (cs : List Char) : List Char :=
  let (front, exponent) := splitExponent hex cs
  let wanted := if keepsZeros then precision.getD 6 else 0
  let known := countSignificant front + if front = ['0'] then 1 else 0
  let point := if front.contains '.' then [] else ['.']
  front ++ point ++ List.replicate (wanted - known) '0' ++ exponent

/-- The style of a verb for numbers, with the precision it has by itself. -/
def styleOf? (verb : Char) : Option (Number.Style × Option Nat) :=
  match verb with
  | 'v' | 'g' | 'G' => some (.general, none)
  | 'e' | 'E' => some (.scientific, some 6)
  | 'f' | 'F' => some (.fixed, some 6)
  | 'x' | 'X' => some (.hex, none)
  | 'b' => some (.binary, none)
  | _ => none

/-- The word for what is no finite number, with its sign where it has one or one is asked for. -/
def padWord (f : Flags) (word : List Char) (negative signed : Bool) : Bytes :=
  let sign := f.sign negative
  let sign := if sign.isEmpty && signed then ['+'] else sign
  f.padBlank (ofChars (sign ++ word))

/-- A number under a verb. -/
def floatUnder? (f : Flags) (verb : Char) (p : Number.Precision) (x : Float) : Option Bytes :=
  (styleOf? verb).map fun (style, ownPrecision) =>
    let negative := Number.isNegative x
    match p.magnitude x with
    | .nan => padWord f ['N', 'a', 'N'] false false
    | .infinite => padWord f ['I', 'n', 'f'] negative true
    | .finite m q =>
      let precision := f.precision.or ownPrecision
      let cs := Number.styled style precision p m q
      let upper := verb = 'E' || verb = 'G' || verb = 'X'
      let keepsZeros := style = .general || verb = 'x'
      let cs :=
        if f.sharp && style ≠ .binary then withPoint keepsZeros (style = .hex) precision cs else cs
      let cs := if upper then upperDigits cs else cs
      let sign := f.sign negative
      if sign.isEmpty then f.pad (ofChars cs)
      else if f.zero && !f.minus then
        let zeros := List.replicate (f.width.getD 0 - sign.length - cs.length) '0'
        ofChars (sign ++ zeros ++ cs)
      else f.padBlank (ofChars (sign ++ cs))

/-! ## Texts -/

/-- The bytes of a piece. -/
def pieceBytes : Bytes.Piece → Bytes
  | .char c => String.utf8EncodeChar c
  | .stray b => [b]

/-- The first characters of a text, as many as the precision tells. -/
def Flags.cut (f : Flags) (bs : Bytes) : Bytes :=
  match f.precision with
  | some n => (bs.pieces.take n).flatMap pieceBytes
  | none => bs

/-- A text as it is. -/
def plainText (f : Flags) (bs : Bytes) : Bytes := f.pad (f.cut bs)

/-- A text between quotes: backquotes where asked and possible, and otherwise double quotes. -/
def quotedText (f : Flags) (bs : Bytes) : Bytes :=
  let bs := f.cut bs
  if f.sharp && bs.pieces.all Bytes.Piece.isRaw then f.pad (0x60 :: bs ++ [0x60])
  else f.pad (.ofText (Text.quoteIn f.plus bs))

/-- The bytes of a text in hexadecimal, as many as the precision tells. -/
def hexText (f : Flags) (upper : Bool) (bs : Bytes) : Bytes :=
  let bs := (f.precision.map bs.take).getD bs
  let digits (b : UInt8) : List Char := Text.hexDigits 2 b.toNat
  let mark : List Char := if f.sharp && !bs.isEmpty then ['0', 'x'] else []
  let cs : List Char :=
    if f.space then [' '].intercalate (bs.map fun b => mark ++ digits b)
    else mark ++ bs.flatMap digits
  f.pad (ofChars (if upper then upperDigits cs else cs))

/-- A text under a verb. -/
def textUnder? (f : Flags) (verb : Char) (bs : Bytes) : Option Bytes :=
  match verb with
  | 'v' => some (if f.source then quotedText f bs else plainText f bs)
  | 's' => some (plainText f bs)
  | 'q' => some (quotedText f bs)
  | 'x' => some (hexText f false bs)
  | 'X' => some (hexText f true bs)
  | _ => none

/-- The verbs under which something is shown by its own text. -/
def isTextVerb (verb : Char) : Bool :=
  verb = 'v' || verb = 's' || verb = 'q' || verb = 'x' || verb = 'X'

/-- A truth value under a verb. -/
def boolUnder? (f : Flags) (verb : Char) (b : Bool) : Option Bytes :=
  if verb = 'v' || verb = 't' then some (f.pad (.ofText (Scalar.boolText b))) else none

/-! ## Whole arguments -/

/-- What is shown in place of null. -/
def nullText : Bytes := .ofText "<nil>"

/-- Null as an item of a list. -/
def nullItem (f : Flags) : Bytes := if f.source then .ofText "interface \x7b\x7d(nil)" else nullText

/-- Parts with a separator between them. -/
def joined (separator : String) (parts : List Bytes) : Bytes :=
  (Bytes.ofText separator).intercalate parts

/-- The shown items of a list. -/
def listed (f : Flags) (typeName : String) (items : List Bytes) : Bytes :=
  if f.source then .ofText (typeName ++ "\x7b") ++ joined ", " items ++ .ofText "\x7d"
  else .ofText "[" ++ joined " " items ++ .ofText "]"

/-- An absent list. -/
def absentList (f : Flags) (typeName : String) : Bytes :=
  if f.source then .ofText (typeName ++ "(nil)") else .ofText "[]"

/-- The numbers an instant consists of: nanoseconds, seconds of the era and zone. -/
def instantParts (f : Flags) (parts : List (String × Bytes)) : Bytes :=
  let part (p : String × Bytes) : Bytes :=
    if f.source || f.names then .ofText (p.1 ++ ":") ++ p.2 else p.2
  let typeName := if f.source then "time.Time" else ""
  .ofText (typeName ++ "\x7b") ++ joined (if f.source then ", " else " ") (parts.map part) ++
    .ofText "\x7d"

/-- An instant by its numbers. -/
def plainInstant (f : Flags) (t : Instant) : Bytes :=
  let number (k : IntKind) (n : Int) := (intUnder? f 'v' k n).getD []
  let zone := if f.source then .ofText "(*time.Location)(nil)" else f.pad nullText
  instantParts f [("wall", number .uint64 t.nanos), ("ext", number .int64 t.secondsOfEra), ("loc", zone)]

mutual

/-- The plain form of an argument. -/
def plainForm (f : Flags) : Arg → Bytes
  | .null => nullItem f
  | .bool b => (boolUnder? f 'v' b).getD []
  | .int k n => (intUnder? f 'v' k n).getD []
  | .float p x => (floatUnder? f 'v' p x).getD []
  | .text _ bs => (textUnder? f 'v' bs).getD []
  | .time t => plainInstant f t
  | .list typeName none => absentList f typeName
  | .list typeName (some items) => listed f typeName (plainForms f items)
  | .shown _ text => plainText f (.ofText text)

/-- The plain forms of arguments. -/
def plainForms (f : Flags) : List Arg → List Bytes
  | [] => []
  | a :: rest => plainForm f a :: plainForms f rest

end

/-- The remark that a verb does not fit an argument. -/
def misfit (f : Flags) (verb : Char) (a : Arg) : Bytes :=
  .ofText ("%!" ++ String.singleton verb ++ "(" ++ a.typeName ++ "=") ++ plainForm f a ++ .ofText ")"

/-- An instant under a verb. -/
def instantUnder (f : Flags) (verb : Char) (t : Instant) : Bytes :=
  if verb = 'v' && f.source then plainText f (.ofText t.sourceText)
  else if isTextVerb verb then (textUnder? f verb (.ofText t.text)).getD []
  else
    let bad := misfit f verb (.time t)
    let number (k : IntKind) (n : Int) := (intUnder? f verb k n).getD bad
    let zone := if verb = 'b' || verb = 'o' || verb = 'd' then number .uint64 0 else bad
    instantParts f
      [("wall", number .uint64 t.nanos), ("ext", number .int64 t.secondsOfEra), ("loc", zone)]

mutual

/-- An argument under a verb. -/
def under (f : Flags) (verb : Char) : Arg → Bytes
  | .null => nullItem f
  | .bool b => (boolUnder? f verb b).getD (misfit f verb (.bool b))
  | .int k n => (intUnder? f verb k n).getD (misfit f verb (.int k n))
  | .float p x => (floatUnder? f verb p x).getD (misfit f verb (.float p x))
  | .text typeName bs => (textUnder? f verb bs).getD (misfit f verb (.text typeName bs))
  | .time t => instantUnder f verb t
  | .list typeName none => absentList f typeName
  | .list typeName (some items) => listed f typeName (allUnder f verb items)
  | .shown typeName text =>
    (textUnder? { f with source := false } verb (.ofText text)).getD
      (misfit f verb (.shown typeName text))

/-- Arguments under a verb. -/
def allUnder (f : Flags) (verb : Char) : List Arg → List Bytes
  | [] => []
  | a :: rest => under f verb a :: allUnder f verb rest

end

/-- An argument that a directive shows. -/
def shownUnder (f : Flags) (verb : Char) (a : Arg) : Bytes :=
  match verb, a with
  | 'T', .null | 'v', .null => f.pad nullText
  | verb, .null => .ofText ("%!" ++ String.singleton verb ++ "(") ++ nullText ++ .ofText ")"
  | 'T', a => plainText f (.ofText a.typeName)
  | 'p', .list _ _ => integer { f with sharp := !f.sharp } 16 false false 0
  | 'p', a | 'w', a => misfit f verb a
  | verb, a => under f verb a

end FactFold.Log
