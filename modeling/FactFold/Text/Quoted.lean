import FactFold.Text.Bytes
import FactFold.Text.Printable

/-!
# Double-quoted strings

`quote` writes a byte string between double quotes: printable characters stand for themselves, the
quote and the backslash are escaped, the usual controls have letters, and everything else is written
in hexadecimal. `unquoteBody` reads what stands between the quotes. The escapes it knows are the
letters, two, four or eight hexadecimal digits after `x`, `u` and `U`, and three octal digits; a raw
line break and an unescaped quote are refused.
-/

namespace FactFold.Text

/-- A hexadecimal digit. -/
def hexDigit (n : Nat) : Char :=
  if n < 10 then Char.ofNat (48 + n) else Char.ofNat (87 + n)

/-- The last `width` hexadecimal digits of a number, the highest first. -/
def hexDigits : (width : Nat) → Nat → List Char
  | 0, _ => []
  | width + 1, n => hexDigits width (n / 16) ++ [hexDigit (n % 16)]

/-- The value of a hexadecimal digit in either case. -/
def hexValue? (c : Char) : Option Nat :=
  if '0' ≤ c ∧ c ≤ '9' then some (c.toNat - 48)
  else if 'a' ≤ c ∧ c ≤ 'f' then some (c.toNat - 87)
  else if 'A' ≤ c ∧ c ≤ 'F' then some (c.toNat - 55)
  else none

/-- The value of an octal digit. -/
def octalValue? (c : Char) : Option Nat :=
  if '0' ≤ c ∧ c ≤ '7' then some (c.toNat - 48) else none

/-! ## Writing -/

/-- A character as it stands between quotes of some sort, where only ASCII may stand for itself if
asked. -/
def escapeChar (mark : Char) (ascii : Bool) (c : Char) : List Char :=
  if c = mark || c = '\\' then ['\\', c]
  else if isPrintable c && (!ascii || c.toNat < 0x80) then [c]
  else
    match c.toNat with
    | 7 => ['\\', 'a']
    | 8 => ['\\', 'b']
    | 12 => ['\\', 'f']
    | 10 => ['\\', 'n']
    | 13 => ['\\', 'r']
    | 9 => ['\\', 't']
    | 11 => ['\\', 'v']
    | n =>
      if n < 0x20 || n = 0x7f then '\\' :: 'x' :: hexDigits 2 n
      else if n < 0x10000 then '\\' :: 'u' :: hexDigits 4 n
      else '\\' :: 'U' :: hexDigits 8 n

/-- A character as it stands between double quotes. -/
def quoteChar (c : Char) : List Char := escapeChar '"' false c

/-- A piece of a byte string as it stands between double quotes. -/
def quotePiece (ascii : Bool) : Bytes.Piece → List Char
  | .char c => escapeChar '"' ascii c
  | .stray b => '\\' :: 'x' :: hexDigits 2 b.toNat

/-- A byte string between double quotes, in ASCII alone if asked. -/
def quoteIn (ascii : Bool) (bs : Bytes) : String :=
  String.ofList ('"' :: (bs.pieces.flatMap (quotePiece ascii) ++ ['"']))

/-- A byte string between double quotes. -/
def quote (bs : Bytes) : String := quoteIn false bs

/-- A text between double quotes. -/
def quoteText (s : String) : String :=
  String.ofList ('"' :: (s.toList.flatMap quoteChar ++ ['"']))

/-- A character between single quotes, in ASCII alone if asked. -/
def quoteOne (ascii : Bool) (c : Char) : String :=
  String.ofList ('\x27' :: (escapeChar '\x27' ascii c ++ ['\x27']))

/-- A piece of a byte string that can stand unchanged between backquotes. -/
def Bytes.Piece.isRaw : Bytes.Piece → Bool
  | .char c => (' ' ≤ c || c = '\t') && c ≠ '\x60' && c.toNat ≠ 0x7f && c.toNat ≠ 0xfeff
  | .stray _ => false

/-! ## Reading -/

/-- The byte a one-letter escape stands for. -/
def escapeLetter? (c : Char) : Option UInt8 :=
  match c with
  | 'a' => some 7
  | 'b' => some 8
  | 'f' => some 12
  | 'n' => some 10
  | 'r' => some 13
  | 't' => some 9
  | 'v' => some 11
  | '\\' => some 92
  | '"' => some 34
  | _ => none

/-- The UTF-8 bytes of a code point that is a character. -/
def encodePoint? (n : Nat) : Option Bytes :=
  if n.isValidChar then some (String.utf8EncodeChar (Char.ofNat n)) else none

/-- The number written by a list of digits in the given base. -/
def digitsValue? (value? : Char → Option Nat) (base : Nat) (ds : List Char) : Option Nat :=
  ds.foldlM (fun n c => (value? c).map (n * base + ·)) 0

/-- What an escape stands for, from the characters after the backslash, with how many of them
belong to it. -/
def escape? : List Char → Option (Bytes × Nat)
  | 'x' :: a :: b :: _ => do
    let n ← digitsValue? hexValue? 16 [a, b]
    pure ([UInt8.ofNat n], 3)
  | 'u' :: a :: b :: c :: d :: _ => do
    let n ← digitsValue? hexValue? 16 [a, b, c, d]
    pure (← encodePoint? n, 5)
  | 'U' :: a :: b :: c :: d :: e :: f :: g :: h :: _ => do
    let n ← digitsValue? hexValue? 16 [a, b, c, d, e, f, g, h]
    pure (← encodePoint? n, 9)
  | c :: rest =>
    match escapeLetter? c with
    | some b => some ([b], 1)
    | none =>
      match rest with
      | b :: d :: _ => do
        let n ← digitsValue? octalValue? 8 [c, b, d]
        if n < 256 then pure ([UInt8.ofNat n], 3) else none
      | _ => none
  | [] => none

/-- Reads the body of a double-quoted string, passing over `skip` characters of the escape just
read. -/
def unquoteFrom : Nat → List Char → Option Bytes
  | 0, [] => some []
  | _ + 1, [] => none
  | skip + 1, _ :: rest => unquoteFrom skip rest
  | 0, c :: rest =>
    if c = '"' || c = '\n' then none
    else if c = '\\' then do
      let (bs, n) ← escape? rest
      pure (bs ++ (← unquoteFrom n rest))
    else do
      pure (String.utf8EncodeChar c ++ (← unquoteFrom 0 rest))

/-- The byte string whose double-quoted body is given; none when the body is malformed. -/
def unquoteBody (cs : List Char) : Option Bytes := unquoteFrom 0 cs

end FactFold.Text
