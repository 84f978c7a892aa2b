/-!
# Byte strings

String values are sequences of bytes that need not be well-formed text. `pieces` reads such a
sequence as UTF-8: a well-formed group of bytes is a character, and a byte that starts no such group
is stray. `ofText` writes a text as bytes, `toText?` accepts exactly the sequences without stray
bytes, and `lossy` shows every stray byte as the replacement character.
-/

namespace FactFold.Text

/-- A byte string. -/
abbrev Bytes := List UInt8

namespace Bytes

/-- The UTF-8 bytes of a text. -/
def ofText (s : String) : Bytes :=
  s.toList.flatMap String.utf8EncodeChar

/-- What a byte string consists of when read as UTF-8. -/
inductive Piece where
  /-- A well-formed character. -/
  | char (c : Char)
  /-- A byte that starts no well-formed character. -/
  | stray (b : UInt8)
  deriving Repr, DecidableEq

/-- A continuation byte. -/
def isTail (b : UInt8) : Bool := 0x80 ≤ b && b ≤ 0xbf

/-- The second byte a three- or four-byte character may have after its first byte `a`: this rules
out overlong forms, surrogates and code points past the last one. -/
def secondFits (a b : UInt8) : Bool :=
  if a == 0xe0 then 0xa0 ≤ b && b ≤ 0xbf
  else if a == 0xed then 0x80 ≤ b && b ≤ 0x9f
  else if a == 0xf0 then 0x90 ≤ b && b ≤ 0xbf
  else if a == 0xf4 then 0x80 ≤ b && b ≤ 0x8f
  else isTail b

/-- The low six bits of a continuation byte. -/
def payload (b : UInt8) : Nat := b.toNat % 64

/-- The well-formed character at the front of a byte string, with the number of its bytes. -/
def leading? : Bytes → Option (Char × Nat)
  | [] => none
  | a :: rest =>
    if a < 0x80 then some (Char.ofNat a.toNat, 1)
    else if 0xc2 ≤ a && a ≤ 0xdf then
      match rest with
      | b :: _ => if isTail b then some (Char.ofNat (a.toNat % 32 * 64 + payload b), 2) else none
      | _ => none
    else if 0xe0 ≤ a && a ≤ 0xef then
      match rest with
      | b :: c :: _ =>
        if secondFits a b && isTail c then
          some (Char.ofNat ((a.toNat % 16 * 64 + payload b) * 64 + payload c), 3)
        else none
      | _ => none
    else if 0xf0 ≤ a && a ≤ 0xf4 then
      match rest with
      | b :: c :: d :: _ =>
        if secondFits a b && isTail c && isTail d then
          some (Char.ofNat (((a.toNat % 8 * 64 + payload b) * 64 + payload c) * 64 + payload d), 4)
        else none
      | _ => none
    else none

/-- `pieces` of what is left once `skip` bytes of the character just read are passed over. -/
def piecesFrom : Nat → Bytes → List Piece
  | _, [] => []
  | skip + 1, _ :: rest => piecesFrom skip rest
  | 0, a :: rest =>
    match leading? (a :: rest) with
    | some (c, n) => .char c :: piecesFrom (n - 1) rest
    | none => .stray a :: piecesFrom 0 rest

/-- A byte string read as UTF-8. -/
def pieces (bs : Bytes) : List Piece := piecesFrom 0 bs

/-- The text of a byte string that is well-formed UTF-8. -/
def toText? (bs : Bytes) : Option String :=
  let chars := (pieces bs).filterMap fun
    | .char c => some c
    | .stray _ => none
  if chars.length = (pieces bs).length then some (String.ofList chars) else none

/-- The character shown for a piece: the replacement character for a stray byte. -/
def Piece.shown : Piece → Char
  | .char c => c
  | .stray _ => '\ufffd'

/-- The text of a byte string, with the replacement character for every stray byte. -/
def lossy (bs : Bytes) : String :=
  String.ofList ((pieces bs).map Piece.shown)

/-- Byte strings compare byte by byte; a proper beginning comes first. -/
def compare : Bytes → Bytes → Ordering
  | [], [] => .eq
  | [], _ :: _ => .lt
  | _ :: _, [] => .gt
  | a :: as, b :: bs => if a < b then .lt else if b < a then .gt else compare as bs

end Bytes

end FactFold.Text
