import FactFold.Yaml.Scalar

/-!
# Tokens

The smallest parts of a document: its marks, its names and its scalars. Some tokens have no mark of
their own in the text; they tell where a list or mapping given by indentation starts and ends, and
that what follows is a key.
-/

namespace FactFold.Yaml

/-- A part of a document. -/
inductive Token where
  | streamEnd
  /-- The version of the language a document is written in. -/
  | version (major minor : Nat)
  /-- What a handle of tags stands for. -/
  | handle (name stands : String)
  | documentStart
  | documentEnd
  /-- A list by indentation starts. -/
  | listStart
  /-- A mapping by indentation starts. -/
  | mappingStart
  /-- A list or mapping by indentation ends. -/
  | blockEnd
  | openList
  | closeList
  | openMapping
  | closeMapping
  /-- An item of a list by indentation. -/
  | item
  | comma
  | key
  | value
  | alias (name : String)
  | anchor (name : String)
  | tag (handle suffix : String)
  | scalar (s : Scalar)
  deriving Repr, DecidableEq

/-! ## Names -/

/-- A character of a name. -/
def isNameChar (c : Char) : Bool :=
  ('0' ≤ c && c ≤ '9') || ('a' ≤ c && c ≤ 'z') || ('A' ≤ c && c ≤ 'Z') || c = '_' || c = '-'

/-- What may follow a name. -/
def endsName (c : Char) : Bool :=
  isSpace c || c = '?' || c = ':' || c = ',' || c = ']' || c = '\x7d' || c = '%' || c = '@' || c = '\x60'

/-- Reads a name after its mark. -/
def name? (c : Cursor) : Option (String × Cursor) :=
  let c := c.advance 1
  let name := c.rest.takeWhile isNameChar
  let c := c.advance name.length
  if name.isEmpty || !endsOr endsName c.rest then none else some (String.ofList name, c)

/-! ## Tags -/

/-- A character of a tag; a percent sign starts a byte in hexadecimal. -/
def isTagChar (c : Char) : Bool :=
  isNameChar c || [';', '/', '?', ':', '@', '&', '=', '+', '$', ',', '.', '!', '~', '*', '\x27', '(',
    ')', '[', ']'].contains c

/-- The text of a tag, its bytes in hexadecimal included. -/
def tagBytes? (fuel : Nat) (bytes : Text.Bytes) (c : Cursor) : Option (Text.Bytes × Cursor) :=
  match fuel, c.rest with
  | 0, _ | _, [] => some (bytes, c)
  | fuel + 1, ch :: rest =>
    if ch = '%' then
      if rest.length < 2 then none
      else do
        let n ← Text.digitsValue? Text.hexValue? 16 (rest.take 2)
        tagBytes? fuel (bytes ++ [UInt8.ofNat n]) (c.advance 3)
    else if isTagChar ch then tagBytes? fuel (bytes ++ String.utf8EncodeChar ch) (c.advance 1)
    else some (bytes, c)

/-- Reads the text of a tag. -/
def tagText? (c : Cursor) : Option (String × Cursor) := do
  let (bytes, c) ← tagBytes? c.rest.length [] c
  let text ← Text.Bytes.toText? bytes
  pure (text, c)

/-- Reads a tag without the check of what follows it: a whole tag between angles, or a handle and a
suffix. -/
def tagParts? (c : Cursor) : Option (String × String × Cursor) :=
  if c.rest.take 2 = ['!', '<'] then do
    let (text, c) ← tagText? (c.advance 2)
    if text.isEmpty || !c.isAt '>' then none else pure ("", text, c.advance 1)
  else
    let name := (c.rest.drop 1).takeWhile isNameChar
    let after := c.advance (1 + name.length)
    if after.isAt '!' then do
      let (suffix, c) ← tagText? (after.advance 1)
      if suffix.isEmpty then none
      else pure ("!" ++ String.ofList name ++ "!", suffix, c)
    else do
      let (suffix, c) ← tagText? (c.advance 1)
      if suffix.isEmpty then pure ("", "!", c) else pure ("!", suffix, c)

/-- Reads a tag. -/
def tag? (c : Cursor) : Option (Token × Cursor) := do
  let (handle, suffix, c) ← tagParts? c
  if isGap c.rest then pure (.tag handle suffix, c) else none

/-! ## Directives -/

/-- Reads a number of at most two digits. -/
def versionNumber? (c : Cursor) : Option (Nat × Cursor) :=
  let digits := c.rest.takeWhile fun ch => '0' ≤ ch && ch ≤ '9'
  if digits.isEmpty || 2 < digits.length then none
  else some (digits.foldl (fun n ch => n * 10 + (ch.toNat - 48)) 0, c.advance digits.length)

/-- Reads the handle of a directive. -/
def directiveHandle? (c : Cursor) : Option (String × Cursor) :=
  if !c.isAt '!' then none
  else
    let name := (c.rest.drop 1).takeWhile isNameChar
    let after := c.advance (1 + name.length)
    if after.isAt '!' then some ("!" ++ String.ofList name ++ "!", after.advance 1)
    else if name.isEmpty then some ("!", after)
    else none

/-- Reads what follows the name of a directive. -/
def directiveBody? (name : String) (c : Cursor) : Option (Token × Cursor) :=
  match name with
  | "YAML" => do
    let (major, c) ← versionNumber? (c.skipWhile isBlank)
    if !c.isAt '.' then none
    else
      let (minor, c) ← versionNumber? (c.advance 1)
      pure (.version major minor, c)
  | "TAG" => do
    let (handle, c) ← directiveHandle? (c.skipWhile isBlank)
    if !c.has isBlank then none
    else
      let (stands, c) ← tagText? (c.skipWhile isBlank)
      if stands.isEmpty || !isGap c.rest then none else pure (.handle handle stands, c)
  | _ => none

/-- Reads a directive up to the end of its line. -/
def directive? (c : Cursor) : Option (Token × Cursor) := do
  let name := (c.rest.drop 1).takeWhile isNameChar
  let c := c.advance (1 + name.length)
  if name.isEmpty || !isGap c.rest then none
  else
    let (t, c) ← directiveBody? (String.ofList name) c
    let c := c.skipWhile isBlank
    let c := if c.isAt '#' then c.skipToBreak else c
    if endsOr isBreak c.rest then pure (t, c.takeBreak.2) else none

end FactFold.Yaml
