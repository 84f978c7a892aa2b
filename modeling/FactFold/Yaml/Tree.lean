import FactFold.Number.Reading
import FactFold.Yaml.Scalar

/-!
# Documents

A document is a tree of scalars, lists and mappings. A part of it may have a name and be referred to
by that name further on, even from within itself, though the part has no content there.

A scalar stands for a text or for nothing. A plain one without a tag stands for nothing when it is one
of a few words. A tag asks for a certain kind of scalar, and the text has to look like that kind.
-/

namespace FactFold.Yaml

-- powers are those of the core library, whatever other powers are in sight
attribute [local instance (2000)] instPowNat

/-- A document. -/
inductive Tree where
  | scalar (s : Scalar)
  | list (items : List Tree)
  /-- Keys with their values, in order. -/
  | mapping (entries : List (Tree × Tree))
  /-- A part referred to by its name; none within the part itself. -/
  | reference (name : String) (target : Option Tree)

/-- The document that holds nothing. -/
def Tree.nothing : Tree := .scalar ⟨"", true, none⟩

/-! ## Kinds of scalars -/

/-- The kinds of scalars by the look of their text. -/
inductive ScalarKind where
  | text
  | null
  | bool
  | int
  | float
  /-- The key under which the entries of other mappings are taken over. -/
  | merge
  deriving Repr, DecidableEq

/-- The words for nothing. -/
def nullWords : List String := ["", "~", "null", "Null", "NULL"]

/-- The words for truth values. -/
def boolWords : List String := ["true", "True", "TRUE", "false", "False", "FALSE"]

/-- The words for numbers that are not finite. -/
def floatWords : List String :=
  [".nan", ".NaN", ".NAN"] ++
    ["", "+", "-"].flatMap fun sign => [".inf", ".Inf", ".INF"].map fun word => sign ++ word

/-- The key under which the entries of other mappings are taken over. -/
def mergeWord : String := "<<"

/-- The text looks like an integer of at most 64 bits; underscores do not count. -/
def looksInt (cs : List Char) : Bool :=
  let cs := cs.filter (· ≠ '_')
  (Number.readInt? cs).isSome ||
    (!cs.isEmpty && cs.all Number.isDigit && (Number.baseValue? 10 cs).any (· < 2 ^ (64 : Nat)))

/-- The text looks like a decimal number; underscores do not count unless it starts with the point. -/
def looksFloat (cs : List Char) : Bool :=
  let isPart (c : Char) := Number.isDigit c || ['.', 'e', 'E', '+', '-'].contains c
  let cs := if cs.head? = some '.' then cs else cs.filter (· ≠ '_')
  cs.all isPart && (Number.readFloat? cs).isSome

namespace ScalarKind

/-- The kind of a text. -/
def ofText (s : String) : ScalarKind :=
  let starts (p : Char → Bool) : Bool := s.toList.head?.any p
  if nullWords.contains s then .null
  else if boolWords.contains s then .bool
  else if floatWords.contains s then .float
  else if s = mergeWord then .merge
  else if starts (fun c => Number.isDigit c || c = '+' || c = '-') && looksInt s.toList then .int
  else if starts (fun c => Number.isDigit c || c = '+' || c = '-' || c = '.') &&
      looksFloat s.toList then
    .float
  else .text

/-- The tag of a kind. -/
def tag : ScalarKind → String
  | .text => "!!str"
  | .null => "!!null"
  | .bool => "!!bool"
  | .int => "!!int"
  | .float => "!!float"
  | .merge => "!!merge"

end ScalarKind

namespace Scalar

/-- What a scalar stands for: a text or nothing; none when its tag asks for something else. -/
def content? (s : Scalar) : Option (Option String) :=
  let kind := ScalarKind.ofText s.text
  match s.tag with
  | none => some (if s.plain && kind = .null then none else some s.text)
  | some tag =>
    if tag = ScalarKind.text.tag then some (some s.text)
    else if tag = kind.tag || (tag = ScalarKind.float.tag && kind = .int) then
      some (if kind = .null then none else some s.text)
    else none

/-- The scalar is the key under which the entries of other mappings are taken over. -/
def isMerge (s : Scalar) : Bool :=
  s.text = mergeWord && s.tag.elim s.plain (· = ScalarKind.merge.tag)

end Scalar

/-! ## Parts -/

namespace Tree

/-- The part itself, or the one it refers to. -/
def resolved? : Tree → Option Tree
  | .reference _ target => target
  | t => some t

/-- What a part that is a scalar stands for. -/
def content? (t : Tree) : Option (Option String) :=
  match t.resolved? with
  | some (.scalar s) => s.content?
  | _ => none

/-- The part is the key under which the entries of other mappings are taken over. -/
def isMerge : Tree → Bool
  | .scalar s => s.isMerge
  | _ => false

/-- The sort of a key and its text; keys that agree in both are the same. -/
def keyMark : Tree → Nat × String
  | .scalar s => (0, s.text)
  | .list _ => (1, "")
  | .mapping _ => (2, "")
  | .reference name _ => (3, name)

/-- No key comes twice. -/
def keysOnce : List (Tree × Tree) → Bool
  | [] => true
  | (k, _) :: rest => rest.all (fun e => e.1.keyMark ≠ k.keyMark) && keysOnce rest

mutual

/-- The entries of a mapping by key, the mapping's own before those it takes over. -/
def entries? : Tree → Option (List (String × Tree))
  | .mapping entries =>
    if keysOnce entries then (splitEntries? entries).map fun (own, taken) => own ++ taken else none
  | .reference _ (some t) => entries? t
  | _ => none

/-- The entries of a mapping: its own and those it takes over. Those without a key do not count. -/
def splitEntries? : List (Tree × Tree) → Option (List (String × Tree) × List (String × Tree))
  | [] => some ([], [])
  | (k, v) :: rest => do
    let (own, taken) ← splitEntries? rest
    if k.isMerge then
      match v with
      | .list items => pure (own, ← takenEntries? items)
      | v => pure (own, ← entries? v)
    else
      match ← k.content? with
      | some name => pure ((name, v) :: own, taken)
      | none => pure (own, taken)

/-- The entries of several mappings. -/
def takenEntries? : List Tree → Option (List (String × Tree))
  | [] => some []
  | t :: rest => do
    let here ← entries? t
    let there ← takenEntries? rest
    pure (here ++ there)

end

end Tree

end FactFold.Yaml
