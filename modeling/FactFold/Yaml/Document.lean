import FactFold.Yaml.Queue
import FactFold.Yaml.Tree

/-!
# Building documents

The first document of a text is built from its tokens. Where a part is missing, as after a key or a
dash with nothing behind it, it stands for nothing. A part may have a name and a tag in front. A list
that is the value of a key need not be indented deeper than the key.
-/

namespace FactFold.Yaml

/-- What is known while a document is built. -/
structure Builder where
  queue : Queue
  /-- Named parts, the latest first; those still being built have no content. -/
  named : List (String × Option Tree) := []
  /-- What the handles of tags stand for. -/
  handles : List (String × String) := []

/-- A step of building a document; it fails when the text is malformed. -/
abbrev Build := StateT Builder Option

/-- The first token. -/
def peek : Build Token := do
  let b ← get
  match b.queue.peek? with
  | some (t, q) =>
    set { b with queue := q }
    pure t
  | none => failure

/-- Passes over the first token. -/
def pass : Build Unit := modify fun b => { b with queue := b.queue.drop }

/-! ## Names and tags -/

/-- What the handles of tags stand for unless told otherwise. -/
def standardHandles : List (String × String) := [("!", "!"), ("!!", "tag:yaml.org,2002:")]

/-- The short form of a tag. -/
def shortTag (tag : String) : String :=
  let start := "tag:yaml.org,2002:".toList
  if start.isPrefixOf tag.toList then "!!" ++ String.ofList (tag.toList.drop start.length) else tag

/-- The tag of a handle and a suffix; the sign alone is no tag. -/
def resolveTag (handle suffix : String) : Build (Option String) := do
  let full ←
    if handle = "" then pure suffix
    else
      match ((← get).handles ++ standardHandles).lookup handle with
      | some stands => pure (stands ++ suffix)
      | none => failure
  pure (if full = "!" then none else some (shortTag full))

/-- What stands before a part. -/
structure Properties where
  anchor : Option String := none
  tag : Option String := none
  /-- A tag is given, be it the sign alone. -/
  tagged : Bool := false

/-- Reads a name, if one comes next. -/
def takeAnchor (p : Properties) : Build Properties := do
  match ← peek with
  | .anchor name =>
    pass
    pure { p with anchor := some name }
  | _ => pure p

/-- Reads a tag, if one comes next. -/
def takeTag (p : Properties) : Build Properties := do
  match ← peek with
  | .tag handle suffix =>
    pass
    let tag ← resolveTag handle suffix
    pure { p with tag := tag, tagged := true }
  | _ => pure p

/-- Reads a name and a tag in either order. -/
def takeProperties : Build Properties := do
  let p ← takeAnchor {}
  let p ← takeTag p
  if p.anchor.isNone then takeAnchor p else pure p

/-- The part of a name. -/
def named (name : String) : Build Tree := do
  match (← get).named.lookup name with
  | some target => pure (.reference name target)
  | none => failure

/-- Builds a part under its name. The part can be referred to from the start, and has content once it
is built. -/
def withAnchor (anchor : Option String) (build : Build Tree) : Build Tree := do
  match anchor with
  | none => build
  | some name =>
    let older := (← get).named.length
    modify fun b => { b with named := (name, none) :: b.named }
    let t ← build
    modify fun b => { b with named := b.named.set (b.named.length - 1 - older) (name, some t) }
    pure t

/-! ## Parts -/

/-- No item or value comes before the token. -/
def endsItem : Token → Bool
  | .item | .blockEnd => true
  | _ => false

/-- No key or value by indentation comes before the token. -/
def endsEntry : Token → Bool
  | .key | .value | .blockEnd => true
  | _ => false

/-- No value within the brackets of a list comes before the token. -/
def endsListed : Token → Bool
  | .comma | .closeList => true
  | _ => false

/-- No value within the brackets of a mapping comes before the token. -/
def endsMapped : Token → Bool
  | .comma | .closeMapping => true
  | _ => false

mutual

/-- A part: `block` lets it be given by indentation, `flat` lets it be a list that is not indented.
Every call takes a token or goes over to one that does, so that four times the number of tokens
suffices as `fuel`. -/
def part (fuel : Nat) (block flat : Bool) : Build Tree :=
  match fuel with
  | 0 => failure
  | fuel + 1 => do
    match ← peek with
    | .alias name =>
      pass
      named name
    | _ =>
      let p ← takeProperties
      withAnchor p.anchor (content fuel block flat p)

/-- What a part holds behind its properties. -/
def content (fuel : Nat) (block flat : Bool) (p : Properties) : Build Tree :=
  match fuel with
  | 0 => failure
  | fuel + 1 => do
    let t ← peek
    match t with
    | .scalar s =>
      pass
      pure (.scalar { s with tag := p.tag })
    | .openList =>
      pass
      .list <$> bracketItems fuel true
    | .openMapping =>
      pass
      .mapping <$> bracketEntries fuel true
    | t =>
      if flat && t = .item then .list <$> flatItems fuel
      else if block && t = .listStart then do
        pass
        .list <$> blockItems fuel
      else if block && t = .mappingStart then do
        pass
        .mapping <$> blockEntries fuel
      else if p.anchor.isSome || p.tagged then pure (.scalar ⟨"", true, p.tag⟩)
      else failure

/-- A part, or nothing when a token comes before which there is none. -/
def partUnless (fuel : Nat) (ends : Token → Bool) (block flat : Bool) : Build Tree :=
  match fuel with
  | 0 => failure
  | fuel + 1 => do
    if ends (← peek) then pure .nothing else part fuel block flat

/-- The items of a list by indentation. -/
def blockItems (fuel : Nat) : Build (List Tree) :=
  match fuel with
  | 0 => failure
  | fuel + 1 => do
    match ← peek with
    | .item =>
      pass
      let x ← partUnless fuel endsItem true false
      let xs ← blockItems fuel
      pure (x :: xs)
    | .blockEnd =>
      pass
      pure []
    | _ => failure

/-- The items of a list that is not indented. -/
def flatItems (fuel : Nat) : Build (List Tree) :=
  match fuel with
  | 0 => failure
  | fuel + 1 => do
    match ← peek with
    | .item =>
      pass
      let x ← partUnless fuel (fun t => endsItem t || endsEntry t) true false
      let xs ← flatItems fuel
      pure (x :: xs)
    | _ => pure []

/-- The entries of a mapping by indentation. -/
def blockEntries (fuel : Nat) : Build (List (Tree × Tree)) :=
  match fuel with
  | 0 => failure
  | fuel + 1 => do
    match ← peek with
    | .key =>
      pass
      let k ← partUnless fuel endsEntry true true
      let v ← entryValue fuel endsEntry true
      let rest ← blockEntries fuel
      pure ((k, v) :: rest)
    | .blockEnd =>
      pass
      pure []
    | _ => failure

/-- The value of a key, nothing when there is no colon or nothing behind it. -/
def entryValue (fuel : Nat) (ends : Token → Bool) (block : Bool) : Build Tree :=
  match fuel with
  | 0 => failure
  | fuel + 1 => do
    match ← peek with
    | .value =>
      pass
      partUnless fuel ends block block
    | _ => pure .nothing

/-- The items of a list in brackets, from the first or from a comma on. A key among them makes a
mapping of one entry. -/
def bracketItems (fuel : Nat) (first : Bool) : Build (List Tree) :=
  match fuel with
  | 0 => failure
  | fuel + 1 => do
    match first, ← peek with
    | _, .closeList =>
      pass
      pure []
    | true, t => bracketItem fuel t
    | false, .comma =>
      pass
      bracketItem fuel (← peek)
    | _, _ => failure

/-- An item of a list in brackets that starts with a token, and those after it. -/
def bracketItem (fuel : Nat) (t : Token) : Build (List Tree) :=
  match fuel with
  | 0 => failure
  | fuel + 1 => do
    match t with
    | .closeList =>
      pass
      pure []
    | .key =>
      pass
      let k ← singleKey fuel
      let v ← entryValue fuel endsListed false
      let xs ← bracketItems fuel false
      pure (.mapping [(k, v)] :: xs)
    | _ =>
      let x ← part fuel false false
      let xs ← bracketItems fuel false
      pure (x :: xs)

/-- The key of a mapping of one entry; where it is missing the token in its place is passed over. -/
def singleKey (fuel : Nat) : Build Tree :=
  match fuel with
  | 0 => failure
  | fuel + 1 => do
    let t ← peek
    if t = .value || endsListed t then do
      pass
      pure .nothing
    else part fuel false false

/-- The entries of a mapping in brackets, from the first or from a comma on. -/
def bracketEntries (fuel : Nat) (first : Bool) : Build (List (Tree × Tree)) :=
  match fuel with
  | 0 => failure
  | fuel + 1 => do
    match first, ← peek with
    | _, .closeMapping =>
      pass
      pure []
    | true, t => bracketEntry fuel t
    | false, .comma =>
      pass
      bracketEntry fuel (← peek)
    | _, _ => failure

/-- An entry of a mapping in brackets that starts with a token, and those after it. Without a colon it
has no value. -/
def bracketEntry (fuel : Nat) (t : Token) : Build (List (Tree × Tree)) :=
  match fuel with
  | 0 => failure
  | fuel + 1 => do
    match t with
    | .closeMapping =>
      pass
      pure []
    | .key =>
      pass
      let k ← partUnless fuel (fun t => t = .value || endsMapped t) false false
      let v ← entryValue fuel endsMapped false
      let rest ← bracketEntries fuel false
      pure ((k, v) :: rest)
    | _ =>
      let k ← part fuel false false
      let _ ← peek
      let rest ← bracketEntries fuel false
      pure ((k, .nothing) :: rest)

end

/-! ## Whole documents -/

/-- The version of the language in which documents can be written. -/
def knownVersion : Nat × Nat := (1, 1)

/-- Reads the directives before a document; neither the version nor a handle may come twice. -/
def directives (fuel : Nat) (versioned : Bool) : Build Unit :=
  match fuel with
  | 0 => failure
  | fuel + 1 => do
    match ← peek with
    | .version major minor =>
      if versioned || (major, minor) ≠ knownVersion then failure
      else do
        pass
        directives fuel true
    | .handle name stands =>
      if ((← get).handles.lookup name).isSome then failure
      else do
        pass
        modify fun b => { b with handles := (name, stands) :: b.handles }
        directives fuel versioned
    | _ => pure ()

/-- A document starts before the token, or has ended. -/
def isBoundary : Token → Bool
  | .version .. | .handle .. | .documentStart | .documentEnd | .streamEnd => true
  | _ => false

/-- The first document. -/
def document (fuel : Nat) : Build Tree := do
  let t ← peek
  match t with
  | .streamEnd => pure .nothing
  | .version .. | .handle .. | .documentStart =>
    directives fuel false
    if (← peek) = .documentStart then do
      pass
      let t ← partUnless fuel isBoundary true false
      let _ ← peek
      pure t
    else failure
  | _ =>
    let t ← part fuel true false
    let _ ← peek
    pure t

/-- The first document of a text, none when it is malformed. -/
def read? (s : String) : Option Tree :=
  let cs := s.toList
  if cs.all isAllowed then
    ((document (8 * cs.length + 16)).run { queue := .start cs }).map Prod.fst
  else none

end FactFold.Yaml
