import FactFold.Text.Case

/-!
# Patterns of texts

A pattern says which stretches of a text fit it. To find out whether a text holds a stretch that fits,
`reach` follows the pattern from a set of places at once and tells the places where a fit may end; so
every part of the pattern is gone through once, however many ways to fit there are.
-/

namespace FactFold.Text

/-! ## Classes of characters -/

/-- Characters by closed ranges of code points, or all others. -/
structure CharSet where
  ranges : List (Nat × Nat)
  negated : Bool := false
  deriving Repr, DecidableEq

/-- The set holds a character. -/
def CharSet.holds (s : CharSet) (c : Char) : Bool :=
  s.negated != s.ranges.any fun (first, last) => first ≤ c.toNat && c.toNat ≤ last

/-- The characters in one of several sets, or all others; where asked, the case of letters does not
matter. -/
structure CharClass where
  sets : List CharSet
  negated : Bool := false
  anyCase : Bool := false
  deriving Repr, DecidableEq

namespace CharClass

/-- The class holds a character. -/
def holds (k : CharClass) (c : Char) : Bool :=
  let forms := if k.anyCase then caseForms c else [c]
  k.negated != forms.any fun c => k.sets.any (·.holds c)

/-- The class of one character. -/
def single (anyCase : Bool) (c : Char) : CharClass :=
  { sets := [⟨[(c.toNat, c.toNat)], false⟩], anyCase := anyCase }

end CharClass

/-- A letter of the basic alphabet, a digit or an underscore. -/
def wordRanges : List (Nat × Nat) := [(0x30, 0x39), (0x41, 0x5a), (0x5f, 0x5f), (0x61, 0x7a)]

/-- A character of a word. -/
def isWordChar (c : Char) : Bool := CharSet.holds ⟨wordRanges, false⟩ c

/-! ## Patterns -/

/-- Conditions on a place in a text. -/
inductive Place where
  | textStart
  | textEnd
  | lineStart
  | lineEnd
  /-- A word starts or ends here. -/
  | wordEdge
  /-- No word starts or ends here. -/
  | insideOrOutside
  deriving Repr, DecidableEq

/-- A pattern. -/
inductive Pattern where
  | empty
  | one (k : CharClass)
  | isAt (p : Place)
  | both (first second : Pattern)
  | either (a b : Pattern)
  /-- Repeated, `most` times at most if there is a limit. -/
  | times (x : Pattern) (least : Nat) (most : Option Nat)
  deriving Repr, DecidableEq

/-- The condition holds at a place, counted in characters. -/
def Place.holds (cs : Array Char) (i : Nat) : Place → Bool
  | .textStart => i = 0
  | .textEnd => i = cs.size
  | .lineStart => i = 0 || cs[i - 1]? = some '\n'
  | .lineEnd => i = cs.size || cs[i]? = some '\n'
  | .wordEdge => edge
  | .insideOrOutside => !edge
where
  /-- Of the characters before and after, one belongs to a word and the other does not. -/
  edge : Bool :=
    let isWord (c : Option Char) : Bool := (c.map isWordChar).getD false
    isWord (if i = 0 then none else cs[i - 1]?) != isWord cs[i]?

namespace Pattern

/-- Places of two sets. -/
def union (ps qs : List Nat) : List Nat := ps ++ qs.filter fun q => !ps.contains q

/-- The places after the given number of rounds. -/
def rounds (step : List Nat → List Nat) : Nat → List Nat → List Nat
  | 0, ps => ps
  | n + 1, ps => rounds step n (step ps)

/-- The places after at most the given number of rounds; rounds that lead nowhere new end it. -/
def upTo (step : List Nat → List Nat) : Nat → List Nat → List Nat
  | 0, ps => ps
  | n + 1, ps =>
    let qs := union ps (step ps)
    if qs.length = ps.length then ps else upTo step n qs

/-- The places where a fit may end that starts at one of the given places. As a round that leads to
new places leads to at least one of those the text has, their number bounds the rounds. -/
def reach (cs : Array Char) : Pattern → List Nat → List Nat
  | .empty, ps => ps
  | .one k, ps =>
    ps.filterMap fun i => if (cs[i]?.map k.holds).getD false then some (i + 1) else none
  | .isAt p, ps => ps.filter fun i => p.holds cs i
  | .both a b, ps => reach cs b (reach cs a ps)
  | .either a b, ps => union (reach cs a ps) (reach cs b ps)
  | .times x least most, ps =>
    let step := reach cs x
    upTo step ((most.map (· - least)).getD (cs.size + 1)) (rounds step least ps)

/-- Some stretch of the text fits the pattern. -/
def isFoundIn (p : Pattern) (cs : List Char) : Bool :=
  !(p.reach cs.toArray (List.range (cs.length + 1))).isEmpty

/-- Repetitions inside one another multiply to no more than `n`. -/
def repeatsWithin (n : Nat) : Pattern → Bool
  | .both a b | .either a b => repeatsWithin n a && repeatsWithin n b
  | .times x least most =>
    let m := most.getD least
    if m ≤ n then repeatsWithin (if m = 0 then n else n / m) x else most = some 0
  | _ => true

end Pattern

end FactFold.Text
