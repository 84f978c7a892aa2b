import FactFold.Number.Binary

/-!
# Vectors

Vectors are lists of doubles of any length. An operation on two vectors changes the first one item by
item, as far as the second one reaches.
-/

namespace FactFold.Vector

/-- The smaller of two doubles; minus zero is smaller than zero, and not-a-number yields to minus
infinity only. -/
def smaller (x y : Float) : Float :=
  let lowest (z : Float) : Bool := z.isInf && Number.isNegative z
  if lowest x || lowest y then Number.doubleOf true .infinite
  else if x.isNaN || y.isNaN then Number.doubleOf false .nan
  else if x == 0 && x == y then (if Number.isNegative x then x else y)
  else if x < y then x
  else y

/-- The larger of two doubles; zero is larger than minus zero, and not-a-number yields to infinity
only. -/
def larger (x y : Float) : Float :=
  let highest (z : Float) : Bool := z.isInf && !Number.isNegative z
  if highest x || highest y then Number.doubleOf false .infinite
  else if x.isNaN || y.isNaN then Number.doubleOf false .nan
  else if x == 0 && x == y then (if Number.isNegative x then y else x)
  else if x > y then x
  else y

/-- Changes the items of the first list by those of the second, as far as it reaches. -/
def zipOnto (f : Float → Float → Float) : List Float → List Float → List Float
  | x :: xs, y :: ys => f x y :: zipOnto f xs ys
  | xs, [] => xs
  | [], _ => []

/-- Adds item by item. -/
def plus (v w : List Float) : List Float := zipOnto (· + ·) v w

/-- Subtracts item by item. -/
def minus (v w : List Float) : List Float := zipOnto (· - ·) v w

/-- Adds the negative items only. -/
def plusNegative (v w : List Float) : List Float := zipOnto (fun x y => x + smaller 0 y) v w

/-- Subtracts the negative items only. -/
def minusNegative (v w : List Float) : List Float := zipOnto (fun x y => x - smaller 0 y) v w

/-- Multiplies every item. -/
def scale (factor : Float) (v : List Float) : List Float := v.map (· * factor)

/-- Keeps the negative items, with zero for the others. -/
def negativePart (v : List Float) : List Float := v.map (smaller 0)

end FactFold.Vector
