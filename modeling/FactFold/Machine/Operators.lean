import FactFold.Machine.Simplify
import FactFold.Machine.World

/-!
# Operators on values

Arithmetic on two integers wraps at 64 bits; with a number on either side it is done in doubles, and
texts add by joining. Instants differ by spans of time and move by them. Comparisons look through the
widths of numbers.

There are two notions of sameness. Two values have the same content when they agree in type and in
all parts; a list that is one and the same always does. Equality first looks at numbers of any width,
at instants, and at lists item by item, also across the types of their items, and falls back to
sameness of content; null equals an absent vector.
-/

namespace FactFold.Machine

-- powers are those of the core library, whatever other powers are in sight
attribute [local instance (2000)] instPowNat

open Text (Bytes)

/-! ## Numbers -/

/-- Two numbers brought to a common form. -/
inductive NumberPair where
  | ints (a b : Int)
  | doubles (x y : Float)

/-- Two values as numbers of a common form. -/
def numberPair? : Value → Value → Option NumberPair
  | .scalar (.int _ a), .scalar (.int _ b) =>
    some (.ints (Number.wrap64 a) (Number.wrap64 b))
  | .scalar (.int _ a), .scalar (.float _ y) => some (.doubles (Number.doubleOfInt a) y)
  | .scalar (.float _ x), .scalar (.int _ b) => some (.doubles x (Number.doubleOfInt b))
  | .scalar (.float _ x), .scalar (.float _ y) => some (.doubles x y)
  | _, _ => none

/-- An integer as an operator yields it. -/
def intResult (n : Int) : Value := .scalar (.int .int (Number.wrap64 n))

/-- A sum. -/
def sum? (a b : Value) : Option Value :=
  match numberPair? a b with
  | some (.ints x y) => some (intResult (x + y))
  | some (.doubles x y) => some (.double (x + y))
  | none =>
    match a, b with
    | .scalar (.text s), .scalar (.text t) => some (.scalar (.text (s ++ t)))
    | .scalar (.time t), .span s => some (.scalar (.time (t.plus s)))
    | .span s, .scalar (.time t) => some (.scalar (.time (t.plus s)))
    | .span s, .span t => some (.span (.wrapped (s.nanos + t.nanos)))
    | _, _ => none

/-- A difference. -/
def difference? (a b : Value) : Option Value :=
  match numberPair? a b with
  | some (.ints x y) => some (intResult (x - y))
  | some (.doubles x y) => some (.double (x - y))
  | none =>
    match a, b with
    | .scalar (.time s), .scalar (.time t) => some (.span (s.since t))
    | .scalar (.time t), .span s => some (.scalar (.time (t.minus s)))
    | .span s, .span t => some (.span (.wrapped (s.nanos - t.nanos)))
    | _, _ => none

/-- A product. -/
def product? (a b : Value) : Option Value :=
  match numberPair? a b with
  | some (.ints x y) => some (intResult (x * y))
  | some (.doubles x y) => some (.double (x * y))
  | none =>
    match a, b with
    | .scalar (.int _ n), .span s | .span s, .scalar (.int _ n) =>
      some (.span (.wrapped (n * s.nanos)))
    | .scalar (.float _ x), .span s => some (.double (x * Number.doubleOfInt s.nanos))
    | .span s, .scalar (.float _ x) => some (.double (Number.doubleOfInt s.nanos * x))
    | .span s, .span t => some (.span (.wrapped (s.nanos * t.nanos)))
    | _, _ => none

/-- The remainder of integers, with the sign of the first. -/
def remainder? : Value → Value → Option Value
  | .scalar (.int _ a), .scalar (.int _ b) =>
    let b := Number.wrap64 b
    if b = 0 then none else some (intResult (Int.tmod (Number.wrap64 a) b))
  | _, _ => none

/-- Two numbers as doubles. -/
def doublePair? (a b : Value) : Option (Float × Float) :=
  match numberPair? a b with
  | some (.ints x y) => some (Number.doubleOfInt x, Number.doubleOfInt y)
  | some (.doubles x y) => some (x, y)
  | none => none

/-! ## Order -/

/-- An order of two values under a comparison. -/
def orderHolds (op : BinaryOp) (less equal greater : Bool) : Option Bool :=
  match op with
  | .lt => some less
  | .le => some (less || equal)
  | .gt => some greater
  | .ge => some (greater || equal)
  | _ => none

/-- A comparison by an ordering. -/
def orderingHolds (op : BinaryOp) (o : Ordering) : Option Bool :=
  orderHolds op (o = .lt) (o = .eq) (o = .gt)

/-- A comparison of two values by order. -/
def compare? (op : BinaryOp) (a b : Value) : Option Bool :=
  match numberPair? a b with
  | some (.ints x y) => orderHolds op (x < y) (x = y) (y < x)
  | some (.doubles x y) => orderHolds op (x < y) (x == y) (y < x)
  | none =>
    match a, b with
    | .scalar (.text s), .scalar (.text t) => orderingHolds op (Bytes.compare s t)
    | .scalar (.time s), .scalar (.time t) => orderingHolds op (s.compare t)
    | .span s, .span t => orderHolds op (s.nanos < t.nanos) (s = t) (t.nanos < s.nanos)
    | _, _ => none

/-! ## Sameness of content -/

/-- Two lists of doubles hold equal items. -/
def sameDoubles (xs ys : List Float) : Bool :=
  xs.length == ys.length && (xs.zip ys).all fun (x, y) => x == y

/-- Two scalars are the same in type and content. -/
def sameScalar : Scalar → Scalar → Bool
  | .int k a, .int l b => k = l && a = b
  | .float p x, .float q y => p = q && x == y
  | .text s, .text t => s = t
  | .bool a, .bool b => a = b
  | .time s, .time t => s = t
  | _, _ => false

/-- Two places in the heap hold equal vectors. -/
def sameVector (h : Heap) (a b : Nat) : Bool := a = b || sameDoubles (h.get a) (h.get b)

mutual

/-- Two values are the same in type and content, where `sameBuffers` tells it of buffers. -/
def sameWith (h : Heap) (sameBuffers : Nat → Nat → Bool) : Value → Value → Bool
  | .null, .null => true
  | .scalar s, .scalar t => sameScalar s t
  | .span s, .span t => s = t
  | .ints k as, .ints l bs => k = l && as = bs
  | .singles n xs, .singles m ys => n = m || sameDoubles xs ys
  | .doubles a, .doubles b => sameVector h a b
  | .vector none, .vector none => true
  | .vector (some a), .vector (some b) => sameVector h a b
  | .seq n as, .seq m bs => n = m || sameAllWith h sameBuffers as bs
  | .texts as, .texts bs => as = bs
  | .fact n as, .fact m bs => n = m || sameAllWith h sameBuffers as bs
  | .buffer a, .buffer b => a = b || sameBuffers a b
  | .content a, .content b => a = b || sameBuffers a b
  | _, _ => false

/-- Two lists hold the same values. -/
def sameAllWith (h : Heap) (sameBuffers : Nat → Nat → Bool) : List Value → List Value → Bool
  | [], [] => true
  | a :: as, b :: bs => sameWith h sameBuffers a b && sameAllWith h sameBuffers as bs
  | _, _ => false

end

/-- Two buffers are the same in layout and content. Buffers may hold one another, so that only
`depth` of them are looked through; what lies deeper has been compared before. -/
def sameBuffers (w : World) : (depth : Nat) → Nat → Nat → Bool
  | 0, _, _ => true
  | depth + 1, a, b =>
    let m := w.buffer a
    let n := w.buffer b
    m.layout = n.layout && sameAllWith w.heap (sameBuffers w depth) m.fields n.fields

/-- Two values are the same in type and content. -/
def same (w : World) : Value → Value → Bool :=
  sameWith w.heap (sameBuffers w (w.buffers.length ^ (2 : Nat) + 1))

/-! ## Equality -/

/-- The items of a list that equality looks into. -/
def items? (h : Heap) : Value → Option (List Value)
  | .seq _ vs => some vs
  | .ints k ns => some (ns.map fun n => .scalar (.int k n))
  | .singles _ xs => some (xs.map fun x => .scalar (.float .single x))
  | .doubles ref => some ((h.get ref).map .double)
  | .texts ss => some (ss.map fun s => .scalar (.text (.ofText s)))
  | _ => none

/-- The value counts as null in an equality. -/
def countsAsNull : Value → Bool
  | .null | .vector none => true
  | _ => false

/-- Equality of two values of which none is a list of values. -/
def equalItems (w : World) (a b : Value) : Bool :=
  match numberPair? a b with
  | some (.ints x y) => x = y
  | some (.doubles x y) => x == y
  | none =>
    match a, b with
    | .scalar (.time s), .scalar (.time t) => s.compare t = .eq
    | .singles _ xs, .singles _ ys => sameDoubles xs ys
    | .doubles s, .doubles t => sameDoubles (w.heap.get s) (w.heap.get t)
    | a, b => (countsAsNull a && countsAsNull b) || same w a b

mutual

/-- Equality of two values. -/
def equal (w : World) : Value → Value → Bool
  | .seq _ as, b =>
    match items? w.heap b with
    | some bs => equalAll w as bs
    | none => false
  | a, .seq _ bs =>
    match items? w.heap a with
    | some as => as.length == bs.length && (as.zip bs).all fun (x, y) => equalItems w x y
    | none => false
  | a, b => equalItems w a b

/-- Equality of lists, item by item. -/
def equalAll (w : World) : List Value → List Value → Bool
  | [], [] => true
  | a :: as, b :: bs => equal w a b && equalAll w as bs
  | _, _ => false

end

/-- The names of the parts an instant consists of. -/
def instantFields : List String := ["wall", "ext", "loc"]

/-- The names of the parts of what a buffer holds. -/
def contentFields : List String := ["layout", "values"]

/-- A text is among the names of parts. -/
def isNameIn? (names : List String) : Value → Option Bool
  | .scalar (.text s) => some (names.any fun name => Bytes.ofText name = s)
  | _ => none

/-- The value is among the items of a list, or is a text among the names of a value's parts. -/
def isIn? (w : World) (a b : Value) : Option Bool :=
  match b with
  | .null => some false
  | .scalar (.time _) => isNameIn? instantFields a
  | .content _ => isNameIn? contentFields a
  | .vector none => some false
  | .vector (some ref) => some ((w.heap.get ref).any fun x => equal w (.double x) a)
  | .fact _ vs => some (vs.any fun v => equal w v a)
  | b => (items? w.heap b).map fun vs => vs.any fun v => equal w v a

/-! ## Texts and lists -/

/-- A text is part of another from some place on. -/
def isPartOf (t : Bytes) : Bytes → Bool
  | [] => t.isEmpty
  | c :: s => t.isPrefixOf (c :: s) || isPartOf t s

/-- A test of one text against another; null passes none. -/
def textTest? (test : Bytes → Bytes → Option Bool) (a b : Value) : Option Bool :=
  if countsAsNull a || countsAsNull b then some false
  else
    match a, b with
    | .scalar (.text s), .scalar (.text t) => test s t
    | _, _ => none

/-- A text holds something that fits a written pattern; none when the pattern is malformed. -/
def fits? (s pattern : Bytes) : Option Bool :=
  (patternOf? pattern).map fun p => p.isFoundIn (s.pieces.map Bytes.Piece.shown)

/-- The whole number a value can be used as. -/
def wholeNumber? : Value → Option Int
  | .scalar (.int _ n) => some (Number.wrap64 n)
  | .scalar (.float _ x) => some (Number.truncate x)
  | .scalar (.text s) => s.toText?.bind fun s => Number.readDecimalInt? s.toList
  | _ => none

/-- The integers from one to another; too many of them are refused. -/
def range? (a b : Value) : Option Value := do
  let low ← wholeNumber? a
  let high ← wholeNumber? b
  let count := (high - low + 1).toNat
  if count < 1000000 then
    pure (.ints .int ((List.range count).map fun (i : Nat) => low + i))
  else none

/-- All items of a list, or all bytes of a text. -/
def parts? (h : Heap) : Value → Option (List Value)
  | .scalar (.text s) => some (s.map fun b => .scalar (.int .uint8 b.toNat))
  | .vector ref => some (((ref.map h.get).getD []).map .double)
  | .fact _ vs => some vs
  | v => items? h v

/-- An item of a list by its index, which counts from the end when negative. -/
def part? (h : Heap) (v key : Value) : Option Value := do
  let items ← parts? h v
  let i ← wholeNumber? key
  let i := if i < 0 then i + items.length else i
  if i < 0 then none else items[i.toNat]?

/-! ## Operators -/

/-- The power of a number to a whole exponent, by repeated squaring of a fraction between one half
and one and of its binary exponent. -/
def powerSteps : (fuel : Nat) → (i : Nat) → (x a : Float) → (xe ae : Int) → Float × Int
  | 0, _, _, a, _, ae => (a, ae)
  | fuel + 1, i, x, a, xe, ae =>
    if i = 0 then (a, ae)
    else if xe < -4096 || 4096 < xe then (a, ae + xe)
    else
      let (a, ae) := if i % 2 = 1 then (a * x, ae + xe) else (a, ae)
      let x := x * x
      let xe := xe * 2
      if x < 0.5 then powerSteps fuel (i / 2) (x + x) a (xe - 1) ae
      else powerSteps fuel (i / 2) x a xe ae

/-- The power of a number. -/
def power (x y : Float) : Float :=
  let whole := y.abs.floor
  if x.isNaN || y.isNaN || x.isInf || y.isInf || x == 0 || y == 0 || x == 1 || y.abs == 0.5 ||
      y.abs != whole || whole ≥ 9.2e18 then
    Float.pow x y
  else
    let (f, e) := x.frExp
    let (a, ae) := powerSteps 64 (Number.truncate whole).toNat f 1 e 0
    if y < 0 then (1 / a).scaleB (-ae) else a.scaleB ae

/-- A binary operator that looks at both its operands. -/
def binary (w : World) (op : BinaryOp) (a b : Value) : Except Fault Value :=
  let fitting (v : Option Value) : Except Fault Value :=
    match v with
    | some v => .ok v
    | none => .error .misfit
  let holds (v : Option Bool) : Except Fault Value := fitting (v.map .bool)
  match op with
  | .add => fitting (sum? a b)
  | .sub => fitting (difference? a b)
  | .mul => fitting (product? a b)
  | .div => fitting ((doublePair? a b).map fun (x, y) => .double (x / y))
  | .rem => fitting (remainder? a b)
  | .pow => fitting ((doublePair? a b).map fun (x, y) => .double (power x y))
  | .eq => .ok (.bool (equal w a b))
  | .ne => .ok (.bool (!equal w a b))
  | .isIn => holds (isIn? w a b)
  | .contains => holds (textTest? (fun s t => some (isPartOf t s)) a b)
  | .startsWith => holds (textTest? (fun s t => some (t.isPrefixOf s)) a b)
  | .endsWith => holds (textTest? (fun s t => some (t.isSuffixOf s)) a b)
  | .fits => holds (textTest? fits? a b)
  | .range => fitting (range? a b)
  | op => holds (compare? op a b)

/-- A unary operator. -/
def unary (op : UnaryOp) (a : Value) : Except Fault Value :=
  match op, a with
  | .not, .scalar (.bool b) => .ok (.bool (!b))
  | .minus, .scalar (.int k n) => .ok (.scalar (.int k (k.wrap (-n))))
  | .minus, .scalar (.float p x) => .ok (.scalar (.float p (-x)))
  | .plus, a => .ok a
  | _, _ => .error .misfit

/-- Two values that are compared as integers or as texts, and as nothing else. -/
def equalAs (type : Static) (a b : Value) : Except Fault Value :=
  match type, a, b with
  | .int, .scalar (.int .int x), .scalar (.int .int y) => .ok (.bool (x = y))
  | .text, .scalar (.text s), .scalar (.text t) => .ok (.bool (s = t))
  | _, _, _ => .error .misfit

/-- Division: of two integers toward zero, of anything else in doubles. -/
def divide (a b : Value) : Except Fault Value :=
  if a.isInteger && b.isInteger then
    let d := b.operand.longOrZero
    if d = 0 then .error .divisionByZero
    else .ok (.long (Number.wrap64 (Int.tdiv a.operand.longOrZero d)))
  else
    match a.operand.toDouble, b.operand.toDouble with
    | .ok x, .ok y => .ok (.double (x / y))
    | .error e, _ | _, .error e => .error (.conversion e)

end FactFold.Machine
