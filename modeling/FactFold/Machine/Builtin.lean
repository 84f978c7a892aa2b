import FactFold.Log.Verb
import FactFold.Machine.Operators
import FactFold.Text.Case

/-!
# Functions of the evaluator

What the functions on plain values yield: lengths, sorts and texts of values, conversions between
numbers and texts, roundings, and the extremes and the sum of lists. A function that does not fit its
arguments is a misfit like an operator.
-/

namespace FactFold.Machine

open Text (Bytes)

/-! ## Any value -/

/-- How many items a list has, or how many characters a text. -/
def lengthOf? (h : Heap) : Value → Option Nat
  | .scalar (.text s) => some s.pieces.length
  | v => (parts? h v).map List.length

/-- The name of a value's sort. -/
def sortName? : Value → Option String
  | .null => some "nil"
  | .scalar (.int k _) => some (if k.signed then "int" else "uint")
  | .scalar (.float ..) => some "float"
  | .scalar (.text _) => some "string"
  | .scalar (.bool _) => some "bool"
  | .scalar (.time t) => some (Scalar.time t).typeName
  | .span _ => some Span.typeName
  | .ints .. | .singles .. | .doubles _ | .seq .. | .texts _ => some "array"
  | _ => none

mutual

/-- A value as it is shown; none for what a buffer holds. -/
def shown? (h : Heap) : Value → Option Log.Arg
  | .null => some .null
  | .scalar s => some (.ofScalar s)
  | .span t => some (.shown Span.typeName t.text)
  | .ints k ns => some (.ofDatum (.ints k ns))
  | .singles _ xs => some (.ofDatum (.floats .single xs))
  | .doubles ref => some (.ofDatum (.floats .double (h.get ref)))
  | .vector ref => some (.ofDatum (.vector (ref.map h.get)))
  | .seq _ items => (shownAll? h items).map fun args => .list Datum.seqTypeName (some args)
  | .texts ss => some (.ofDatum (.texts ss))
  | .fact number items =>
    (shownAll? h items).map fun args => .list (Value.fact number []).typeName (some args)
  | .buffer _ | .content _ => none

/-- Values as they are shown. -/
def shownAll? (h : Heap) : List Value → Option (List Log.Arg)
  | [] => some []
  | v :: rest => do
    let a ← shown? h v
    let as ← shownAll? h rest
    pure (a :: as)

end

/-- The text of a value. -/
def textOf? (h : Heap) (v : Value) : Option Bytes := (shown? h v).map (Log.shownUnder {} 'v')

/-! ## Numbers -/

/-- The absolute value, of the same type. -/
def absOf? : Value → Option Value
  | .scalar (.int k n) => some (.scalar (.int k (if n < 0 then k.wrap (-n) else n)))
  | .scalar (.float p x) => some (.scalar (.float p (if x < 0 then -x else x)))
  | _ => none

/-- A number as a double. -/
def doubleOf? : Value → Option Float
  | .scalar (.int _ n) => some (Number.doubleOfInt n)
  | .scalar (.float _ x) => some x
  | _ => none

/-- A number or the number a text writes, as a double. -/
def readDouble? : Value → Option Float
  | .scalar (.text s) => s.toText?.bind fun s => Number.readFloat? s.toList
  | v => doubleOf? v

/-! ## Texts -/

/-- The piece is a blank. -/
def isBlankPiece : Bytes.Piece → Bool
  | .char c => Text.isBlank c
  | .stray _ => false

/-- A text without the blanks around it. -/
def trimmed (s : Bytes) : Bytes :=
  let front := s.pieces.dropWhile isBlankPiece
  (front.reverse.dropWhile isBlankPiece).reverse.flatMap Log.pieceBytes

/-- A text with every character changed. -/
def mapChars (f : Char → Char) (s : Bytes) : Bytes :=
  s.pieces.flatMap fun p => String.utf8EncodeChar (f p.shown)

/-- A function on a text. -/
def onText? (f : Bytes → Bytes) : Value → Option Value
  | .scalar (.text s) => some (.scalar (.text (f s)))
  | _ => none

/-! ## Lists -/

/-- The first of two values, or the second when there is no first or the comparison holds. -/
def better (op : BinaryOp) (best : Option Value) (v : Value) : Option Value :=
  match best with
  | none => some v
  | some b => if compare? op b v = some true then some v else some b

mutual

/-- The best of numbers, in lists of them too, after the best so far. -/
def bestOf? (op : BinaryOp) (best : Option Value) : Value → Option (Option Value)
  | .seq _ items => bestOfAll? op best items
  | v => if (doubleOf? v).isSome then some (better op best v) else none

/-- The best of several numbers. -/
def bestOfAll? (op : BinaryOp) (best : Option Value) : List Value → Option (Option Value)
  | [] => some best
  | v :: rest => do
    let best ← bestOf? op best v
    bestOfAll? op best rest

end

/-- The items of a list; a text is none. -/
def listItems? (h : Heap) : Value → Option (List Value)
  | .scalar _ => none
  | v => parts? h v

/-- The best of arguments; a single one that is no number and no list is itself the best. -/
def extremeOf? (h : Heap) (op : BinaryOp) (args : List Value) : Option Value :=
  let opened (v : Value) : Value := ((listItems? h v).map (Value.seq 0)).getD v
  match bestOfAll? op none (args.map opened), args with
  | some best, _ => some (best.getD .null)
  | none, [v] => if (listItems? h v).isSome then none else some v
  | none, _ => none

/-- The sum of the items of a list. -/
def sumOf? (h : Heap) (v : Value) : Option Value := do
  (← listItems? h v).foldlM (fun acc x => sum? x acc) (intResult 0)

/-! ## All functions -/

/-- What a function yields; none when it does not fit its arguments. -/
def builtin? (h : Heap) (f : Builtin) (args : List Value) : Option Value :=
  match f, args with
  | .len, [v] => (lengthOf? h v).map fun n => intResult n
  | .type, [v] => (sortName? v).map fun s => .scalar (.text (.ofText s))
  | .abs, [v] => absOf? v
  | .ceil, [v] => (doubleOf? v).map fun x => .double x.ceil
  | .floor, [v] => (doubleOf? v).map fun x => .double x.floor
  | .round, [v] => (doubleOf? v).map fun x => .double x.round
  | .int, [v] => (wholeNumber? v).map intResult
  | .float, [v] => (readDouble? v).map .double
  | .string, [v] => (textOf? h v).map fun s => .scalar (.text s)
  | .trim, [v] => onText? trimmed v
  | .upper, [v] => onText? (mapChars Text.upperChar) v
  | .lower, [v] => onText? (mapChars Text.lowerChar) v
  | .first, [v] => some ((part? h v (intResult 0)).getD .null)
  | .last, [v] => some ((part? h v (intResult (-1))).getD .null)
  | .max, args => extremeOf? h .lt args
  | .min, args => extremeOf? h .gt args
  | .sum, [v] => sumOf? h v
  | .bitnot, [.scalar (.int .int n)] => some (intResult (-n - 1))
  | _, _ => none

end FactFold.Machine
