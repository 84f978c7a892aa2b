import FactFold.Kind.Visitor

/-!
# The built-in kinds

Sum, mean, sum of squares, minimum, maximum, product, and the sum of the negative part. Sum, mean and
the negative part also fold vectors, item by item. Minimum and maximum cannot take a row out again.
-/

namespace FactFold.Kind

/-! ## Sum -/

/-- Adds numbers, or vectors item by item. -/
def sum : Visitor where
  kind := "sum"
  layout t := onNumeric "sum" t (.ok [t])
  contribute e :=
    let t := e.type
    onNumeric "sum" t (e.render
      (some fun value => [agg.add 0 value t])
      (some fun value =>
        [declareValue t value,
         .cond (notNull valueVar) [accumulateVector 0 valueVar valueVar "plus"] []]))
  decontribute e :=
    let t := e.type
    onNumeric "sum" t (some <$> e.render
      (some fun value => [agg.add 0 (negate value) t])
      (some fun value =>
        [declareValue t value,
         .cond (both (notNull valueVar) (agg.isSet 0)) [agg.vector 0 "minus" [valueVar]] []]))
  merge t :=
    match t with
    | .scalar _ => .ok [target.add 0 (source.read 0 t) t]
    | .array _ => .ok (mergeVector "plus" [])
    | t => unsupported "sum" t
  terminate t := onNumeric "sum" t (.ok [.ret (agg.read 0 t)])
  terminateType t := onNumeric "sum" t (.ok t)

/-! ## Mean -/

/-- Counts rows in the second field. -/
def count (n : Int) : Stmt := agg.add 1 (.int n) .int

/-- Adds the source's count to the target's. -/
def mergeCount : Stmt := target.add 1 (source.read 1 .int) .int

/-- Keeps the sum and the number of rows; the result is their quotient. -/
def mean : Visitor where
  kind := "mean"
  layout t := onNumeric "mean" t (.ok [t, .int])
  contribute e :=
    let t := e.type
    onNumeric "mean" t (e.render
      (some fun value => [agg.add 0 value t, count 1])
      (some fun value =>
        [declareValue t value,
         .cond (notNull valueVar)
           [accumulateVector 0 valueVar valueVar "plus", count 1] []]))
  decontribute e :=
    let t := e.type
    onNumeric "mean" t (some <$> e.render
      (some fun value => [agg.add 0 (negate value) t, count (-1)])
      (some fun value =>
        [declareValue t value,
         .cond (both (notNull valueVar) (agg.isSet 0))
           [agg.vector 0 "minus" [valueVar], count (-1)] []]))
  merge t :=
    match t with
    | .scalar _ => .ok [target.add 0 (source.read 0 t) t, mergeCount]
    | .array _ => .ok (mergeVector "plus" [mergeCount])
    | t => unsupported "mean" t
  terminate t :=
    match t with
    | .scalar _ => .ok [.ret (.binary "/" (.cast "double" (agg.read 0 t)) (agg.read 1 .int))]
    | .array _ =>
      .ok [.decl DataType.vectorInterface "result" (.invoke (agg.readVector 0) "cloneOnHeap" []),
        .run (.invoke (.ident "result") "scale" [.binary "/" (.double 1) (agg.read 1 .int)]),
        .ret (.ident "result")]
    | t => unsupported "mean" t
  terminateType t :=
    match t with
    | .scalar _ => .ok .double
    | .array _ => .ok (.array .double)
    | t => unsupported "mean" t

/-! ## Sum of squares -/

/-- A value times itself. -/
def square (x : Term) : Term := .binary "*" x x

/-- Adds the squares of numbers. -/
def squareSum : Visitor where
  kind := "square_sum"
  layout t := onScalar "square_sum" t (.ok [t])
  contribute e :=
    let t := e.type
    onScalar "square_sum" t (e.render
      (some fun value => [declareValue t value, agg.add 0 (square valueVar) t]) none)
  decontribute e :=
    let t := e.type
    onScalar "square_sum" t (some <$> e.render
      (some fun value => [declareValue t value, agg.add 0 (negate (square valueVar)) t]) none)
  merge t := onScalar "square_sum" t (.ok [target.add 0 (source.read 0 t) t])
  terminate t := onScalar "square_sum" t (.ok [.ret (agg.read 0 t)])
  terminateType t := onScalar "square_sum" t (.ok t)

/-! ## Extrema -/

/-- Keeps the number that compares by `op` to all others. -/
def extremum (kind op : String) : Visitor where
  kind := kind
  layout t := onScalar kind t (.ok [t])
  contribute e :=
    let t := e.type
    onScalar kind t (e.render
      (some fun value =>
        [declareValue t value,
         .cond (either (agg.isNull 0) (.binary op valueVar (agg.read 0 t)))
           [agg.write 0 valueVar] []]) none)
  decontribute _ := .ok none
  merge t :=
    onScalar kind t (.ok
      [.cond (source.isSet 0)
        [.decl t.sourceName "input" (source.read 0 t),
         .cond (either (target.isNull 0) (.binary op (.ident "input") (target.read 0 t)))
           [target.write 0 (.ident "input")] []]
        []])
  terminate t := onScalar kind t (.ok [.ret (agg.read 0 t)])
  terminateType t := onScalar kind t (.ok t)

/-- Keeps the smallest number. -/
def min : Visitor := extremum "min" "<"

/-- Keeps the largest number. -/
def max : Visitor := extremum "max" ">"

/-! ## Product -/

/-- Multiplies numbers; an unset field has seen no row. -/
def multiply : Visitor where
  kind := "multiply"
  layout t := onScalar "multiply" t (.ok [t])
  contribute e :=
    let t := e.type
    onScalar "multiply" t (e.render
      (some fun value =>
        [declareValue t value,
         .cond (agg.isNull 0) [agg.write 0 valueVar]
           [agg.write 0 (.binary "*" (agg.read 0 t) valueVar)]]) none)
  decontribute e :=
    let t := e.type
    onScalar "multiply" t (some <$> e.render
      (some fun value => [agg.write 0 (.binary "/" (agg.read 0 t) value)]) none)
  merge t :=
    onScalar "multiply" t (.ok
      [.cond (source.isSet 0)
        [.cond (target.isNull 0) [target.write 0 (source.read 0 t)]
          [target.write 0 (.binary "*" (target.read 0 t) (source.read 0 t))]]
        []])
  terminate t := onScalar "multiply" t (.ok [.ret (agg.read 0 t)])
  terminateType t := onScalar "multiply" t (.ok t)

/-! ## Negative part -/

/-- The import of the view that keeps only negative items. -/
def negativeVectorImport : String := "com.qfs.vector.impl.NegativeVector"

/-- The smaller of zero and a value. -/
def negativePart (t : DataType) (value : Term) : Term := .call "Math.min" [zero t, value]

/-- Adds the negative parts of numbers, or of the items of vectors. The stored items are never
positive, so that a merge may add their negative parts. -/
def short : Visitor where
  kind := "short"
  layout t := onNumeric "short" t (.ok [t])
  contribute e :=
    let t := e.type
    onNumeric "short" t (e.render
      (some fun value => [agg.add 0 (negativePart t value) t])
      (some fun value =>
        [declareValue t value,
         .cond (notNull valueVar)
           [accumulateVector 0 valueVar (.new "NegativeVector" [valueVar]) "plusNegativeValues"]
           []]))
  decontribute e :=
    let t := e.type
    onNumeric "short" t (some <$> e.render
      (some fun value => [agg.add 0 (negate (negativePart t value)) t])
      (some fun value =>
        [declareValue t value,
         .cond (both (notNull valueVar) (agg.isSet 0))
           [agg.vector 0 "minusNegativeValues" [valueVar]] []]))
  merge t :=
    match t with
    | .scalar _ => .ok [target.add 0 (source.read 0 t) t]
    | .array _ => .ok (mergeVector "plusNegativeValues" [])
    | t => unsupported "short" t
  terminate t := onNumeric "short" t (.ok [.ret (agg.read 0 t)])
  terminateType t := onNumeric "short" t (.ok t)
  imports := some fun t => if t.isArray then [negativeVectorImport] else []

end FactFold.Kind
