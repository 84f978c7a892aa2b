import FactFold.Machine.Operators

/-!
# Methods

The methods that routines call: on fact records, on buffers, on vectors and on other values, and the
static ones. Vectors change in place; the static methods on vectors yield new ones.
-/

namespace FactFold.Machine

open Run (converted toVector boxed)

/-! ## Fact records -/

/-- A field of a fact record, by a value that stands for its place. -/
def factField (fields : List Value) (place : Value) : Except Fault Value :=
  match place.operand.toIndex with
  | .error e => .error (.conversion e)
  | .ok i =>
    if i < 0 then .error (.factRange i fields.length)
    else
      match fields[i.toNat]? with
      | some v => .ok v
      | none => .error (.factRange i fields.length)

/-- A method of a fact record. -/
def factMethod (fields : List Value) (method : String) (args : List Value) : Run Value :=
  match args with
  | [place] => do
    let v ← liftM (factField fields place)
    match method with
    | "readInt" | "readLong" => .long <$> converted v.operand.toLong
    | "readFloat" | "readDouble" => .double <$> converted v.operand.toDouble
    | "readBoolean" => .bool <$> converted v.operand.toBool
    | "readVector" => boxed <$> toVector v
    | "read" => pure v
    | method => throw (.unknownFactMethod method)
  | _ => throw (.factArity method)

/-! ## Buffers -/

/-- Writes a value into a field of a buffer; an array field takes the vector the value can be used
as. -/
def bufferWrite (id i : Nat) (value : Value) : Run Value := do
  let value ←
    if ((← get).buffer id |>.typeAt i).isArray then Value.vector <$> toVector value else pure value
  let w ← get
  match (w.buffer id).writeAt w.heap i value with
  | .ok (m, h) =>
    set ({ w with heap := h }.setBuffer id m)
    pure .null
  | .error e => throw (.memory e)

/-- Adds a value to a field of a buffer. -/
def bufferAdd (id i : Nat) (delta : Value) : Run Value := do
  let w ← get
  match (w.buffer id).addAt i delta with
  | .ok m =>
    set (w.setBuffer id m)
    pure .null
  | .error e => throw (.memory e)

/-- The method's name starts as the names of adding methods do. -/
def isAddMethod (method : String) : Bool := "add".toList.isPrefixOf method.toList

/-- A method of a buffer. -/
def bufferMethod (id : Nat) (method : String) (args : List Value) : Run Value :=
  match args with
  | [] => throw (.bufferArity method)
  | place :: rest => do
    let field ← converted place.operand.toIndex
    let m := (← get).buffer id
    if field < 0 ∨ (m.layout.length : Int) ≤ field then throw (.bufferRange field m.layout)
    let i := field.toNat
    match method, rest with
    | "isNull", _ => pure (.bool (m.valueAt i).isNull)
    | "readVector", _ | "readWritableVector", _ => pure (boxed (m.vectorAt i))
    | "readInt", _ | "readLong", _ => pure (.long (m.intAt i))
    | "readFloat", _ | "readDouble", _ => pure (.double (m.doubleAt i))
    | "write", [value] => bufferWrite id i value
    | method, [delta] =>
      if isAddMethod method then bufferAdd id i delta
      else throw (.unknownBufferMethod method args.length)
    | method, _ => throw (.unknownBufferMethod method args.length)

/-! ## Vectors -/

/-- The change a vector method makes by another vector. -/
def vectorChange? (method : String) : Option (List Float → List Float → List Float) :=
  match method with
  | "plus" => some Vector.plus
  | "minus" => some Vector.minus
  | "plusNegativeValues" => some Vector.plusNegative
  | "minusNegativeValues" => some Vector.minusNegative
  | _ => none

/-- Changes the vector at a place, if there is one. -/
def updateIfPresent (ref : Option Nat) (f : List Float → List Float) : Run Unit :=
  match ref with
  | some ref => Run.update ref f
  | none => pure ()

/-- A method of a vector, which may be absent. -/
def vectorMethod (ref : Option Nat) (method : String) (args : List Value) : Run Value := do
  if method = "cloneOnHeap" then
    match ref with
    | some ref => do
      let copy ← Run.alloc (← Run.vectorAt ref)
      pure (.vector (some copy))
    | none => pure (.vector none)
  else
    match args with
    | [arg] =>
      if method = "scale" then
        let factor ← converted arg.operand.toDouble
        updateIfPresent ref (Vector.scale factor)
        pure .null
      else
        match ← toVector arg with
        | none => throw (.nullPointer ("vector." ++ method))
        | some other =>
          match vectorChange? method with
          | none => throw (.unknownVectorMethod method)
          | some change =>
            let items ← Run.vectorAt other
            updateIfPresent ref fun v => change v items
            pure .null
    | _ => throw (.vectorArity method)

/-! ## Other values -/

/-- The number of an ordering. -/
def orderingNumber : Ordering → Int
  | .lt => -1
  | .eq => 0
  | .gt => 1

/-- A method of a value that is neither a record, a buffer nor a vector. -/
def valueMethod (w : World) (receiver : Value) (method : String) (args : List Value) :
    Except Fault Value :=
  match args with
  | [arg] =>
    match method, receiver, arg with
    | "equals", .scalar (.time s), .scalar (.time t) => .ok (.bool (s.compare t = .eq))
    | "equals", .scalar (.time _), _ => .ok (.bool false)
    | "equals", receiver, arg => .ok (.bool (same w receiver arg))
    | "compareTo", .scalar (.text s), arg =>
      match arg.operand.toText with
      | .ok t => .ok (.long (orderingNumber (Text.Bytes.compare s t)))
      | .error e => .error (.conversion e)
    | "compareTo", .scalar (.time s), .scalar (.time t) =>
      .ok (.long (orderingNumber (s.compare t)))
    | "compareTo", .scalar (.time _), arg => .error (.dateCompare arg.typeName)
    | method, receiver, _ => .error (.unknownMethod method receiver.typeName)
  | _ => .error (.valueArity receiver.typeName method)

/-- A method of a value. -/
def invoke (receiver : Value) (method : String) (args : List Value) : Run Value :=
  match receiver with
  | .null => throw (.nullPointer method)
  | .fact _ fields => factMethod fields method args
  | .buffer id => bufferMethod id method args
  | .vector ref => vectorMethod ref method args
  | receiver => do
    let w ← get
    liftM (valueMethod w receiver method args)

/-! ## Static methods -/

/-- The smaller or the larger of two values. -/
def extremum (name : String) (isMin : Bool) (args : List Value) : Except Fault Value :=
  match args with
  | [a, b] =>
    if a.isInteger && b.isInteger then
      let x := a.operand.longOrZero
      let y := b.operand.longOrZero
      .ok (.long (if (x < y) == isMin then x else y))
    else
      match a.operand.toDouble, b.operand.toDouble with
      | .ok x, .ok y => .ok (.double (if isMin then Vector.smaller x y else Vector.larger x y))
      | .error e, _ | _, .error e => .error (.conversion e)
  | _ => .error (.twoOperands name)

/-- A static method on vectors: a copy of the first operand, changed by the second. -/
def vectorStatic (name : String) (args : List Value) : Run Value :=
  match args with
  | [a, b] => do
    match ← toVector a with
    | none => throw (.nullPointer name)
    | some ref =>
      let items ← Run.vectorAt ref
      let copy ← Run.alloc items
      if name = "VectorOps.scale" then
        let factor ← converted b.operand.toDouble
        Run.update copy (Vector.scale factor)
      else
        match ← toVector b with
        | none => pure ()
        | some other =>
          let others ← Run.vectorAt other
          Run.update copy fun v =>
            if name = "VectorOps.plus" then Vector.plus v others else Vector.minus v others
      pure (.vector (some copy))
  | _ => throw (.twoOperands name)

/-- The date of a year, a month and a day. -/
def dateOf (args : List Value) : Except Fault Value :=
  match args with
  | [y, m, d] =>
    .ok (.scalar (.time (.ofDate
      ⟨y.operand.longOrZero, m.operand.longOrZero, d.operand.longOrZero⟩)))
  | _ => .error .dateArity

/-- A static method: one given from outside, or else a built-in one. -/
def static (natives : Natives) (name : String) (args : List Value) : Run Value :=
  match natives.lookup name with
  | some f => do
    match ← liftM (f args) with
    | .value v => pure v
    | .datum d => Run.load d
  | none =>
    match name with
    | "Math.min" => liftM (extremum name true args)
    | "Math.max" => liftM (extremum name false args)
    | "VectorOps.plus" | "VectorOps.minus" | "VectorOps.scale" => vectorStatic name args
    | "LocalDate.of" => liftM (dateOf args)
    | name => throw (.unknownFunction name)

/-- A static method by all its arguments, of which the first is its name. -/
def staticOf (natives : Natives) : List Value → Run Value
  | [] => throw .noFunctionName
  | name :: args => static natives name.operand.textOrEmpty.lossy args

/-- A method of a value by all the arguments of a call: the receiver, the name and the others. -/
def invokeOf : List Value → Run Value
  | receiver :: name :: args => invoke receiver name.operand.textOrEmpty.lossy args
  | _ => throw .callArity

/-- Division by the arguments of a call. -/
def divideOf : List Value → Except Fault Value
  | [a, b] => divide a b
  | _ => .error .quotientArity

/-! ## Conversions and new objects -/

/-- A value as a type given by its spelling. -/
def convert (type : String) (v : Value) : Run Value :=
  match type with
  | "int" | "long" => .long <$> converted v.operand.toLong
  | "float" | "double" => .double <$> converted v.operand.toDouble
  | "boolean" => .bool <$> converted v.operand.toBool
  | "String" => (fun s => .scalar (.text s)) <$> converted v.operand.toText
  | "LocalDate" =>
    match v with
    | .scalar (.time _) => pure v
    | v => throw (.notDate v.typeName)
  | "IVector" => boxed <$> toVector v
  | _ => pure v

/-- A conversion by its arguments: the type and the value. -/
def convertOf : List Value → Run Value
  | [type, v] => convert type.operand.textOrEmpty.lossy v
  | _ => throw .convertArity

/-- A new object of a class, made of a vector. -/
def newOf : List Value → Run Value
  | [className, arg] => do
    let v ← toVector arg
    match className.operand.textOrEmpty.lossy with
    | "NegativeVector" =>
      match v with
      | none => throw (.nullPointer "new NegativeVector")
      | some ref =>
        let items ← Run.vectorAt ref
        let negative ← Run.alloc (Vector.negativePart items)
        pure (.vector (some negative))
    | "ArrayIntegerVector" | "ArrayLongVector" | "ArrayFloatVector" | "ArrayDoubleVector" =>
      pure (boxed v)
    | name => throw (.unknownClass name)
  | _ => throw .newArity

end FactFold.Machine
