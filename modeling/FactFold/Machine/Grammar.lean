import FactFold.Machine.Lexeme

/-!
# Reading formulas

The grammar of evaluator source, as far as routines can reach it. Operators bind by their rank, a
higher rank tighter; those of one rank group to the left, except powers. Comparisons by order may be
chained and then hold all together. A bar hands its first operand on as the first argument of a call.
A choice binds loosest of all. Accesses follow names, texts,
lists and brackets, but no number and none of the words for truth values and null.
-/

namespace FactFold.Machine

/-- A binary operator by its spelling, with its rank. -/
def rankedOperator? : String → Option (BinaryOp × Nat)
  | "or" | "||" => some (.or, 10)
  | "and" | "&&" => some (.and, 15)
  | "==" => some (.eq, 20)
  | "!=" => some (.ne, 20)
  | "<" => some (.lt, 20)
  | ">" => some (.gt, 20)
  | ">=" => some (.ge, 20)
  | "<=" => some (.le, 20)
  | "in" => some (.isIn, 20)
  | "contains" => some (.contains, 20)
  | "startsWith" => some (.startsWith, 20)
  | "endsWith" => some (.endsWith, 20)
  | "matches" => some (.fits, 20)
  | ".." => some (.range, 25)
  | "+" => some (.add, 30)
  | "-" => some (.sub, 30)
  | "*" => some (.mul, 60)
  | "/" => some (.div, 60)
  | "%" => some (.rem, 60)
  | "**" | "^" => some (.pow, 100)
  | "??" => some (.orElse, 500)
  | _ => none

/-- A unary operator by its spelling, with its rank. -/
def rankedUnary? : String → Option (UnaryOp × Nat)
  | "not" | "!" => some (.not, 50)
  | "-" => some (.minus, 90)
  | "+" => some (.plus, 90)
  | _ => none

/-- The operator compares by order, so that it may be chained. -/
def BinaryOp.isChained : BinaryOp → Bool
  | .lt | .le | .gt | .ge => true
  | _ => false

/-- A function of the evaluator by its name. -/
def Routed.ofName? : String → Option Routed
  | "call" => some .call
  | "callStatic" => some .static
  | "newObject" => some .new
  | "convert" => some .convert
  | "quo" => some .quotient
  | _ => none

/-- A function the evaluator has by itself, by its name. -/
def Builtin.ofName? : String → Option Builtin
  | "len" => some .len
  | "type" => some .type
  | "abs" => some .abs
  | "ceil" => some .ceil
  | "floor" => some .floor
  | "round" => some .round
  | "int" => some .int
  | "float" => some .float
  | "string" => some .string
  | "trim" => some .trim
  | "upper" => some .upper
  | "lower" => some .lower
  | "first" => some .first
  | "last" => some .last
  | "max" => some .max
  | "min" => some .min
  | "sum" => some .sum
  | "bitnot" => some .bitnot
  | _ => none

/-- Names that are kept for functions on lists, texts and times; calls of them are refused. -/
def reservedNames : List String := [
  "all", "none", "any", "one", "filter", "map", "find", "findIndex", "findLast", "findLastIndex",
  "count", "groupBy", "sortBy", "reduce", "trimPrefix", "trimSuffix", "split", "splitAfter",
  "replace", "repeat", "join", "indexOf", "lastIndexOf", "hasPrefix", "hasSuffix", "mean", "median",
  "toJSON", "fromJSON", "toBase64", "fromBase64", "now", "duration", "date", "timezone", "get",
  "take", "keys", "values", "toPairs", "fromPairs", "reverse", "concat", "sort", "bitand", "bitor",
  "bitxor", "bitnand", "bitshl", "bitshr", "bitushr"
]

/-- The words that are values, and so neither names nor functions. -/
def literalWord? : String → Option Formula
  | "true" => some (.bool true)
  | "false" => some (.bool false)
  | "nil" => some .null
  | _ => none

/-- The formula of a name. -/
def nameFormula (s : String) : Formula :=
  match s.toList with
  | 'v' :: '_' :: rest => .variable (String.ofList rest)
  | _ => .unbound

/-- A call of a function by its name. -/
def callFormula? (name : String) (args : List Formula) : Option Formula :=
  match Routed.ofName? name, Builtin.ofName? name with
  | some f, _ => some (.call f args)
  | none, some f => some (.builtin f args)
  | none, none =>
    if reservedNames.contains name then none else some (.apply (nameFormula name) args)

/-- A number by its digits. -/
def numberFormula? (s : String) : Option Formula :=
  let digits := s.toList.filter (· ≠ '_')
  let lower := digits.map Number.asciiLower
  let hasMark (c : Char) : Bool := ['0', c].isPrefixOf lower
  if hasMark 'x' then Formula.int <$> Number.readInt? digits
  else if lower.contains '.' || lower.contains 'e' then Formula.float <$> Number.readFloat? digits
  else if hasMark 'b' || hasMark 'o' then Formula.int <$> Number.readInt? digits
  else Formula.int <$> Number.readDecimalInt? digits

/-- The name of a part after a point, which may also be a word that acts as an operator. -/
def partName? : Lexeme → Option String
  | .name s => some s
  | .operator s => if s.toList.all isNameChar then some s else none
  | _ => none

/-- What a parsing function yields: a formula and the lexemes after it. -/
abbrev Parsed := Option (Formula × List Lexeme)

/-- The given lexeme must come next. -/
def expect (l : Lexeme) : List Lexeme → Option (List Lexeme)
  | l' :: rest => if l = l' then some rest else none
  | [] => none

mutual

/-- A formula whose operators have at least the given rank. -/
def expression : (fuel : Nat) → (rank : Nat) → List Lexeme → Parsed
  | 0, _, _ => none
  | fuel + 1, rank, ts => do
    let (x, ts) ← primary fuel ts
    let (x, ts) ← operators fuel rank false x ts
    if rank = 0 then choices fuel x ts else pure (x, ts)

/-- Goes on with operators of at least the given rank after a first operand; `afterOrElse` tells
that the operator before was the one for null, which does not mix with others. -/
def operators : (fuel : Nat) → (rank : Nat) → (afterOrElse : Bool) → Formula → List Lexeme → Parsed
  | 0, _, _, _, _ => none
  | fuel + 1, rank, afterOrElse, x, .operator "not" :: .operator s :: ts => do
    let (op, r) ← rankedOperator? s
    if r < rank || afterOrElse || !Lexeme.negatableWords.contains s then none
    let (y, ts) ← expression fuel (r + 1) ts
    operators fuel rank false (.unary .not (.binary op x y)) ts
  | fuel + 1, 0, _, x, .operator "|" :: .name s :: .bracket '(' :: ts => do
    let (args, ts) ← arguments fuel ')' true ts
    let y ← callFormula? s (x :: args)
    operators fuel 0 false y ts
  | fuel + 1, rank, afterOrElse, x, .operator s :: ts =>
    match rankedOperator? s with
    | none => some (x, .operator s :: ts)
    | some (op, r) =>
      if r < rank then some (x, .operator s :: ts)
      else if afterOrElse && op ≠ .orElse then none
      else if op.isChained then do
        let (y, ts) ← expression fuel (r + 1) ts
        let (x, ts) ← chain fuel r (.binary op x y) y ts
        operators fuel rank false x ts
      else do
        let (y, ts) ← expression fuel (if op = .pow then r else r + 1) ts
        operators fuel rank (op = .orElse) (.binary op x y) ts
  | _ + 1, _, _, x, ts => some (x, ts)

/-- Goes on with a chain of comparisons after the operand `last`. -/
def chain : (fuel : Nat) → (rank : Nat) → (x last : Formula) → List Lexeme → Parsed
  | 0, _, _, _, _ => none
  | fuel + 1, rank, x, last, .operator s :: ts =>
    match rankedOperator? s with
    | some (op, _) =>
      if op.isChained then do
        let (y, ts) ← expression fuel (rank + 1) ts
        chain fuel rank (.binary .and x (.binary op last y)) y ts
      else some (x, .operator s :: ts)
    | none => some (x, .operator s :: ts)
  | _ + 1, _, x, _, ts => some (x, ts)

/-- Goes on with choices after their condition; without a first branch the condition is the branch
itself. -/
def choices : (fuel : Nat) → Formula → List Lexeme → Parsed
  | 0, _, _ => none
  | fuel + 1, c, .operator "?" :: .operator ":" :: ts => do
    let (no, ts) ← expression fuel 0 ts
    choices fuel (.cond c c no) ts
  | fuel + 1, c, .operator "?" :: ts => do
    let (yes, ts) ← expression fuel 0 ts
    let ts ← expect (.operator ":") ts
    let (no, ts) ← expression fuel 0 ts
    choices fuel (.cond c yes no) ts
  | _ + 1, c, ts => some (c, ts)

/-- An operand. -/
def primary : (fuel : Nat) → List Lexeme → Parsed
  | 0, _ => none
  | fuel + 1, .operator s :: ts => do
    let (op, r) ← rankedUnary? s
    let (x, ts) ← expression fuel r ts
    accesses fuel (.unary op x) ts
  | fuel + 1, .bracket '(' :: ts => do
    let (x, ts) ← expression fuel 0 ts
    let ts ← expect (.bracket ')') ts
    accesses fuel x ts
  | fuel + 1, .name s :: ts =>
    match literalWord? s, ts with
    | some x, ts => some (x, ts)
    | none, .bracket '(' :: ts => do
      let (args, ts) ← arguments fuel ')' true ts
      let x ← callFormula? s args
      accesses fuel x ts
    | none, ts => accesses fuel (nameFormula s) ts
  | _ + 1, .number s :: ts => do
    let x ← numberFormula? s
    pure (x, ts)
  | fuel + 1, .text bs :: ts => accesses fuel (.text bs) ts
  | fuel + 1, .bracket '[' :: ts => do
    let (items, ts) ← arguments fuel ']' true ts
    accesses fuel (.list items) ts
  | _ + 1, _ => none

/-- Goes on with accesses to parts of a value. After the mark for null all of them are left out when
the value is null. -/
def accesses : (fuel : Nat) → Formula → List Lexeme → Parsed
  | 0, _, _ => none
  | fuel + 1, x, .operator "?." :: ts => do
    let ts := if ts.head? = some (.bracket '[') then ts else .operator "." :: ts
    let (rest, ts) ← accesses fuel x ts
    pure (.cond (.binary .eq x .null) .null rest, ts)
  | fuel + 1, x, .operator "." :: l :: ts => do
    let s ← partName? l
    match ts with
    | .bracket '(' :: ts => do
      let (args, ts) ← arguments fuel ')' true ts
      accesses fuel (.apply (.part x (.ofText s)) args) ts
    | ts => accesses fuel (.part x (.ofText s)) ts
  | fuel + 1, x, .bracket '[' :: .operator ":" :: .bracket ']' :: ts =>
    accesses fuel (.tail x (.int 0)) ts
  | fuel + 1, x, .bracket '[' :: .operator ":" :: ts => do
    let (stop, ts) ← expression fuel 0 ts
    let ts ← expect (.bracket ']') ts
    accesses fuel (.slice x (.int 0) stop) ts
  | fuel + 1, x, .bracket '[' :: ts => do
    let (start, ts) ← expression fuel 0 ts
    match ts with
    | .operator ":" :: .bracket ']' :: ts => accesses fuel (.tail x start) ts
    | .operator ":" :: ts => do
      let (stop, ts) ← expression fuel 0 ts
      let ts ← expect (.bracket ']') ts
      accesses fuel (.slice x start stop) ts
    | ts => do
      let ts ← expect (.bracket ']') ts
      accesses fuel (.part x start) ts
  | _ + 1, x, ts => some (x, ts)

/-- The formulas up to a closing bracket, with commas between them and possibly one at the end. -/
def arguments : (fuel : Nat) → (close : Char) → (first : Bool) → List Lexeme →
    Option (List Formula × List Lexeme)
  | 0, _, _, _ => none
  | fuel + 1, close, first, ts =>
    match expect (.bracket close) ts with
    | some ts => some ([], ts)
    | none => do
      let ts ← if first then some ts else expect (.operator ",") ts
      match first, expect (.bracket close) ts with
      | false, some ts => some ([], ts)
      | _, _ => do
        let (x, ts) ← expression fuel 0 ts
        let (xs, ts) ← arguments fuel close false ts
        pure (x :: xs, ts)

end

/-- The formula a source stands for, none when it is malformed. Every step of the parser but a few
between two lexemes takes one, so that a small multiple of their number suffices as fuel. -/
def Formula.parse? (source : String) : Option Formula := do
  let cs := source.toList
  let ts ← Lexeme.scan? (cs.length + 1) cs
  match ← expression (8 * (ts.length + 2)) 0 ts with
  | (f, []) => pure f
  | _ => none

end FactFold.Machine
