import FactFold.Expr.Build
import FactFold.Expr.Token

/-!
# Parsing expressions

Tokens are read as an expression by the usual precedence: a comparison of sums, sums of products,
products of operands. An operand is a number, a string, a column, an expression in parentheses, a
condition in one of its two spellings, or a call of a function that `lookup` knows.

The functions here take `fuel`, which bounds how deep they call one another. `parseTokens` supplies
enough of it for the tokens it is given: no more than eight calls are open per token.
-/

namespace FactFold

/-- Why a text is no expression. -/
inductive ParseError where
  | token (e : TokenError)
  | unexpectedEnd
  | unexpectedToken (token : String)
  | unexpectedKeyword (token : String)
  | notComparison (text : String)
  | unclosedParenthesis
  | unclosedCall
  | expectedSeparator
  | caseWithoutWhen
  | caseWithoutThen
  | caseWithoutEnd
  | conditionArity (count : Nat)
  | unknownFunction (name : String)
  | comparisonArgument (text : String)
  | integerRange (token : String)
  | badNumber (token : String)
  | badString (token : String)
  deriving Repr, DecidableEq

/-- The wording of the reason. -/
def ParseError.message : ParseError → String
  | .token e => e.message
  | .unexpectedEnd => "unexpected end of expression"
  | .unexpectedToken t => "unexpected token: " ++ t
  | .unexpectedKeyword t => "unexpected keyword: " ++ t
  | .notComparison t => "condition must be a comparison: " ++ t
  | .unclosedParenthesis => "missing closing parenthesis"
  | .unclosedCall => "missing closing parenthesis in function call"
  | .expectedSeparator => "expected ',' or ')' in function call"
  | .caseWithoutWhen => "CASE must be followed by WHEN"
  | .caseWithoutThen => "expected THEN in CASE expression"
  | .caseWithoutEnd => "expected END in CASE expression"
  | .conditionArity n => "IF expects 2 or 3 arguments, got " ++ Number.decimal n
  | .unknownFunction name => "unknown function: " ++ name
  | .comparisonArgument t => "comparison is not allowed as a function argument: " ++ t
  | .integerRange t => "integer literal out of range: " ++ t
  | .badNumber t => "invalid number: " ++ t
  | .badString t => "invalid string literal " ++ t ++ ": invalid syntax"

namespace Token

/-! ## Tokens that are operands -/

/-- Digits with at most one point, then possibly an exponent; what follows the exponent's letter is
not looked at. -/
def isNumberFrom (seenDigit seenPoint : Bool) : List Char → Bool
  | [] => seenDigit
  | c :: rest =>
    if Number.isDigit c then isNumberFrom true seenPoint rest
    else if c = '.' && !seenPoint then isNumberFrom seenDigit true rest
    else if c = 'e' || c = 'E' then seenDigit
    else false

/-- A number, possibly with a sign. -/
def isNumber (t : String) : Bool :=
  match t.toList with
  | '-' :: rest => isNumberFrom false false rest
  | cs => isNumberFrom false false cs

/-- What stands between the first and the last of at least two characters that are both `mark`. -/
def between? (mark : Char) (t : String) : Option (List Char) :=
  match t.toList with
  | first :: rest =>
    if first = mark && rest.getLast? = some mark then some rest.dropLast else none
  | [] => none

/-- Every part of a name between points starts with a letter or an underscore, and goes on with
letters, digits and underscores. -/
def isIdentifier (t : String) : Bool :=
  (t.toList.splitOnP (· = '.')).all fun part =>
    match part with
    | c :: rest =>
      (isLetter c || c = '_') && rest.all fun d => isLetter d || Number.isDigit d || d = '_'
    | [] => false

/-- The column of a name; what stands before the first point is its table. -/
def columnOf (t : String) : Column :=
  let cs := t.toList
  let table := cs.takeWhile (· ≠ '.')
  match cs.dropWhile (· ≠ '.') with
  | _ :: name => ⟨String.ofList name, String.ofList table⟩
  | [] => ⟨t, ""⟩

/-- The constant of a number: an integer without a point or exponent, `int` when it fits into 32
bits, and a `double` otherwise. -/
def numberOf (t : String) : Except ParseError Constant :=
  let cs := t.toList
  if cs.any fun c => c = '.' || c = 'e' || c = 'E' then
    match Number.readFloat? cs with
    | some x => .ok (.double x)
    | none => .error (.badNumber t)
  else
    match Number.readDecimalInt? cs with
    | some n => .ok (if fits32 n then .int n else .long n)
    | none => .error (.integerRange t)

/-- Drops the backslash before every single quote. -/
def bareApostrophes : List Char → List Char
  | '\\' :: '\x27' :: rest => '\x27' :: bareApostrophes rest
  | c :: rest => c :: bareApostrophes rest
  | [] => []

/-- Puts a backslash before every double quote. -/
def escapeQuotes (cs : List Char) : List Char :=
  cs.flatMap fun c => if c = '"' then ['\\', c] else [c]

/-- The string whose body stands between double quotes. -/
def stringOf (body : List Char) : Except ParseError Constant :=
  match Text.unquoteBody body with
  | some bs => .ok (.string bs)
  | none => .error (.badString (String.ofList ('"' :: (body ++ ['"']))))

/-- The string of a quoted token, none when the token is not quoted. Single quotes are read as double
quotes once the quotes inside are turned around. -/
def string? (t : String) : Option (Except ParseError Constant) :=
  match between? apostrophe t with
  | some body => some (stringOf (escapeQuotes (bareApostrophes body)))
  | none => (between? '"' t).map stringOf

/-- The comparison an operator token stands for. -/
def comparison? (t : String) : Option Comparison :=
  match t with
  | "=" | "==" => some .eq
  | "!=" | "<>" => some .ne
  | "<" => some .lt
  | "<=" => some .le
  | ">" => some .gt
  | ">=" => some .ge
  | _ => none

/-- The operand that is one token by itself. -/
def leaf (t : String) : Except ParseError Node :=
  if isKeyword t then .error (.unexpectedKeyword t)
  else
    match between? backtick t with
    | some name => .ok (.column ⟨String.ofList name, ""⟩)
    | none => if isIdentifier t then .ok (.column (columnOf t)) else .error (.unexpectedToken t)

end Token

/-! ## Expressions -/

/-- Resolves the name of a function. -/
abbrev Lookup := String → Option Function

/-- The condition of a condition expression: a comparison's operator and operands. -/
def Node.asComparison (n : Node) : Except ParseError (Comparison × Node × Node) :=
  match n with
  | .comparison op l r => .ok (op, l, r)
  | n => .error (.notComparison n.text)

/-- The condition expression with the arguments given: a comparison, the value where it holds, and
perhaps the value elsewhere. -/
def Node.ofConditionArgs (args : List Node) : Except ParseError Node :=
  match args with
  | [c, yes] => do
    let (op, l, r) ← c.asComparison
    pure (.guarded op l r yes)
  | [c, yes, no] => do
    let (op, l, r) ← c.asComparison
    pure (.choice op l r yes no)
  | _ => .error (.conditionArity args.length)

namespace Parser

/-- The next token is the given word. -/
def atWord (word : String) : List String → Bool
  | t :: _ => Token.sameWord t word
  | [] => false

mutual

/-- A sum, or two sums joined by a comparison. -/
def comparison (lookup : Lookup) : Nat → List String → Except ParseError (Node × List String)
  | 0, _ => .error .unexpectedEnd
  | fuel + 1, ts => do
    let (left, rest) ← sum lookup fuel ts
    match rest with
    | t :: tail =>
      match Token.comparison? t with
      | some op => do
        let (right, rest) ← sum lookup fuel tail
        pure (.comparison op left right, rest)
      | none => pure (left, rest)
    | [] => pure (left, rest)

/-- Products joined by `+` and `-`, grouped from the left. -/
def sum (lookup : Lookup) : Nat → List String → Except ParseError (Node × List String)
  | 0, _ => .error .unexpectedEnd
  | fuel + 1, ts => do
    let (left, rest) ← product lookup fuel ts
    sumTail lookup fuel left rest

/-- The summands after the first. -/
def sumTail (lookup : Lookup) : Nat → Node → List String → Except ParseError (Node × List String)
  | 0, _, _ => .error .unexpectedEnd
  | fuel + 1, left, ts =>
    match ts with
    | "+" :: tail => do
      let (right, rest) ← product lookup fuel tail
      sumTail lookup fuel (.arithmetic .add left right) rest
    | "-" :: tail => do
      let (right, rest) ← product lookup fuel tail
      sumTail lookup fuel (.arithmetic .sub left right) rest
    | ts => .ok (left, ts)

/-- Operands joined by `*` and `/`, grouped from the left. -/
def product (lookup : Lookup) : Nat → List String → Except ParseError (Node × List String)
  | 0, _ => .error .unexpectedEnd
  | fuel + 1, ts => do
    let (left, rest) ← unary lookup fuel ts
    productTail lookup fuel left rest

/-- The factors after the first. -/
def productTail (lookup : Lookup) : Nat → Node → List String → Except ParseError (Node × List String)
  | 0, _, _ => .error .unexpectedEnd
  | fuel + 1, left, ts =>
    match ts with
    | "*" :: tail => do
      let (right, rest) ← unary lookup fuel tail
      productTail lookup fuel (.arithmetic .mul left right) rest
    | "/" :: tail => do
      let (right, rest) ← unary lookup fuel tail
      productTail lookup fuel (.arithmetic .div left right) rest
    | ts => .ok (left, ts)

/-- An operand, or the difference of zero and what follows a minus. -/
def unary (lookup : Lookup) : Nat → List String → Except ParseError (Node × List String)
  | 0, _ => .error .unexpectedEnd
  | fuel + 1, ts =>
    match ts with
    | "-" :: tail => do
      let (operand, rest) ← unary lookup fuel tail
      pure (.arithmetic .sub (.constant (.int 0)) operand, rest)
    | ts => primary lookup fuel ts

/-- An operand. -/
def primary (lookup : Lookup) : Nat → List String → Except ParseError (Node × List String)
  | 0, _ => .error .unexpectedEnd
  | fuel + 1, ts =>
    match ts with
    | [] => .error .unexpectedEnd
    | t :: tail =>
      if t = "(" then do
        let (n, rest) ← comparison lookup fuel tail
        match rest with
        | ")" :: rest => pure (n, rest)
        | _ => .error .unclosedParenthesis
      else if Token.isNumber t then do
        let c ← Token.numberOf t
        pure (.constant c, tail)
      else
        match Token.string? t with
        | some s => do
          let c ← s
          pure (.constant c, tail)
        | none =>
          if Token.sameWord t "CASE" then caseTail lookup fuel tail
          else
            match tail with
            | "(" :: inner =>
              if Token.sameWord t "IF" then do
                let (args, rest) ← arguments lookup fuel true inner
                let n ← Node.ofConditionArgs args
                pure (n, rest)
              else
                match lookup t with
                | none => .error (.unknownFunction t)
                | some f => do
                  let (args, rest) ← arguments lookup fuel false inner
                  pure (.call f args, rest)
            | _ => do
              let n ← Token.leaf t
              pure (n, tail)

/-- What follows the word `CASE`. -/
def caseTail (lookup : Lookup) : Nat → List String → Except ParseError (Node × List String)
  | 0, _ => .error .unexpectedEnd
  | fuel + 1, ts =>
    if !atWord "WHEN" ts then .error .caseWithoutWhen
    else do
      let (c, rest) ← comparison lookup fuel ts.tail
      let (op, l, r) ← c.asComparison
      if !atWord "THEN" rest then .error .caseWithoutThen
      else
        let (yes, rest) ← sum lookup fuel rest.tail
        if atWord "ELSE" rest then
          let (no, rest) ← sum lookup fuel rest.tail
          if atWord "END" rest then pure (.choice op l r yes no, rest.tail)
          else .error .caseWithoutEnd
        else if atWord "END" rest then pure (.guarded op l r yes, rest.tail)
        else .error .caseWithoutEnd

/-- Arguments up to the closing parenthesis. -/
def arguments (lookup : Lookup) :
    Nat → (comparisons : Bool) → List String → Except ParseError (List Node × List String)
  | 0, _, _ => .error .unexpectedEnd
  | fuel + 1, comparisons, ts =>
    match ts with
    | ")" :: rest => .ok ([], rest)
    | ts => argumentTail lookup fuel comparisons ts

/-- At least one argument, and the closing parenthesis. Comparisons are arguments only where they
are allowed. -/
def argumentTail (lookup : Lookup) :
    Nat → (comparisons : Bool) → List String → Except ParseError (List Node × List String)
  | 0, _, _ => .error .unexpectedEnd
  | fuel + 1, comparisons, ts => do
    let (arg, rest) ← comparison lookup fuel ts
    if !comparisons && (match arg with | .comparison .. => true | _ => false) then
      .error (.comparisonArgument arg.text)
    else
      match rest with
      | [] => .error .unclosedCall
      | ")" :: rest => pure ([arg], rest)
      | "," :: rest => do
        let (args, rest) ← argumentTail lookup fuel comparisons rest
        pure (arg :: args, rest)
      | _ => .error .expectedSeparator

end

/-- The expression all tokens together make up. -/
def parseTokens (lookup : Lookup) (ts : List String) : Except ParseError Node := do
  let (n, rest) ← comparison lookup (8 * (ts.length + 1)) ts
  match rest with
  | [] => pure n
  | t :: _ => .error (.unexpectedToken t)

end Parser

/-- The expression of a text. -/
def Node.parse (lookup : Lookup) (text : String) : Except ParseError Node :=
  match Token.scan text with
  | .error e => .error (.token e)
  | .ok ts => Parser.parseTokens lookup ts

end FactFold
