import FactFold.Proofs.Expr.Unambiguity

/-!
# What the parser takes

`Takes lookup task ts rest` says that the function of the parser which a task stands for succeeds on
the tokens `ts` and leaves `rest`. It has one rule for each way in which one of the functions succeeds,
and leaves out the fuel. The two directions, `takes_of_succeeds` and `Takes.succeeds`, are the only
places where the parser is opened; the second tells the fuel that is enough.

Unlike the grammar of names and numbers, which has at most one derivation for a text, the relation
asks nothing of the function that resolves names: it may know a sign or a bracket as the name of a
function. So what is proved from the relation holds with every set of functions.
-/

namespace FactFold.Grammar

/-! ## The parser, category by category -/

/-- The function that reads phrases of a category. -/
def Category.parse (lookup : Lookup) :
    Category → Nat → List String → Except ParseError (Node × List String)
  | .comparison => Parser.comparison lookup
  | .chain .sum => Parser.sum lookup
  | .chain .product => Parser.product lookup
  | .unary => Parser.unary lookup
  | .primary => Parser.primary lookup

/-- The function that reads the rest of a chain. -/
def Level.parseTail (lookup : Lookup) :
    Level → Nat → Node → List String → Except ParseError (Node × List String)
  | .sum => Parser.sumTail lookup
  | .product => Parser.productTail lookup

variable {lookup : Lookup} {fuel : Nat} {ts rest : List String} {n : Node}

theorem bind_ok_iff {ε α β : Type} {x : Except ε α} {f : α → Except ε β} {b : β} :
    (x >>= f) = .ok b ↔ ∃ a, x = .ok a ∧ f a = .ok b := by
  cases x with
  | error e => simp [bind, Except.bind]
  | ok a => simp [bind, Except.bind]

theorem parse_chain {l : Level} : (Category.chain l).parse lookup (fuel + 1) ts =
    l.operand.parse lookup fuel ts >>= fun r => l.parseTail lookup fuel r.1 r.2 := by
  cases l with
  | sum => simp only [Category.parse, Parser.sum, Level.operand, Level.parseTail]
  | product => simp only [Category.parse, Parser.product, Level.operand, Level.parseTail]

theorem parseTail_sign {l : Level} {t : String} {op : Arithmetic} (h : (t, op) ∈ l.signs)
    {left : Node} : l.parseTail lookup (fuel + 1) left (t :: ts) =
      l.operand.parse lookup fuel ts >>= fun r =>
        l.parseTail lookup fuel (.arithmetic op left r.1) r.2 := by
  cases l with
  | sum =>
    simp only [Level.signs, List.mem_cons, List.not_mem_nil, Prod.mk.injEq, or_false] at h
    rcases h with ⟨rfl, rfl⟩ | ⟨rfl, rfl⟩ <;>
      simp only [Category.parse, Parser.sumTail, Level.operand, Level.parseTail]
  | product =>
    simp only [Level.signs, List.mem_cons, List.not_mem_nil, Prod.mk.injEq, or_false] at h
    rcases h with ⟨rfl, rfl⟩ | ⟨rfl, rfl⟩ <;>
      simp only [Category.parse, Parser.productTail, Level.operand, Level.parseTail]

theorem parseTail_stop {l : Level} {left : Node} (h : ∀ t ∈ ts.head?, ∀ op, (t, op) ∉ l.signs) :
    l.parseTail lookup (fuel + 1) left ts = .ok (left, ts) := by
  cases l with
  | sum =>
    simp only [Level.parseTail]
    unfold Parser.sumTail
    split
    case h_1 => exact absurd (h "+" rfl .add) (by decide)
    case h_2 => exact absurd (h "-" rfl .sub) (by decide)
    case h_3 => rfl
  | product =>
    simp only [Level.parseTail]
    unfold Parser.productTail
    split
    case h_1 => exact absurd (h "*" rfl .mul) (by decide)
    case h_2 => exact absurd (h "/" rfl .div) (by decide)
    case h_3 => rfl

theorem argumentTail_succ {comparisons : Bool} :
    Parser.argumentTail lookup (fuel + 1) comparisons ts =
      Parser.comparison lookup fuel ts >>= fun r =>
        if !comparisons && r.1.isComparison then .error (.comparisonArgument r.1.text)
        else
          match r.2 with
          | [] => .error .unclosedCall
          | ")" :: rest => .ok ([r.1], rest)
          | "," :: rest => do
            let (args, rest) ← Parser.argumentTail lookup fuel comparisons rest
            pure (r.1 :: args, rest)
          | _ => .error .expectedSeparator := by
  rw [Parser.argumentTail]
  rfl

/-! ## The relation -/

/-- What one of the functions of the parser reads, with the result it gives. -/
inductive Task where
  | phrase (c : Category) (n : Node)
  /-- The rest of a chain of which `left` has been read. -/
  | tail (l : Level) (left n : Node)
  /-- What follows the word `CASE`. -/
  | caseTail (n : Node)
  | arguments (comparisons : Bool) (ns : List Node)
  /-- At least one argument. -/
  | argumentTail (comparisons : Bool) (ns : List Node)

/-- A token that is taken for a name when a parenthesis follows it. -/
structure Callable (t : String) : Prop where
  open_ : t ≠ "("
  number : Token.isNumber t = false
  string : Token.string? t = none
  case : Token.sameWord t "CASE" = false
  if_ : Token.sameWord t "IF" = false

/-- The function of the task takes tokens off a text and leaves the rest. -/
inductive Takes (lookup : Lookup) : Task → List String → List String → Prop
  | lone {n : Node} {ts rest : List String} (h : Takes lookup (.phrase (.chain .sum) n) ts rest)
      (hstop : ∀ t ∈ rest.head?, Token.comparison? t = none) :
      Takes lookup (.phrase .comparison n) ts rest
  | compared {a b : Node} {t : String} {op : Comparison} {ts us rest : List String}
      (ht : Token.comparison? t = some op) (ha : Takes lookup (.phrase (.chain .sum) a) ts (t :: us))
      (hb : Takes lookup (.phrase (.chain .sum) b) us rest) :
      Takes lookup (.phrase .comparison (.comparison op a b)) ts rest
  | chain {l : Level} {a n : Node} {ts us rest : List String}
      (ha : Takes lookup (.phrase l.operand a) ts us) (hn : Takes lookup (.tail l a n) us rest) :
      Takes lookup (.phrase (.chain l) n) ts rest
  | stop {l : Level} {n : Node} {ts : List String} (h : ∀ t ∈ ts.head?, ∀ op, (t, op) ∉ l.signs) :
      Takes lookup (.tail l n n) ts ts
  | sign {l : Level} {a b n : Node} {t : String} {op : Arithmetic} {us vs rest : List String}
      (ht : (t, op) ∈ l.signs) (hb : Takes lookup (.phrase l.operand b) us vs)
      (hn : Takes lookup (.tail l (.arithmetic op a b) n) vs rest) :
      Takes lookup (.tail l a n) (t :: us) rest
  | negated {n : Node} {us rest : List String} (h : Takes lookup (.phrase .unary n) us rest) :
      Takes lookup (.phrase .unary (.arithmetic .sub (.constant (.int 0)) n)) ("-" :: us) rest
  | bare {n : Node} {ts rest : List String} (hts : ts.head? ≠ some "-")
      (h : Takes lookup (.phrase .primary n) ts rest) : Takes lookup (.phrase .unary n) ts rest
  | enclosed {n : Node} {us rest : List String}
      (h : Takes lookup (.phrase .comparison n) us (")" :: rest)) :
      Takes lookup (.phrase .primary n) ("(" :: us) rest
  | number {t : String} {c : Constant} {rest : List String} (ht : Token.isNumber t = true)
      (hc : Token.numberOf t = .ok c) : Takes lookup (.phrase .primary (.constant c)) (t :: rest) rest
  | string {t : String} {c : Constant} {rest : List String} (ht : Token.string? t = some (.ok c)) :
      Takes lookup (.phrase .primary (.constant c)) (t :: rest) rest
  | column {t : String} {c : Column} {rest : List String} (ht : Token.column? t = some c)
      (hrest : rest.head? ≠ some "(") : Takes lookup (.phrase .primary (.column c)) (t :: rest) rest
  | cases (w : Word "CASE") {n : Node} {us rest : List String}
      (h : Takes lookup (.caseTail n) us rest) : Takes lookup (.phrase .primary n) (w.1 :: us) rest
  | condition (w : Word "IF") {ns : List Node} {n : Node} {us rest : List String}
      (h : Takes lookup (.arguments true ns) us rest) (hn : Node.ofConditionArgs ns = .ok n) :
      Takes lookup (.phrase .primary n) (w.1 :: "(" :: us) rest
  | call {t : String} {f : Function} {ns : List Node} {us rest : List String} (ht : Callable t)
      (hf : lookup t = some f) (h : Takes lookup (.arguments false ns) us rest) :
      Takes lookup (.phrase .primary (.call f ns)) (t :: "(" :: us) rest
  | guarded (v : Word "WHEN") (u : Word "THEN") (z : Word "END") {op : Comparison} {l r yes : Node}
      {us vs rest : List String}
      (hc : Takes lookup (.phrase .comparison (.comparison op l r)) us (u.1 :: vs))
      (hyes : Takes lookup (.phrase (.chain .sum) yes) vs (z.1 :: rest)) :
      Takes lookup (.caseTail (.guarded op l r yes)) (v.1 :: us) rest
  | choice (v : Word "WHEN") (u : Word "THEN") (o : Word "ELSE") (z : Word "END") {op : Comparison}
      {l r yes no : Node} {us vs xs rest : List String}
      (hc : Takes lookup (.phrase .comparison (.comparison op l r)) us (u.1 :: vs))
      (hyes : Takes lookup (.phrase (.chain .sum) yes) vs (o.1 :: xs))
      (hno : Takes lookup (.phrase (.chain .sum) no) xs (z.1 :: rest)) :
      Takes lookup (.caseTail (.choice op l r yes no)) (v.1 :: us) rest
  | empty {comparisons : Bool} {rest : List String} :
      Takes lookup (.arguments comparisons []) (")" :: rest) rest
  | nonempty {comparisons : Bool} {ns : List Node} {ts rest : List String}
      (hts : ts.head? ≠ some ")") (h : Takes lookup (.argumentTail comparisons ns) ts rest) :
      Takes lookup (.arguments comparisons ns) ts rest
  | single {comparisons : Bool} {n : Node} {ts rest : List String}
      (h : Takes lookup (.phrase .comparison n) ts (")" :: rest))
      (hn : (!comparisons && n.isComparison) = false) :
      Takes lookup (.argumentTail comparisons [n]) ts rest
  | more {comparisons : Bool} {n : Node} {ns : List Node} {ts us rest : List String}
      (h : Takes lookup (.phrase .comparison n) ts ("," :: us))
      (hn : (!comparisons && n.isComparison) = false)
      (hns : Takes lookup (.argumentTail comparisons ns) us rest) :
      Takes lookup (.argumentTail comparisons (n :: ns)) ts rest

/-- The function of a task succeeds with the result of the task. -/
def Task.Succeeds (lookup : Lookup) (fuel : Nat) : Task → List String → List String → Prop
  | .phrase c n, ts, rest => c.parse lookup fuel ts = .ok (n, rest)
  | .tail l a n, ts, rest => l.parseTail lookup fuel a ts = .ok (n, rest)
  | .caseTail n, ts, rest => Parser.caseTail lookup fuel ts = .ok (n, rest)
  | .arguments comparisons ns, ts, rest =>
    Parser.arguments lookup fuel comparisons ts = .ok (ns, rest)
  | .argumentTail comparisons ns, ts, rest =>
    Parser.argumentTail lookup fuel comparisons ts = .ok (ns, rest)

/-! ## A success is in the relation -/

theorem asComparison_ok_iff {n l r : Node} {op : Comparison} :
    n.asComparison = .ok (op, l, r) ↔ n = .comparison op l r := by
  cases n <;> simp [Node.asComparison]

/-- A condition is made of a comparison and one or two values. -/
theorem ofConditionArgs_ok {ns : List Node} (h : Node.ofConditionArgs ns = .ok n) :
    (∃ op l r yes, ns = [.comparison op l r, yes] ∧ n = .guarded op l r yes) ∨
      ∃ op l r yes no, ns = [.comparison op l r, yes, no] ∧ n = .choice op l r yes no := by
  unfold Node.ofConditionArgs at h
  split at h
  case h_1 c yes =>
    obtain ⟨⟨op, l, r⟩, hc, hn⟩ := bind_ok_iff.1 h
    cases hn
    exact .inl ⟨op, l, r, yes, by rw [asComparison_ok_iff.1 hc], rfl⟩
  case h_2 c yes no =>
    obtain ⟨⟨op, l, r⟩, hc, hn⟩ := bind_ok_iff.1 h
    cases hn
    exact .inr ⟨op, l, r, yes, no, by rw [asComparison_ok_iff.1 hc], rfl⟩
  case h_3 => cases h

/-- The next token is a spelling of the word. -/
theorem exists_word {word : String} (h : Parser.atWord word ts = true) :
    ∃ w : Word word, ts = w.1 :: ts.tail := by
  cases ts with
  | nil => cases h
  | cons t us => exact ⟨⟨t, h⟩, rfl⟩

theorem leaf_ok_iff {t : String} :
    Token.leaf t = .ok n ↔ ∃ c, Token.column? t = some c ∧ n = .column c := by
  by_cases hkeyword : Token.isKeyword t = true
  · have hnone : Token.column? t = none := by
      cases hc : Token.column? t with
      | none => rfl
      | some c => exact absurd (Token.isKeyword_of_column? hc) (by simp [hkeyword])
    simp [Token.leaf, hkeyword, hnone]
  · unfold Token.leaf Token.column?
    cases Token.between? Token.backtick t with
    | some name => simp [hkeyword, eq_comm]
    | none =>
      by_cases hid : Token.isIdentifier t = true
      · simp [hkeyword, hid, eq_comm]
      · simp [hkeyword, hid]

section Opening

/-- Successes with less fuel are in the relation. -/
def Opened (lookup : Lookup) (fuel : Nat) : Prop :=
  ∀ (task : Task) {ts rest : List String}, task.Succeeds lookup fuel ts rest →
    Takes lookup task ts rest

variable (ih : Opened lookup fuel)

include ih

theorem takes_phrase {c : Category} (h : c.parse lookup fuel ts = .ok (n, rest)) :
    Takes lookup (.phrase c n) ts rest := ih (.phrase c n) h

theorem takes_comparison (h : Parser.comparison lookup (fuel + 1) ts = .ok (n, rest)) :
    Takes lookup (.phrase .comparison n) ts rest := by
  rw [Parser.comparison] at h
  obtain ⟨⟨left, us⟩, hleft, h⟩ := bind_ok_iff.1 h
  have hsum : Takes lookup (.phrase (.chain .sum) left) ts us := takes_phrase ih hleft
  cases us with
  | nil =>
    cases h
    exact .lone hsum (by simp)
  | cons t tail =>
    simp only at h
    split at h
    case h_1 op hop =>
      obtain ⟨⟨right, vs⟩, hright, h⟩ := bind_ok_iff.1 h
      cases h
      exact .compared hop hsum (takes_phrase ih hright)
    case h_2 hnone =>
      cases h
      exact .lone hsum (by simpa using hnone)

theorem takes_chain {l : Level} (h : (Category.chain l).parse lookup (fuel + 1) ts = .ok (n, rest)) :
    Takes lookup (.phrase (.chain l) n) ts rest := by
  rw [parse_chain] at h
  obtain ⟨⟨left, us⟩, hleft, htail⟩ := bind_ok_iff.1 h
  exact .chain (takes_phrase ih hleft) (ih (.tail l left n) htail)

theorem takes_tail {l : Level} {left : Node}
    (h : l.parseTail lookup (fuel + 1) left ts = .ok (n, rest)) :
    Takes lookup (.tail l left n) ts rest := by
  by_cases hsign : ∃ t us op, ts = t :: us ∧ (t, op) ∈ l.signs
  · obtain ⟨t, us, op, rfl, hop⟩ := hsign
    rw [parseTail_sign hop] at h
    obtain ⟨⟨right, vs⟩, hright, h⟩ := bind_ok_iff.1 h
    exact .sign hop (takes_phrase ih hright) (ih (.tail l _ n) h)
  · have hstop : ∀ t ∈ ts.head?, ∀ op, (t, op) ∉ l.signs := by
      intro t ht op hop
      -- any sign of the level would have been gone on with
      obtain ⟨us, rfl⟩ := List.head?_eq_some_iff.1 ht
      exact hsign ⟨t, us, op, rfl, hop⟩
    rw [parseTail_stop hstop] at h
    cases h
    exact .stop hstop

theorem takes_unary (h : Parser.unary lookup (fuel + 1) ts = .ok (n, rest)) :
    Takes lookup (.phrase .unary n) ts rest := by
  unfold Parser.unary at h
  split at h
  case h_1 us =>
    obtain ⟨⟨operand, vs⟩, hoperand, h⟩ := bind_ok_iff.1 h
    cases h
    exact .negated (takes_phrase ih hoperand)
  case h_2 hne =>
    refine .bare (fun hhead => ?_) (takes_phrase ih h)
    obtain ⟨us, rfl⟩ := List.head?_eq_some_iff.1 hhead
    exact hne us rfl

theorem takes_caseTail (h : Parser.caseTail lookup (fuel + 1) ts = .ok (n, rest)) :
    Takes lookup (.caseTail n) ts rest := by
  rw [Parser.caseTail] at h
  split at h
  case isTrue => cases h
  case isFalse hwhen =>
    obtain ⟨v, hv⟩ := exists_word (by simpa using hwhen)
    obtain ⟨⟨c, us⟩, hc, hchecked⟩ := bind_ok_iff.1 h
    obtain ⟨⟨op, l, r⟩, hop, hbranches⟩ := bind_ok_iff.1 hchecked
    have hcondition : Takes lookup (.phrase .comparison c) ts.tail us := takes_phrase ih hc
    -- the words are checked only after the parts before them have been read
    rw [asComparison_ok_iff.1 hop] at hcondition
    simp only at hbranches
    split at hbranches
    case isTrue => cases hbranches
    case isFalse hthen =>
      obtain ⟨u, hu⟩ := exists_word (by simpa using hthen)
      rw [hu] at hcondition
      obtain ⟨⟨yes, vs⟩, hyes, hend⟩ := bind_ok_iff.1 hbranches
      have hbranch : Takes lookup (.phrase (.chain .sum) yes) us.tail vs := takes_phrase ih hyes
      rw [hv]
      simp only at hend
      split at hend
      case isTrue helse =>
        obtain ⟨o, ho⟩ := exists_word helse
        rw [ho] at hbranch
        obtain ⟨⟨no, xs⟩, hno, hlast⟩ := bind_ok_iff.1 hend
        have hother : Takes lookup (.phrase (.chain .sum) no) vs.tail xs := takes_phrase ih hno
        simp only at hlast
        split at hlast
        case isTrue hword =>
          obtain ⟨z, hz⟩ := exists_word hword
          rw [hz] at hother
          cases hlast
          exact .choice v u o z hcondition hbranch hother
        case isFalse => cases hlast
      case isFalse =>
        split at hend
        case isTrue hword =>
          obtain ⟨z, hz⟩ := exists_word hword
          rw [hz] at hbranch
          cases hend
          exact .guarded v u z hcondition hbranch
        case isFalse => cases hend

theorem takes_argumentTail {comparisons : Bool} {ns : List Node}
    (h : Parser.argumentTail lookup (fuel + 1) comparisons ts = .ok (ns, rest)) :
    Takes lookup (.argumentTail comparisons ns) ts rest := by
  rw [argumentTail_succ] at h
  obtain ⟨⟨n, us⟩, hn, hchecked⟩ := bind_ok_iff.1 h
  have hfirst : Takes lookup (.phrase .comparison n) ts us := takes_phrase ih hn
  simp only at hchecked
  split at hchecked
  case isTrue => cases hchecked
  case isFalse hallowed =>
    have hplain : (!comparisons && n.isComparison) = false := by simpa using hallowed
    split at hchecked
    case h_1 => cases hchecked
    case h_2 vs =>
      cases hchecked
      exact .single hfirst hplain
    case h_3 vs =>
      obtain ⟨⟨ns', xs⟩, hargs, hlast⟩ := bind_ok_iff.1 hchecked
      cases hlast
      exact .more hfirst hplain (ih (.argumentTail comparisons ns') hargs)
    case h_4 => cases hchecked

theorem takes_arguments {comparisons : Bool} {ns : List Node}
    (h : Parser.arguments lookup (fuel + 1) comparisons ts = .ok (ns, rest)) :
    Takes lookup (.arguments comparisons ns) ts rest := by
  unfold Parser.arguments at h
  split at h
  case h_1 us =>
    cases h
    exact .empty
  case h_2 hne =>
    refine .nonempty (fun hhead => ?_) (ih (.argumentTail comparisons ns) h)
    obtain ⟨us, rfl⟩ := List.head?_eq_some_iff.1 hhead
    exact hne us rfl

theorem takes_primary (h : Parser.primary lookup (fuel + 1) ts = .ok (n, rest)) :
    Takes lookup (.phrase .primary n) ts rest := by
  unfold Parser.primary at h
  split at h
  case h_1 => cases h
  case h_2 t tail =>
    split at h
    case isTrue hopen =>
      subst hopen
      obtain ⟨⟨m, us⟩, hm, hclose⟩ := bind_ok_iff.1 h
      have hinner : Takes lookup (.phrase .comparison m) tail us := takes_phrase ih hm
      simp only at hclose
      split at hclose
      case h_1 =>
        cases hclose
        exact .enclosed hinner
      case h_2 => cases hclose
    case isFalse hopen =>
      split at h
      case isTrue hnumber =>
        obtain ⟨c, hc, hn⟩ := bind_ok_iff.1 h
        cases hn
        exact .number hnumber hc
      case isFalse hnumber =>
        split at h
        -- the token is no bracket and no number here
        case h_1 s hs =>
          obtain ⟨c, hc, hn⟩ := bind_ok_iff.1 h
          cases hn
          subst hc
          exact .string hs
        case h_2 hstring =>
          split at h
          case isTrue hcase => exact .cases ⟨t, hcase⟩ (ih (.caseTail n) h)
          case isFalse hcase =>
            split at h
            case h_1 inner =>
              split at h
              case isTrue hif =>
                obtain ⟨⟨ns, us⟩, hargs, hnode⟩ := bind_ok_iff.1 h
                obtain ⟨m, hm, hn⟩ := bind_ok_iff.1 hnode
                cases hn
                exact .condition ⟨t, hif⟩ (ih (.arguments true ns) hargs) hm
              case isFalse hif =>
                split at h
                case h_1 => cases h
                case h_2 f hf =>
                  obtain ⟨⟨ns, us⟩, hargs, hn⟩ := bind_ok_iff.1 h
                  cases hn
                  have hcallable : Callable t :=
                    ⟨hopen, by simpa using hnumber, hstring, by simpa using hcase, by simpa using hif⟩
                  exact .call hcallable hf (ih (.arguments false ns) hargs)
            case h_2 hne =>
              obtain ⟨m, hm, hn⟩ := bind_ok_iff.1 h
              cases hn
              obtain ⟨c, hc, rfl⟩ := leaf_ok_iff.1 hm
              refine .column hc fun hhead => ?_
              obtain ⟨us, rfl⟩ := List.head?_eq_some_iff.1 hhead
              exact hne us rfl

end Opening

/-- **Every success of the parser is in the relation.** -/
theorem takes_of_succeeds : Opened lookup fuel := by
  induction fuel with
  | zero =>
    -- without fuel no function succeeds
    intro task ts rest h
    cases task with
    | phrase c n =>
      cases c with
      | comparison => simp [Task.Succeeds, Category.parse, Parser.comparison] at h
      | chain l => cases l <;> simp [Task.Succeeds, Category.parse, Parser.sum, Parser.product] at h
      | unary => simp [Task.Succeeds, Category.parse, Parser.unary] at h
      | primary => simp [Task.Succeeds, Category.parse, Parser.primary] at h
    | tail l a n =>
      cases l <;> simp [Task.Succeeds, Level.parseTail, Parser.sumTail, Parser.productTail] at h
    | caseTail n => simp [Task.Succeeds, Parser.caseTail] at h
    | arguments comparisons ns => simp [Task.Succeeds, Parser.arguments] at h
    | argumentTail comparisons ns => simp [Task.Succeeds, Parser.argumentTail] at h
  | succ fuel ih =>
    intro task ts rest h
    cases task with
    | phrase c n =>
      cases c with
      | comparison => exact takes_comparison ih h
      | chain l => exact takes_chain ih h
      | unary => exact takes_unary ih h
      | primary => exact takes_primary ih h
    | tail l a n => exact takes_tail ih h
    | caseTail n => exact takes_caseTail ih h
    | arguments comparisons ns => exact takes_arguments ih h
    | argumentTail comparisons ns => exact takes_argumentTail ih h

/-! ## The relation is a success, with enough fuel -/

/-- How many calls lead from a category down to primaries. -/
def Category.depth : Category → Nat
  | .primary => 0
  | .unary => 1
  | .chain .product => 2
  | .chain .sum => 3
  | .comparison => 4

theorem depth_chain (l : Level) : (Category.chain l).depth = l.operand.depth + 1 := by
  cases l <;> rfl

/-- How much a task shortens the text at least. -/
def Task.least : Task → Nat
  | .tail .. => 0
  | _ => 1

/-- Every task but the rest of a chain takes a token. -/
theorem Takes.length {task : Task} (h : Takes lookup task ts rest) :
    rest.length + task.least ≤ ts.length := by
  induction h with
  | stop h => simp [Task.least]
  | _ => simp only [Task.least, List.length_cons] at *; omega

/-- The fuel a task needs beside eight units for every token. -/
def Task.need : Task → Nat
  | .phrase c _ => c.depth
  | .tail .. => 1
  | .caseTail _ => 5
  | .arguments .. => 6
  | .argumentTail .. => 5

theorem sameWord_case_of_column? {t : String} {c : Column} (h : Token.column? t = some c) :
    Token.sameWord t "CASE" = false := by
  have := Token.isKeyword_of_column? h
  simp_all [Token.isKeyword, Token.keywords]

theorem sameWord_case_of_ifWord (w : Word "IF") : Token.sameWord w.1 "CASE" = false := by
  rw [Bool.eq_false_iff]
  exact fun h => absurd (Token.sameWord_trans w.2 h) (by decide)

theorem primary_of_column {t : String} {c : Column} (h : Token.column? t = some c)
    (hts : ts.head? ≠ some "(") :
    Parser.primary lookup (fuel + 1) (t :: ts) = .ok (.column c, ts) := by
  have hnaming := Token.isNaming_of_column? h
  have hcase := sameWord_case_of_column? h
  unfold Parser.primary
  simp only [ne_parenthesis_of_isNaming hnaming, Token.isNumber_of_isNaming hnaming,
    Token.string?_of_isNaming hnaming, hcase, if_false, Bool.false_eq_true]
  split
  case h_1 => exact absurd rfl hts
  case h_2 =>
    rw [leaf_ok_iff.2 ⟨c, h, rfl⟩]
    rfl

theorem primary_of_ifWord (w : Word "IF") :
    Parser.primary lookup (fuel + 1) (w.1 :: "(" :: ts) =
      Parser.arguments lookup fuel true ts >>= fun r =>
        Node.ofConditionArgs r.1 >>= fun n => pure (n, r.2) := by
  have h := isNaming_of_ifWord w
  unfold Parser.primary
  simp only [ne_parenthesis_of_isNaming h, Token.isNumber_of_isNaming h,
    Token.string?_of_isNaming h, sameWord_case_of_ifWord w, w.2, if_false, if_true,
    Bool.false_eq_true]

theorem primary_of_caseWord (w : Word "CASE") :
    Parser.primary lookup (fuel + 1) (w.1 :: ts) = Parser.caseTail lookup fuel ts := by
  have h := isNaming_of_caseWord w
  unfold Parser.primary
  simp only [ne_parenthesis_of_isNaming h, Token.isNumber_of_isNaming h,
    Token.string?_of_isNaming h, w.2, if_false, if_true, Bool.false_eq_true]

theorem primary_of_callable {t : String} {f : Function} (ht : Callable t) (hf : lookup t = some f) :
    Parser.primary lookup (fuel + 1) (t :: "(" :: ts) =
      Parser.arguments lookup fuel false ts >>= fun r => pure (.call f r.1, r.2) := by
  unfold Parser.primary
  simp only [ht.open_, ht.number, ht.string, ht.case, ht.if_, hf, if_false, Bool.false_eq_true]

theorem atWord_cons {word : String} (w : Word word) : Parser.atWord word (w.1 :: ts) = true := w.2

theorem atWord_else_of_endWord (z : Word "END") : Parser.atWord "ELSE" (z.1 :: ts) = false := by
  rw [Bool.eq_false_iff]
  exact fun h => absurd (Token.sameWord_trans z.2 h) (by decide)

theorem unary_of_head (h : ts.head? ≠ some "-") :
    Parser.unary lookup (fuel + 1) ts = Parser.primary lookup fuel ts := by
  unfold Parser.unary
  split
  case h_1 us => exact absurd rfl h
  case h_2 => rfl

theorem arguments_of_head {comparisons : Bool} (h : ts.head? ≠ some ")") :
    Parser.arguments lookup (fuel + 1) comparisons ts =
      Parser.argumentTail lookup fuel comparisons ts := by
  unfold Parser.arguments
  split
  case h_1 us => exact absurd rfl h
  case h_2 => rfl

/-! ### One step of the parser -/

section Steps

variable {a b : Node} {t : String} {us vs xs : List String}

theorem comparison_lone (h : Parser.sum lookup fuel ts = .ok (n, rest))
    (hstop : ∀ t ∈ rest.head?, Token.comparison? t = none) :
    Parser.comparison lookup (fuel + 1) ts = .ok (n, rest) := by
  rw [Parser.comparison, h]
  cases rest with
  | nil => rfl
  | cons t us =>
    have hnone : Token.comparison? t = none := hstop t (by simp)
    simp [bind, Except.bind, hnone, pure, Except.pure]

theorem comparison_compared {op : Comparison} (ht : Token.comparison? t = some op)
    (ha : Parser.sum lookup fuel ts = .ok (a, t :: us))
    (hb : Parser.sum lookup fuel us = .ok (b, rest)) :
    Parser.comparison lookup (fuel + 1) ts = .ok (.comparison op a b, rest) := by
  rw [Parser.comparison, ha]
  simp [bind, Except.bind, ht, hb, pure, Except.pure]

theorem unary_negated (h : Parser.unary lookup fuel us = .ok (n, rest)) :
    Parser.unary lookup (fuel + 1) ("-" :: us) =
      .ok (.arithmetic .sub (.constant (.int 0)) n, rest) := by
  simp only [Parser.unary, h]
  rfl

theorem primary_enclosed (h : Parser.comparison lookup fuel us = .ok (n, ")" :: rest)) :
    Parser.primary lookup (fuel + 1) ("(" :: us) = .ok (n, rest) := by
  unfold Parser.primary
  simp [h, bind, Except.bind, pure, Except.pure]

theorem primary_number {c : Constant} (ht : Token.isNumber t = true)
    (hc : Token.numberOf t = .ok c) :
    Parser.primary lookup (fuel + 1) (t :: rest) = .ok (.constant c, rest) := by
  have hne : t ≠ "(" := by
    -- a parenthesis, which is looked for first, is no number
    rintro rfl
    exact absurd ht (by decide)
  unfold Parser.primary
  simp [hne, ht, hc, bind, Except.bind, pure, Except.pure]

theorem primary_string {c : Constant} (ht : Token.string? t = some (.ok c)) :
    Parser.primary lookup (fuel + 1) (t :: rest) = .ok (.constant c, rest) := by
  have hne : t ≠ "(" := by
    rintro rfl
    cases ht
  unfold Parser.primary
  simp [hne, ht, Token.isNumber_of_string? ht, bind, Except.bind, pure, Except.pure]

section Cases

variable {op : Comparison} {l r yes no : Node} (v : Word "WHEN") (u : Word "THEN") (o : Word "ELSE")
  (z : Word "END") (hc : Parser.comparison lookup fuel us = .ok (.comparison op l r, u.1 :: vs))

include hc

theorem caseTail_guarded (hyes : Parser.sum lookup fuel vs = .ok (yes, z.1 :: rest)) :
    Parser.caseTail lookup (fuel + 1) (v.1 :: us) = .ok (.guarded op l r yes, rest) := by
  rw [Parser.caseTail]
  simp only [atWord_cons, atWord_else_of_endWord, List.tail_cons, hc, hyes, bind, Except.bind,
    Node.asComparison, Bool.not_true, Bool.false_eq_true, if_false, if_true]
  rfl

theorem caseTail_choice (hyes : Parser.sum lookup fuel vs = .ok (yes, o.1 :: xs))
    (hno : Parser.sum lookup fuel xs = .ok (no, z.1 :: rest)) :
    Parser.caseTail lookup (fuel + 1) (v.1 :: us) = .ok (.choice op l r yes no, rest) := by
  rw [Parser.caseTail]
  simp only [atWord_cons, List.tail_cons, hc, hyes, hno, bind, Except.bind, Node.asComparison,
    Bool.not_true, Bool.false_eq_true, if_false, if_true]
  rfl

end Cases

variable {comparisons : Bool} (hn : (!comparisons && n.isComparison) = false)

include hn

theorem argumentTail_single (h : Parser.comparison lookup fuel ts = .ok (n, ")" :: rest)) :
    Parser.argumentTail lookup (fuel + 1) comparisons ts = .ok ([n], rest) := by
  rw [argumentTail_succ, h]
  simp [bind, Except.bind, hn]

theorem argumentTail_more {ns : List Node}
    (h : Parser.comparison lookup fuel ts = .ok (n, "," :: us))
    (hns : Parser.argumentTail lookup fuel comparisons us = .ok (ns, rest)) :
    Parser.argumentTail lookup (fuel + 1) comparisons ts = .ok (n :: ns, rest) := by
  rw [argumentTail_succ, h]
  simp [bind, Except.bind, hn, hns, pure, Except.pure]

end Steps

/-! ### Enough fuel -/

/-- **Whatever the relation takes, the parser takes**, if it has eight units of fuel for every token
that is taken and a few more. -/
theorem Takes.succeeds {task : Task} (h : Takes lookup task ts rest)
    (hfuel : 8 * ts.length + task.need ≤ fuel + 8 * rest.length) :
    task.Succeeds lookup fuel ts rest := by
  -- one unit goes to the function of the task; the parts have the rest, and the number of tokens that
  -- each takes bounds what it needs
  induction h generalizing fuel with
  | lone h hstop ih =>
    have hlen := h.length
    simp only [Task.need, Category.depth, Task.least] at hfuel hlen ih
    obtain ⟨g, rfl⟩ : ∃ g, fuel = g + 1 := ⟨fuel - 1, by omega⟩
    exact comparison_lone (ih (by omega)) hstop
  | compared ht ha hb iha ihb =>
    have hlena := ha.length
    have hlenb := hb.length
    simp only [Task.need, Category.depth, Task.least, List.length_cons] at hfuel hlena hlenb iha ihb
    obtain ⟨g, rfl⟩ : ∃ g, fuel = g + 1 := ⟨fuel - 1, by omega⟩
    exact comparison_compared ht (iha (by omega)) (ihb (by omega))
  | @chain l a n ts us rest ha hn iha ihn =>
    have hlena := ha.length
    have hlenn := hn.length
    have hdepth := depth_chain l
    simp only [Task.need, Task.least] at hfuel hlena hlenn iha ihn
    obtain ⟨g, rfl⟩ : ∃ g, fuel = g + 1 := ⟨fuel - 1, by omega⟩
    have hleft : l.operand.parse lookup g ts = .ok (a, us) := iha (by omega)
    show (Category.chain l).parse lookup (g + 1) ts = .ok (n, rest)
    rw [parse_chain, hleft]
    exact ihn (by omega)
  | stop h =>
    simp only [Task.need] at hfuel
    obtain ⟨g, rfl⟩ : ∃ g, fuel = g + 1 := ⟨fuel - 1, by omega⟩
    exact parseTail_stop h
  | @sign l a b n t op us vs rest ht hb hn ihb ihn =>
    have hlenb := hb.length
    have hlenn := hn.length
    have hdepth : l.operand.depth ≤ 2 := by cases l <;> decide
    simp only [Task.need, Task.least, List.length_cons] at hfuel hlenb hlenn ihb ihn
    obtain ⟨g, rfl⟩ : ∃ g, fuel = g + 1 := ⟨fuel - 1, by omega⟩
    have hright : l.operand.parse lookup g us = .ok (b, vs) := ihb (by omega)
    show l.parseTail lookup (g + 1) a (t :: us) = .ok (n, rest)
    rw [parseTail_sign ht, hright]
    exact ihn (by omega)
  | negated h ih =>
    have hlen := h.length
    simp only [Task.need, Category.depth, Task.least, List.length_cons] at hfuel hlen ih
    obtain ⟨g, rfl⟩ : ∃ g, fuel = g + 1 := ⟨fuel - 1, by omega⟩
    exact unary_negated (ih (by omega))
  | bare hts h ih =>
    have hlen := h.length
    simp only [Task.need, Category.depth, Task.least] at hfuel hlen ih
    obtain ⟨g, rfl⟩ : ∃ g, fuel = g + 1 := ⟨fuel - 1, by omega⟩
    exact (unary_of_head hts).trans (ih (by omega))
  | enclosed h ih =>
    have hlen := h.length
    simp only [Task.need, Category.depth, Task.least, List.length_cons] at hfuel hlen ih
    obtain ⟨g, rfl⟩ : ∃ g, fuel = g + 1 := ⟨fuel - 1, by omega⟩
    exact primary_enclosed (ih (by omega))
  | number ht hc =>
    simp only [Task.need, Category.depth, List.length_cons] at hfuel
    obtain ⟨g, rfl⟩ : ∃ g, fuel = g + 1 := ⟨fuel - 1, by omega⟩
    exact primary_number ht hc
  | string ht =>
    simp only [Task.need, Category.depth, List.length_cons] at hfuel
    obtain ⟨g, rfl⟩ : ∃ g, fuel = g + 1 := ⟨fuel - 1, by omega⟩
    exact primary_string ht
  | column ht hrest =>
    simp only [Task.need, Category.depth, List.length_cons] at hfuel
    obtain ⟨g, rfl⟩ : ∃ g, fuel = g + 1 := ⟨fuel - 1, by omega⟩
    exact primary_of_column ht hrest
  | cases w h ih =>
    have hlen := h.length
    simp only [Task.need, Category.depth, Task.least, List.length_cons] at hfuel hlen ih
    obtain ⟨g, rfl⟩ : ∃ g, fuel = g + 1 := ⟨fuel - 1, by omega⟩
    exact (primary_of_caseWord w).trans (ih (by omega))
  | @condition w ns n us rest h hn ih =>
    have hlen := h.length
    simp only [Task.need, Category.depth, Task.least, List.length_cons] at hfuel hlen ih
    obtain ⟨g, rfl⟩ : ∃ g, fuel = g + 1 := ⟨fuel - 1, by omega⟩
    have hargs : Parser.arguments lookup g true us = .ok (ns, rest) := ih (by omega)
    show Parser.primary lookup (g + 1) (w.1 :: "(" :: us) = .ok (n, rest)
    rw [primary_of_ifWord, hargs]
    simp [bind, Except.bind, hn, pure, Except.pure]
  | @call t f ns us rest ht hf h ih =>
    have hlen := h.length
    simp only [Task.need, Category.depth, Task.least, List.length_cons] at hfuel hlen ih
    obtain ⟨g, rfl⟩ : ∃ g, fuel = g + 1 := ⟨fuel - 1, by omega⟩
    have hargs : Parser.arguments lookup g false us = .ok (ns, rest) := ih (by omega)
    show Parser.primary lookup (g + 1) (t :: "(" :: us) = .ok (.call f ns, rest)
    rw [primary_of_callable ht hf, hargs]
    rfl
  | guarded v u z hc hyes ihc ihyes =>
    have hlenc := hc.length
    have hleny := hyes.length
    simp only [Task.need, Category.depth, Task.least, List.length_cons] at hfuel hlenc hleny ihc ihyes
    obtain ⟨g, rfl⟩ : ∃ g, fuel = g + 1 := ⟨fuel - 1, by omega⟩
    exact caseTail_guarded v u z (ihc (by omega)) (ihyes (by omega))
  | choice v u o z hc hyes hno ihc ihyes ihno =>
    have hlenc := hc.length
    have hleny := hyes.length
    have hlenn := hno.length
    simp only [Task.need, Category.depth, List.length_cons] at hfuel ihc ihyes ihno
    simp only [Task.least, List.length_cons] at hlenc hleny hlenn
    obtain ⟨g, rfl⟩ : ∃ g, fuel = g + 1 := ⟨fuel - 1, by omega⟩
    exact caseTail_choice v u o z (ihc (by omega)) (ihyes (by omega)) (ihno (by omega))
  | empty =>
    simp only [Task.need, List.length_cons] at hfuel
    obtain ⟨g, rfl⟩ : ∃ g, fuel = g + 1 := ⟨fuel - 1, by omega⟩
    simp [Task.Succeeds, Parser.arguments]
  | nonempty hts h ih =>
    have hlen := h.length
    simp only [Task.need, Task.least] at hfuel hlen ih
    obtain ⟨g, rfl⟩ : ∃ g, fuel = g + 1 := ⟨fuel - 1, by omega⟩
    exact (arguments_of_head hts).trans (ih (by omega))
  | single h hn ih =>
    have hlen := h.length
    simp only [Task.need, Category.depth, Task.least, List.length_cons] at hfuel hlen ih
    obtain ⟨g, rfl⟩ : ∃ g, fuel = g + 1 := ⟨fuel - 1, by omega⟩
    exact argumentTail_single hn (ih (by omega))
  | more h hn hns ih ihns =>
    have hlen := h.length
    have hlens := hns.length
    simp only [Task.need, Category.depth, Task.least, List.length_cons] at hfuel hlen hlens ih ihns
    obtain ⟨g, rfl⟩ : ∃ g, fuel = g + 1 := ⟨fuel - 1, by omega⟩
    exact argumentTail_more hn (ih (by omega)) (ihns (by omega))

/-- All tokens are an expression when a comparison takes them all. -/
theorem parseTokens_iff_takes :
    Parser.parseTokens lookup ts = .ok n ↔ Takes lookup (.phrase .comparison n) ts [] := by
  constructor
  · intro h
    obtain ⟨⟨m, us⟩, hm, hend⟩ := bind_ok_iff.1 h
    have hsucceeds : (Task.phrase .comparison m).Succeeds lookup (8 * (ts.length + 1)) ts us := hm
    have htakes : Takes lookup (.phrase .comparison m) ts us := takes_of_succeeds _ hsucceeds
    cases us with
    | nil =>
      cases hend
      exact htakes
    | cons t us => cases hend
  · intro h
    have hsucceeds : (Task.phrase .comparison n).Succeeds lookup (8 * (ts.length + 1)) ts [] :=
      h.succeeds (by simp only [Task.need, Category.depth, List.length_nil]; omega)
    have hparse : Parser.comparison lookup (8 * (ts.length + 1)) ts = .ok (n, []) := hsucceeds
    rw [Parser.parseTokens, hparse]
    rfl

/-- A token that is left over is an error. -/
theorem Takes.unexpected {t : String} (h : Takes lookup (.phrase .comparison n) ts (t :: rest)) :
    Parser.parseTokens lookup ts = .error (.unexpectedToken t) := by
  have hsucceeds : (Task.phrase .comparison n).Succeeds lookup (8 * (ts.length + 1)) ts (t :: rest) :=
    h.succeeds (by simp only [Task.need, Category.depth]; omega)
  have hparse : Parser.comparison lookup (8 * (ts.length + 1)) ts = .ok (n, t :: rest) := hsucceeds
  rw [Parser.parseTokens, hparse]
  rfl

end FactFold.Grammar
