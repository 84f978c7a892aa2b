import FactFold.Proofs.Code.Parts
import FactFold.Proofs.Expr.Printing
import FactFold.Proofs.Lowering.Relation
import FactFold.Proofs.Number.Wrap

/-!
# Integer constants

An integer comes into an expression as a value of some width, in a list of one width, in a sequence of
values, or as digits. Each way decides on its own whether the constant is `int` or `long`, and none
changes the integers or calls something `int` that does not fit into 32 bits:

* a width either fits as a whole, or its integers are tested one by one (`IntKind.numeric?_fits`);
* a sequence has one numeric type, which every item has by itself (`elementType_ok_iff`), so that its
  items are integers of widths that were accepted;
* digits are read as the number they write, or refused (`numberOf_writes`).

What a constant of a type may hold is `Constant.Fits`, and the literals in its code are what it holds.

A list and a sequence of the same integers need not be the same constant: where sizes are mixed, the
list takes the wider type and the sequence has none (`Constant.sequence_of_integers`).
-/

namespace FactFold

/-! ## Integers of a width -/

namespace IntKind

/-- The integer is one of this width. -/
def Holds (k : IntKind) (n : Int) : Prop := k.wrap n = n

instance (k : IntKind) (n : Int) : Decidable (k.Holds n) := inferInstanceAs (Decidable (_ = _))

/-- An integer that has a numeric type keeps its value in 64 bits, and `int` is given to those of 32
bits only. -/
theorem numeric?_fits {k : IntKind} {n : Int} {m : Numeric} (hn : k.Holds n)
    (h : k.numeric? n = some m) :
    Number.wrap64 n = n ∧ (m = .int → -(2 ^ 31) ≤ n ∧ n < 2 ^ 31) := by
  unfold Holds wrap at hn
  cases k with
  | uint64 | uint => cases h
  | int64 =>
    refine ⟨hn, ?_⟩
    rintro rfl
    cases h
  | int =>
    refine ⟨hn, ?_⟩
    rintro rfl
    -- the one signed width that is tested integer by integer
    simpa [numeric?, fits32] using h
  | uint32 =>
    simp only [signed, bits, Bool.false_eq_true, if_false] at hn
    refine ⟨Number.wrap64_of_range (by omega) (by omega), ?_⟩
    rintro rfl
    simpa [numeric?, fits32] using h
  | int8 | int16 | int32 =>
    simp only [signed, bits, if_true, Int.bmod_def] at hn
    exact ⟨Number.wrap64_of_range (by omega) (by omega), fun _ => ⟨by omega, by omega⟩⟩
  | uint8 | uint16 =>
    simp only [signed, bits, Bool.false_eq_true, if_false] at hn
    exact ⟨Number.wrap64_of_range (by omega) (by omega), fun _ => ⟨by omega, by omega⟩⟩

end IntKind

/-- The calendar has twelve months of at most 31 days. -/
theorem Date.ofDays_range (days : Int) :
    1 ≤ (ofDays days).month ∧ (ofDays days).month ≤ 12 ∧
      1 ≤ (ofDays days).day ∧ (ofDays days).day ≤ 31 := by
  unfold ofDays daysBeforeMonth
  simp only [Int.fdiv_eq_ediv_of_nonneg _ (show (0 : Int) ≤ 146097 by decide)]
  omega

/-! ## Integers of a value -/

namespace Datum

mutual

/-- The integers of a value with their widths, in order. -/
def integers : Datum → List (IntKind × Int)
  | .scalar (.int k n) => [(k, n)]
  | .ints k ns => ns.map fun n => (k, n)
  | .seq items => integersOf items
  | _ => []

/-- The integers of each value. -/
def integersOf : List Datum → List (IntKind × Int)
  | [] => []
  | d :: rest => d.integers ++ integersOf rest

end

/-- The integers of a value, in order. -/
def values (d : Datum) : List Int := d.integers.map Prod.snd

/-- Every integer of the value is one of its width. -/
def Sized (d : Datum) : Prop := ∀ p ∈ d.integers, p.1.Holds p.2

instance (d : Datum) : Decidable d.Sized := inferInstanceAs (Decidable (∀ p ∈ d.integers, _))

end Datum

namespace Constant

open Datum

/-- What a constant of a type may hold: integers of 32 bits where the type is `int`, and dates that
the calendar has. -/
def Fits : Constant → Prop
  | .int n => -(2 ^ 31) ≤ n ∧ n < 2 ^ 31
  | .ints ns => ∀ n ∈ ns, -(2 ^ 31) ≤ n ∧ n < 2 ^ 31
  | .date d => 1 ≤ d.month ∧ d.month ≤ 12 ∧ 1 ≤ d.day ∧ d.day ≤ 31
  | _ => True

/-- The numeric type of a sequence is the one that every item has. -/
theorem elementType_ok_iff {items : List Datum} {m : Numeric} :
    ∀ {index : Nat} {first : Option Numeric}, elementType index first items = .ok m ↔
      (∀ d ∈ items, numericOf? d = some m) ∧ (first = some m ∨ first = none ∧ items ≠ []) := by
  induction items with
  | nil =>
    intro index first
    cases first <;> simp [elementType]
  | cons d rest ih =>
    intro index first
    rw [List.forall_mem_cons]
    cases hd : numericOf? d with
    | none => cases first <;> simp [elementType, hd]
    | some n =>
      cases first with
      | none =>
        -- the first item gives the type
        simp [elementType, hd, ih]
        tauto
      | some k =>
        -- every other one must have it as well
        simp only [elementType, hd]
        split_ifs with hk
        · subst hk
          simp [ih]
          tauto
        · refine iff_of_false (by simp) ?_
          rintro ⟨⟨hn, -⟩, hm | ⟨hm, -⟩⟩
          · exact hk (Option.some.inj (hn.trans hm.symm))
          · cases hm

/-- An item with an integral type is an integer of an accepted width. -/
theorem integer_of_numericOf? {d : Datum} {m : Numeric} (hm : m = .int ∨ m = .long)
    (h : numericOf? d = some m) : ∃ k n, d = .scalar (.int k n) ∧ k.numeric? n = some m := by
  unfold numericOf? at h
  split at h
  · exact ⟨_, _, rfl, h⟩
  · obtain rfl := Option.some.inj h
    rcases hm with hm | hm <;> cases hm
  · obtain rfl := Option.some.inj h
    rcases hm with hm | hm <;> cases hm
  · cases h

/-- Items with an integral type are stored as the integers they are. -/
theorem longs_of_items {m : Numeric} (hm : m = .int ∨ m = .long) : ∀ {items : List Datum},
    (∀ p ∈ integersOf items, p.1.Holds p.2) → (∀ d ∈ items, numericOf? d = some m) →
      (items.map fun d => d.operand.longOrZero) = (integersOf items).map Prod.snd ∧
        (m = .int → ∀ p ∈ integersOf items, -(2 ^ 31) ≤ p.2 ∧ p.2 < 2 ^ 31) := by
  intro items
  induction items with
  | nil => simp [integersOf]
  | cons d rest ih =>
    intro hsized hnumeric
    obtain ⟨hd, hrest⟩ := List.forall_mem_cons.1 hnumeric
    obtain ⟨k, n, rfl, hk⟩ := integer_of_numericOf? hm hd
    have hintegers : integersOf (.scalar (.int k n) :: rest) = (k, n) :: integersOf rest := by
      simp [integersOf, integers]
    rw [hintegers, List.forall_mem_cons] at hsized
    obtain ⟨hwrap, hrange⟩ := IntKind.numeric?_fits hsized.1 hk
    obtain ⟨hvalues, hranges⟩ := ih hsized.2 hrest
    rw [hintegers, List.map_cons, List.map_cons, hvalues]
    refine ⟨congrArg (· :: _) ?_, fun h => List.forall_mem_cons.2 ⟨hrange h, hranges h⟩⟩
    -- what a conversion sees of the integer is the integer in 64 bits
    show Number.wrap64 n = n
    exact hwrap

/-! ## Constants of values -/

@[simp] theorem values_ints (k : IntKind) (ns : List Int) : (Datum.ints k ns).values = ns := by
  simp [values, integers, Function.comp_def]

/-- The constant is an integer or an array of integers. -/
def Integral (c : Constant) : Prop := c.type.element ∈ [.scalar .int, .scalar .long]

instance (c : Constant) : Decidable c.Integral := inferInstanceAs (Decidable (_ ∈ _))

/-- The constant holds the integers of the value, if it holds integers at all, and holds what its type
may hold. -/
structure Keeps (c : Constant) (d : Datum) : Prop where
  values : c.Integral → c.datum.values = d.values
  fits : c.Fits

theorem keeps_of_not_integral {c : Constant} {d : Datum} (hc : ¬c.Integral) (hf : c.Fits) :
    c.Keeps d := ⟨fun h => absurd h hc, hf⟩

theorem ofScalar?_keeps {s : Scalar} {c : Constant} (hs : (Datum.scalar s).Sized)
    (h : ofScalar? s = some c) :
    c.Keeps (.scalar s) := by
  unfold ofScalar? at h
  split at h
  · next k n =>
    have hn : k.Holds n := hs (k, n) (by simp [integers])
    split at h
    · next hk =>
      obtain rfl := Option.some.inj h
      exact ⟨fun _ => rfl, (IntKind.numeric?_fits hn hk).2 rfl⟩
    · obtain rfl := Option.some.inj h
      exact ⟨fun _ => rfl, trivial⟩
    · cases h
  · obtain rfl := Option.some.inj h
    exact keeps_of_not_integral (by simp [Integral, type, DataType.element]) trivial
  · obtain rfl := Option.some.inj h
    exact keeps_of_not_integral (by simp [Integral, type, DataType.element]) trivial
  · obtain rfl := Option.some.inj h
    exact keeps_of_not_integral (by simp [Integral, type, DataType.element]) trivial
  · cases h
  · obtain rfl := Option.some.inj h
    exact keeps_of_not_integral (by simp [Integral, type, DataType.element]) (Date.ofDays_range _)

theorem ofSequence_keeps {items : List Datum} {c : Constant} (hs : (Datum.seq items).Sized)
    (h : ofSequence items = .ok c) :
    c.Keeps (.seq items) := by
  have hs : ∀ p ∈ integersOf items, p.1.Holds p.2 := by simpa [Sized, integers] using hs
  have hvalues : (Datum.seq items).values = (integersOf items).map Prod.snd := by
    simp [values, integers]
  unfold ofSequence at h
  split at h
  · cases h
  · next hm =>
    obtain ⟨hall, hfits⟩ := longs_of_items (.inl rfl) hs (elementType_ok_iff.1 hm).1
    obtain rfl := Except.ok.inj h
    refine ⟨fun _ => by simp [datum, hvalues, hall], ?_⟩
    show ∀ n ∈ items.map _, _
    rw [hall, List.forall_mem_map]
    exact hfits rfl
  · next hm =>
    obtain ⟨hall, -⟩ := longs_of_items (.inr rfl) hs (elementType_ok_iff.1 hm).1
    obtain rfl := Except.ok.inj h
    exact ⟨fun _ => by simp [datum, hvalues, hall], trivial⟩
  all_goals
    obtain rfl := Except.ok.inj h
    exact keeps_of_not_integral (by simp [Integral, type, DataType.element]) trivial

/-- **A constant holds the integers it was made of, and holds what its type may hold.** -/
theorem ofDatum_keeps {d : Datum} {c : Constant} (hd : d.Sized) (h : ofDatum d = .ok c) :
    c.Keeps d := by
  unfold ofDatum at h
  split at h
  · next s =>
    split at h
    · next hs =>
      obtain rfl := Except.ok.inj h
      exact ofScalar?_keeps hd hs
    · cases h
  · next ns =>
    obtain rfl := Except.ok.inj h
    -- the list is `int` when all of it fits
    split_ifs with hall
    · refine ⟨fun _ => by simp [datum], ?_⟩
      simpa [Fits, fits32] using hall
    · exact ⟨fun _ => by simp [datum], trivial⟩
  · next ns =>
    obtain rfl := Except.ok.inj h
    refine ⟨fun _ => by simp [datum], fun n hn => ?_⟩
    have hn : IntKind.int32.Holds n := hd (.int32, n) (by simpa [integers] using hn)
    exact (IntKind.numeric?_fits hn rfl).2 rfl
  · obtain rfl := Except.ok.inj h
    exact ⟨fun _ => by simp [datum], trivial⟩
  · obtain rfl := Except.ok.inj h
    exact keeps_of_not_integral (by simp [Integral, type, DataType.element]) trivial
  · obtain rfl := Except.ok.inj h
    exact keeps_of_not_integral (by simp [Integral, type, DataType.element]) trivial
  · exact ofSequence_keeps hd h
  · cases h

theorem Fits.range {c : Constant} (h : c.Fits) (ht : c.type.element = .int) :
    ∀ n ∈ c.datum.values, -(2 ^ 31) ≤ n ∧ n < 2 ^ 31 := by
  cases c with
  | int n => simpa [values, integers, datum, Fits] using h
  | ints ns => simpa [datum, Fits] using h
  | long | float | double | string | date | longs | floats | doubles => cases ht

end Constant

/-! ## Constants of digits -/

namespace Token

/-- The token writes an integer: decimal digits, possibly behind a minus. -/
inductive Writes : String → Int → Prop
  | digits {ds : List Char} (hne : ds ≠ []) (hds : ∀ c ∈ ds, Number.isDigit c = true) :
      Writes (String.ofList ds) (Nat.ofDigitChars 10 ds 0)
  | negative {ds : List Char} (hne : ds ≠ []) (hds : ∀ c ∈ ds, Number.isDigit c = true) :
      Writes (String.ofList ('-' :: ds)) (-(Nat.ofDigitChars 10 ds 0 : Nat))

/-- Digits are read as the number they write, if it is one of 64 bits. -/
theorem readDecimalInt?_writes {t : String} {n : Int} (h : Writes t n) :
    Number.readDecimalInt? t.toList = if Number.fits64 n then some n else none := by
  have hread : ∀ (negative : Bool) (cs ds : List Char), Number.takeSign cs = (negative, ds) →
      ds ≠ [] → (∀ c ∈ ds, Number.isDigit c = true) → Number.readDecimalInt? cs =
        let n : Int := if negative then -(Nat.ofDigitChars 10 ds 0 : Nat)
          else Nat.ofDigitChars 10 ds 0
        if Number.fits64 n then some n else none := by
    intro negative cs ds hsign hne hds
    have hempty : ds.isEmpty = false := by simpa using hne
    simp only [Number.readDecimalInt?, hsign, hempty, Bool.false_eq_true, if_false, bind,
      Option.bind, Number.foldlM_digits hds 0]
  cases h with
  | digits hne hds => simpa using hread false _ _ (Number.takeSign_digits hds) hne hds
  | negative hne hds => simpa using hread true _ _ rfl hne hds

/-- **Digits are an integer constant of the type its size asks for, or out of range.** -/
theorem numberOf_writes {t : String} {n : Int} (h : Writes t n) :
    numberOf t = if Number.fits64 n then .ok (if fits32 n then .int n else .long n)
      else .error (.integerRange t) := by
  have hwhole : (t.toList.any fun c => c = '.' || c = 'e' || c = 'E') = false := by
    cases h with
    | digits hne hds => simpa using any_mark_digits hds
    | negative hne hds => simpa using any_mark_digits hds
  rw [numberOf]
  simp only [hwhole, Bool.false_eq_true, if_false, readDecimalInt?_writes h]
  cases Number.fits64 n <;> rfl

/-- A number is a constant that holds what its type may hold, whatever the token looks like. -/
theorem numberOf_fits {t : String} {c : Constant} (h : numberOf t = .ok c) : c.Fits := by
  unfold numberOf at h
  dsimp only at h
  split_ifs at h
  · split at h
    · obtain rfl := Except.ok.inj h
      trivial
    · cases h
  · split at h
    · obtain rfl := Except.ok.inj h
      split_ifs with hfits
      · simpa [Constant.Fits, fits32] using hfits
      · trivial
    · cases h

end Token

/-! ## Literals in the code of a constant -/

namespace Lowering

theorem lit_mem_arrayTerm {n : Numeric} {items : List Scalar} {type : String} {v : Datum}
    (h : .lit type v ∈ (arrayTerm n items).parts) :
    type = n.name ∧ ∃ item ∈ items, v = .scalar item := by
  simp only [arrayTerm, Term.parts, Term.partsAll, List.append_nil, List.mem_cons, reduceCtorEq,
    false_or] at h
  obtain ⟨x, hx, h⟩ := Term.mem_partsAll.1 h
  obtain ⟨item, hitem, rfl⟩ := List.mem_map.1 hx
  simp only [Term.parts, List.mem_singleton, Term.lit.injEq] at h
  exact ⟨h.1, item, hitem, h.2⟩

/-- The literal of an integer of 32 bits writes that integer. -/
theorem literal_range {n : Int} (h : -(2 ^ 31) ≤ n ∧ n < 2 ^ 31) :
    -(2 ^ 31) ≤ (Datum.scalar (.long n)).operand.longOrZero ∧
      (Datum.scalar (.long n)).operand.longOrZero < 2 ^ 31 := by
  have hwrap : (Datum.scalar (.long n)).operand.longOrZero = n :=
    Number.wrap64_of_range (by omega) (by omega)
  rwa [hwrap]

/-- **The `int` literals in the code of a constant fit into 32 bits**, the year of a date aside, which
the calendar does not bound. -/
theorem constantTerm_literals {c : Constant} (hc : c.Fits) {v : Datum}
    (h : .lit "int" v ∈ (constantTerm c).parts) :
    (-(2 ^ 31) ≤ v.operand.longOrZero ∧ v.operand.longOrZero < 2 ^ 31) ∨
      ∃ d, c = .date d ∧ v = .scalar (.long d.year) := by
  cases c with
  | int n =>
    simp only [constantTerm, Term.parts, List.mem_singleton, Term.lit.injEq] at h
    obtain rfl := h.2
    exact .inl (literal_range hc)
  | ints ns =>
    obtain ⟨-, item, hitem, rfl⟩ := lit_mem_arrayTerm h
    obtain ⟨n, hn, rfl⟩ := List.mem_map.1 hitem
    exact .inl (literal_range (hc n hn))
  | date d =>
    obtain ⟨hm, hm', hd, hd'⟩ := hc
    simp only [constantTerm, Term.int, Term.parts, Term.partsAll, List.append_nil,
      List.singleton_append, List.mem_cons, List.not_mem_nil, reduceCtorEq, false_or, or_false,
      Term.lit.injEq, true_and] at h
    rcases h with rfl | rfl | rfl
    · exact .inr ⟨d, rfl, rfl⟩
    · exact .inl (literal_range (by omega))
    · exact .inl (literal_range (by omega))
  | longs | floats | doubles => exact absurd (lit_mem_arrayTerm h).1 (by decide)
  | long | float | double | string =>
    simp [constantTerm, Constant.type, DataType.sourceName, DataType.name, Numeric.name] at h

theorem constant_runIn (c : Constant) (ws : Workspace) :
    ∃ ws', (constant c).runIn ws = (.ok (.basic (constantTerm c) c.type), ws') := by
  unfold constant
  cases constantImport? c <;> exact ⟨_, rfl⟩

end Lowering

/-! ## All of them together -/

/-- **Integer constants keep their value and fit their type.** A value accepted as an integer or as an
array of integers is stored as the integers it has, in order, and is `int` only if they are of 32 bits.
Digits are accepted exactly when they write an integer of 64 bits; the constant is that integer, `int`
when it is one of 32 bits and `long` otherwise. So the code of a constant has no `int` literal outside
32 bits, but for the year of a date, which no integer constant is behind. -/
theorem integer_constants_fit :
    (∀ (d : Datum) (c : Constant), d.Sized → Constant.ofDatum d = .ok c → c.Integral →
      c.datum.values = d.values ∧
        (c.type.element = .int → ∀ n ∈ c.datum.values, -(2 ^ 31) ≤ n ∧ n < 2 ^ 31)) ∧
    (∀ (t : String) (n : Int), Token.Writes t n →
      ((∃ c, Token.numberOf t = .ok c) ↔ -(2 ^ 63) ≤ n ∧ n < 2 ^ 63) ∧
        ∀ c, Token.numberOf t = .ok c → c.datum.values = [n] ∧
          c.type = if -(2 ^ 31) ≤ n ∧ n < 2 ^ 31 then .int else .scalar .long) ∧
    ∀ c : Constant, (∃ d : Datum, d.Sized ∧ Constant.ofDatum d = .ok c) ∨
        (∃ t, Token.numberOf t = .ok c) →
      ∀ (env : LoweringEnv) (ws : Workspace), ∃ code ws',
        ((Node.constant c).lower env).runIn ws = (.ok (.basic code c.type), ws') ∧
          ∀ v, .lit "int" v ∈ code.parts →
            (-(2 ^ 31) ≤ v.operand.longOrZero ∧ v.operand.longOrZero < 2 ^ 31) ∨
              ∃ d, c = .date d ∧ v = .scalar (.long d.year) := by
  refine ⟨fun d c hd h hc => ?_, fun t n h => ?_, fun c hc env ws => ?_⟩
  · have hkeeps := Constant.ofDatum_keeps hd h
    exact ⟨hkeeps.values hc, hkeeps.fits.range⟩
  · have h64 : Number.fits64 n = true ↔ -(2 ^ 63) ≤ n ∧ n < 2 ^ 63 := by simp [Number.fits64]
    have h32 : fits32 n = true ↔ -(2 ^ 31) ≤ n ∧ n < 2 ^ 31 := by simp [fits32]
    rw [Token.numberOf_writes h, ← h64]
    refine ⟨by split_ifs <;> simp_all, fun c hc => ?_⟩
    split_ifs at hc with hfits hn
    · obtain rfl := Except.ok.inj hc
      rw [if_pos (h32.1 hn)]
      exact ⟨rfl, rfl⟩
    · obtain rfl := Except.ok.inj hc
      rw [if_neg fun hr => hn (h32.2 hr)]
      exact ⟨rfl, rfl⟩
  · have hfits : c.Fits := by
      rcases hc with ⟨d, hd, h⟩ | ⟨t, h⟩
      · exact (Constant.ofDatum_keeps hd h).fits
      · exact Token.numberOf_fits h
    obtain ⟨ws', hrun⟩ := Lowering.constant_runIn c ws
    exact ⟨_, ws', hrun, fun v hv => Lowering.constantTerm_literals hfits hv⟩

/-- A sequence with an integer beyond 32 bits is `long[]`, and the first digits beyond 64 bits are
refused while their negative is not. -/
theorem integer_constants_fit_bounds :
    let items : Datum := .seq [.scalar (.int .uint32 (2 ^ 31)), .scalar (.int .int64 (-1))]
    (items.Sized ∧ Constant.ofDatum items = .ok (.longs [2 ^ 31, -1]) ∧
      (Constant.longs [2 ^ 31, -1]).datum.values = items.values) ∧
    (¬∃ c, Token.numberOf "9223372036854775808" = .ok c) ∧
      ∃ c, Token.numberOf "-9223372036854775808" = .ok c := by
  intro items
  have hsized : items.Sized := by decide
  have hmade : Constant.ofDatum items = .ok (.longs [2 ^ 31, -1]) := rfl
  have hdigits := @Token.Writes.digits "9223372036854775808".toList (by decide)
    (List.all_eq_true.1 rfl)
  have hnegative := @Token.Writes.negative "9223372036854775808".toList (by decide)
    (List.all_eq_true.1 rfl)
  refine ⟨⟨hsized, hmade, (integer_constants_fit.1 _ _ hsized hmade (by decide)).1⟩, fun h => ?_,
    (integer_constants_fit.2.1 _ _ hnegative).1.2 (by decide)⟩
  have hrange := (integer_constants_fit.2.1 _ _ hdigits).1.1 h
  exact absurd hrange.2 (by decide)

/-! ## Lists and sequences of integers

A list of integers of the machine's own width takes the type of its widest item. A sequence takes a
type from every item, and all of these have to be the same. So the two agree as long as the sizes of
the integers do. -/

namespace Constant

/-- Integers of the machine's own width, as the items of a sequence. -/
def integerItems (ns : List Int) : List Datum := ns.map fun n => .scalar (.int .int n)

/-- All of the integers fit into 32 bits, or none of them does. -/
def SameSize (ns : List Int) : Prop :=
  (∀ n ∈ ns, fits32 n = true) ∨ ∀ n ∈ ns, fits32 n = false

instance (ns : List Int) : Decidable (SameSize ns) := inferInstanceAs (Decidable (_ ∨ _))

theorem sameSize_cons {n : Int} {rest : List Int} :
    SameSize (n :: rest) ↔ ∀ k ∈ rest, fits32 k = fits32 n := by
  unfold SameSize
  rw [List.forall_mem_cons, List.forall_mem_cons]
  cases fits32 n <;> simp

/-- The type of the integers that fit into 32 bits, and the type of those that do not. -/
def fitType (fits : Bool) : Numeric := if fits then .int else .long

theorem numericOf?_integer (n : Int) :
    numericOf? (.scalar (.int .int n)) = some (fitType (fits32 n)) := rfl

/-- Where two types occur, the sequence is refused with the two of them, the first one in front. -/
theorem elementType_mixed {m k : Numeric} (hne : k ≠ m) {items : List Datum}
    (hall : ∀ d ∈ items, numericOf? d = some m ∨ numericOf? d = some k)
    (hk : ∃ d ∈ items, numericOf? d = some k) (index : Nat) :
    elementType index (some m) items = .error (.mixed m k) := by
  induction items generalizing index with
  | nil => simp at hk
  | cons d rest ih =>
    obtain ⟨hd, hrest⟩ := List.forall_mem_cons.1 hall
    rcases hd with hd | hd
    · -- an item of the first type: the other type is further on
      have hlater : ∃ e ∈ rest, numericOf? e = some k := by
        obtain ⟨e, he, hek⟩ := hk
        rcases List.mem_cons.1 he with rfl | he
        · exact absurd (Option.some.inj (hek.symm.trans hd)) hne
        · exact ⟨e, he, hek⟩
      simp only [elementType, hd, if_true]
      exact ih hrest hlater (index + 1)
    · simp only [elementType, hd, if_neg hne]

/-- The first item gives the type, which the others have as well or not. -/
theorem elementType_integerItems (n : Int) (rest : List Int) :
    elementType 0 none (integerItems (n :: rest)) =
      if SameSize (n :: rest) then .ok (fitType (fits32 n))
      else .error (.mixed (fitType (fits32 n)) (fitType (!fits32 n))) := by
  show elementType 1 (some (fitType (fits32 n))) (integerItems rest) = _
  have hitem : ∀ d ∈ integerItems rest, ∃ k ∈ rest, d = .scalar (.int .int k) := by
    intro d hd
    obtain ⟨k, hk, rfl⟩ := List.mem_map.1 hd
    exact ⟨k, hk, rfl⟩
  simp only [sameSize_cons]
  split_ifs with hsame
  · apply elementType_ok_iff.2
    refine ⟨fun d hd => ?_, .inl rfl⟩
    obtain ⟨k, hk, rfl⟩ := hitem d hd
    rw [numericOf?_integer, hsame k hk]
  · apply elementType_mixed
    · cases fits32 n <;> decide
    · intro d hd
      obtain ⟨k, -, rfl⟩ := hitem d hd
      rw [numericOf?_integer]
      cases fits32 k <;> cases fits32 n <;> simp
    · -- some item differs from the first, and there are two sizes only
      push Not at hsame
      obtain ⟨k, hk, hdiffers⟩ := hsame
      refine ⟨_, List.mem_map_of_mem hk, ?_⟩
      rw [numericOf?_integer, Bool.eq_not_of_ne hdiffers]

theorem longs_integerItems {ns : List Int} (hns : ∀ n ∈ ns, IntKind.int.Holds n) :
    (integerItems ns).map (fun d => d.operand.longOrZero) = ns := by
  induction ns with
  | nil => rfl
  | cons n rest ih =>
    obtain ⟨hn, hrest⟩ := List.forall_mem_cons.1 hns
    -- a conversion sees the integer in 64 bits
    have hwrap : Number.wrap64 n = n := hn
    exact congrArg₂ List.cons hwrap (ih hrest)

/-- **A sequence of integers of the machine's width is the constant that the list of them is**, as long
as their sizes agree. Where some fit into 32 bits and some do not, the list is `long[]`, and the
sequence is refused as one of `int` and `long`. -/
theorem sequence_of_integers {ns : List Int} (hne : ns ≠ [])
    (hns : ∀ n ∈ ns, IntKind.int.Holds n) :
    ∃ c, ofDatum (.ints .int ns) = .ok c ∧
      ofDatum (.seq (integerItems ns)) =
        if SameSize ns then .ok c
        else .error (if fits32 (ns.head hne) then .mixed .int .long else .mixed .long .int) := by
  refine ⟨_, rfl, ?_⟩
  show ofSequence (integerItems ns) = _
  obtain ⟨n, rest, rfl⟩ := List.exists_cons_of_ne_nil hne
  have hlongs := longs_integerItems hns
  have htype := elementType_integerItems n rest
  rw [List.head_cons]
  by_cases hsize : SameSize (n :: rest)
  · rw [if_pos hsize] at htype ⊢
    -- the type of the first integer is the one that the list takes
    have hall : (n :: rest).all fits32 = fits32 n := by
      rw [List.all_cons]
      cases hn : fits32 n
      · rfl
      · simpa [hn] using sameSize_cons.1 hsize
    rw [hall]
    cases hn : fits32 n <;> simp only [ofSequence, htype, hn, fitType, hlongs] <;> rfl
  · rw [if_neg hsize] at htype ⊢
    cases hn : fits32 n <;> simp only [ofSequence, htype, hn, fitType] <;> rfl

/-- Two wide integers are `long[]` either way; with a small one in front the sequence is refused. -/
theorem sequence_of_integers_wide :
    (ofDatum (.ints .int [2 ^ 40, -(2 ^ 31) - 1]) = .ok (.longs [2 ^ 40, -(2 ^ 31) - 1]) ∧
      ofDatum (.seq (integerItems [2 ^ 40, -(2 ^ 31) - 1])) =
        .ok (.longs [2 ^ 40, -(2 ^ 31) - 1])) ∧
    ofDatum (.ints .int [1, 2 ^ 40]) = .ok (.longs [1, 2 ^ 40]) ∧
      ofDatum (.seq (integerItems [1, 2 ^ 40])) = .error (.mixed .int .long) := by
  obtain ⟨c, hc, hwide⟩ :=
    @sequence_of_integers [2 ^ 40, -(2 ^ 31) - 1] (by decide) (by decide)
  obtain ⟨d, hd, hmixed⟩ := @sequence_of_integers [1, 2 ^ 40] (by decide) (by decide)
  rw [if_pos (by decide)] at hwide
  rw [if_neg (by decide), if_pos (by decide)] at hmixed
  exact ⟨⟨rfl, hwide.trans (hc.symm.trans rfl)⟩, rfl, hmixed⟩

end Constant

end FactFold
