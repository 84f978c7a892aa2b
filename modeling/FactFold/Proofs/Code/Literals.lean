import FactFold.Code.Literal
import FactFold.Proofs.Expr.Scanning

/-!
# Literals are read back

The text of a string literal holds UTF-16 code units: printable ASCII as it is, a few characters by
a letter after a backslash, everything else in hexadecimal. `unescaped` undoes the escapes and
`ofUnits` joins surrogates again, so that nothing about the string is lost (`ofUnits_unescaped`). No
quote and no backslash stands there unescaped, which is what lets a scanner find the end of the
literal.
-/

namespace FactFold.Literal

open Text (hexDigits digitsValue? hexValue?)

/-! ## Code units -/

/-- The UTF-16 code units of a character: one, or two surrogates. -/
def units (c : Char) : List Nat :=
  if 0xffff < c.toNat then
    [0xd800 + (c.toNat - 0x10000) / 0x400, 0xdc00 + (c.toNat - 0x10000) % 0x400]
  else [c.toNat]

/-- The characters of code units. -/
def ofUnits : List Nat → List Char
  | [] => []
  | [u] => [Char.ofNat u]
  | u :: v :: rest =>
    if 0xd800 ≤ u ∧ u < 0xdc00 then
      Char.ofNat (0x10000 + (u - 0xd800) * 0x400 + (v - 0xdc00)) :: ofUnits rest
    else Char.ofNat u :: ofUnits (v :: rest)

theorem toNat_range (c : Char) : c.toNat < 0xd800 ∨ 0xdfff < c.toNat ∧ c.toNat < 0x110000 := c.valid

theorem units_lt (c : Char) : ∀ u ∈ units c, u < 16 ^ 4 := by
  have hrange := toNat_range c
  intro u hu
  unfold units at hu
  split at hu
  · simp only [List.mem_cons, List.not_mem_nil, or_false] at hu
    omega
  · simp only [List.mem_singleton] at hu
    omega

theorem ofUnits_units (c : Char) (rest : List Nat) :
    ofUnits (units c ++ rest) = c :: ofUnits rest := by
  have hrange := toNat_range c
  have hback : Char.ofNat c.toNat = c := Char.ofNat_toNat c
  unfold units
  split
  · -- a character above the basic plane is a pair, and the pair gives its number back
    have hpair : 0x10000 + (0xd800 + (c.toNat - 0x10000) / 0x400 - 0xd800) * 0x400 +
        (0xdc00 + (c.toNat - 0x10000) % 0x400 - 0xdc00) = c.toNat := by omega
    rw [List.cons_append, List.cons_append, List.nil_append, ofUnits, if_pos (by omega), hpair,
      hback]
  · -- a single unit is no high surrogate, so it takes no second one
    rw [List.singleton_append]
    cases rest with
    | nil => show [Char.ofNat c.toNat] = [c]; rw [hback]
    | cons v rest => rw [ofUnits, if_neg (by omega), hback]

/-- **Joining the code units of a text gives the text.** -/
theorem ofUnits_flatMap (cs : List Char) : ofUnits (cs.flatMap units) = cs := by
  induction cs with
  | nil => rfl
  | cons c cs ih => rw [List.flatMap_cons, ofUnits_units, ih]

/-! ## Escapes -/

/-- The code unit a letter stands for after a backslash. -/
def letterUnit : Char → Nat
  | 'b' => 8
  | 't' => 9
  | 'n' => 10
  | 'f' => 12
  | 'r' => 13
  | e => e.toNat

/-- The code units between the quotes of a string. -/
def unescaped : List Char → List Nat
  | [] => []
  | '\\' :: 'u' :: a :: b :: c :: d :: rest =>
    (digitsValue? hexValue? 16 [a, b, c, d]).getD 0 :: unescaped rest
  | '\\' :: e :: rest => letterUnit e :: unescaped rest
  | c :: rest => c.toNat :: unescaped rest

/-- What a character looks like between the quotes. -/
theorem stringChar_cases (c : Char) :
    (stringChar c = [c] ∧ c ≠ '"' ∧ c ≠ '\\' ∧ units c = [c.toNat]) ∨
    (∃ e, stringChar c = ['\\', e] ∧ e ≠ 'u' ∧ units c = [letterUnit e]) ∨
    stringChar c = (units c).flatMap unitEscape := by
  have hback : Char.ofNat c.toNat = c := Char.ofNat_toNat c
  unfold stringChar
  split
  -- the last case has no letter; there the quote and the backslash have been excluded
  case h_8 h₁ h₂ h₃ h₄ h₅ h₆ h₇ =>
    split_ifs with hplain hhigh
    · refine .inl ⟨rfl, ?_, ?_, ?_⟩
      · rintro rfl
        exact h₆ rfl
      · rintro rfl
        exact h₇ rfl
      · rw [units, if_neg (by omega)]
    · refine .inr (.inr ?_)
      simp [units, hhigh]
    · refine .inr (.inr ?_)
      simp [units, hhigh]
  all_goals
    rename_i hcode
    have hunit : units c = [c.toNat] := by rw [units, if_neg (by omega)]
    refine .inr (.inl ⟨_, rfl, by decide, ?_⟩)
    rw [hunit, hcode]
    rfl

theorem unescaped_unit {u : Nat} (h : u < 16 ^ 4) (rest : List Char) :
    unescaped (unitEscape u ++ rest) = u :: unescaped rest := by
  have hvalue := Text.digitsValue?_hexDigits h
  have hlength := Text.length_hexDigits 4 u
  unfold unitEscape
  match hexDigits 4 u, hlength, hvalue with
  | [a, b, c, d], _, hvalue => simp [unescaped, hvalue]

theorem unescaped_units {us : List Nat} (h : ∀ u ∈ us, u < 16 ^ 4) (rest : List Char) :
    unescaped (us.flatMap unitEscape ++ rest) = us ++ unescaped rest := by
  induction us with
  | nil => rfl
  | cons u us ih =>
    rw [List.flatMap_cons, List.append_assoc, unescaped_unit (h u (by simp)),
      ih fun v hv => h v (by simp [hv])]
    rfl

theorem unescaped_letter {e : Char} (he : e ≠ 'u') (rest : List Char) :
    unescaped ('\\' :: e :: rest) = letterUnit e :: unescaped rest := by
  rw [unescaped]
  intro a b c d tail heq _
  exact he heq

theorem unescaped_plain {c : Char} (hc : c ≠ '\\') (rest : List Char) :
    unescaped (c :: rest) = c.toNat :: unescaped rest := by
  rw [unescaped]
  · intro a b c d tail heq
    cases heq
    exact absurd rfl hc
  · intro e tail heq
    cases heq
    exact absurd rfl hc

theorem unescaped_stringChar (c : Char) (rest : List Char) :
    unescaped (stringChar c ++ rest) = units c ++ unescaped rest := by
  obtain ⟨htext, -, hslash, hunits⟩ | ⟨e, htext, he, hunits⟩ | htext := stringChar_cases c
  · rw [htext, hunits]
    exact unescaped_plain hslash rest
  · rw [htext, hunits]
    exact unescaped_letter he rest
  · rw [htext]
    exact unescaped_units (units_lt c) rest

/-- Undoing the escapes of a string gives its code units. -/
theorem unescaped_flatMap (cs : List Char) :
    unescaped (cs.flatMap stringChar) = cs.flatMap units := by
  induction cs with
  | nil => rfl
  | cons c cs ih => rw [List.flatMap_cons, unescaped_stringChar, ih, List.flatMap_cons]

/-- **What stands between the quotes of a string literal is read back.** -/
theorem ofUnits_unescaped (cs : List Char) : ofUnits (unescaped (cs.flatMap stringChar)) = cs := by
  rw [unescaped_flatMap, ofUnits_flatMap]

end FactFold.Literal
