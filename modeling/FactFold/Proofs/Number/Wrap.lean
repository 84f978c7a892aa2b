import FactFold.Datum.Conversion
import Mathlib

/-!
# Wrapping at 64 bits

Sums, differences and products may wrap at any of their parts: only the last wrapping shows. The
integer a value stands for has 64 bits already.
-/

namespace FactFold.Number

@[simp] theorem wrap64_wrap64 (a : Int) : wrap64 (wrap64 a) = wrap64 a := by
  simp [wrap64]

@[simp] theorem wrap64_add_left (a b : Int) : wrap64 (wrap64 a + b) = wrap64 (a + b) := by
  simp [wrap64]

@[simp] theorem wrap64_add_right (a b : Int) : wrap64 (a + wrap64 b) = wrap64 (a + b) := by
  simp [wrap64]

@[simp] theorem wrap64_sub_left (a b : Int) : wrap64 (wrap64 a - b) = wrap64 (a - b) := by
  simp [wrap64]

@[simp] theorem wrap64_sub_right (a b : Int) : wrap64 (a - wrap64 b) = wrap64 (a - b) := by
  simp [wrap64]

@[simp] theorem wrap64_mul_left (a b : Int) : wrap64 (wrap64 a * b) = wrap64 (a * b) := by
  simp [wrap64]

@[simp] theorem wrap64_mul_right (a b : Int) : wrap64 (a * wrap64 b) = wrap64 (a * b) := by
  simp [wrap64]

@[simp] theorem wrap64_neg (a : Int) : wrap64 (-wrap64 a) = wrap64 (-a) := by
  unfold wrap64
  exact Int.bmod_neg_bmod

@[simp] theorem wrap64_zero : wrap64 0 = 0 := rfl

/-- What agrees modulo the word size still does after adding the same. -/
theorem wrap64_add_congr {a b : Int} (c : Int) (h : wrap64 a = wrap64 b) :
    wrap64 (c + a) = wrap64 (c + b) := by
  rw [← wrap64_add_right, h, wrap64_add_right]

/-! ## Integers of 64 bits -/

theorem wrap64_of_range {n : Int} (hl : -(2 ^ 63) ≤ n) (hu : n < 2 ^ 63) : wrap64 n = n := by
  unfold wrap64
  rw [Int.bmod_def]
  omega

theorem wrap64_range (n : Int) : -(2 ^ 63) ≤ wrap64 n ∧ wrap64 n < 2 ^ 63 := by
  unfold wrap64
  rw [Int.bmod_def]
  omega

theorem wrap64_truncate (x : Float) : wrap64 (truncate x) = truncate x := by
  unfold truncate
  dsimp only
  split
  · split_ifs with h h h
    · exact wrap64_of_range h.1 h.2
    · rfl
    · exact wrap64_of_range h.1 h.2
    · rfl
  · rfl
  · rfl

theorem wrap64_readInt {cs : List Char} {n : Int} (h : readInt? cs = some n) : wrap64 n = n := by
  unfold readInt? at h
  dsimp only at h
  split at h
  · cases h
  · obtain ⟨m, -, h⟩ := Option.bind_eq_some_iff.1 h
    split at h
    · cases h
    · obtain ⟨hfits, h⟩ := Option.ite_none_right_eq_some.1 h
      obtain rfl := Option.some.inj h
      obtain ⟨hl, hu⟩ := Bool.and_eq_true_iff.1 hfits
      exact wrap64_of_range (of_decide_eq_true hl) (of_decide_eq_true hu)

/-- The integer a value stands for is one of 64 bits. -/
@[simp] theorem wrap64_longOrZero (v : Operand) : wrap64 v.longOrZero = v.longOrZero := by
  unfold Operand.longOrZero Operand.toLong Operand.toIntAs
  split
  case h_1 => rfl
  case h_2 => exact wrap64_wrap64 _
  case h_3 => exact wrap64_truncate _
  case h_4 b => cases b <;> rfl
  case h_5 =>
    split
    · exact wrap64_readInt ‹_›
    · rfl
  all_goals rfl

theorem range_of_toLong {v : Operand} {n : Int} (h : v.toLong = .ok n) :
    -(2 ^ 63) ≤ n ∧ n < 2 ^ 63 := by
  have hn : v.longOrZero = n := by rw [Operand.longOrZero, h]; rfl
  rw [← hn, ← wrap64_longOrZero]
  exact wrap64_range _

end FactFold.Number
