import FactFold.Machine.Formula
import Mathlib

/-!
# Texts and their bytes

Writing a text as bytes and reading the bytes again gives the text back. The character read at the
front of a byte string is the one whose bytes stand there (`leading?_encode`), so the pieces of a
written text are exactly its characters (`pieces_ofText`), and the lossy reading, the strict reading
and the reading of a literal all agree on it.
-/

namespace FactFold.Text.Bytes

/-! ## One character -/

/-- The first of two bytes of a character. -/
theorem leading?_two {a b : UInt8} (rest : Bytes) (ha : 0xc2 ≤ a.toNat ∧ a.toNat ≤ 0xdf)
    (hb : 0x80 ≤ b.toNat ∧ b.toNat ≤ 0xbf) :
    leading? (a :: b :: rest) = some (Char.ofNat (a.toNat % 32 * 64 + payload b), 2) := by
  have hlow : ¬ a < 0x80 := by simp [UInt8.lt_iff_toNat_lt]; omega
  have hrange : 0xc2 ≤ a ∧ a ≤ 0xdf := by simp [UInt8.le_iff_toNat_le]; omega
  have htail : isTail b := by simp [isTail, UInt8.le_iff_toNat_le]; omega
  simp [leading?, hlow, hrange, htail]

/-- The second byte fits its first one by the bounds the first one sets. -/
theorem secondFits_iff {a b : UInt8} : secondFits a b ↔
    (if a.toNat = 0xe0 then 0xa0 ≤ b.toNat ∧ b.toNat ≤ 0xbf
     else if a.toNat = 0xed then 0x80 ≤ b.toNat ∧ b.toNat ≤ 0x9f
     else if a.toNat = 0xf0 then 0x90 ≤ b.toNat ∧ b.toNat ≤ 0xbf
     else if a.toNat = 0xf4 then 0x80 ≤ b.toNat ∧ b.toNat ≤ 0x8f
     else 0x80 ≤ b.toNat ∧ b.toNat ≤ 0xbf) := by
  have heq : ∀ k : UInt8, (a == k) = decide (a.toNat = k.toNat) := by
    intro k
    simp [beq_eq_decide, UInt8.toNat_inj]
  simp only [secondFits, isTail, heq, decide_eq_true_eq]
  split_ifs <;> simp_all [UInt8.le_iff_toNat_le]

/-- The first of three bytes of a character. -/
theorem leading?_three {a b c : UInt8} (rest : Bytes) (ha : 0xe0 ≤ a.toNat ∧ a.toNat ≤ 0xef)
    (hb : secondFits a b) (hc : 0x80 ≤ c.toNat ∧ c.toNat ≤ 0xbf) :
    leading? (a :: b :: c :: rest) =
      some (Char.ofNat ((a.toNat % 16 * 64 + payload b) * 64 + payload c), 3) := by
  have hlow : ¬ a < 0x80 := by simp [UInt8.lt_iff_toNat_lt]; omega
  have hmid : ¬ (0xc2 ≤ a ∧ a ≤ 0xdf) := by simp [UInt8.le_iff_toNat_le]; omega
  have hrange : 0xe0 ≤ a ∧ a ≤ 0xef := by simp [UInt8.le_iff_toNat_le]; omega
  have htail : isTail c := by simp [isTail, UInt8.le_iff_toNat_le]; omega
  simp [leading?, hlow, hmid, hrange, hb, htail]

/-- The first of four bytes of a character. -/
theorem leading?_four {a b c d : UInt8} (rest : Bytes) (ha : 0xf0 ≤ a.toNat ∧ a.toNat ≤ 0xf4)
    (hb : secondFits a b) (hc : 0x80 ≤ c.toNat ∧ c.toNat ≤ 0xbf)
    (hd : 0x80 ≤ d.toNat ∧ d.toNat ≤ 0xbf) :
    leading? (a :: b :: c :: d :: rest) =
      some (Char.ofNat (((a.toNat % 8 * 64 + payload b) * 64 + payload c) * 64 + payload d), 4) := by
  have hlow : ¬ a < 0x80 := by simp [UInt8.lt_iff_toNat_lt]; omega
  have hmid : ¬ (0xc2 ≤ a ∧ a ≤ 0xdf) := by simp [UInt8.le_iff_toNat_le]; omega
  have hhigh : ¬ (0xe0 ≤ a ∧ a ≤ 0xef) := by simp [UInt8.le_iff_toNat_le]; omega
  have hrange : 0xf0 ≤ a ∧ a ≤ 0xf4 := by simp [UInt8.le_iff_toNat_le]; omega
  have htail : isTail c ∧ isTail d := by simp [isTail, UInt8.le_iff_toNat_le]; omega
  simp [leading?, hlow, hmid, hhigh, hrange, hb, htail]

/-- The character read at the front is the one whose bytes stand there. -/
theorem leading?_encode (c : Char) (rest : Bytes) :
    leading? (String.utf8EncodeChar c ++ rest) = some (c, (String.utf8EncodeChar c).length) := by
  have hvalid : c.val.toNat < 0xd800 ∨ 0xdfff < c.val.toNat ∧ c.val.toNat < 0x110000 := c.valid
  have hback : Char.ofNat c.val.toNat = c := Char.ofNat_toNat c
  unfold String.utf8EncodeChar
  generalize c.val.toNat = v at hvalid hback
  have toNat_byte : ∀ n, n < 256 → (UInt8.ofNat n).toNat = n := by
    intro n hn
    simpa using hn
  have htail := toNat_byte (v % 64 + 128) (by omega)
  have hmiddle := toNat_byte (v / 64 % 64 + 128) (by omega)
  dsimp only
  split_ifs with h1 h2 h3
  · have hlow : UInt8.ofNat v < 0x80 := by
      rw [UInt8.lt_iff_toNat_lt, toNat_byte v (by omega)]; simp; omega
    have hmod : v % 256 = v := by omega
    simp [leading?, hlow, hmod, hback]
  · have hfirst := toNat_byte (v / 64 % 32 + 192) (by omega)
    rw [List.cons_append, List.cons_append, leading?_two _ (by omega) (by omega)]
    rw [show _ % 32 * 64 + payload _ = v from by simp only [payload]; omega, hback]
    rfl
  · have hfirst := toNat_byte (v / 4096 % 16 + 224) (by omega)
    have hsecond : secondFits (UInt8.ofNat (v / 4096 % 16 + 224)) (UInt8.ofNat (v / 64 % 64 + 128)) := by
      rw [secondFits_iff, hfirst, hmiddle]; split_ifs <;> omega
    simp only [List.cons_append]
    rw [leading?_three _ (by omega) hsecond (by omega)]
    rw [show (_ % 16 * 64 + payload _) * 64 + payload _ = v from by simp only [payload]; omega, hback]
    rfl
  · have hfirst := toNat_byte (v / 262144 % 8 + 240) (by omega)
    have hsecond := toNat_byte (v / 4096 % 64 + 128) (by omega)
    have hfits : secondFits (UInt8.ofNat (v / 262144 % 8 + 240)) (UInt8.ofNat (v / 4096 % 64 + 128)) := by
      rw [secondFits_iff, hfirst, hsecond]; split_ifs <;> omega
    simp only [List.cons_append]
    rw [leading?_four _ (by omega) hfits (by omega) (by omega)]
    rw [show ((_ % 8 * 64 + payload _) * 64 + payload _) * 64 + payload _ = v from by
      simp only [payload]; omega, hback]
    rfl

/-! ## Whole texts -/

/-- Bytes that belong to the character just read are passed over. -/
theorem piecesFrom_append (front rest : Bytes) :
    piecesFrom front.length (front ++ rest) = piecesFrom 0 rest := by
  induction front with
  | nil => rfl
  | cons a front ih => simpa [piecesFrom] using ih

/-- A character's bytes are read as that character, whatever follows them. -/
theorem pieces_encode (c : Char) (rest : Bytes) :
    pieces (String.utf8EncodeChar c ++ rest) = .char c :: pieces rest := by
  have hlead := leading?_encode c rest
  cases hbytes : String.utf8EncodeChar c with
  | nil =>
    have hlength : (String.utf8EncodeChar c).length = 0 := by rw [hbytes]; rfl
    rw [String.length_utf8EncodeChar] at hlength
    exact absurd hlength c.utf8Size_pos.ne'
  | cons a front =>
    rw [hbytes] at hlead
    simp only [List.cons_append] at hlead ⊢
    simp only [pieces, piecesFrom, hlead, List.length_cons, Nat.add_sub_cancel]
    rw [piecesFrom_append]

/-- The bytes of a text are read as its characters, whatever follows them. -/
theorem pieces_append (s : String) (rest : Bytes) :
    pieces (ofText s ++ rest) = s.toList.map .char ++ pieces rest := by
  unfold ofText
  induction s.toList with
  | nil => rfl
  | cons c cs ih =>
    rw [List.flatMap_cons, List.append_assoc, pieces_encode, ih, List.map_cons, List.cons_append]

/-- The pieces of a written text are its characters. -/
theorem pieces_ofText (s : String) : pieces (ofText s) = s.toList.map .char := by
  simpa [pieces, piecesFrom] using pieces_append s []

/-- A written text is read back before whatever follows it. -/
theorem lossy_append (s : String) (rest : Bytes) : (ofText s ++ rest).lossy = s ++ rest.lossy := by
  have hshown : (Piece.shown ∘ Piece.char) = id := rfl
  rw [lossy, pieces_append, List.map_append, List.map_map, hshown, List.map_id, String.ofList_append,
    String.ofList_toList, lossy]

/-- **A written text is read back.** -/
@[simp] theorem lossy_ofText (s : String) : (ofText s).lossy = s := by
  have hshown : (Piece.shown ∘ Piece.char) = id := rfl
  rw [lossy, pieces_ofText, List.map_map, hshown, List.map_id, String.ofList_toList]

/-- The bytes of a text are those its literal denotes. -/
@[simp] theorem literalText_ofText (s : String) : Machine.literalText (ofText s) = ofText s := by
  rw [Machine.literalText, pieces_ofText, List.flatMap_map, ofText]

end FactFold.Text.Bytes
