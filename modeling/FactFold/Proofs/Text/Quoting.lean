import FactFold.Proofs.Text.Utf8

/-!
# Quoted strings are read back

A byte string is quoted piece by piece. `quotePiece_cases` says what a piece can look like between the
quotes: one plain character, or a backslash with an escape that stands for the bytes of the piece.
From it follow that no quote or backslash stands there unescaped, and that reading what stands between
the quotes gives the bytes back (`unquoteBody_quote`).

What else may stand between quotes is told by `Denotes`, one rule for plain characters and one for
escapes, and `unquoteBody_iff` says that exactly this is read. No escape is said to be of one sort or
another there: `Escapes` keeps that it is read whatever follows it, and that a quote inside it is all of
it.
-/

namespace FactFold.Text

namespace Bytes

/-! ## The bytes of the pieces -/

/-- The bytes a piece was read from. -/
def Piece.bytes : Piece → Bytes
  | .char c => String.utf8EncodeChar c
  | .stray b => [b]

theorem val_ofNat {n : Nat} (h : n < 0xd800 ∨ 0xdfff < n ∧ n < 0x110000) :
    (Char.ofNat n).val.toNat = n := by
  have hvalid : n.isValidChar := h
  simp [Char.ofNat, hvalid, Char.ofNatAux]

theorem ofNat_eq {n : Nat} {b : UInt8} (h : n = b.toNat) : UInt8.ofNat n = b := by
  subst h
  simp

theorem encode_one {a : UInt8} (ha : a.toNat < 0x80) :
    String.utf8EncodeChar (Char.ofNat a.toNat) = [a] := by
  have hv := val_ofNat (n := a.toNat) (by omega)
  unfold String.utf8EncodeChar
  dsimp only
  rw [hv, if_pos (by omega), ofNat_eq rfl]

theorem encode_two {a b : UInt8} (ha : 0xc2 ≤ a.toNat ∧ a.toNat ≤ 0xdf)
    (hb : 0x80 ≤ b.toNat ∧ b.toNat ≤ 0xbf) :
    String.utf8EncodeChar (Char.ofNat (a.toNat % 32 * 64 + payload b)) = [a, b] := by
  have hb' : payload b = b.toNat - 128 := by simp only [payload]; omega
  have hv := val_ofNat (n := a.toNat % 32 * 64 + payload b) (by omega)
  unfold String.utf8EncodeChar
  dsimp only
  rw [hv, if_neg (by omega), if_pos (by omega), ofNat_eq (b := a) (by omega),
    ofNat_eq (b := b) (by omega)]

theorem encode_three {a b c : UInt8} (ha : 0xe0 ≤ a.toNat ∧ a.toNat ≤ 0xef)
    (hb : secondFits a b) (hc : 0x80 ≤ c.toNat ∧ c.toNat ≤ 0xbf) :
    String.utf8EncodeChar (Char.ofNat ((a.toNat % 16 * 64 + payload b) * 64 + payload c)) =
      [a, b, c] := by
  rw [secondFits_iff] at hb
  have hb' : 0x80 ≤ b.toNat ∧ b.toNat ≤ 0xbf := by split_ifs at hb <;> omega
  have hpb : payload b = b.toNat - 128 := by simp only [payload]; omega
  have hpc : payload c = c.toNat - 128 := by simp only [payload]; omega
  -- the second byte keeps the value out of the shorter forms and of the surrogates
  have hlow : 0x800 ≤ (a.toNat % 16 * 64 + payload b) * 64 + payload c := by
    split_ifs at hb <;> omega
  have hv := val_ofNat (n := (a.toNat % 16 * 64 + payload b) * 64 + payload c)
    (by split_ifs at hb <;> omega)
  unfold String.utf8EncodeChar
  dsimp only
  rw [hv, if_neg (by omega), if_neg (by omega), if_pos (by omega), ofNat_eq (b := a) (by omega),
    ofNat_eq (b := b) (by omega), ofNat_eq (b := c) (by omega)]

theorem encode_four {a b c d : UInt8} (ha : 0xf0 ≤ a.toNat ∧ a.toNat ≤ 0xf4)
    (hb : secondFits a b) (hc : 0x80 ≤ c.toNat ∧ c.toNat ≤ 0xbf)
    (hd : 0x80 ≤ d.toNat ∧ d.toNat ≤ 0xbf) :
    String.utf8EncodeChar
      (Char.ofNat (((a.toNat % 8 * 64 + payload b) * 64 + payload c) * 64 + payload d)) =
        [a, b, c, d] := by
  rw [secondFits_iff] at hb
  have hb' : 0x80 ≤ b.toNat ∧ b.toNat ≤ 0xbf := by split_ifs at hb <;> omega
  have hpb : payload b = b.toNat - 128 := by simp only [payload]; omega
  have hpc : payload c = c.toNat - 128 := by simp only [payload]; omega
  have hpd : payload d = d.toNat - 128 := by simp only [payload]; omega
  have hlow : 0x10000 ≤ ((a.toNat % 8 * 64 + payload b) * 64 + payload c) * 64 + payload d := by
    split_ifs at hb <;> omega
  have hv := val_ofNat (n := ((a.toNat % 8 * 64 + payload b) * 64 + payload c) * 64 + payload d)
    (by split_ifs at hb <;> omega)
  unfold String.utf8EncodeChar
  dsimp only
  rw [hv, if_neg (by omega), if_neg (by omega), if_neg (by omega), ofNat_eq (b := a) (by omega),
    ofNat_eq (b := b) (by omega), ofNat_eq (b := c) (by omega), ofNat_eq (b := d) (by omega)]

theorem isTail_iff {b : UInt8} : isTail b = true ↔ 0x80 ≤ b.toNat ∧ b.toNat ≤ 0xbf := by
  simp [isTail, UInt8.le_iff_toNat_le]

/-- The bytes of the character read at the front are those that stand there. -/
theorem encode_leading? {bs : Bytes} {c : Char} {n : Nat} (h : leading? bs = some (c, n)) :
    String.utf8EncodeChar c ++ bs.drop n = bs ∧ 0 < n := by
  unfold leading? at h
  split at h
  · cases h
  · rename_i a rest
    split at h
    · rename_i ha
      cases h
      rw [encode_one (by simpa [UInt8.lt_iff_toNat_lt] using ha)]
      exact ⟨rfl, by omega⟩
    split at h
    · rename_i ha
      split at h
      · split at h
        · rename_i hb
          cases h
          rw [encode_two (by simpa [UInt8.le_iff_toNat_le] using ha) (isTail_iff.1 hb)]
          exact ⟨rfl, by omega⟩
        · cases h
      · cases h
    split at h
    · rename_i ha
      split at h
      · split at h
        · rename_i hbc
          simp only [Bool.and_eq_true] at hbc
          cases h
          rw [encode_three (by simpa [UInt8.le_iff_toNat_le] using ha) hbc.1 (isTail_iff.1 hbc.2)]
          exact ⟨rfl, by omega⟩
        · cases h
      · cases h
    split at h
    · rename_i ha
      split at h
      · split at h
        · rename_i hbcd
          simp only [Bool.and_eq_true] at hbcd
          cases h
          rw [encode_four (by simpa [UInt8.le_iff_toNat_le] using ha) hbcd.1.1
            (isTail_iff.1 hbcd.1.2) (isTail_iff.1 hbcd.2)]
          exact ⟨rfl, by omega⟩
        · cases h
      · cases h
    · cases h

theorem bytes_piecesFrom (skip : Nat) (bs : Bytes) :
    (piecesFrom skip bs).flatMap Piece.bytes = bs.drop skip := by
  fun_induction piecesFrom skip bs with
  | case1 => simp
  | case2 skip a rest ih => simpa using ih
  | case3 a rest c n hlead ih =>
    obtain ⟨hbytes, hpos⟩ := encode_leading? hlead
    obtain ⟨k, rfl⟩ : ∃ k, n = k + 1 := ⟨n - 1, by omega⟩
    rw [List.flatMap_cons, ih, Nat.add_sub_cancel]
    simpa [Piece.bytes] using hbytes
  | case4 a rest _ ih =>
    rw [List.flatMap_cons, ih]
    rfl

/-- A byte string is made of the bytes of its pieces. -/
theorem bytes_pieces (bs : Bytes) : bs.pieces.flatMap Piece.bytes = bs := bytes_piecesFrom 0 bs

end Bytes

/-! ## Hexadecimal digits -/

theorem hexValue?_hexDigit {n : Nat} (h : n < 16) : hexValue? (hexDigit n) = some n := by
  have hall : ∀ k : Fin 16, hexValue? (hexDigit k) = some k.val := by decide
  exact hall ⟨n, h⟩

theorem hexDigit_ne {n : Nat} (h : n < 16) : hexDigit n ≠ '"' ∧ hexDigit n ≠ '\\' := by
  have hall : ∀ k : Fin 16, hexDigit k ≠ '"' ∧ hexDigit k ≠ '\\' := by decide
  exact hall ⟨n, h⟩

theorem length_hexDigits (width n : Nat) : (hexDigits width n).length = width := by
  induction width generalizing n with
  | zero => rfl
  | succ width ih => simp [hexDigits, ih]

theorem hexDigits_ne {width n : Nat} : ∀ c ∈ hexDigits width n, c ≠ '"' ∧ c ≠ '\\' := by
  induction width generalizing n with
  | zero => simp [hexDigits]
  | succ width ih =>
    intro c hc
    rcases List.mem_append.1 hc with hc | hc
    · exact ih c hc
    · obtain rfl := List.mem_singleton.1 hc
      exact hexDigit_ne (Nat.mod_lt _ (by omega))

/-- Written in enough hexadecimal digits, a number is read back. -/
theorem digitsValue?_hexDigits {width n : Nat} (h : n < 16 ^ width) :
    digitsValue? hexValue? 16 (hexDigits width n) = some n := by
  induction width generalizing n with
  | zero =>
    obtain rfl : n = 0 := by simpa using h
    rfl
  | succ width ih =>
    have hhigh : n / 16 < 16 ^ width := by
      rw [pow_succ] at h
      exact Nat.div_lt_of_lt_mul (by omega)
    have hrec := ih hhigh
    rw [digitsValue?] at hrec ⊢
    rw [hexDigits, List.foldlM_append, hrec]
    simp [hexValue?_hexDigit (Nat.mod_lt n (by omega : 0 < 16))]
    omega

/-! ## One piece between quotes -/

theorem escape?_byte {n : Nat} (h : n < 256) (tail : List Char) :
    escape? ('x' :: (hexDigits 2 n ++ tail)) = some ([UInt8.ofNat n], 3) := by
  have hvalue := @digitsValue?_hexDigits 2 n h
  have hlength := length_hexDigits 2 n
  match hexDigits 2 n, hlength, hvalue with
  | [a, b], _, hvalue => simp [escape?, hvalue]

theorem escape?_short {n : Nat} (h : n < 0x10000) {bs : Bytes} (hbs : encodePoint? n = some bs)
    (tail : List Char) : escape? ('u' :: (hexDigits 4 n ++ tail)) = some (bs, 5) := by
  have hvalue := @digitsValue?_hexDigits 4 n h
  have hlength := length_hexDigits 4 n
  match hexDigits 4 n, hlength, hvalue with
  | [a, b, c, d], _, hvalue => simp [escape?, hvalue, hbs]

theorem escape?_long {n : Nat} (h : n < 0x100000000) {bs : Bytes} (hbs : encodePoint? n = some bs)
    (tail : List Char) : escape? ('U' :: (hexDigits 8 n ++ tail)) = some (bs, 9) := by
  have hvalue := @digitsValue?_hexDigits 8 n h
  have hlength := length_hexDigits 8 n
  match hexDigits 8 n, hlength, hvalue with
  | [a, b, c, d, e, f, g, i], _, hvalue => simp [escape?, hvalue, hbs]

theorem encode_ascii {c : Char} (h : c.toNat < 0x80) :
    String.utf8EncodeChar c = [UInt8.ofNat c.toNat] := by
  have hle : c.val.toNat ≤ 0x7f := Nat.le_of_lt_succ h
  unfold String.utf8EncodeChar
  dsimp only
  rw [if_pos hle]
  rfl

theorem encodePoint?_toNat (c : Char) : encodePoint? c.toNat = some (String.utf8EncodeChar c) := by
  have hvalid : c.toNat.isValidChar := c.valid
  rw [encodePoint?, if_pos hvalid, Char.ofNat_toNat]

theorem isPrintable_newline : isPrintable '\n' = false := by decide +kernel

/-- What stands between the quotes for a piece: a plain character, or an escape for its bytes. -/
theorem quotePiece_cases (p : Bytes.Piece) :
    (∃ c, p = .char c ∧ quotePiece false p = [c] ∧ c ≠ '"' ∧ c ≠ '\\' ∧ c ≠ '\n') ∨
    ∃ d ds, quotePiece false p = '\\' :: d :: ds ∧ (∀ e ∈ ds, e ≠ '"' ∧ e ≠ '\\') ∧
      ∀ tail, escape? (d :: (ds ++ tail)) = some (p.bytes, ds.length + 1) := by
  cases p with
  | stray b =>
    refine .inr ⟨'x', hexDigits 2 b.toNat, rfl, hexDigits_ne, fun tail => ?_⟩
    rw [escape?_byte b.toNat_lt, length_hexDigits]
    simp [Bytes.Piece.bytes]
  | char c =>
    show (∃ d, _ = _ ∧ escapeChar '"' false c = [d] ∧ _) ∨
      ∃ d ds, escapeChar '"' false c = '\\' :: d :: ds ∧ _
    have hback : Char.ofNat c.toNat = c := Char.ofNat_toNat c
    unfold escapeChar
    split_ifs with hmark hplain
    · simp only [Bool.or_eq_true, decide_eq_true_eq] at hmark
      refine .inr ⟨c, [], rfl, by simp, fun tail => ?_⟩
      rcases hmark with rfl | rfl
      · simp [escape?, escapeLetter?, Bytes.Piece.bytes, String.utf8EncodeChar]
      · simp [escape?, escapeLetter?, Bytes.Piece.bytes, String.utf8EncodeChar]
    · simp only [Bool.or_eq_true, decide_eq_true_eq, not_or] at hmark
      refine .inl ⟨c, rfl, rfl, hmark.1, hmark.2, ?_⟩
      rintro rfl
      simp [isPrintable_newline] at hplain
    · refine .inr ?_
      split
      case h_8 n _ _ _ _ _ _ _ =>
        have hpoint := encodePoint?_toNat c
        split_ifs with hcontrol hshort
        · refine ⟨'x', hexDigits 2 c.toNat, rfl, hexDigits_ne, fun tail => ?_⟩
          have hlow : c.toNat < 0x80 := by simp at hcontrol; omega
          rw [escape?_byte (by omega), length_hexDigits, Bytes.Piece.bytes, encode_ascii hlow]
        · refine ⟨'u', hexDigits 4 c.toNat, rfl, hexDigits_ne, fun tail => ?_⟩
          rw [escape?_short hshort hpoint, length_hexDigits]
          rfl
        · refine ⟨'U', hexDigits 8 c.toNat, rfl, hexDigits_ne, fun tail => ?_⟩
          have hvalid : c.toNat < 0x110000 := by
            have : c.toNat < 0xd800 ∨ 0xdfff < c.toNat ∧ c.toNat < 0x110000 := c.valid
            omega
          rw [escape?_long (by omega) hpoint, length_hexDigits]
          rfl
      all_goals
        rename_i hcode
        rw [hcode] at hback
        subst hback
        refine ⟨_, [], rfl, by simp, fun tail => ?_⟩
        simp [escape?, escapeLetter?, Bytes.Piece.bytes, String.utf8EncodeChar]

/-! ## Escapes -/

theorem notMem_of_digitsValue? {value? : Char → Option Nat} {base n : Nat} {ds : List Char}
    (h : digitsValue? value? base ds = some n) {d : Char} (hd : value? d = none) : d ∉ ds := by
  unfold digitsValue? at h
  generalize 0 = start at h
  induction ds generalizing start with
  | nil => simp
  | cons e ds ih =>
    rw [List.foldlM_cons] at h
    obtain ⟨next, hnext, hrest⟩ := Option.bind_eq_some_iff.1 h
    rintro (_ | ⟨_, hmem⟩)
    · simp [hd] at hnext
    · exact ih next hrest hmem

/-- The characters behind a backslash are an escape for these bytes, whatever follows them. A quote is
no part of an escape, unless it is all of it. -/
structure Escapes (ds : List Char) (bs : Bytes) : Prop where
  reads : ∀ tail, escape? (ds ++ tail) = some (bs, ds.length)
  quote : ds = ['"'] ∨ '"' ∉ ds

/-- An escape that no mark announces is one letter, or three octal digits. -/
theorem escape?_of_ne {c : Char} (hx : c ≠ 'x') (hu : c ≠ 'u') (hU : c ≠ 'U') (rest : List Char) :
    escape? (c :: rest) = match escapeLetter? c with
      | some b => some ([b], 1)
      | none =>
        match rest with
        | b :: d :: _ => do
          let n ← digitsValue? octalValue? 8 [c, b, d]
          if n < 256 then pure ([UInt8.ofNat n], 3) else none
        | _ => none := by
  conv => lhs; unfold escape?
  split
  case h_1 heq => exact absurd (List.cons.inj heq).1 hx
  case h_2 heq => exact absurd (List.cons.inj heq).1 hu
  case h_3 heq => exact absurd (List.cons.inj heq).1 hU
  case h_4 heq =>
    obtain ⟨rfl, rfl⟩ := List.cons.inj heq
    rfl
  case h_5 heq => cases heq

theorem Escapes.letter {c : Char} {b : UInt8} (h : escapeLetter? c = some b) :
    Escapes [c] [b] := by
  refine ⟨fun tail => ?_, ?_⟩
  · -- none of the letters is one that digits follow
    have hmark : ∀ m, escapeLetter? m = none → c ≠ m := by
      rintro m hm rfl
      rw [hm] at h
      cases h
    rw [List.singleton_append, escape?_of_ne (hmark 'x' rfl) (hmark 'u' rfl) (hmark 'U' rfl), h]
    rfl
  · by_cases hc : c = '"'
    · exact .inl (by rw [hc])
    · exact .inr (by simpa using Ne.symm hc)

theorem Escapes.octal {c b d : Char} {n : Nat} (hletter : escapeLetter? c = none)
    (h : digitsValue? octalValue? 8 [c, b, d] = some n) (hn : n < 256) :
    Escapes [c, b, d] [UInt8.ofNat n] := by
  refine ⟨fun tail => ?_, .inr (notMem_of_digitsValue? h rfl)⟩
  have hmark : ∀ m, octalValue? m = none → c ≠ m := by
    rintro m hm rfl
    exact notMem_of_digitsValue? h hm (by simp)
  rw [List.cons_append, List.cons_append, List.singleton_append,
    escape?_of_ne (hmark 'x' rfl) (hmark 'u' rfl) (hmark 'U' rfl)]
  simp [hletter, h, hn]

/-- Every escape that is read is one. -/
theorem escapes_of_escape? {cs : List Char} {bs : Bytes} {n : Nat} (h : escape? cs = some (bs, n)) :
    ∃ ds rest, cs = ds ++ rest ∧ ds.length = n ∧ Escapes ds bs := by
  have hhex {ds : List Char} {k : Nat} (hk : digitsValue? hexValue? 16 ds = some k) : '"' ∉ ds :=
    notMem_of_digitsValue? hk rfl
  unfold escape? at h
  split at h
  case h_1 a b rest =>
    obtain ⟨k, hk, h⟩ := Option.bind_eq_some_iff.1 h
    cases h
    refine ⟨['x', a, b], rest, rfl, rfl, fun tail => by simp [escape?, hk], .inr ?_⟩
    simpa using hhex hk
  case h_2 a b c d rest =>
    obtain ⟨k, hk, h⟩ := Option.bind_eq_some_iff.1 h
    obtain ⟨encoded, hencoded, h⟩ := Option.bind_eq_some_iff.1 h
    cases h
    refine ⟨['u', a, b, c, d], rest, rfl, rfl, fun tail => by simp [escape?, hk, hencoded], .inr ?_⟩
    simpa using hhex hk
  case h_3 a b c d e f g i rest =>
    obtain ⟨k, hk, h⟩ := Option.bind_eq_some_iff.1 h
    obtain ⟨encoded, hencoded, h⟩ := Option.bind_eq_some_iff.1 h
    cases h
    refine ⟨['U', a, b, c, d, e, f, g, i], rest, rfl, rfl,
      fun tail => by simp [escape?, hk, hencoded], .inr ?_⟩
    simpa using hhex hk
  case h_4 c rest _ _ _ =>
    split at h
    case h_1 b hb =>
      cases h
      exact ⟨[c], rest, rfl, rfl, .letter hb⟩
    case h_2 hletter =>
      split at h
      case h_1 b d rest _ _ _ =>
        obtain ⟨k, hk, h⟩ := Option.bind_eq_some_iff.1 h
        split at h
        case isTrue hlow =>
          cases h
          exact ⟨[c, b, d], rest, rfl, rfl, .octal hletter hk hlow⟩
        case isFalse => cases h
      case h_2 => cases h
  case h_5 => cases h

/-! ## Whole strings -/

/-- A character that stands for itself between quotes. -/
def Plain (c : Char) : Prop := c ≠ '"' ∧ c ≠ '\\' ∧ c ≠ '\n'

/-- The body stands for these bytes: plain characters for their own, and escapes for theirs. -/
inductive Denotes : List Char → Bytes → Prop
  | nil : Denotes [] []
  | plain {c : Char} {cs : List Char} {bs : Bytes} (hc : Plain c) (h : Denotes cs bs) :
      Denotes (c :: cs) (String.utf8EncodeChar c ++ bs)
  | escape {ds cs : List Char} {b bs : Bytes} (hds : Escapes ds b) (h : Denotes cs bs) :
      Denotes ('\\' :: (ds ++ cs)) (b ++ bs)

theorem unquoteFrom_plain {c : Char} (hc : Plain c) (cs : List Char) :
    unquoteFrom 0 (c :: cs) = (unquoteFrom 0 cs).map (String.utf8EncodeChar c ++ ·) := by
  rw [unquoteFrom]
  simp only [hc.1, hc.2.1, hc.2.2, decide_false, Bool.or_self, Bool.false_eq_true, if_false]
  cases unquoteFrom 0 cs <;> rfl

/-- Characters of an escape just read are passed over. -/
theorem unquoteFrom_append (front tail : List Char) :
    unquoteFrom front.length (front ++ tail) = unquoteFrom 0 tail := by
  induction front with
  | nil => rfl
  | cons c front ih => simpa [unquoteFrom] using ih

theorem unquoteFrom_escape {ds tail : List Char} {b : Bytes}
    (h : escape? (ds ++ tail) = some (b, ds.length)) :
    unquoteFrom 0 ('\\' :: (ds ++ tail)) = (unquoteFrom 0 tail).map (b ++ ·) := by
  rw [unquoteFrom]
  simp only [show ('\\' = '"') = False by decide, show ('\\' = '\n') = False by decide,
    decide_false, Bool.or_self, Bool.false_eq_true, if_false, if_true, h, bind, Option.bind,
    unquoteFrom_append]
  cases unquoteFrom 0 tail <;> rfl

theorem denotes_of_unquoteFrom {skip : Nat} {cs : List Char} {bs : Bytes}
    (h : unquoteFrom skip cs = some bs) : Denotes (cs.drop skip) bs := by
  fun_induction unquoteFrom skip cs generalizing bs with
  | case1 =>
    cases h
    exact .nil
  | case2 => cases h
  | case3 skip c rest ih => exact ih h
  | case4 => cases h
  | case5 rest _ ih =>
    obtain ⟨⟨b, n⟩, hescape, h⟩ := Option.bind_eq_some_iff.1 h
    obtain ⟨more, hmore, h⟩ := Option.bind_eq_some_iff.1 h
    cases h
    obtain ⟨ds, tail, rfl, rfl, hds⟩ := escapes_of_escape? hescape
    -- the characters of the escape are those passed over
    have htail : Denotes tail more := by simpa using ih _ hmore
    exact .escape hds htail
  | case6 c rest hmark hslash ih =>
    obtain ⟨more, hmore, h⟩ := Option.bind_eq_some_iff.1 h
    cases h
    have hc : Plain c := by simpa [Plain, hslash, not_or] using hmark
    exact .plain hc (ih hmore)

/-- **What is read of a body is what it stands for.** -/
theorem unquoteBody_iff {cs : List Char} {bs : Bytes} :
    unquoteBody cs = some bs ↔ Denotes cs bs := by
  constructor
  · exact denotes_of_unquoteFrom
  · intro h
    show unquoteFrom 0 cs = some bs
    induction h with
    | nil => rfl
    | plain hc _ ih => rw [unquoteFrom_plain hc, ih, Option.map_some]
    | escape hds _ ih => rw [unquoteFrom_escape (hds.reads _), ih, Option.map_some]

/-- A quoted piece is read as its bytes, whatever follows it. -/
theorem unquoteFrom_quotePiece (p : Bytes.Piece) (tail : List Char) :
    unquoteFrom 0 (quotePiece false p ++ tail) = (unquoteFrom 0 tail).map (p.bytes ++ ·) := by
  obtain ⟨c, rfl, hq, hplain⟩ | ⟨d, ds, hq, -, hescape⟩ := quotePiece_cases p
  · rw [hq]
    exact unquoteFrom_plain hplain tail
  · rw [hq]
    exact unquoteFrom_escape (hescape tail)

/-- **What is quoted is read back.** -/
theorem unquoteBody_quote (bs : Bytes) :
    unquoteBody (bs.pieces.flatMap (quotePiece false)) = some bs := by
  have hpieces : ∀ ps : List Bytes.Piece,
      unquoteFrom 0 (ps.flatMap (quotePiece false)) = some (ps.flatMap Bytes.Piece.bytes) := by
    intro ps
    induction ps with
    | nil => rfl
    | cons p ps ih => rw [List.flatMap_cons, unquoteFrom_quotePiece, ih]; rfl
  rw [unquoteBody, hpieces, Bytes.bytes_pieces]

end FactFold.Text
