import FormatHost.Text.Utf8
import Mathlib.Data.Nat.Notation
import Mathlib.Tactic.SplitIfs

/-! # Encoded texts are read back

The bytes of a character are read as that character, whatever follows them. So decoding takes back
what encoding has done.
-/

namespace FormatHost.Utf8

/-- A continuation byte that is within its bounds adds its six bits. -/
theorem step_continuation {p : Partial} {bits : ℕ} (small : bits < 64)
    (low : p.low.toNat ≤ bits + 128) (high : bits + 128 ≤ p.high.toNat) :
    step (some p) (UInt8.ofNat (bits + 128)) =
      if p.missing = 1 then ([.char (Char.ofNat (p.code * 64 + bits)) (p.taken + 1)], none)
      else ([], some ⟨p.code * 64 + bits, p.taken + 1, p.missing - 1, 0x80, 0xBF⟩) := by
  have value : (UInt8.ofNat (bits + 128)).toNat = bits + 128 := by
    rw [UInt8.toNat_ofNat']
    omega
  have accepted : p.accepts (UInt8.ofNat (bits + 128)) = true := by
    simp only [Partial.accepts, Bool.and_eq_true, decide_eq_true_eq, UInt8.le_iff_toNat_le, value]
    exact ⟨low, high⟩
  have pushed : p.push (UInt8.ofNat (bits + 128)) =
      ⟨p.code * 64 + bits, p.taken + 1, p.missing - 1, 0x80, 0xBF⟩ := by
    have six : (UInt8.ofNat (bits + 128)).toNat - 0x80 = bits := by omega
    unfold Partial.push
    rw [six]
  rw [step, accepted, pushed]
  rfl

/-- The last byte of a character completes it. -/
theorem piecesFrom_last {code taken bits : ℕ} {least greatest : UInt8} (rest : Bytes)
    (small : bits < 64) (low : least.toNat ≤ bits + 128) (high : bits + 128 ≤ greatest.toNat) :
    piecesFrom (some ⟨code, taken, 1, least, greatest⟩) (UInt8.ofNat (bits + 128) :: rest) =
      .char (Char.ofNat (code * 64 + bits)) (taken + 1) :: piecesFrom none rest := by
  rw [piecesFrom, step_continuation small low high, if_pos rfl]
  rfl

/-- A byte in the middle of a character is kept until the character is complete. -/
theorem piecesFrom_middle {code taken missing bits : ℕ} {least greatest : UInt8} (rest : Bytes)
    (small : bits < 64) (low : least.toNat ≤ bits + 128) (high : bits + 128 ≤ greatest.toNat) :
    piecesFrom (some ⟨code, taken, missing + 2, least, greatest⟩)
        (UInt8.ofNat (bits + 128) :: rest) =
      piecesFrom (some ⟨code * 64 + bits, taken + 1, missing + 1, 0x80, 0xBF⟩) rest := by
  rw [piecesFrom, step_continuation small low high, if_neg (by simp)]
  rfl

/-- A leading byte opens a character. -/
theorem piecesFrom_lead {n : ℕ} {p : Partial} (rest : Bytes) (large : 128 ≤ n) (small : n < 256)
    (leads : lead (UInt8.ofNat n) = some p) :
    piecesFrom none (UInt8.ofNat n :: rest) = piecesFrom (some p) rest := by
  have value : (UInt8.ofNat n).toNat = n := by
    rw [UInt8.toNat_ofNat']
    omega
  have above : ¬ UInt8.ofNat n < 0x80 := by
    rw [UInt8.lt_iff_toNat_lt, value]
    exact Nat.not_lt.mpr large
  rw [piecesFrom, step, enter, if_neg above, leads]
  rfl

private theorem lead_two {v : ℕ} (low : 128 ≤ v) (high : v < 2048) :
    lead (UInt8.ofNat (v / 64 % 32 + 192)) = some ⟨v / 64, 1, 1, 0x80, 0xBF⟩ := by
  have value : (UInt8.ofNat (v / 64 % 32 + 192)).toNat = v / 64 + 192 := by
    rw [UInt8.toNat_ofNat']
    omega
  rw [lead, value, if_pos (by omega)]
  simp

/-- The bounds on the second of three bytes let every character through. -/
theorem lead_three {v : ℕ} (low : 2048 ≤ v) (high : v < 65536) (valid : v.isValidChar) :
    ∃ least greatest : UInt8,
      lead (UInt8.ofNat (v / 4096 % 16 + 224)) = some ⟨v / 4096, 1, 2, least, greatest⟩ ∧
      least.toNat ≤ v / 64 % 64 + 128 ∧ v / 64 % 64 + 128 ≤ greatest.toNat := by
  have value : (UInt8.ofNat (v / 4096 % 16 + 224)).toNat = v / 4096 + 224 := by
    rw [UInt8.toNat_ofNat']
    omega
  have noSurrogate : v < 55296 ∨ 57343 < v := by
    obtain below | above := valid
    · exact .inl below
    · exact .inr above.1
  rw [lead, value]
  split_ifs
  · omega
  · have code : v / 4096 = 0 := by omega
    exact ⟨0xA0, 0xBF, by rw [code], by change 160 ≤ _; omega, by change _ ≤ 191; omega⟩
  · have code : v / 4096 = 0xD := by omega
    exact ⟨0x80, 0x9F, by rw [code], by change 128 ≤ _; omega, by change _ ≤ 159; omega⟩
  · have code : v / 4096 + 224 - 0xE0 = v / 4096 := by omega
    exact ⟨0x80, 0xBF, by rw [code], by change 128 ≤ _; omega, by change _ ≤ 191; omega⟩
  all_goals omega

/-- The bounds on the second of four bytes let every character through. -/
theorem lead_four {v : ℕ} (low : 65536 ≤ v) (valid : v.isValidChar) :
    ∃ least greatest : UInt8,
      lead (UInt8.ofNat (v / 262144 % 8 + 240)) = some ⟨v / 262144, 1, 3, least, greatest⟩ ∧
      least.toNat ≤ v / 4096 % 64 + 128 ∧ v / 4096 % 64 + 128 ≤ greatest.toNat := by
  have value : (UInt8.ofNat (v / 262144 % 8 + 240)).toNat = v / 262144 % 8 + 240 := by
    rw [UInt8.toNat_ofNat']
    omega
  have top : v < 1114112 := by
    obtain below | above := valid
    · omega
    · exact above.2
  rw [lead, value]
  split_ifs
  iterate 4 omega
  · have code : v / 262144 = 0 := by omega
    exact ⟨0x90, 0xBF, by rw [code], by change 144 ≤ _; omega, by change _ ≤ 191; omega⟩
  · have code : v / 262144 % 8 + 240 - 0xF0 = v / 262144 := by omega
    exact ⟨0x80, 0xBF, by rw [code], by change 128 ≤ _; omega, by change _ ≤ 191; omega⟩
  · have code : v / 262144 = 4 := by omega
    exact ⟨0x80, 0x8F, by rw [code], by change 128 ≤ _; omega, by change _ ≤ 143; omega⟩
  · omega

/-- No byte of a character beyond the first 128 is one of them. -/
theorem le_toNat_of_mem_encodeChar {c : Char} {b : UInt8} (wide : 128 ≤ c.toNat)
    (member : b ∈ String.utf8EncodeChar c) : 128 ≤ b.toNat := by
  have large : 127 < c.val.toNat := wide
  rw [String.utf8EncodeChar, if_neg (Nat.not_le.mpr large)] at member
  split_ifs at member
  all_goals
    simp only [List.mem_cons, List.not_mem_nil, or_false] at member
    obtain rfl | rfl | rfl | rfl := member <;> rw [UInt8.toNat_ofNat'] <;> omega

/-- The bytes of a character are read as that character. -/
theorem piecesFrom_encodeChar (c : Char) (rest : Bytes) :
    ∃ width, piecesFrom none (String.utf8EncodeChar c ++ rest) =
      .char c width :: piecesFrom none rest := by
  have same : Char.ofNat c.val.toNat = c := Char.ofNat_toNat c
  have valid : c.val.toNat.isValidChar := c.valid
  rw [String.utf8EncodeChar]
  generalize c.val.toNat = v at same valid ⊢
  split_ifs with one two three
  · have value : (UInt8.ofNat v).toNat = v := by
      rw [UInt8.toNat_ofNat']
      omega
    have ascii : UInt8.ofNat v < 0x80 := by
      rw [UInt8.lt_iff_toNat_lt, value]
      exact Nat.lt_succ_of_le one
    refine ⟨1, ?_⟩
    rw [List.singleton_append, piecesFrom, step, enter, if_pos ascii, value, same]
    rfl
  · have bits : v / 64 * 64 + v % 64 = v := by omega
    refine ⟨2, ?_⟩
    rw [List.cons_append, piecesFrom_lead _ (by omega) (by omega) (lead_two (by omega) (by omega)),
      List.singleton_append, piecesFrom_last _ (by omega) (by change 128 ≤ _; omega)
        (by change _ ≤ 191; omega), bits, same]
  · obtain ⟨least, greatest, leads, low, high⟩ := lead_three (v := v) (by omega) (by omega) valid
    have bits : (v / 4096 * 64 + v / 64 % 64) * 64 + v % 64 = v := by omega
    refine ⟨3, ?_⟩
    rw [List.cons_append, piecesFrom_lead _ (by omega) (by omega) leads, List.cons_append,
      piecesFrom_middle _ (by omega) low high, List.singleton_append,
      piecesFrom_last _ (by omega) (by change 128 ≤ _; omega) (by change _ ≤ 191; omega), bits,
      same]
  · obtain ⟨least, greatest, leads, low, high⟩ := lead_four (v := v) (by omega) valid
    have bits : ((v / 262144 * 64 + v / 4096 % 64) * 64 + v / 64 % 64) * 64 + v % 64 = v := by
      omega
    refine ⟨4, ?_⟩
    rw [List.cons_append, piecesFrom_lead _ (by omega) (by omega) leads, List.cons_append,
      piecesFrom_middle _ (by omega) low high, List.cons_append,
      piecesFrom_middle _ (by omega) (by change 128 ≤ _; omega) (by change _ ≤ 191; omega),
      List.singleton_append, piecesFrom_last _ (by omega) (by change 128 ≤ _; omega)
        (by change _ ≤ 191; omega), bits, same]

/-- An encoded text is read as its characters, without a fault. -/
theorem pieces_encode (s : Text) (offset : ℕ) :
    faultFrom offset (pieces (encode s)) = none ∧ (pieces (encode s)).map Piece.lossy = s := by
  induction s generalizing offset with
  | nil => exact ⟨rfl, rfl⟩
  | cons c rest ih =>
    obtain ⟨width, first⟩ := piecesFrom_encodeChar c (encode rest)
    obtain ⟨sound, same⟩ := ih (offset + width)
    rw [encode_cons, pieces, first]
    refine ⟨sound, ?_⟩
    rw [List.map_cons, Piece.lossy]
    exact congrArg (c :: ·) same

/-- Decoding takes back what encoding has done. -/
theorem decode_encode (s : Text) : decode (encode s) = .ok s := by
  obtain ⟨sound, same⟩ := pieces_encode s 0
  rw [decode, sound, same]

end FormatHost.Utf8
