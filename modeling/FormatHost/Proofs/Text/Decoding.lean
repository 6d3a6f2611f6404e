import FormatHost.Proofs.Text.Utf8

/-! # Decoded bytes are the encoding of their text

A partial character leads, by whatever bytes it accepts, to a character that is encoded in the bytes
that were read. So bytes without a fault are the encoding of the text that is read from them, and
two of them with the same text are the same.
-/

namespace FormatHost.Utf8

/-! ## Characters -/

theorem val_ofNat {v : ℕ} (valid : v.isValidChar) : (Char.ofNat v).val.toNat = v := by
  rw [Char.ofNat, dif_pos valid]
  rfl

private theorem encodeChar_one {v : ℕ} (high : v < 128) :
    String.utf8EncodeChar (Char.ofNat v) = [UInt8.ofNat v] := by
  rw [String.utf8EncodeChar, val_ofNat (.inl (by omega)), if_pos (by omega)]

private theorem encodeChar_two {v : ℕ} (low : 128 ≤ v) (high : v < 2048) :
    String.utf8EncodeChar (Char.ofNat v) =
      [UInt8.ofNat (v / 64 + 192), UInt8.ofNat (v % 64 + 128)] := by
  rw [String.utf8EncodeChar, val_ofNat (.inl (by omega)), if_neg (by omega), if_pos (by omega),
    Nat.mod_eq_of_lt (a := v / 64) (by omega)]

private theorem encodeChar_three {v : ℕ} (low : 2048 ≤ v) (high : v < 65536)
    (valid : v.isValidChar) :
    String.utf8EncodeChar (Char.ofNat v) =
      [UInt8.ofNat (v / 4096 + 224), UInt8.ofNat (v / 64 % 64 + 128),
        UInt8.ofNat (v % 64 + 128)] := by
  rw [String.utf8EncodeChar, val_ofNat valid, if_neg (by omega), if_neg (by omega),
    if_pos (by omega), Nat.mod_eq_of_lt (a := v / 4096) (by omega)]

private theorem encodeChar_four {v : ℕ} (low : 65536 ≤ v) (high : v < 1114112) :
    String.utf8EncodeChar (Char.ofNat v) =
      [UInt8.ofNat (v / 262144 + 240), UInt8.ofNat (v / 4096 % 64 + 128),
        UInt8.ofNat (v / 64 % 64 + 128), UInt8.ofNat (v % 64 + 128)] := by
  rw [String.utf8EncodeChar, val_ofNat (.inr ⟨by omega, high⟩), if_neg (by omega),
    if_neg (by omega), if_neg (by omega), Nat.mod_eq_of_lt (a := v / 262144) (by omega)]

/-! ## Partial characters -/

/-- Whether a partial character, from which so many bytes are missing, leads by whatever bytes it
accepts to a character that is encoded in the bytes that were read. -/
def Leads : ℕ → Bytes → Partial → Prop
  | 0, read, p => String.utf8EncodeChar (Char.ofNat p.code) = read
  | missing + 1, read, p => p.missing = missing + 1 ∧
      ∀ b, p.accepts b = true → Leads missing (read ++ [b]) (p.push b)

theorem accepts_iff {code taken missing : ℕ} {low high b : UInt8} :
    (Partial.mk code taken missing low high).accepts b = true ↔
      low.toNat ≤ b.toNat ∧ b.toNat ≤ high.toNat := by
  simp [Partial.accepts, UInt8.le_iff_toNat_le]

theorem eq_ofNat {b : UInt8} {n : ℕ} (same : n = b.toNat) : UInt8.ofNat n = b := by
  rw [same, UInt8.ofNat_toNat]

private theorem leads_two {b : UInt8} {code : ℕ} (first : code + 192 = b.toNat) (least : 2 ≤ code)
    (small : code < 32) : Leads 1 [b] ⟨code, 1, 1, 0x80, 0xBF⟩ := by
  refine ⟨rfl, fun b₁ second => ?_⟩
  obtain ⟨low, high⟩ : 128 ≤ b₁.toNat ∧ b₁.toNat ≤ 191 := accepts_iff.mp second
  change String.utf8EncodeChar (Char.ofNat (code * 64 + (b₁.toNat - 128))) = [b, b₁]
  rw [encodeChar_two (by omega) (by omega), eq_ofNat (b := b) (by omega),
    eq_ofNat (b := b₁) (by omega)]

/-- The bounds on the second byte keep overlong forms and surrogates out. -/
theorem leads_three {b least greatest : UInt8} {code : ℕ} (first : code + 224 = b.toNat)
    (small : code < 16) (low : 128 ≤ least.toNat) (high : greatest.toNat ≤ 191)
    (sound : ∀ n, least.toNat ≤ n → n ≤ greatest.toNat →
      32 ≤ code * 64 + (n - 128) ∧ (code * 64 + (n - 128) < 864 ∨ 896 ≤ code * 64 + (n - 128))) :
    Leads 2 [b] ⟨code, 1, 2, least, greatest⟩ := by
  refine ⟨rfl, fun b₁ second => ⟨rfl, fun b₂ third => ?_⟩⟩
  obtain ⟨low₁, high₁⟩ := accepts_iff.mp second
  obtain ⟨low₂, high₂⟩ : 128 ≤ b₂.toNat ∧ b₂.toNat ≤ 191 := accepts_iff.mp third
  obtain ⟨large, noSurrogate⟩ := sound b₁.toNat low₁ high₁
  change String.utf8EncodeChar
    (Char.ofNat ((code * 64 + (b₁.toNat - 128)) * 64 + (b₂.toNat - 128))) = [b, b₁, b₂]
  have valid : ((code * 64 + (b₁.toNat - 128)) * 64 + (b₂.toNat - 128)).isValidChar := by
    rw [Nat.isValidChar]
    omega
  rw [encodeChar_three (by omega) (by omega) valid, eq_ofNat (b := b) (by omega),
    eq_ofNat (b := b₁) (by omega), eq_ofNat (b := b₂) (by omega)]

/-- The bounds on the second byte keep overlong forms and what lies above all characters out. -/
theorem leads_four {b least greatest : UInt8} {code : ℕ} (first : code + 240 = b.toNat)
    (low : 128 ≤ least.toNat) (high : greatest.toNat ≤ 191)
    (sound : ∀ n, least.toNat ≤ n → n ≤ greatest.toNat →
      16 ≤ code * 64 + (n - 128) ∧ code * 64 + (n - 128) < 272) :
    Leads 3 [b] ⟨code, 1, 3, least, greatest⟩ := by
  refine ⟨rfl, fun b₁ second => ⟨rfl, fun b₂ third => ⟨rfl, fun b₃ fourth => ?_⟩⟩⟩
  obtain ⟨low₁, high₁⟩ := accepts_iff.mp second
  obtain ⟨low₂, high₂⟩ : 128 ≤ b₂.toNat ∧ b₂.toNat ≤ 191 := accepts_iff.mp third
  obtain ⟨low₃, high₃⟩ : 128 ≤ b₃.toNat ∧ b₃.toNat ≤ 191 := accepts_iff.mp fourth
  obtain ⟨large, bounded⟩ := sound b₁.toNat low₁ high₁
  change String.utf8EncodeChar (Char.ofNat
    (((code * 64 + (b₁.toNat - 128)) * 64 + (b₂.toNat - 128)) * 64 + (b₃.toNat - 128))) =
      [b, b₁, b₂, b₃]
  rw [encodeChar_four (by omega) (by omega), eq_ofNat (b := b) (by omega),
    eq_ofNat (b := b₁) (by omega), eq_ofNat (b := b₂) (by omega), eq_ofNat (b := b₃) (by omega)]

private theorem leads_of_lead {b : UInt8} {p : Partial} (announced : lead b = some p) :
    ∃ missing, Leads (missing + 1) [b] p := by
  simp only [lead] at announced
  split_ifs at announced with two least noSurrogate three below four above
  all_goals obtain rfl := Option.some.inj announced
  · exact ⟨0, leads_two (by omega) (by omega) (by omega)⟩
  · refine ⟨1, leads_three (by omega) (by omega) (by decide) (by decide) fun n low high => ?_⟩
    change 160 ≤ n at low
    change n ≤ 191 at high
    omega
  · refine ⟨1, leads_three (by omega) (by omega) (by decide) (by decide) fun n low high => ?_⟩
    change 128 ≤ n at low
    change n ≤ 159 at high
    omega
  · refine ⟨1, leads_three (by omega) (by omega) (by decide) (by decide) fun n low high => ?_⟩
    change 128 ≤ n at low
    change n ≤ 191 at high
    omega
  · refine ⟨2, leads_four (by omega) (by decide) (by decide) fun n low high => ?_⟩
    change 144 ≤ n at low
    change n ≤ 191 at high
    omega
  · refine ⟨2, leads_four (by omega) (by decide) (by decide) fun n low high => ?_⟩
    change 128 ≤ n at low
    change n ≤ 191 at high
    omega
  · refine ⟨2, leads_four (by omega) (by decide) (by decide) fun n low high => ?_⟩
    change 128 ≤ n at low
    change n ≤ 143 at high
    omega

/-! ## Bytes -/

/-- Whether some bytes are those of the character that is open. -/
def Opens (read : Bytes) : Option Partial → Prop
  | none => read = []
  | some p => ∃ missing, Leads (missing + 1) read p

/-- One more byte completes the open character, goes on with it, or is a fault. -/
theorem step_cases {held : Option Partial} {read : Bytes} (opens : Opens read held) (b : UInt8) :
    (∃ c width, step held b = ([.char c width], none) ∧
        String.utf8EncodeChar c = read ++ [b]) ∨
      (∃ p, step held b = ([], some p) ∧ Opens (read ++ [b]) (some p)) ∨
      ∃ width rest next, step held b = (.invalid width :: rest, next) := by
  cases held with
  | none =>
    obtain rfl : read = [] := opens
    rw [step, enter]
    split
    · next ascii =>
      refine .inl ⟨_, _, rfl, ?_⟩
      rw [encodeChar_one (UInt8.lt_iff_toNat_lt.mp ascii), UInt8.ofNat_toNat]
      rfl
    · split
      · exact .inr (.inr ⟨_, _, _, rfl⟩)
      · next p announced => exact .inr (.inl ⟨p, rfl, leads_of_lead announced⟩)
  | some p =>
    obtain ⟨missing, remains, leads⟩ := opens
    rw [step]
    split
    · next accepted =>
      have onward := leads b accepted
      cases missing with
      | zero => exact .inl ⟨_, _, by rw [if_pos remains], onward⟩
      | succ missing =>
        exact .inr (.inl ⟨_, by rw [if_neg (by omega)], missing, onward⟩)
    · exact .inr (.inr ⟨_, _, _, rfl⟩)

private theorem encode_of_faultFrom {held : Option Partial} {read s : Bytes}
    (opens : Opens read held) {offset : ℕ} (sound : faultFrom offset (piecesFrom held s) = none) :
    encode ((piecesFrom held s).map Piece.lossy) = read ++ s := by
  induction s generalizing held read offset with
  | nil =>
    cases held with
    | none =>
      obtain rfl : read = [] := opens
      rfl
    | some p => cases sound
  | cons b rest ih =>
    rw [piecesFrom] at sound ⊢
    obtain ⟨c, width, stepped, encoded⟩ | ⟨p, stepped, opens⟩ | ⟨width, more, next, stepped⟩ :=
      step_cases opens b
    · rw [stepped] at sound ⊢
      have fresh : Opens [] none := rfl
      have others := ih fresh sound
      change encode (c :: (piecesFrom none rest).map Piece.lossy) = _
      rw [encode_cons, others, encoded, List.append_assoc]
      rfl
    · rw [stepped] at sound ⊢
      have onward := ih opens sound
      rwa [List.append_assoc] at onward
    · rw [stepped] at sound
      cases sound

/-- Bytes without a fault are the encoding of their text. -/
theorem encode_of_decode {s : Bytes} {text : Text} (decoded : decode s = .ok text) :
    encode text = s := by
  rw [decode] at decoded
  split at decoded
  · cases decoded
  · next sound =>
    obtain rfl := Except.ok.inj decoded
    have fresh : Opens [] none := rfl
    exact encode_of_faultFrom fresh sound

/-- What is read of bytes without a fault is their text. -/
theorem decodeLossy_of_decode {s : Bytes} {text : Text} (decoded : decode s = .ok text) :
    decodeLossy s = text := by
  rw [decode] at decoded
  split at decoded
  · cases decoded
  · exact Except.ok.inj decoded

end FormatHost.Utf8
