import FormatHost.Proofs.Json.Strings
import Mathlib.Tactic.IntervalCases

/-! # Numbers and words are read as they are written

Offsets in plain decimal are read up to the greatest that fits in 64 bits. Numbers of any form are
skipped up to the byte that ends them, which is never one that a number goes on with.
-/

namespace FormatHost.Json

variable {rest : Bytes}

/-! ## Digits and what follows them -/

theorem isDigit_eq_true_iff {b : UInt8} : isDigit b = true ↔ 48 ≤ b.toNat ∧ b.toNat ≤ 57 := by
  rw [isDigit, Bool.and_eq_true, decide_eq_true_iff, decide_eq_true_iff, UInt8.le_iff_toNat_le,
    UInt8.le_iff_toNat_le]
  exact Iff.rfl

/-- A digit is no other byte. -/
theorem beq_of_isDigit {b c : UInt8} (digit : isDigit b = true) (other : isDigit c = false) :
    (b == c) = false := by
  apply beq_false_of_ne
  rintro rfl
  rw [digit] at other
  contradiction

theorem isSpace_of_isDigit {b : UInt8} (digit : isDigit b = true) : isSpace b = false := by
  simp [isSpace, beq_of_isDigit digit, show isDigit (byte ' ') = false by decide,
    show isDigit (byte '\n') = false by decide, show isDigit (byte '\t') = false by decide,
    show isDigit (byte '\r') = false by decide]

/-- No number goes on with a byte that can come right after a value. -/
theorem Follows.not_numeric {b : UInt8} (follows : Follows (b :: rest)) :
    isDigit b = false ∧ (b == byte '.') = false ∧ (b == byte 'e') = false ∧
      (b == byte 'E') = false := by
  obtain blank | rfl | rfl | rfl := follows b rfl
  · obtain rfl | rfl | rfl | rfl := blank b (List.mem_singleton_self b)
    all_goals decide
  all_goals decide

theorem Follows.startsWithDigit (follows : Follows rest) : startsWithDigit rest = false := by
  cases rest with
  | nil => rfl
  | cons b rest => exact follows.not_numeric.1

/-! ## Offsets -/

private theorem encode_of_ascii {s : Text} (ascii : ∀ c ∈ s, c.toNat < 128) :
    Utf8.encode s = s.map byte := by
  induction s with
  | nil => rfl
  | cons c s ih =>
    obtain ⟨first, others⟩ := List.forall_mem_cons.mp ascii
    rw [Utf8.encode_cons, encodeChar_of_lt first, ih others, List.map_cons, List.singleton_append]

theorem bounds_of_isDigit {c : Char} (digit : c.isDigit = true) : 48 ≤ c.toNat ∧ c.toNat ≤ 57 := by
  simp only [Char.isDigit, Bool.and_eq_true, decide_eq_true_iff] at digit
  exact digit

/-- The digits of a number, one byte each. -/
theorem ofString_toString (n : ℕ) : Utf8.ofString (toString n) = (Nat.toDigits 10 n).map byte := by
  rw [Utf8.ofString, Nat.toString_eq_repr, Nat.toList_repr]
  apply encode_of_ascii
  intro c member
  have bounds := bounds_of_isDigit (Nat.isDigit_of_mem_toDigits (by decide) (by decide) member)
  omega

theorem code_of_isDigit {c : Char} (digit : c.isDigit = true) :
    isDigit (byte c) = true ∧ (byte c).toNat - 48 = c.toNat - '0'.toNat := by
  have bounds := bounds_of_isDigit digit
  rw [isDigit_eq_true_iff, toNat_byte (by omega)]
  exact ⟨bounds, rfl⟩

/-- More digits make no number smaller. -/
theorem le_ofDigitChars (digits : List Char) (n : ℕ) : n ≤ Nat.ofDigitChars 10 digits n := by
  induction digits generalizing n with
  | nil => exact Nat.le_refl _
  | cons c digits ih =>
    rw [Nat.ofDigitChars_cons]
    have later := ih (10 * n + (c.toNat - '0'.toNat))
    omega

/-- Digits are gathered as long as the number fits. -/
theorem gatherDigits_of_fits {digits : List Char} (digit : ∀ c ∈ digits, c.isDigit = true) (n : ℕ)
    (fits : Nat.ofDigitChars 10 digits n ≤ greatestWord) (ended : startsWithDigit rest = false) :
    gatherDigits n (digits.map byte ++ rest) = (Nat.ofDigitChars 10 digits n, rest) := by
  induction digits generalizing n with
  | nil =>
    cases rest with
    | nil => rfl
    | cons b rest =>
      have other : isDigit b = false := ended
      simp [gatherDigits, other]
  | cons c digits ih =>
    obtain ⟨first, others⟩ := List.forall_mem_cons.mp digit
    obtain ⟨isDigit, value⟩ := code_of_isDigit first
    rw [Nat.ofDigitChars_cons] at fits ⊢
    have small := (le_ofDigitChars digits _).trans fits
    rw [List.map_cons, List.cons_append, gatherDigits]
    simp only [isDigit, value, Nat.mul_comm n 10, small, Bool.true_and, decide_true, if_true]
    exact ih others _ fits

/-- No number but zero is written with a zero in front. -/
theorem toDigits_cases (n : ℕ) :
    n = 0 ∧ Nat.toDigits 10 n = ['0'] ∨
      ∃ c digits, Nat.toDigits 10 n = c :: digits ∧ c ≠ '0' := by
  induction n using Nat.strongRecOn with
  | ind n ih =>
    obtain rfl | positive := Nat.eq_zero_or_pos n
    · exact .inl ⟨rfl, rfl⟩
    right
    by_cases small : n < 10
    · refine ⟨n.digitChar, [], Nat.toDigits_of_lt_base small, ?_⟩
      interval_cases n <;> decide
    · have large : 10 ≤ n := Nat.le_of_not_lt small
      rw [Nat.toDigits_of_base_le (by decide) large]
      obtain ⟨zero, -⟩ | ⟨c, digits, shape, visible⟩ := ih (n / 10) (by omega)
      · omega
      · rw [shape]
        exact ⟨c, _, rfl, visible⟩

/-- A number in plain decimal is read as that number. -/
theorem number_of_decimal {n : ℕ} (fits : n ≤ greatestWord) (follows : Follows rest) :
    number true ((Nat.toDigits 10 n).map byte ++ rest) = .ok (.natural n, rest) := by
  have whole (n : ℕ) : afterInteger true n rest = .ok (.natural n, rest) := by
    cases rest with
    | nil => rfl
    | cons b rest =>
      obtain ⟨-, point, lower, upper⟩ := follows.not_numeric
      simp [afterInteger, point, lower, upper]
  have ended := follows.startsWithDigit
  obtain ⟨rfl, shape⟩ | ⟨c, digits, shape, visible⟩ := toDigits_cases n
  · rw [shape]
    simp only [List.map_cons, List.map_nil, List.cons_append, List.nil_append, number,
      beq_self_eq_true, if_true, ended, Bool.false_eq_true, if_false, whole]
  · have digit : ∀ c ∈ Nat.toDigits 10 n, c.isDigit = true := fun c =>
      Nat.isDigit_of_mem_toDigits (by decide) (by decide)
    have value : Nat.ofDigitChars 10 (Nat.toDigits 10 n) 0 = n := Nat.ofDigitChars_ten_toDigits
    rw [shape] at digit value ⊢
    obtain ⟨first, others⟩ := List.forall_mem_cons.mp digit
    obtain ⟨isDigit, code⟩ := code_of_isDigit first
    rw [Nat.ofDigitChars_cons, Nat.mul_zero, Nat.zero_add, ← code] at value
    have gathered := gatherDigits_of_fits others _ (value.symm ▸ fits) ended
    have small := bounds_of_isDigit first
    have zero : (byte c == byte '0') = false :=
      beq_false_of_ne (byte_ne_byte visible (by omega) (by decide))
    rw [List.map_cons, List.cons_append, number]
    simp only [zero, Bool.false_eq_true, if_false, isDigit, if_true, gathered, value, ended, whole]

theorem decimal_cons (n : ℕ) :
    ∃ b tail, Utf8.ofString (toString n) = b :: tail ∧ isDigit b = true := by
  obtain ⟨c, digits, shape⟩ : ∃ c digits, Nat.toDigits 10 n = c :: digits :=
    List.exists_cons_of_ne_nil Nat.toDigits_ne_nil
  have digit : c.isDigit = true :=
    Nat.isDigit_of_mem_toDigits (by decide) (by decide) (shape ▸ List.mem_cons_self)
  refine ⟨byte c, digits.map byte, ?_, (code_of_isDigit digit).1⟩
  rw [ofString_toString, shape, List.map_cons]

/-- An offset in plain decimal is read, if it fits in 64 bits. -/
theorem reads_readOffset {n : ℕ} (fits : n ≤ greatestWord) :
    Reads readOffset (Utf8.ofString (toString n)) (some n) := by
  intro space rest blank follows
  have read := number_of_decimal fits follows
  rw [← ofString_toString] at read
  obtain ⟨b, tail, shape, digit⟩ := decimal_cons n
  have minus : (b == byte '-') = false := beq_of_isDigit digit (by decide)
  rw [shape, List.cons_append] at read ⊢
  change readOffset _ = _
  rw [readOffset, skipSpace_append_cons blank (isSpace_of_isDigit digit)]
  simp only [minus, Bool.false_eq_true, if_false, digit, if_true, read]
  rfl

/-! ## Numbers and words that are skipped -/

theorem isDigit_of_mem {digits : Bytes} (run : AreDigits digits) :
    ∀ b ∈ digits, isDigit b = true :=
  fun b member => isDigit_eq_true_iff.mpr (run.2 b member)

/-- A run of digits is skipped whole. -/
theorem dropWhile_isDigit {digits : Bytes} (digit : ∀ b ∈ digits, isDigit b = true)
    (ended : startsWithDigit rest = false) : (digits ++ rest).dropWhile isDigit = rest := by
  rw [List.dropWhile_append_of_pos digit]
  cases rest with
  | nil => rfl
  | cons b rest => exact List.dropWhile_cons_of_neg (by simpa [startsWithDigit] using ended)

private theorem skipExponent_of_digits {digits : Bytes} (run : AreDigits digits)
    (follows : Follows rest) :
    skipExponent (digits ++ rest) = .ok rest := by
  have digit := isDigit_of_mem run
  obtain ⟨b, digits, rfl⟩ := List.exists_cons_of_ne_nil run.1
  obtain ⟨first, others⟩ := List.forall_mem_cons.mp digit
  have plus : (b == byte '+') = false := beq_of_isDigit first (by decide)
  have minus : (b == byte '-') = false := beq_of_isDigit first (by decide)
  simp only [List.cons_append, skipExponent, plus, minus, Bool.or_self, Bool.false_eq_true,
    if_false, first, if_true, dropWhile_isDigit others follows.startsWithDigit]

private theorem skipExponent_of_signed {sign : UInt8} {digits : Bytes}
    (signed : sign = byte '+' ∨ sign = byte '-') (run : AreDigits digits) (follows : Follows rest) :
    skipExponent (sign :: (digits ++ rest)) = .ok rest := by
  have digit := isDigit_of_mem run
  obtain ⟨b, digits, rfl⟩ := List.exists_cons_of_ne_nil run.1
  obtain ⟨first, others⟩ := List.forall_mem_cons.mp digit
  have either : (sign == byte '+' || sign == byte '-') = true := by
    simpa using signed
  simp only [List.cons_append, skipExponent, either, first, if_true,
    dropWhile_isDigit others follows.startsWithDigit]

theorem skipMaybeExponent_of_isExponent {exponent : Bytes} (scaled : IsExponent exponent)
    (follows : Follows rest) : skipMaybeExponent (exponent ++ rest) = .ok rest := by
  have marks {mark : UInt8} (marked : mark = byte 'e' ∨ mark = byte 'E') :
      (mark == byte 'e' || mark == byte 'E') = true := by
    simpa using marked
  cases scaled with
  | none =>
    cases rest with
    | nil => rfl
    | cons b rest =>
      obtain ⟨-, -, lower, upper⟩ := follows.not_numeric
      simp [skipMaybeExponent, lower, upper]
  | unsigned marked run =>
    simp only [List.cons_append, skipMaybeExponent, marks marked, if_true,
      skipExponent_of_digits run follows]
  | signed marked signed run =>
    simp only [List.cons_append, skipMaybeExponent, marks marked, if_true,
      skipExponent_of_signed signed run follows]

/-- An exponent does not look like more digits, nor does what follows a number without one. -/
theorem startsWithDigit_exponent {exponent : Bytes} (scaled : IsExponent exponent)
    (follows : Follows rest) : startsWithDigit (exponent ++ rest) = false := by
  cases scaled with
  | none => exact follows.startsWithDigit
  | unsigned marked run => obtain rfl | rfl := marked <;> rfl
  | signed marked signed run => obtain rfl | rfl := marked <;> rfl

private theorem startsWithDigit_fraction {fraction exponent : Bytes}
    (fractional : IsFraction fraction) (scaled : IsExponent exponent) (follows : Follows rest) :
    startsWithDigit (fraction ++ (exponent ++ rest)) = false := by
  cases fractional with
  | none =>
    rw [List.nil_append]
    exact startsWithDigit_exponent scaled follows
  | digits run => rfl

/-- What comes after the digits before the point has a point in front only if it is a fraction. -/
theorem head_exponent_ne_point {exponent tail : Bytes} {b : UInt8} (scaled : IsExponent exponent)
    (follows : Follows rest) (shape : exponent ++ rest = b :: tail) : (b == byte '.') = false := by
  cases scaled with
  | none =>
    rw [List.nil_append] at shape
    rw [shape] at follows
    exact follows.not_numeric.2.1
  | unsigned marked run =>
    obtain ⟨rfl, -⟩ := List.cons.inj shape
    obtain rfl | rfl := marked <;> decide
  | signed marked signed run =>
    obtain ⟨rfl, -⟩ := List.cons.inj shape
    obtain rfl | rfl := marked <;> decide

/-- A number is skipped whole. -/
theorem skipNumber_of_isMagnitude {digits : Bytes} (magnitude : IsMagnitude digits)
    (follows : Follows rest) : skipNumber (digits ++ rest) = .ok rest := by
  obtain @⟨digits, fraction, exponent, ⟨run, zero⟩, fractional, scaled⟩ := magnitude
  have ended := startsWithDigit_fraction fractional scaled follows
  have digit := isDigit_of_mem run
  rw [List.append_assoc, List.append_assoc]
  unfold skipNumber
  extract_lets afterInteger
  have after : afterInteger (fraction ++ (exponent ++ rest)) = .ok rest := by
    cases fractional with
    | none =>
      rw [List.nil_append]
      cases shape : exponent ++ rest with
      | nil =>
        obtain ⟨-, rfl⟩ := List.append_eq_nil_iff.mp shape
        rfl
      | cons b tail =>
        have point := head_exponent_ne_point scaled follows shape
        simp only [afterInteger, point, Bool.false_eq_true, if_false]
        rw [← shape, skipMaybeExponent_of_isExponent scaled follows]
    | @digits digits run =>
      have digit := isDigit_of_mem run
      have started : startsWithDigit (digits ++ (exponent ++ rest)) = true := by
        obtain ⟨b, digits, rfl⟩ := List.exists_cons_of_ne_nil run.1
        exact digit b List.mem_cons_self
      simp only [List.cons_append, afterInteger, beq_self_eq_true, if_true, started]
      rw [dropWhile_isDigit digit (startsWithDigit_exponent scaled follows),
        skipMaybeExponent_of_isExponent scaled follows]
  obtain ⟨b, digits, rfl⟩ := List.exists_cons_of_ne_nil run.1
  obtain ⟨first, others⟩ := List.forall_mem_cons.mp digit
  by_cases nought : b = byte '0'
  · subst nought
    obtain ⟨-, rfl⟩ := List.cons.inj (zero rfl)
    simp only [List.cons_append, List.nil_append, beq_self_eq_true, if_true, ended,
      Bool.false_eq_true, if_false, after]
  · simp only [List.cons_append, beq_false_of_ne nought, Bool.false_eq_true, if_false, first,
      if_true, dropWhile_isDigit others ended, after]

theorem keyword_append (word rest : Bytes) : keyword word (word ++ rest) = .ok rest := by
  induction word with
  | nil => rfl
  | cons b word ih => simp [keyword, ih]

end FormatHost.Json
