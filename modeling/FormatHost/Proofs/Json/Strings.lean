import FormatHost.Proofs.Json.Course
import FormatHost.Proofs.Text.Utf8

/-! # Strings are read as they are spelled

A character may stand for itself, follow a backslash, or be given by its code, in two halves if it
does not fit in one. However a string is spelled, reading gives its characters. Skipping passes over
it without asking what characters it stands for.
-/

namespace FormatHost.Json

variable {rest : Bytes}

/-! ## Bytes of characters -/

theorem toNat_byte {c : Char} (small : c.toNat < 256) : (byte c).toNat = c.toNat := by
  rw [byte, Nat.toUInt8, UInt8.toNat_ofNat']
  omega

theorem byte_ne_byte {c d : Char} (different : c ≠ d) (left : c.toNat < 256)
    (right : d.toNat < 256) : byte c ≠ byte d := by
  intro same
  have codes := congrArg UInt8.toNat same
  rw [toNat_byte left, toNat_byte right] at codes
  exact different (Char.toNat_inj.mp codes)

/-- A character of one byte. -/
theorem encodeChar_of_lt {c : Char} (ascii : c.toNat < 128) :
    String.utf8EncodeChar c = [byte c] := by
  have small : c.val.toNat ≤ 0x7f := Nat.le_of_lt_succ ascii
  rw [String.utf8EncodeChar, if_pos small]
  rfl

/-- Bytes that a string holds as they are. -/
def isLiteral (b : UInt8) : Bool :=
  b != byte '"' && b != byte '\\' && !decide (b < 0x20)

private theorem isLiteral_of_le {b : UInt8} (large : 128 ≤ b.toNat) : isLiteral b = true := by
  have away (c : UInt8) (small : c.toNat < 128) : b ≠ c := by
    rintro rfl
    omega
  have quote := away (byte '"') (by decide)
  have backslash := away (byte '\\') (by decide)
  have visible : ¬ b < 0x20 := by
    rw [UInt8.lt_iff_toNat_lt]
    change ¬ b.toNat < 32
    omega
  simp [isLiteral, quote, backslash, visible]

/-- A character that stands for itself is written in such bytes. -/
theorem isLiteral_of_isPlain {c : Char} (plain : IsPlain c) :
    ∀ b ∈ String.utf8EncodeChar c, isLiteral b = true := by
  intro b member
  obtain ⟨visible, quote, backslash⟩ := plain
  by_cases ascii : c.toNat < 128
  · rw [encodeChar_of_lt ascii, List.mem_singleton] at member
    have small : c.toNat < 256 := by omega
    have large : ¬ byte c < 0x20 := by
      rw [UInt8.lt_iff_toNat_lt, toNat_byte small]
      exact Nat.not_lt.mpr visible
    rw [member]
    simp [isLiteral, byte_ne_byte quote small (by decide),
      byte_ne_byte backslash small (by decide), large]
  · exact isLiteral_of_le (Utf8.le_toNat_of_mem_encodeChar (Nat.le_of_not_lt ascii) member)

/-! ## Strings that are read -/

theorem hexValue?_of_isHexDigit {value : ℕ} {b : UInt8} (digit : IsHexDigit value b) :
    hexValue? b = some value := by
  simp only [hexValue?, isDigit, Bool.and_eq_true, decide_eq_true_iff, UInt8.le_iff_toNat_le]
  change (if 48 ≤ b.toNat ∧ b.toNat ≤ 57 then _ else if 97 ≤ b.toNat ∧ b.toNat ≤ 102 then _
    else if 65 ≤ b.toNat ∧ b.toNat ≤ 70 then _ else _) = _
  obtain ⟨small, decimal⟩ | ⟨large, small, lower | upper⟩ := digit
  · rw [if_pos (by omega), decimal]
    congr 1
    omega
  · rw [if_neg (by omega), if_pos (by omega), lower]
    congr 1
    omega
  · rw [if_neg (by omega), if_neg (by omega), if_pos (by omega), upper]
    congr 1
    omega

theorem hexFour_of_isHexFour {code : ℕ} {digits : Bytes} (four : IsHexFour code digits)
    (rest : Bytes) : hexFour (digits ++ rest) = .ok (code, rest) := by
  obtain ⟨first, second, third, fourth⟩ := four
  simp only [List.cons_append, List.nil_append, hexFour]
  rw [hexValue?_of_isHexDigit first, hexValue?_of_isHexDigit second, hexValue?_of_isHexDigit third,
    hexValue?_of_isHexDigit fourth]

theorem simpleEscape?_of_mem {letter c : Char} (stands : (letter, c) ∈ shortEscapes) :
    simpleEscape? (byte letter) = some (byte c) ∧ String.utf8EncodeChar c = [byte c] := by
  simp only [shortEscapes, List.mem_cons, Prod.mk.injEq, List.not_mem_nil, or_false] at stands
  obtain ⟨rfl, rfl⟩ | ⟨rfl, rfl⟩ | ⟨rfl, rfl⟩ | ⟨rfl, rfl⟩ | ⟨rfl, rfl⟩ | ⟨rfl, rfl⟩ | ⟨rfl, rfl⟩ |
    ⟨rfl, rfl⟩ := stands
  all_goals decide

/-- The code of a character is no half of a pair. -/
theorem not_surrogate (c : Char) : c.toNat < 0xD800 ∨ 0xDFFF < c.toNat := by
  obtain below | ⟨above, _⟩ := c.valid
  · exact .inl below
  · exact .inr above

theorem encode_ofNat {c : Char} {code : ℕ} (same : c.toNat = code) :
    Utf8.encode [Char.ofNat code] = String.utf8EncodeChar c := by
  rw [← same, Char.ofNat_toNat, Utf8.encode_cons, Utf8.encode_nil, List.append_nil]

private theorem unicodeEscape_of_code {c : Char} {digits : Bytes} (code : IsHexFour c.toNat digits)
    (rest : Bytes) : unicodeEscape (digits ++ rest) = .ok (String.utf8EncodeChar c, rest) := by
  have single := not_surrogate c
  rw [unicodeEscape, hexFour_of_isHexFour code]
  simp only [bind, Except.bind, Bool.and_eq_true, decide_eq_true_iff]
  rw [if_neg (by omega), if_neg (by omega), encode_ofNat rfl]

private theorem unicodeEscape_of_pair {c : Char} {leading trailing : ℕ} {first second : Bytes}
    (leads : 0xD800 ≤ leading ∧ leading ≤ 0xDBFF) (trails : 0xDC00 ≤ trailing ∧ trailing ≤ 0xDFFF)
    (value : c.toNat = 0x10000 + (leading - 0xD800) * 0x400 + (trailing - 0xDC00))
    (high : IsHexFour leading first) (low : IsHexFour trailing second) (rest : Bytes) :
    unicodeEscape (first ++ byte '\\' :: byte 'u' :: (second ++ rest)) =
      .ok (String.utf8EncodeChar c, rest) := by
  have followed : trailSurrogate leading (byte '\\' :: byte 'u' :: (second ++ rest)) =
      .ok (String.utf8EncodeChar c, rest) := by
    simp only [trailSurrogate, bne_self_eq_false, Bool.false_eq_true, if_false]
    rw [hexFour_of_isHexFour low]
    simp only [bind, Except.bind, Bool.or_eq_true, decide_eq_true_iff]
    rw [if_neg (by omega), encode_ofNat value]
  rw [unicodeEscape, hexFour_of_isHexFour high]
  simp only [bind, Except.bind, Bool.and_eq_true, decide_eq_true_iff]
  rw [if_neg (by omega), if_pos leads, followed]

theorem isLiteral_eq_true_iff {b : UInt8} :
    isLiteral b = true ↔ (b == byte '"') = false ∧ (b == byte '\\') = false ∧ ¬ b < 0x20 := by
  simp [isLiteral, and_assoc]

private theorem stringStep_of_literal {b : UInt8} (literal : isLiteral b = true)
    (read rest : Bytes) :
    stringStep read (b :: rest) = .ok (.again (b :: read), rest) := by
  obtain ⟨quote, backslash, visible⟩ := isLiteral_eq_true_iff.mp literal
  simp [stringStep, quote, backslash, visible]

private theorem stringStep_of_escape {s bytes : Bytes} (escaped : escape s = .ok (bytes, rest))
    (read : Bytes) :
    stringStep read (byte '\\' :: s) = .ok (.again (bytes.reverse ++ read), rest) := by
  have backslash : (byte '\\' == byte '"') = false := by decide
  simp only [stringStep, backslash, beq_self_eq_true, if_true, Bool.false_eq_true, if_false,
    escaped]
  rfl

private theorem escape_of_short {letter c : Char} (stands : (letter, c) ∈ shortEscapes)
    (rest : Bytes) :
    escape (byte letter :: rest) = .ok (String.utf8EncodeChar c, rest) := by
  obtain ⟨short, bytes⟩ := simpleEscape?_of_mem stands
  rw [escape, short, bytes]

theorem escape_unicode (s : Bytes) : escape (byte 'u' :: s) = unicodeEscape s := by
  have long : simpleEscape? (byte 'u') = none := by decide
  rw [escape, long, if_pos (beq_self_eq_true _)]

section Strings

variable {read : Bytes} {result : Except Fault (Bytes × Bytes)}

theorem Course.literals {bytes : Bytes} (literal : ∀ b ∈ bytes, isLiteral b = true)
    (later : Course stringStep (bytes.reverse ++ read) rest result) :
    Course stringStep read (bytes ++ rest) result := by
  induction bytes generalizing read with
  | nil => exact later
  | cons b bytes ih =>
    obtain ⟨first, others⟩ := List.forall_mem_cons.mp literal
    refine .again (stringStep_of_literal first read (bytes ++ rest)) (Nat.lt_succ_self _) ?_
    apply ih others
    rwa [List.reverse_cons, List.append_assoc, List.singleton_append] at later

theorem Course.escape {s bytes : Bytes} (escaped : escape s = .ok (bytes, rest))
    (shorter : rest.length ≤ s.length)
    (later : Course stringStep (bytes.reverse ++ read) rest result) :
    Course stringStep read (byte '\\' :: s) result :=
  .again (stringStep_of_escape escaped read) (Nat.lt_succ_of_le shorter) later

/-- However a character is written, its bytes are read. -/
theorem Course.character {c : Char} {front : Bytes} (spells : SpellsChar c front)
    (later : Course stringStep ((String.utf8EncodeChar c).reverse ++ read) rest result) :
    Course stringStep read (front ++ rest) result := by
  cases spells with
  | plain plain => exact .literals (isLiteral_of_isPlain plain) later
  | short stands => exact .escape (escape_of_short stands rest) (Nat.le_succ _) later
  | @code _ digits code =>
    have escaped := (escape_unicode _).trans (unicodeEscape_of_code code rest)
    simp only [List.cons_append]
    exact .escape escaped (by simp only [List.length_cons, List.length_append]; omega) later
  | @pair _ leading trailing first second leads trails value high low =>
    have escaped :=
      (escape_unicode _).trans (unicodeEscape_of_pair leads trails value high low rest)
    simp only [List.cons_append, List.append_assoc]
    exact .escape escaped (by simp only [List.length_cons, List.length_append]; omega) later

/-- Characters are read up to the quote that ends them. -/
theorem course_of_spells {s : Text} {content : Bytes} (spells : Spells s content)
    (read rest : Bytes) : Course stringStep read (content ++ byte '"' :: rest)
      (.ok (read.reverse ++ Utf8.encode s, rest)) := by
  induction spells generalizing read with
  | nil =>
    rw [Utf8.encode_nil, List.append_nil]
    exact .done rfl
  | @cons c s front others first _ ih =>
    rw [List.append_assoc]
    refine .character first ?_
    have later := ih ((String.utf8EncodeChar c).reverse ++ read)
    rwa [List.reverse_append, List.reverse_reverse, List.append_assoc] at later

/-- A string is read as the characters it spells. -/
theorem string_of_spells {s : Text} {content : Bytes} (spells : Spells s content) (rest : Bytes) :
    string (content ++ byte '"' :: rest) = .ok (String.ofList s, rest) := by
  have bytes := (course_of_spells spells [] rest).loop_eq
  rw [List.reverse_nil, List.nil_append] at bytes
  simp only [string, bytes, bind, Except.bind, Utf8.decode_encode]

end Strings

/-- A string value is read as the characters it spells. -/
theorem reads_readString {s : Text} {content : Bytes} (spells : Spells s content) :
    Reads readString (quoted content) (some (String.ofList s)) := by
  intro space rest blank follows
  have opened : skipSpace (space ++ (quoted content ++ rest)) =
      byte '"' :: (content ++ byte '"' :: rest) := by
    rw [quoted, List.cons_append, List.append_assoc, List.singleton_append]
    exact skipSpace_append_cons blank (by decide) _
  change readString _ = _
  simp only [readString, opened, beq_self_eq_true, if_true]
  exact string_of_spells spells rest

/-! ## Strings that are skipped -/

private theorem skipStringStep_of_literal {b : UInt8} (literal : isLiteral b = true)
    (rest : Bytes) :
    skipStringStep () (b :: rest) = .ok (.again (), rest) := by
  obtain ⟨quote, backslash, visible⟩ := isLiteral_eq_true_iff.mp literal
  simp [skipStringStep, quote, backslash, visible]

private theorem skipStringStep_of_short {letter c : Char} (stands : (letter, c) ∈ shortEscapes)
    (rest : Bytes) :
    skipStringStep () (byte '\\' :: byte letter :: rest) = .ok (.again (), rest) := by
  have backslash : (byte '\\' == byte '"') = false := by decide
  obtain ⟨short, -⟩ := simpleEscape?_of_mem stands
  simp [skipStringStep, backslash, short]

private theorem skipStringStep_of_code {code : ℕ} {digits : Bytes} (four : IsHexFour code digits)
    (rest : Bytes) :
    skipStringStep () (byte '\\' :: byte 'u' :: (digits ++ rest)) = .ok (.again (), rest) := by
  have backslash : (byte '\\' == byte '"') = false := by decide
  have long : (simpleEscape? (byte 'u')).isSome = false := by decide
  simp only [skipStringStep, backslash, beq_self_eq_true, long, if_true, Bool.false_eq_true,
    if_false, hexFour_of_isHexFour four]
  rfl

private theorem Course.skipLiterals {bytes : Bytes} {result : Except Fault (Unit × Bytes)}
    (literal : ∀ b ∈ bytes, isLiteral b = true) (later : Course skipStringStep () rest result) :
    Course skipStringStep () (bytes ++ rest) result := by
  induction bytes with
  | nil => exact later
  | cons b bytes ih =>
    obtain ⟨first, others⟩ := List.forall_mem_cons.mp literal
    exact .again (skipStringStep_of_literal first (bytes ++ rest)) (Nat.lt_succ_self _) (ih others)

/-- A string is skipped up to the quote that ends it. -/
theorem skipString_of_isContent {content : Bytes} (isContent : IsContent content) (rest : Bytes) :
    skipString (content ++ byte '"' :: rest) = .ok rest := by
  have course : Course skipStringStep () (content ++ byte '"' :: rest) (.ok ((), rest)) := by
    induction isContent with
    | nil => exact .done rfl
    | plain plain _ ih =>
      rw [List.append_assoc]
      exact .skipLiterals (isLiteral_of_isPlain plain) ih
    | short stands _ ih =>
      exact .again (skipStringStep_of_short stands _) (Nat.lt_succ_of_lt (Nat.lt_succ_self _)) ih
    | code four _ ih =>
      simp only [List.cons_append, List.append_assoc]
      refine .again (skipStringStep_of_code four _) ?_ ih
      simp only [List.length_append, List.length_cons]
      omega
  rw [skipString, course.loop_eq]
  rfl

end FormatHost.Json
