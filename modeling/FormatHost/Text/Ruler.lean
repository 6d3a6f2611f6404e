import FormatHost.Text.Span

/-! # Rulers

A ruler is laid along a text once and then answers questions about offsets without going through
the text again. `length_along`, `isBoundary_along` and `lineOf_along` say that its answers are those
of the text.
-/

namespace FormatHost.Text

/-- What is known about each offset of a text. -/
structure Ruler where
  /-- For each offset before the end, the line feeds before it and whether a character starts
  there. -/
  marks : Array (Nat × Bool)
  /-- The line feeds in the whole text. -/
  lines : Nat

namespace Ruler

/-- The marks of a character: its first byte starts it, the others do not. -/
def marksOf (line : Nat) (c : Char) : List (Nat × Bool) :=
  (line, true) :: List.replicate (c.utf8Size - 1) (line, false)

def extend (r : Ruler) (c : Char) : Ruler :=
  ⟨r.marks ++ marksOf r.lines c, if c = '\n' then r.lines + 1 else r.lines⟩

def along (s : Text) : Ruler :=
  s.foldl extend ⟨#[], 0⟩

def length (r : Ruler) : Nat :=
  r.marks.size

/-- Whether an offset lies between two characters, or at an end, of the text. -/
def isBoundary (r : Ruler) (n : Nat) : Bool :=
  match r.marks[n]? with
  | some (_, starts) => starts
  | none => n == r.length

/-- How many line feeds start before an offset. -/
def lineOf (r : Ruler) (n : Nat) : Nat :=
  match r.marks[n]? with
  | some (line, _) => line
  | none => r.lines

/-- The marks of a text whose first character has some line feeds before it. -/
def marksAlong (line : Nat) : Text → List (Nat × Bool)
  | [] => []
  | c :: rest => marksOf line c ++ marksAlong (if c = '\n' then line + 1 else line) rest

/-- The line feeds up to the end of a text that has some before it. -/
def linesAlong (line : Nat) : Text → Nat
  | [] => line
  | c :: rest => linesAlong (if c = '\n' then line + 1 else line) rest

theorem toList_marks_foldl_extend (s : Text) (r : Ruler) :
    (s.foldl extend r).marks.toList = r.marks.toList ++ marksAlong r.lines s := by
  induction s generalizing r with
  | nil => simp [marksAlong]
  | cons c rest ih => simp [ih, extend, marksAlong]

private theorem lines_foldl_extend (s : Text) (r : Ruler) :
    (s.foldl extend r).lines = linesAlong r.lines s := by
  induction s generalizing r with
  | nil => rfl
  | cons c rest ih => simp [ih, extend, linesAlong]

theorem getElem?_marks_along (s : Text) (n : Nat) :
    (along s).marks[n]? = (marksAlong 0 s)[n]? := by
  rw [← Array.getElem?_toList, along, toList_marks_foldl_extend, List.nil_append]

theorem length_marksOf (line : Nat) (c : Char) : (marksOf line c).length = c.utf8Size := by
  have := c.utf8Size_pos
  simp [marksOf]
  omega

private theorem length_marksAlong (s : Text) (line : Nat) :
    (marksAlong line s).length = s.byteLength := by
  induction s generalizing line with
  | nil => rfl
  | cons c rest ih => simp [marksAlong, ih, length_marksOf]

/-- A ruler has the length of its text. -/
@[simp] theorem length_along (s : Text) : (along s).length = s.byteLength := by
  rw [length, ← Array.length_toList, along, toList_marks_foldl_extend, List.nil_append,
    length_marksAlong]

/-- The mark of an offset inside the first character. -/
theorem getElem?_marksOf (line : Nat) (c : Char) (n : Nat) (inside : n < c.utf8Size) :
    (marksOf line c)[n]? = some (line, n == 0) := by
  cases n with
  | zero => rfl
  | succ n =>
    simp [marksOf, List.getElem?_replicate]
    omega

private theorem isBoundary_marksAlong (s : Text) (line n : Nat) :
    (match (marksAlong line s)[n]? with
      | some (_, starts) => starts
      | none => n == s.byteLength) = s.isBoundary n := by
  induction s generalizing line n with
  | nil => cases n <;> simp [marksAlong, Text.isBoundary]
  | cons c rest ih =>
    by_cases inside : n < c.utf8Size
    · rw [marksAlong, List.getElem?_append_left (by rw [length_marksOf]; exact inside),
        getElem?_marksOf line c n inside]
      cases n with
      | zero => simp [Text.isBoundary]
      | succ n => simp [Text.isBoundary]; omega
    · have small : c.utf8Size ≤ n := Nat.le_of_not_lt inside
      rw [marksAlong, List.getElem?_append_right (by rw [length_marksOf]; exact small),
        length_marksOf]
      have positive := c.utf8Size_pos
      obtain ⟨k, rfl⟩ : ∃ k, n = k + 1 := ⟨n - 1, by omega⟩
      have same : (k + 1 == byteLength (c :: rest)) = (k + 1 - c.utf8Size == byteLength rest) := by
        rw [byteLength_cons, Bool.eq_iff_iff, beq_iff_eq, beq_iff_eq]
        omega
      rw [Text.isBoundary, decide_eq_true small, Bool.true_and, same]
      exact ih _ _

/-- A ruler has the boundaries of its text. -/
@[simp] theorem isBoundary_along (s : Text) (n : Nat) :
    (along s).isBoundary n = s.isBoundary n := by
  rw [isBoundary, getElem?_marks_along, length_along]
  exact isBoundary_marksAlong s 0 n

private theorem lineOf_marksAlong (s : Text) (line n : Nat) :
    (match (marksAlong line s)[n]? with
      | some (line', _) => line'
      | none => linesAlong line s) = line + s.lineOf n := by
  induction s generalizing line n with
  | nil => cases n <;> simp [marksAlong, linesAlong, Text.lineOf]
  | cons c rest ih =>
    by_cases inside : n < c.utf8Size
    · rw [marksAlong, List.getElem?_append_left (by rw [length_marksOf]; exact inside),
        getElem?_marksOf line c n inside]
      cases n with
      | zero => simp [Text.lineOf]
      | succ n =>
        have wide : c ≠ '\n' := by
          rintro rfl
          simp [Char.utf8Size] at inside
        have none : n + 1 - c.utf8Size = 0 := by omega
        simp [Text.lineOf, wide, none]
    · have small : c.utf8Size ≤ n := Nat.le_of_not_lt inside
      rw [marksAlong, List.getElem?_append_right (by rw [length_marksOf]; exact small),
        length_marksOf, linesAlong, ih]
      have positive := c.utf8Size_pos
      obtain ⟨k, rfl⟩ : ∃ k, n = k + 1 := ⟨n - 1, by omega⟩
      rw [Text.lineOf]
      split <;> omega

/-- A ruler has the lines of its text. -/
@[simp] theorem lineOf_along (s : Text) (n : Nat) : (along s).lineOf n = s.lineOf n := by
  rw [lineOf, getElem?_marks_along, along, lines_foldl_extend]
  simpa using lineOf_marksAlong s 0 n

end Ruler

end FormatHost.Text
