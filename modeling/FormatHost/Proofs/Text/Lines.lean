import FormatHost.Layout
import Mathlib.Data.List.DropRight

/-! # Lines and trimmed texts

Splitting a text is the library's `List.splitOn`, and trimming it at the end is `List.rdropWhile`.
What is needed beyond the library is how lines ended by line feeds are read back, and what the
first and last characters of a trimmed text are.
-/

namespace FormatHost.Text

theorem splitOn_eq_splitOn (separator : Char) (s : Text) :
    splitOn separator s = List.splitOn separator s := by
  induction s with
  | nil => rfl
  | cons c rest ih =>
    obtain ⟨piece, pieces, shape⟩ := List.exists_cons_of_ne_nil (List.splitOn_ne_nil separator rest)
    rw [splitOn] at ih ⊢
    rw [List.foldr_cons, ih, List.splitOn_cons_eq_if_modifyHead, shape]
    by_cases same : c = separator <;> simp [same]

theorem lines_eq_splitOn (s : Text) : s.lines = List.splitOn '\n' s :=
  splitOn_eq_splitOn '\n' s

/-- No piece holds the separator. -/
theorem not_mem_of_mem_splitOn {separator : Char} {s piece : Text}
    (member : piece ∈ splitOn separator s) : separator ∉ piece := by
  rw [splitOn_eq_splitOn] at member
  induction s generalizing piece with
  | nil => simp_all
  | cons c rest ih =>
    rw [List.splitOn_cons_eq_if_modifyHead] at member
    obtain ⟨first, pieces, shape⟩ := List.exists_cons_of_ne_nil (List.splitOn_ne_nil separator rest)
    rw [shape] at ih member
    by_cases same : c = separator
    · simp only [same, beq_self_eq_true, ↓reduceIte, List.mem_cons] at member
      obtain rfl | member := member
      · exact List.not_mem_nil
      · exact ih (List.mem_cons.mpr member)
    · simp only [beq_iff_eq, same, ↓reduceIte, List.modifyHead_cons, List.mem_cons] at member
      obtain rfl | member := member
      · have clear := ih (List.mem_cons_self ..)
        simp only [List.mem_cons, not_or]
        exact ⟨Ne.symm same, clear⟩
      · exact ih (List.mem_cons_of_mem _ member)

/-- Lines ended by line feeds are read back, with an empty one behind the last line feed. -/
theorem lines_joinLines {lines : List Text} (unbroken : ∀ line ∈ lines, '\n' ∉ line) :
    Text.lines (Layout.joinLines lines) = lines ++ [[]] := by
  rw [lines_eq_splitOn]
  induction lines with
  | nil => rfl
  | cons line rest ih =>
    have clear := unbroken line (List.mem_cons_self ..)
    have rest := ih fun other member => unbroken other (List.mem_cons_of_mem _ member)
    rw [Layout.joinLines_cons, List.splitOn_append_cons_self_of_not_mem clear, rest]
    rfl

/-- Whether a text has no blank at its end. -/
def EndsVisibly (s : Text) : Prop :=
  ∀ c ∈ s.getLast?, isBlank c = false

theorem trimEnd_eq_rdropWhile (s : Text) : trimEnd s = s.rdropWhile isBlank := rfl

theorem trimEnd_eq_self_iff {s : Text} : trimEnd s = s ↔ s.EndsVisibly := by
  rw [trimEnd_eq_rdropWhile, List.rdropWhile_eq_self_iff, EndsVisibly]
  constructor
  · intro visible c last
    obtain ⟨nonempty, rfl⟩ := List.mem_getLast?_eq_getLast last
    simpa using visible nonempty
  · intro visible nonempty
    simpa using visible _ (List.getLast?_eq_some_getLast nonempty)

/-- A trimmed text has no blank at its end. -/
theorem endsVisibly_trimEnd (s : Text) : (trimEnd s).EndsVisibly :=
  trimEnd_eq_self_iff.mp (List.rdropWhile_idempotent isBlank s)

/-- The end of a text decides what is at its end. -/
theorem endsVisibly_append_iff (s : Text) {t : Text} (nonempty : t ≠ []) :
    (s ++ t).EndsVisibly ↔ t.EndsVisibly := by
  rw [EndsVisibly, EndsVisibly, List.getLast?_append_of_ne_nil s nonempty]

/-- A text that is not empty and has no blank at its end is not made of blanks alone. -/
theorem EndsVisibly.exists_not_blank {s : Text} (visible : s.EndsVisibly) (nonempty : s ≠ []) :
    ∃ c ∈ s, isBlank c = false :=
  ⟨s.getLast nonempty, List.getLast_mem nonempty,
    visible _ (List.getLast?_eq_some_getLast nonempty)⟩

/-- A trimmed text is the front of the text. -/
theorem trimEnd_isPrefix (s : Text) : trimEnd s <+: s :=
  List.rdropWhile_prefix isBlank s

end FormatHost.Text
