import FormatHost.Proofs.Text.Lines

/-! # The visible part of a text

What is left of a text without its blanks. Trimming, cutting into lines and adding blanks do not
change it.
-/

namespace FormatHost.Text

/-- The characters of a text that are not blank. -/
def visible (s : Text) : Text :=
  s.filter fun c => !isBlank c

@[simp] theorem visible_nil : visible [] = [] := rfl

@[simp] theorem visible_append (s t : Text) : visible (s ++ t) = visible s ++ visible t :=
  List.filter_append ..

/-- Blanks are not visible. -/
theorem visible_eq_nil {s : Text} (blank : ∀ c ∈ s, isBlank c = true) : visible s = [] := by
  rw [visible, List.filter_eq_nil_iff]
  intro c member
  simp [blank c member]

theorem visible_dropWhile (s : Text) : visible (s.dropWhile isBlank) = visible s := by
  have front : visible (s.takeWhile isBlank) = [] :=
    visible_eq_nil fun c member => List.mem_takeWhile_imp member
  calc visible (s.dropWhile isBlank)
    _ = visible (s.takeWhile isBlank) ++ visible (s.dropWhile isBlank) := by
      rw [front, List.nil_append]
    _ = visible s := by rw [← visible_append, List.takeWhile_append_dropWhile]

theorem visible_reverse (s : Text) : visible s.reverse = (visible s).reverse :=
  List.filter_reverse ..

@[simp] theorem visible_trimStart (s : Text) : visible (trimStart s) = visible s :=
  visible_dropWhile s

@[simp] theorem visible_trimEnd (s : Text) : visible (trimEnd s) = visible s := by
  rw [trimEnd, visible_reverse, visible_dropWhile, visible_reverse, List.reverse_reverse]

@[simp] theorem visible_trim (s : Text) : visible (trim s) = visible s := by
  rw [trim, visible_trimEnd, visible_trimStart]

/-- The lines of a text hold all that is visible of it. -/
theorem visible_flatten_lines (s : Text) : visible s.lines.flatten = visible s := by
  rw [lines_eq_splitOn]
  induction s with
  | nil => rfl
  | cons c rest ih =>
    obtain ⟨line, lines, shape⟩ := List.exists_cons_of_ne_nil (List.splitOn_ne_nil '\n' rest)
    rw [shape, List.flatten_cons] at ih
    rw [List.splitOn_cons_eq_if_modifyHead, shape]
    by_cases feed : c = '\n'
    · subst feed
      calc visible ([] :: line :: lines).flatten
        _ = visible rest := ih
        _ = visible ('\n' :: rest) := rfl
    · have hidden : visible (c :: rest) = visible [c] ++ visible rest := visible_append [c] rest
      have first : visible (c :: line) = visible [c] ++ visible line := visible_append [c] line
      simp only [beq_iff_eq, feed, ↓reduceIte, List.modifyHead_cons, List.flatten_cons]
      rw [hidden, ← ih, visible_append, first, visible_append, List.append_assoc]

end FormatHost.Text
