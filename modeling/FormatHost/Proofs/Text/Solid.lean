import FormatHost.Proofs.Text.Lines

/-! # Texts without blanks at their ends

Trimming a text leaves nothing of it or a solid text: one that begins and ends with something to be
seen. A solid text is what trimming gives back from any blanks around it. Joined by line feeds,
lines are read back as they were.
-/

namespace FormatHost.Text

/-- A text that is not empty and has no blank at either end. -/
structure Solid (s : Text) : Prop where
  nonempty : s ≠ []
  startsVisibly : ∀ c ∈ s.head?, isBlank c = false
  endsVisibly : s.EndsVisibly

private theorem solid_iff {s : Text} :
    s.Solid ↔ s ≠ [] ∧ s.head?.all (!isBlank ·) = true ∧ s.getLast?.all (!isBlank ·) = true := by
  have visible (o : Option Char) :
      o.all (!isBlank ·) = true ↔ ∀ c ∈ o, isBlank c = false := by
    cases o <;> simp
  rw [visible, visible]
  exact ⟨fun solid => ⟨solid.nonempty, solid.startsVisibly, solid.endsVisibly⟩,
    fun ⟨nonempty, starts, ends⟩ => ⟨nonempty, starts, ends⟩⟩

instance (s : Text) : Decidable s.Solid :=
  decidable_of_iff _ solid_iff.symm

/-- What trimming leaves of a text is solid. -/
theorem solid_trim {s : Text} (nonempty : trim s ≠ []) : (trim s).Solid where
  nonempty := nonempty
  startsVisibly := by
    intro c first
    obtain ⟨behind, whole⟩ : trim s <+: trimStart s := trimEnd_isPrefix (trimStart s)
    have start : c ∈ (trimStart s).head? := by
      rw [← whole, List.head?_append_of_ne_nil _ nonempty]
      exact first
    have visible := List.head?_dropWhile_not isBlank s
    rw [trimStart, Option.mem_def] at start
    simpa [start] using visible
  endsVisibly := endsVisibly_trimEnd _

/-- Trimming does not bring a line feed about. -/
theorem not_mem_trim {c : Char} {s : Text} (absent : c ∉ s) : c ∉ trim s := by
  intro member
  exact absent ((List.dropWhile_suffix isBlank).subset ((trimEnd_isPrefix _).subset member))

theorem trimStart_append_of_blank {s t : Text} (blank : ∀ c ∈ s, isBlank c = true) :
    trimStart (s ++ t) = trimStart t := by
  rw [trimStart, List.dropWhile_append_of_pos blank, trimStart]

private theorem trimEnd_append_of_blank {s t : Text} (blank : ∀ c ∈ t, isBlank c = true) :
    trimEnd (s ++ t) = trimEnd s := by
  rw [trimEnd, List.reverse_append, List.dropWhile_append_of_pos, trimEnd]
  intro c member
  exact blank c (List.mem_reverse.mp member)

theorem trim_of_blank {s : Text} (blank : ∀ c ∈ s, isBlank c = true) : trim s = [] := by
  have start := trimStart_append_of_blank (t := []) blank
  rw [List.append_nil, trimStart_nil] at start
  rw [trim, start, trimEnd_nil]

theorem Solid.trimStart {s : Text} (solid : s.Solid) (behind : Text) :
    (s ++ behind).trimStart = s ++ behind := by
  obtain ⟨c, rest, rfl⟩ := List.exists_cons_of_ne_nil solid.nonempty
  have visible := solid.startsVisibly c rfl
  rw [Text.trimStart, List.cons_append, List.dropWhile_cons_of_neg (by simp [visible])]

/-- Blanks around a solid text are trimmed off. -/
theorem Solid.trim {s : Text} (solid : s.Solid) {before behind : Text}
    (front : ∀ c ∈ before, isBlank c = true) (back : ∀ c ∈ behind, isBlank c = true) :
    (before ++ s ++ behind).trim = s := by
  rw [Text.trim, List.append_assoc, trimStart_append_of_blank front, solid.trimStart,
    trimEnd_append_of_blank back, trimEnd_eq_self_iff]
  exact solid.endsVisibly

theorem isBlank_of_mem_space {c : Char} (member : c ∈ [' ']) : isBlank c = true := by
  rw [List.mem_singleton.mp member]
  decide

/-- Lines put behind a text, each after a line feed. -/
def breakInto (lines : List Text) : Text :=
  lines.flatMap ('\n' :: ·)

@[simp] theorem breakInto_nil : breakInto [] = [] := rfl

@[simp] theorem breakInto_cons (line : Text) (rest : List Text) :
    breakInto (line :: rest) = '\n' :: (line ++ breakInto rest) := rfl

@[simp] theorem breakInto_append (a b : List Text) :
    breakInto (a ++ b) = breakInto a ++ breakInto b :=
  List.flatMap_append

theorem breakInto_replicate (n : ℕ) :
    breakInto (List.replicate n []) = List.replicate n '\n' := by
  rw [breakInto, List.flatMap_replicate]
  simp

theorem intercalate_eq_breakInto (first : Text) (rest : List Text) :
    ['\n'].intercalate (first :: rest) = first ++ breakInto rest := by
  induction rest generalizing first with
  | nil => simp
  | cons line rest ih => rw [List.intercalate_cons_cons, ih, breakInto_cons, List.append_assoc]; rfl

/-- Lines behind which a line is left open are ended lines before it. -/
theorem append_breakInto_snoc (first : Text) (rest : List Text) (last : Text) :
    first ++ breakInto (rest ++ [last]) = Layout.joinLines (first :: rest) ++ last := by
  induction rest generalizing first with
  | nil => simp
  | cons line rest ih =>
    rw [List.cons_append, breakInto_cons, ih, Layout.joinLines_cons first]
    simp

/-- Lines put behind one another are read back. -/
theorem lines_breakInto {first : Text} {rest : List Text} (unbroken : '\n' ∉ first)
    (others : ∀ line ∈ rest, '\n' ∉ line) : (first ++ breakInto rest).lines = first :: rest := by
  rw [lines_eq_splitOn, ← intercalate_eq_breakInto]
  apply List.splitOn_intercalate
  · intro line member
    obtain rfl | member := List.mem_cons.mp member
    · exact unbroken
    · exact others line member
  · exact List.cons_ne_nil first rest

theorem lines_of_unbroken {s : Text} (unbroken : '\n' ∉ s) : s.lines = [s] := by
  have lines := lines_breakInto unbroken (List.forall_mem_nil fun line => '\n' ∉ line)
  rwa [breakInto_nil, List.append_nil] at lines

/-- A text is its lines, put behind one another. -/
theorem eq_breakInto_of_lines {s first : Text} {rest : List Text}
    (shape : s.lines = first :: rest) : s = first ++ breakInto rest := by
  rw [← intercalate_eq_breakInto, ← shape, lines_eq_splitOn, List.intercalate_splitOn]

/-- A text has a first line, and no line of it is broken. -/
theorem exists_lines (s : Text) :
    ∃ first rest, s.lines = first :: rest ∧ ∀ line ∈ first :: rest, '\n' ∉ line := by
  obtain ⟨first, rest, shape⟩ := List.exists_cons_of_ne_nil (splitOn_ne_nil '\n' s)
  refine ⟨first, rest, shape, fun line member => ?_⟩
  rw [← shape] at member
  exact not_mem_of_mem_splitOn member

/-- A text is one line, or it has a first and a last line and others between them. -/
theorem lines_cases (s : Text) :
    (s.lines = [s] ∧ '\n' ∉ s) ∨
      ∃ first middle last, s.lines = first :: (middle ++ [last]) ∧ '\n' ∈ s ∧ '\n' ∉ first ∧
        (∀ line ∈ middle, '\n' ∉ line) ∧ '\n' ∉ last := by
  obtain ⟨first, rest, shape, unbroken⟩ := s.exists_lines
  have whole := eq_breakInto_of_lines shape
  obtain rfl | ⟨middle, last, rfl⟩ := List.eq_nil_or_concat' rest
  · rw [breakInto_nil, List.append_nil] at whole
    subst whole
    exact .inl ⟨shape, unbroken s (List.mem_singleton_self s)⟩
  · refine .inr ⟨first, middle, last, shape, ?_, ?_, ?_, ?_⟩
    · rw [whole, breakInto_append]
      simp
    · exact unbroken first (List.mem_cons_self ..)
    · intro line member
      exact unbroken line (by simp [member])
    · exact unbroken last (by simp)

end FormatHost.Text
