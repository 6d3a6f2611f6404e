import FormatHost.Proofs.NormalForm
import Mathlib.Data.List.Forall2

/-! # Normalising line by line

A text is its lines with text on them and the numbers of blank lines before each of these; what
follows the last of them are blank lines only. Normalising rewrites each line with text on its own,
shortens the blank runs between them, and drops those at both ends. There is nothing else in a
normalised text, so another layout finds the lines and the runs there and can only shorten the runs
once more.
-/

namespace FormatHost

namespace Text

/-- Whether something is to be seen on a line. -/
def hasText (line : Text) : Bool :=
  line.any (!isBlank ·)

def textLines (s : Text) : List Text :=
  s.lines.filter hasText

/-- How many blank lines stand right before each of some lines that is not blank. -/
def blanksBefore (lines : List Text) : List ℕ :=
  (lines.splitOnP hasText).dropLast.map List.length

theorem hasText_eq_false_iff {line : Text} : line.hasText = false ↔ line.trimEnd = [] := by
  rw [trimEnd_eq_rdropWhile, List.rdropWhile_eq_nil_iff]
  simp [hasText]

theorem trimEnd_ne_nil {line : Text} (text : line.hasText = true) : line.trimEnd ≠ [] := by
  intro blank
  rw [hasText_eq_false_iff.mpr blank] at text
  contradiction

@[simp] theorem blanksBefore_nil : blanksBefore [] = [] := rfl

/-- Before a line with text at the front there is no blank one. -/
theorem blanksBefore_cons_of_text {line : Text} (text : line.hasText = true) (rest : List Text) :
    blanksBefore (line :: rest) = 0 :: blanksBefore rest := by
  rw [blanksBefore, List.splitOnP_cons_eq_if_modifyHead, if_pos text,
    List.dropLast_cons_of_ne_nil (List.splitOnP_ne_nil _ rest)]
  rfl

/-- A blank line at the front is one more before the first line with text. -/
theorem blanksBefore_cons_of_blank {line : Text} (blank : line.hasText = false)
    (rest : List Text) :
    blanksBefore (line :: rest) = (blanksBefore rest).modifyHead (· + 1) := by
  obtain ⟨run, runs, shape⟩ := List.exists_cons_of_ne_nil (List.splitOnP_ne_nil hasText rest)
  rw [blanksBefore, List.splitOnP_cons_eq_if_modifyHead, if_neg (by simp [blank]), blanksBefore,
    shape]
  cases runs <;> rfl

private theorem length_blanksBefore (lines : List Text) :
    (blanksBefore lines).length = (lines.filter hasText).length := by
  induction lines with
  | nil => rfl
  | cons line rest ih =>
    cases text : line.hasText with
    | true => rw [blanksBefore_cons_of_text text, List.filter_cons_of_pos text, List.length_cons,
        List.length_cons, ih]
    | false => rw [blanksBefore_cons_of_blank text, List.filter_cons_of_neg (by simp [text]),
        List.length_modifyHead, ih]

private theorem blanksBefore_replicate_append (n : ℕ) {line : Text} (text : line.hasText = true)
    (rest : List Text) :
    blanksBefore (List.replicate n [] ++ line :: rest) = n :: blanksBefore rest := by
  induction n with
  | zero => exact blanksBefore_cons_of_text text rest
  | succ n ih =>
    rw [List.replicate_succ, List.cons_append, blanksBefore_cons_of_blank rfl, ih]
    rfl

end Text

namespace Layout

/-- A line with text and what is written for it: the blanks at its end are left out, and in its
indentation each tab is written as spaces. All else is kept. -/
def Rewrites (layout : Layout) (line written : Text) : Prop :=
  ∃ indent body blanks, line = indent ++ (body ++ blanks) ∧ (∀ c ∈ indent, c = ' ' ∨ c = '\t') ∧
    (∀ c ∈ body.head?, c ≠ ' ' ∧ c ≠ '\t') ∧ body ≠ [] ∧ body.EndsVisibly ∧
    (∀ c ∈ blanks, Text.isBlank c = true) ∧
    written = indent.flatMap
      (fun c => if c = '\t' then List.replicate layout.indentWidth ' ' else [c]) ++ body

/-- What is written for a line with text. -/
theorem rewrites_expandTabs (layout : Layout) {line : Text} (text : line.hasText = true) :
    layout.Rewrites line (layout.expandTabs line.trimEnd) := by
  have nonempty := Text.trimEnd_ne_nil text
  have visible := Text.endsVisibly_trimEnd line
  have indent : ∀ c ∈ line.trimEnd.takeWhile isIndent, c = ' ' ∨ c = '\t' := by
    intro c member
    simpa [isIndent] using List.mem_takeWhile_imp member
  refine ⟨line.trimEnd.takeWhile isIndent, line.trimEnd.dropWhile isIndent,
    line.rtakeWhile Text.isBlank, ?_, indent, ?_, dropWhile_isIndent_ne_nil visible nonempty,
    endsVisibly_dropWhile_isIndent visible nonempty, ?_, ?_⟩
  · rw [← List.append_assoc, List.takeWhile_append_dropWhile, Text.trimEnd_eq_rdropWhile,
      List.rdropWhile_append_rtakeWhile]
  · intro c first
    have other := List.head?_dropWhile_not isIndent line.trimEnd
    rw [Option.mem_def.mp first] at other
    simpa [isIndent] using other
  · exact fun c member => List.mem_rtakeWhile_imp member
  · rw [expandTabs]
    congr 1
    apply List.flatMap_congr
    intro c member
    rw [expandIndent]
    obtain rfl | rfl := indent c member <;> rfl

/-! ## Lines woven together -/

/-- Lines with the numbers of empty lines that stand before each of them. -/
def weave : List ℕ → List Text → List Text
  | n :: blanks, line :: rest => List.replicate n [] ++ line :: weave blanks rest
  | _, _ => []

section Weave

variable {blanks : List ℕ} {lines : List Text}

/-- The lines are read back, also before the empty piece behind the last line feed. -/
theorem filter_weave (same : blanks.length = lines.length)
    (text : ∀ line ∈ lines, line.hasText = true) :
    (weave blanks lines ++ [[]]).filter Text.hasText = lines := by
  induction lines generalizing blanks with
  | nil => cases blanks <;> rfl
  | cons line rest ih =>
    obtain ⟨n, blanks, rfl⟩ : ∃ n others, blanks = n :: others :=
      List.exists_cons_of_length_eq_add_one same
    obtain ⟨first, others⟩ := List.forall_mem_cons.mp text
    have none : (List.replicate n []).filter Text.hasText = [] := by
      simp [Text.hasText]
    rw [weave, List.append_assoc, List.filter_append, none, List.nil_append, List.cons_append,
      List.filter_cons_of_pos first, ih (Nat.succ.inj same) others]

private theorem blanksBefore_weave (same : blanks.length = lines.length)
    (text : ∀ line ∈ lines, line.hasText = true) :
    Text.blanksBefore (weave blanks lines ++ [[]]) = blanks := by
  induction lines generalizing blanks with
  | nil =>
    obtain rfl := List.length_eq_zero_iff.mp same
    rfl
  | cons line rest ih =>
    obtain ⟨n, blanks, rfl⟩ : ∃ n others, blanks = n :: others :=
      List.exists_cons_of_length_eq_add_one same
    obtain ⟨first, others⟩ := List.forall_mem_cons.mp text
    rw [weave, List.append_assoc, List.cons_append, Text.blanksBefore_replicate_append n first,
      ih (Nat.succ.inj same) others]

private theorem mem_weave {line : Text} (member : line ∈ weave blanks lines) :
    line = [] ∨ line ∈ lines := by
  fun_induction weave blanks lines with
  | case1 n blanks first rest ih =>
    rw [List.mem_append, List.mem_cons] at member
    obtain empty | rfl | later := member
    · exact .inl (List.eq_of_mem_replicate empty)
    · exact .inr (List.mem_cons_self ..)
    · exact (ih later).imp_right (List.mem_cons_of_mem _)
  | case2 => contradiction

end Weave

/-! ## One line at a time -/

private theorem keepLines_cons_of_blank (layout : Layout) {line : Text}
    (blank : line.hasText = false) (seen : Option ℕ) (rest : List Text) :
    layout.keepLines seen (line :: rest) = layout.keepLines (seen.map (· + 1)) rest := by
  rw [keepLines, Text.hasText_eq_false_iff.mp blank]

private theorem keepLines_cons_of_text (layout : Layout) {line : Text} (text : line.hasText = true)
    (seen : Option ℕ) (rest : List Text) :
    layout.keepLines seen (line :: rest) =
      List.replicate (min (seen.getD 0) layout.maxBlankLines) [] ++
        layout.expandTabs line.trimEnd :: layout.keepLines (some 0) rest := by
  obtain ⟨c, body, shape⟩ := List.exists_cons_of_ne_nil (Text.trimEnd_ne_nil text)
  rw [keepLines, shape]

/-- The lines that are kept are those with text, each behind its blank lines as far as the layout
keeps them. Those before the first one are added to the blank lines seen earlier, or they do not
count if there was no line with text yet. -/
theorem keepLines_eq_weave (layout : Layout) (seen : Option ℕ) (lines : List Text) :
    layout.keepLines seen lines =
      weave (((Text.blanksBefore lines).modifyHead fun n => (seen.map (· + n)).getD 0).map
          (min · layout.maxBlankLines))
        ((lines.filter Text.hasText).map fun line => layout.expandTabs line.trimEnd) := by
  induction lines generalizing seen with
  | nil => rfl
  | cons line rest ih =>
    cases text : line.hasText with
    | false =>
      rw [layout.keepLines_cons_of_blank text, ih, Text.blanksBefore_cons_of_blank text,
        List.modifyHead_modifyHead, List.filter_cons_of_neg (by simp [text])]
      congr 3
      funext n
      cases seen <;> simp [Nat.add_assoc, Nat.add_comm 1]
    | true =>
      have fresh : (Text.blanksBefore rest).modifyHead (fun n => ((some 0).map (· + n)).getD 0) =
          Text.blanksBefore rest := by
        cases Text.blanksBefore rest <;> simp
      rw [layout.keepLines_cons_of_text text, ih, fresh, Text.blanksBefore_cons_of_text text,
        List.filter_cons_of_pos text, List.modifyHead_cons, List.map_cons, List.map_cons, weave]
      cases seen <;> rfl

/-! ## Whole texts -/

/-- What is written for the lines with text. -/
def rewritten (layout : Layout) (source : Text) : List Text :=
  source.textLines.map fun line => layout.expandTabs line.trimEnd

/-- How many empty lines are kept before each of the lines with text. -/
def keptBlanks (layout : Layout) (source : Text) : List ℕ :=
  ((Text.blanksBefore source.lines).modifyHead fun _ => 0).map (min · layout.maxBlankLines)

theorem normalize_eq_weave (layout : Layout) (source : Text) :
    layout.normalize source =
      joinLines (weave (layout.keptBlanks source) (layout.rewritten source)) :=
  congrArg joinLines (layout.keepLines_eq_weave none source.lines)

theorem length_keptBlanks (layout : Layout) (source : Text) :
    (layout.keptBlanks source).length = (layout.rewritten source).length := by
  rw [keptBlanks, List.length_map, List.length_modifyHead, Text.length_blanksBefore, rewritten,
    List.length_map]
  rfl

private theorem forall₂_rewrites (layout : Layout) (source : Text) :
    List.Forall₂ layout.Rewrites source.textLines (layout.rewritten source) := by
  rw [rewritten, List.forall₂_map_right_iff, List.forall₂_same]
  intro line member
  exact layout.rewrites_expandTabs (List.mem_filter.mp member).2

/-- A rewritten line is clean and has text on it. -/
theorem cleanLine_of_mem_rewritten {layout : Layout} {source line : Text}
    (member : line ∈ layout.rewritten source) : CleanLine line ∧ line.hasText = true := by
  obtain ⟨original, present, rfl⟩ := List.mem_map.mp member
  obtain ⟨inSource, text⟩ := List.mem_filter.mp present
  obtain ⟨clean, nonempty⟩ := layout.cleanLine_of_trimEnd
    (Text.not_mem_of_mem_splitOn inSource) rfl (Text.trimEnd_ne_nil text)
  refine ⟨clean, ?_⟩
  simpa [Text.hasText] using clean.endsVisibly.exists_not_blank nonempty

theorem lines_normalize (layout : Layout) (source : Text) :
    (layout.normalize source).lines =
      weave (layout.keptBlanks source) (layout.rewritten source) ++ [[]] := by
  rw [normalize_eq_weave]
  apply Text.lines_joinLines
  intro line member
  obtain rfl | present := mem_weave member
  · exact List.not_mem_nil
  · exact (cleanLine_of_mem_rewritten present).1.unbroken

theorem textLines_normalize (layout : Layout) (source : Text) :
    (layout.normalize source).textLines = layout.rewritten source := by
  rw [Text.textLines, lines_normalize]
  exact filter_weave (layout.length_keptBlanks source) fun line member =>
    (cleanLine_of_mem_rewritten member).2

theorem blanksBefore_normalize (layout : Layout) (source : Text) :
    Text.blanksBefore (layout.normalize source).lines = layout.keptBlanks source := by
  rw [lines_normalize]
  exact blanksBefore_weave (layout.length_keptBlanks source) fun line member =>
    (cleanLine_of_mem_rewritten member).2

/-- Whatever the text and the layout: the lines with text of the normalised text are those of the
text in the same order, each of them rewritten. Between two of them there are as many empty lines as
there were blank ones, but no more than the layout keeps. There are none before the first one, and
the text is made of these lines and nothing else, each of them ended by a line feed. -/
theorem normalize_rewrites_lines (layout : Layout) (source : Text) :
    let result := layout.normalize source
    List.Forall₂ layout.Rewrites source.textLines result.textLines ∧
      (Text.blanksBefore result.lines).tail =
        (Text.blanksBefore source.lines).tail.map (min · layout.maxBlankLines) ∧
      (∀ n ∈ (Text.blanksBefore result.lines).head?, n = 0) ∧
      result = joinLines (weave (Text.blanksBefore result.lines) result.textLines) := by
  intro result
  have whole := layout.normalize_eq_weave source
  rw [textLines_normalize, blanksBefore_normalize]
  refine ⟨layout.forall₂_rewrites source, ?_, ?_, whole⟩
  · rw [keptBlanks, ← List.map_tail, List.tail_modifyHead]
  · intro n first
    rw [keptBlanks] at first
    cases shape : Text.blanksBefore source.lines with
    | nil => simp [shape] at first
    | cons m rest => simpa [shape, eq_comm] using first

-- The line with a no-break space only is blank, and the one that begins with it is not indented.
example : (Layout.mk 4 1).normalize "\u00A0\n a\r\n\n\u00A0\n \t\u00A0b\tc ".toList =
    " a\n\n     \u00A0b\tc\n".toList := by
  decide

/-! ## One layout after another -/

/-- A clean line is written as it is, whatever the layout. -/
theorem expandTabs_trimEnd_of_cleanLine (layout : Layout) {line : Text} (clean : CleanLine line) :
    layout.expandTabs line.trimEnd = line := by
  rw [Text.trimEnd_eq_self_iff.mpr clean.endsVisibly, layout.expandTabs_eq_self clean.noTab]

private theorem rewritten_normalize (first second : Layout) (source : Text) :
    second.rewritten (first.normalize source) = first.rewritten source := by
  rw [rewritten, textLines_normalize]
  conv_rhs => rw [← List.map_id (first.rewritten source)]
  apply List.map_congr_left
  intro line member
  exact second.expandTabs_trimEnd_of_cleanLine (cleanLine_of_mem_rewritten member).1

/-- Runs that were shortened once are shortened again. The one before the first line is gone. -/
theorem keptBlanks_normalize (first second : Layout) (source : Text) :
    second.keptBlanks (first.normalize source) =
      (first.keptBlanks source).map (min · second.maxBlankLines) := by
  rw [keptBlanks, blanksBefore_normalize, keptBlanks]
  cases Text.blanksBefore source.lines with
  | nil => rfl
  | cons n rest => simp

/-- Normalising a text with one layout after another is normalising it once, with the first width
and the smaller number of blank lines. So the second width does not matter, and the two numbers of
blank lines can be given in either order. -/
theorem normalize_composes (first second : Layout) (source : Text) :
    second.normalize (first.normalize source) =
        (Layout.mk first.indentWidth
          (min first.maxBlankLines second.maxBlankLines)).normalize source ∧
      (∀ width, (Layout.mk width second.maxBlankLines).normalize (first.normalize source) =
        second.normalize (first.normalize source)) ∧
      ∀ width, (Layout.mk width first.maxBlankLines).normalize
          ((Layout.mk first.indentWidth second.maxBlankLines).normalize source) =
        second.normalize (first.normalize source) := by
  have once : ∀ first second : Layout, second.normalize (first.normalize source) =
      (Layout.mk first.indentWidth
        (min first.maxBlankLines second.maxBlankLines)).normalize source := by
    intro first second
    have blanks : second.keptBlanks (first.normalize source) =
        (Layout.mk first.indentWidth
          (min first.maxBlankLines second.maxBlankLines)).keptBlanks source := by
      rw [keptBlanks_normalize, keptBlanks, keptBlanks, List.map_map]
      apply List.map_congr_left
      intro n _
      exact min_assoc n first.maxBlankLines second.maxBlankLines
    -- What is written for a line with text depends on the width alone.
    rw [normalize_eq_weave, blanks, rewritten_normalize, normalize_eq_weave]
    rfl
  refine ⟨once first second, fun width => ?_, fun width => ?_⟩
  · rw [once, once]
  · rw [once, once, min_comm]

example : (Layout.mk 8 1).normalize ((Layout.mk 2 0).normalize "\ta\n\n\n\tb".toList) =
    "  a\n  b\n".toList := by
  decide

end Layout

end FormatHost
