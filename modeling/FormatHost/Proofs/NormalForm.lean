import FormatHost.Proofs.Text.Lines

/-! # Normal forms of texts

A text is in normal form for a layout if it consists of ended lines without blanks at their end and
without tabs in their indentation, with text on the first and on the last of them, and with no more
empty lines in a row than the layout keeps. Normalising gives such a text and leaves such a text
alone, so the normal forms are exactly what normalising gives and exactly what it does not change.
-/

namespace FormatHost.Layout

/-- A line that is left alone: it has no line feed, no blank at its end and no tab in its
indentation. -/
structure CleanLine (line : Text) : Prop where
  unbroken : '\n' ∉ line
  endsVisibly : line.EndsVisibly
  noTab : '\t' ∉ line.takeWhile isIndent

/-- Lines that can follow a line with text: they are clean, the last of them is not empty, and no
more of them in a row are empty than the layout keeps. -/
structure KeptLines (layout : Layout) (lines : List Text) : Prop where
  clean : ∀ line ∈ lines, CleanLine line
  last : lines.getLast? ≠ some []
  runs : ∀ n, List.replicate n [] <:+: lines → n ≤ layout.maxBlankLines

/-- The lines of a text in normal form: the first of them is not empty either. -/
structure NormalLines (layout : Layout) (lines : List Text) : Prop
    extends layout.KeptLines lines where
  first : lines.head? ≠ some []

/-- A text in normal form: its lines are, and each of them is ended by a line feed. -/
def IsNormal (layout : Layout) (text : Text) : Prop :=
  ∃ lines, layout.NormalLines lines ∧ text = joinLines lines

/-! ## Indentation -/

private theorem takeWhile_isIndent_eq_replicate {line : Text}
    (noTab : '\t' ∉ line.takeWhile isIndent) :
    line.takeWhile isIndent = List.replicate (line.takeWhile isIndent).length ' ' := by
  apply List.eq_replicate_of_mem
  intro c member
  have indent := List.mem_takeWhile_imp member
  have other : c ≠ '\t' := fun tab => noTab (tab ▸ member)
  simpa [isIndent, other] using indent

/-- Indentation is written in spaces only. -/
theorem exists_replicate_expandIndent (layout : Layout) (indent : Text) :
    ∃ n, indent.flatMap layout.expandIndent = List.replicate n ' ' := by
  refine ⟨_, List.eq_replicate_of_mem fun c member => ?_⟩
  obtain ⟨source, _, written⟩ := List.mem_flatMap.mp member
  unfold expandIndent at written
  split at written
  · exact List.eq_of_mem_replicate written
  · simpa using written

/-- A line without tabs in its indentation is not changed by expanding them. -/
theorem expandTabs_eq_self (layout : Layout) {line : Text}
    (noTab : '\t' ∉ line.takeWhile isIndent) : layout.expandTabs line = line := by
  have spaces : (line.takeWhile isIndent).flatMap layout.expandIndent =
      line.takeWhile isIndent := by
    rw [takeWhile_isIndent_eq_replicate noTab, List.flatMap_replicate]
    simp [expandIndent]
  rw [expandTabs, spaces, List.takeWhile_append_dropWhile]

private theorem takeWhile_dropWhile_isIndent (line : Text) :
    (line.dropWhile isIndent).takeWhile isIndent = [] := by
  have first := List.head?_dropWhile_not isIndent line
  cases shape : line.dropWhile isIndent with
  | nil => rfl
  | cons c rest => simp_all

/-- The indentation of an expanded line is what its indentation was expanded to. -/
theorem takeWhile_expandTabs (layout : Layout) (line : Text) :
    (layout.expandTabs line).takeWhile isIndent =
      (line.takeWhile isIndent).flatMap layout.expandIndent := by
  obtain ⟨n, spaces⟩ := exists_replicate_expandIndent layout (line.takeWhile isIndent)
  rw [expandTabs, spaces, List.takeWhile_append_of_pos, takeWhile_dropWhile_isIndent,
    List.append_nil]
  intro c member
  rw [List.eq_of_mem_replicate member]
  rfl

theorem isBlank_of_isIndent {c : Char} (indent : isIndent c = true) : Text.isBlank c = true := by
  simp only [isIndent, Bool.or_eq_true, beq_iff_eq] at indent
  obtain rfl | rfl := indent <;> decide

/-- Behind the indentation of a trimmed line there is text. -/
theorem dropWhile_isIndent_ne_nil {line : Text} (visible : line.EndsVisibly)
    (nonempty : line ≠ []) : line.dropWhile isIndent ≠ [] := by
  intro onlyIndent
  obtain ⟨c, member, notBlank⟩ := visible.exists_not_blank nonempty
  have blank := isBlank_of_isIndent (List.dropWhile_eq_nil_iff.mp onlyIndent c member)
  rw [blank] at notBlank
  contradiction

/-- What is behind the indentation of a trimmed line has no blank at its end either. -/
theorem endsVisibly_dropWhile_isIndent {line : Text} (visible : line.EndsVisibly)
    (nonempty : line ≠ []) : Text.EndsVisibly (line.dropWhile isIndent) := by
  have body := dropWhile_isIndent_ne_nil visible nonempty
  rw [← List.takeWhile_append_dropWhile (p := isIndent) (l := line)] at visible
  exact (Text.endsVisibly_append_iff _ body).mp visible

/-- Expanding the tabs of a trimmed line that is not empty makes it clean and leaves text on it. -/
theorem cleanLine_expandTabs (layout : Layout) {line : Text} (unbroken : '\n' ∉ line)
    (visible : line.EndsVisibly) (nonempty : line ≠ []) :
    CleanLine (layout.expandTabs line) ∧ layout.expandTabs line ≠ [] := by
  obtain ⟨n, spaces⟩ := exists_replicate_expandIndent layout (line.takeWhile isIndent)
  have body := dropWhile_isIndent_ne_nil visible nonempty
  refine ⟨⟨?_, ?_, ?_⟩, ?_⟩
  · rw [expandTabs, spaces, List.mem_append, not_or]
    refine ⟨by simp, fun member => unbroken ?_⟩
    exact (List.dropWhile_suffix isIndent).subset member
  · rw [expandTabs, Text.endsVisibly_append_iff _ body]
    exact endsVisibly_dropWhile_isIndent visible nonempty
  · rw [takeWhile_expandTabs, spaces]
    simp
  · rw [expandTabs]
    exact List.append_ne_nil_of_right_ne_nil _ body

/-! ## Runs of empty lines -/

theorem le_of_replicate_front {α : Type} {a x : α} {n k : ℕ} {rest : List α} (other : x ≠ a)
    (front : List.replicate n a <+: List.replicate k a ++ x :: rest) : n ≤ k := by
  induction k generalizing n with
  | zero =>
    cases n with
    | zero => exact le_rfl
    | succ n => exact absurd (List.cons_prefix_cons.mp front).1.symm other
  | succ k ih =>
    cases n with
    | zero => exact Nat.zero_le _
    | succ n => exact Nat.succ_le_succ (ih (List.cons_prefix_cons.mp front).2)

/-- A run of one element in a list lies before or behind any other element. -/
theorem le_or_infix_of_replicate_infix {α : Type} {a x : α} {n k : ℕ} {rest : List α}
    (other : x ≠ a) (run : List.replicate n a <:+: List.replicate k a ++ x :: rest) :
    n ≤ k ∨ List.replicate n a <:+: rest := by
  induction k with
  | zero =>
    obtain front | behind := List.infix_cons_iff.mp run
    · exact .inl (le_of_replicate_front (k := 0) other front)
    · exact .inr behind
  | succ k ih =>
    obtain front | behind := List.infix_cons_iff.mp run
    · exact .inl (le_of_replicate_front (k := k + 1) other front)
    · exact (ih behind).imp_left Nat.le_succ_of_le

/-! ## Normalising gives a normal form -/

theorem keptLines_nil (layout : Layout) : layout.KeptLines [] where
  clean := by simp
  last := by simp
  runs n run := by
    rw [List.infix_nil, List.replicate_eq_nil_iff] at run
    omega

/-- A line with text may be put before kept lines, behind as many empty ones as the layout keeps. -/
theorem KeptLines.cons {layout : Layout} {line : Text} {rest : List Text} {blanks : ℕ}
    (kept : layout.KeptLines rest) (clean : CleanLine line) (nonempty : line ≠ [])
    (few : blanks ≤ layout.maxBlankLines) :
    layout.KeptLines (List.replicate blanks [] ++ line :: rest) where
  clean := by
    intro other member
    rw [List.mem_append, List.mem_cons] at member
    obtain blank | rfl | member := member
    · rw [List.eq_of_mem_replicate blank]
      exact ⟨by simp, by simp [Text.EndsVisibly], by simp⟩
    · exact clean
    · exact kept.clean other member
  last := by
    rw [List.getLast?_append_of_ne_nil _ (by simp)]
    cases rest with
    | nil => simpa using nonempty
    | cons next rest =>
      rw [List.getLast?_cons_cons]
      exact kept.last
  runs n run := by
    obtain short | behind := le_or_infix_of_replicate_infix nonempty run
    · exact short.trans few
    · exact kept.runs n behind

/-- A line that is not blank is clean once it is trimmed and its tabs are expanded. -/
theorem cleanLine_of_trimEnd (layout : Layout) {line trimmed : Text} (unbroken : '\n' ∉ line)
    (trim : Text.trimEnd line = trimmed) (nonempty : trimmed ≠ []) :
    CleanLine (layout.expandTabs trimmed) ∧ layout.expandTabs trimmed ≠ [] := by
  subst trim
  exact layout.cleanLine_expandTabs
    (fun member => unbroken ((Text.trimEnd_isPrefix line).subset member))
    (Text.endsVisibly_trimEnd line) nonempty

private theorem keptLines_keepLines (layout : Layout) (lines : List Text) (blanks : ℕ)
    (unbroken : ∀ line ∈ lines, '\n' ∉ line) :
    layout.KeptLines (layout.keepLines (some blanks) lines) := by
  induction lines generalizing blanks with
  | nil => exact layout.keptLines_nil
  | cons line rest ih =>
    have later : ∀ other ∈ rest, '\n' ∉ other :=
      fun other member => unbroken other (List.mem_cons_of_mem _ member)
    cases trimmed : Text.trimEnd line with
    | nil =>
      simp only [keepLines, trimmed]
      exact ih _ later
    | cons c body =>
      obtain ⟨clean, nonempty⟩ := layout.cleanLine_of_trimEnd
        (unbroken line (List.mem_cons_self ..)) trimmed (List.cons_ne_nil c body)
      simp only [keepLines, trimmed]
      exact (ih 0 later).cons clean nonempty (Nat.min_le_right _ _)

theorem normalLines_keepLines (layout : Layout) (lines : List Text)
    (unbroken : ∀ line ∈ lines, '\n' ∉ line) :
    layout.NormalLines (layout.keepLines none lines) := by
  induction lines with
  | nil => exact ⟨layout.keptLines_nil, by simp [keepLines]⟩
  | cons line rest ih =>
    have later : ∀ other ∈ rest, '\n' ∉ other :=
      fun other member => unbroken other (List.mem_cons_of_mem _ member)
    cases trimmed : Text.trimEnd line with
    | nil =>
      simp only [keepLines, trimmed]
      exact ih later
    | cons c body =>
      obtain ⟨clean, nonempty⟩ := layout.cleanLine_of_trimEnd
        (unbroken line (List.mem_cons_self ..)) trimmed (List.cons_ne_nil c body)
      have kept := layout.keptLines_keepLines rest 0 later
      simp only [keepLines, trimmed, Option.getD_none, Nat.zero_min, List.replicate_zero,
        List.nil_append]
      exact ⟨kept.cons clean nonempty (Nat.zero_le _), by simpa using nonempty⟩

/-- Normalising gives a normal form. -/
theorem isNormal_normalize (layout : Layout) (source : Text) :
    layout.IsNormal (layout.normalize source) :=
  ⟨_, layout.normalLines_keepLines source.lines fun _ => Text.not_mem_of_mem_splitOn, rfl⟩

/-! ## Normalising leaves a normal form alone -/

theorem KeptLines.tail {layout : Layout} {line : Text} {rest : List Text}
    (kept : layout.KeptLines (line :: rest)) (nonempty : rest ≠ []) : layout.KeptLines rest where
  clean other member := kept.clean other (List.mem_cons_of_mem _ member)
  last := by
    have last := kept.last
    obtain ⟨next, rest, rfl⟩ := List.exists_cons_of_ne_nil nonempty
    rwa [List.getLast?_cons_cons] at last
  runs n run := kept.runs n (List.infix_cons run)

/-- A clean line with text is kept as it is. -/
theorem keepLines_cons_of_cleanLine (layout : Layout) {line : Text} (blanks : Option ℕ)
    (rest : List Text) (clean : CleanLine line) (nonempty : line ≠ []) :
    layout.keepLines blanks (line :: rest) =
      List.replicate (min (blanks.getD 0) layout.maxBlankLines) [] ++
        line :: layout.keepLines (some 0) rest := by
  have trimmed := Text.trimEnd_eq_self_iff.mpr clean.endsVisibly
  obtain ⟨c, body, rfl⟩ := List.exists_cons_of_ne_nil nonempty
  simp only [keepLines, trimmed, layout.expandTabs_eq_self clean.noTab]

/-- Kept lines are all kept, behind the empty lines seen before them, and the empty line behind the
last line feed is dropped. -/
theorem keepLines_of_keptLines {layout : Layout} {lines : List Text} {blanks : ℕ}
    (kept : layout.KeptLines lines) (nonempty : lines ≠ [])
    (few : ∀ n, List.replicate n [] <+: lines → blanks + n ≤ layout.maxBlankLines) :
    layout.keepLines (some blanks) (lines ++ [[]]) = List.replicate blanks [] ++ lines := by
  induction lines generalizing blanks with
  | nil => contradiction
  | cons line rest ih =>
    cases line with
    | nil =>
      have more : rest ≠ [] := by
        rintro rfl
        exact kept.last rfl
      have tailFew : ∀ n, List.replicate n [] <+: rest → blanks + 1 + n ≤ layout.maxBlankLines := by
        intro n front
        have := few (n + 1) (List.cons_prefix_cons.mpr ⟨rfl, front⟩)
        omega
      calc layout.keepLines (some blanks) ([] :: rest ++ [[]])
        _ = layout.keepLines (some (blanks + 1)) (rest ++ [[]]) := rfl
        _ = List.replicate (blanks + 1) [] ++ rest := ih (kept.tail more) more tailFew
        _ = List.replicate blanks [] ++ [] :: rest := by
          rw [List.replicate_succ', List.append_assoc, List.singleton_append]
    | cons c body =>
      have behind : layout.keepLines (some 0) (rest ++ [[]]) = rest := by
        by_cases more : rest = []
        · subst more
          rfl
        · refine ih (kept.tail more) more fun n front => ?_
          rw [Nat.zero_add]
          exact kept.runs n (List.infix_cons front.isInfix)
      have short : blanks ≤ layout.maxBlankLines := few 0 List.nil_prefix
      rw [List.cons_append, layout.keepLines_cons_of_cleanLine _ _
        (kept.clean _ (List.mem_cons_self ..)) (List.cons_ne_nil c body), behind,
        Option.getD_some, Nat.min_eq_left short]

private theorem keepLines_of_normalLines {layout : Layout} {lines : List Text}
    (normal : layout.NormalLines lines) : layout.keepLines none (lines ++ [[]]) = lines := by
  cases lines with
  | nil => rfl
  | cons line rest =>
    have text : line ≠ [] := fun empty => normal.first (by rw [empty, List.head?_cons])
    have clean := normal.clean line (List.mem_cons_self ..)
    have few : ∀ n, List.replicate n [] <+: line :: rest → 0 + n ≤ layout.maxBlankLines := by
      intro n front
      rw [Nat.zero_add]
      exact normal.runs n front.isInfix
    have same := keepLines_of_keptLines normal.toKeptLines (List.cons_ne_nil line rest) few
    -- With text on the first line it does not matter that no line came before it.
    rw [List.cons_append, layout.keepLines_cons_of_cleanLine _ _ clean text] at same ⊢
    exact same

/-- Normalising leaves a normal form alone. -/
theorem normalize_of_isNormal {layout : Layout} {text : Text} (normal : layout.IsNormal text) :
    layout.normalize text = text := by
  obtain ⟨lines, normal, rfl⟩ := normal
  have unbroken : ∀ line ∈ lines, '\n' ∉ line :=
    fun line member => (normal.clean line member).unbroken
  rw [normalize, Text.lines_joinLines unbroken, keepLines_of_normalLines normal]

/-- Every text is normalised to a normal form, and the normal forms are the texts that normalising
leaves alone. So the texts that it leaves alone are those that it gives, and normalising twice is
normalising once. -/
theorem normalize_fixes_exactly_normal (layout : Layout) :
    (∀ source, layout.IsNormal (layout.normalize source)) ∧
      (∀ text, layout.IsNormal text ↔ layout.normalize text = text) ∧
      (∀ text, layout.normalize text = text ↔ ∃ source, layout.normalize source = text) ∧
      ∀ source, layout.normalize (layout.normalize source) = layout.normalize source := by
  have normal := layout.isNormal_normalize
  have fixed : ∀ text, layout.IsNormal text ↔ layout.normalize text = text := by
    intro text
    refine ⟨normalize_of_isNormal, fun same => ?_⟩
    rw [← same]
    exact normal text
  have twice : ∀ source, layout.normalize (layout.normalize source) = layout.normalize source :=
    fun source => normalize_of_isNormal (normal source)
  refine ⟨normal, fixed, fun text => ?_, twice⟩
  constructor
  · intro same
    exact ⟨text, same⟩
  · rintro ⟨source, rfl⟩
    exact twice source

-- With no indentation and no blank lines kept; a vertical tab is no indentation.
example : (Layout.mk 0 0).normalize "\n\t\x0Bx \u00A0\r\n\n \t y".toList =
    "\x0Bx\n  y\n".toList := by
  decide

end FormatHost.Layout
