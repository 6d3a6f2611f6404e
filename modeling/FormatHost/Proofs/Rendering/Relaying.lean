import FormatHost.Proofs.Rendering.Course

/-! # Laying out what has been laid out

A gap that was laid out once is laid out again to the same tokens, although its lines are other
lines then: texts have moved to the front of their lines or behind an indentation, blank lines are
fewer, and in front of the first leaf a text from the middle may have become the first line. The
same holds for what follows the last leaf.
-/

namespace FormatHost

namespace Page

/-! ## Lines -/

/-- The lines that lines are laid out as, after some blank ones. Blank lines at the end are not
among them. -/
def relay (layout : Layout) (depth : ℕ) : ℕ → List Text → List Text
  | _, [] => []
  | blanks, line :: rest =>
    if line.trim = [] then relay layout depth (blanks + 1) rest
    else
      List.replicate (min blanks layout.maxBlankLines) [] ++
        (indent layout depth ++ line.trim) :: relay layout depth 0 rest

theorem feed_not_mem_indent (layout : Layout) (depth : ℕ) : '\n' ∉ indent layout depth := by
  intro member
  have space := List.eq_of_mem_replicate member
  contradiction

theorem feed_not_mem_relay (layout : Layout) (depth blanks : ℕ) {lines : List Text}
    (unbroken : ∀ line ∈ lines, '\n' ∉ line) :
    ∀ line ∈ relay layout depth blanks lines, '\n' ∉ line := by
  induction lines generalizing blanks with
  | nil => simp [relay]
  | cons line rest ih =>
    have later : ∀ other ∈ rest, '\n' ∉ other :=
      fun other member => unbroken other (List.mem_cons_of_mem _ member)
    rw [relay]
    split
    · exact ih (blanks + 1) later
    · intro other member
      rw [List.mem_append, List.mem_cons] at member
      obtain blank | rfl | member := member
      · rw [List.eq_of_mem_replicate blank]
        exact List.not_mem_nil
      · rw [List.mem_append, not_or]
        exact ⟨feed_not_mem_indent layout depth,
          Text.not_mem_trim (unbroken line (List.mem_cons_self ..))⟩
      · exact ih 0 later other member

theorem putLines_cons_of_blank {line : Text} (blank : line.trim = []) (layout : Layout)
    (depth blanks : ℕ) (rest : List Text) (page : Page) :
    page.putLines layout depth blanks (line :: rest) =
      page.putLines layout depth (blanks + 1) rest := by
  simp only [putLines, blank]

theorem putLines_cons_of_text {line : Text} (text : line.trim ≠ []) (layout : Layout)
    (depth blanks : ℕ) (rest : List Text) (page : Page) :
    page.putLines layout depth blanks (line :: rest) =
      ((page.newline layout blanks depth).put line.trim).putLines layout depth 0 rest := by
  obtain ⟨c, body, shape⟩ := List.exists_cons_of_ne_nil text
  simp only [putLines, shape]

theorem putLines_replicate (layout : Layout) (depth blanks more : ℕ) (rest : List Text)
    (page : Page) :
    page.putLines layout depth blanks (List.replicate more [] ++ rest) =
      page.putLines layout depth (blanks + more) rest := by
  induction more generalizing blanks with
  | zero => rfl
  | succ more ih =>
    rw [List.replicate_succ, List.cons_append, putLines_cons_of_blank rfl, ih, Nat.add_assoc,
      Nat.add_comm 1]

/-- Lines on a page that has begun: what is written, and that it is written again from the lines
written. -/
theorem Begun.putLines_relay {page : Page} (begun : page.Begun) (layout : Layout)
    (depth blanks : ℕ) (lines : List Text) :
    let filled := page.putLines layout depth blanks lines
    filled.1.Begun ∧
      filled.1.text = page.text ++ Text.breakInto (relay layout depth blanks lines) ∧
      ∀ more, page.putLines layout depth 0 (relay layout depth blanks lines ++ more) =
        filled.1.putLines layout depth 0 more := by
  induction lines generalizing blanks page with
  | nil => exact ⟨begun, by simp [putLines, relay], fun more => rfl⟩
  | cons line rest ih =>
    by_cases blank : line.trim = []
    · rw [putLines_cons_of_blank blank, relay, if_pos blank]
      exact ih begun (blanks + 1)
    · have solid := Text.solid_trim blank
      have indented : (indent layout depth ++ line.trim).trim = line.trim := by
        have trimmed : (indent layout depth ++ line.trim ++ []).trim = line.trim :=
          solid.trim (fun c => isBlank_of_mem_indent) (by simp)
        rwa [List.append_nil] at trimmed
      obtain ⟨begun', written, again⟩ :=
        ih ((page.newline layout blanks depth).begun_put_solid solid) 0
      rw [putLines_cons_of_text blank, relay, if_neg blank]
      refine ⟨begun', ?_, fun more => ?_⟩
      · rw [written, text_put, begun.text_newline]
        simp
      · rw [List.append_assoc, putLines_replicate, List.cons_append,
          putLines_cons_of_text (by rw [indented]; exact blank), indented, Nat.zero_add,
          newline_min]
        exact again more

/-! ## The ends of a gap -/

/-- A text with a space before it, unless it is empty. -/
def led (text : Text) : Text :=
  if text = [] then [] else ' ' :: text

/-- A text with a space behind it, unless it is empty. -/
def spaced (text : Text) : Text :=
  if text = [] then [] else text ++ [' ']

theorem Begun.text_putBehind {page : Page} (begun : page.Begun) (text : Text) :
    (page.putBehind text).text = page.text ++ led text := by
  by_cases empty : text = []
  · simp [putBehind, led, empty]
  · simp [putBehind, led, empty, begun.separate]

theorem Begun.putBehind {page : Page} (begun : page.Begun) (line : Text) :
    (page.putBehind line.trim).Begun := by
  by_cases empty : line.trim = []
  · rwa [empty]
  · have shape : page.putBehind line.trim = page.separate.put line.trim := by
      simp [Page.putBehind, empty]
    rw [shape]
    exact begun_put_solid _ (Text.solid_trim empty)

theorem text_putBefore (page : Page) (text : Text) :
    (page.putBefore text).text = page.text ++ spaced text := by
  by_cases empty : text = []
  · simp [putBefore, spaced, empty]
  · simp [putBefore, spaced, empty]

theorem trim_led (line : Text) : (led line.trim).trim = line.trim := by
  by_cases empty : line.trim = []
  · rw [empty]
    rfl
  · have trimmed : Text.trim ([' '] ++ line.trim ++ []) = line.trim :=
      (Text.solid_trim empty).trim (fun c => Text.isBlank_of_mem_space) (by simp)
    simpa [led, empty] using trimmed

theorem trim_append_spaced {before : Text} (blank : ∀ c ∈ before, Text.isBlank c = true)
    (line : Text) :
    (before ++ spaced line.trim).trim = line.trim := by
  by_cases empty : line.trim = []
  · simpa [spaced, empty] using Text.trim_of_blank blank
  · have trimmed : (before ++ line.trim ++ [' ']).trim = line.trim :=
      (Text.solid_trim empty).trim blank fun c => Text.isBlank_of_mem_space
    simpa [spaced, empty] using trimmed

theorem feed_not_mem_led {line : Text} (unbroken : '\n' ∉ line) : '\n' ∉ led line.trim := by
  have clear := Text.not_mem_trim unbroken
  unfold led
  split
  · exact List.not_mem_nil
  · simpa using clear

theorem feed_not_mem_spaced {line : Text} (unbroken : '\n' ∉ line) :
    '\n' ∉ spaced line.trim := by
  have clear := Text.not_mem_trim unbroken
  unfold spaced
  split
  · exact List.not_mem_nil
  · simpa using clear

/-- The lines of a gap behind its first one: what is written, and that it is written again. -/
theorem Begun.putRest_again {page : Page} (begun : page.Begun) (layout : Layout) (depth : ℕ)
    {middle : List Text} {last : Text} (clear : ∀ line ∈ middle, '\n' ∉ line)
    (clearLast : '\n' ∉ last) :
    ∃ lines final, (∀ line ∈ lines, '\n' ∉ line) ∧ '\n' ∉ final ∧
      (page.putRest layout depth middle last).text =
        page.text ++ Text.breakInto (lines ++ [final]) ∧
      page.putRest layout depth lines final = page.putRest layout depth middle last := by
  obtain ⟨begun', written, again⟩ := begun.putLines_relay layout depth 0 middle
  rw [putRest]
  generalize page.putLines layout depth 0 middle = filled at begun' written again ⊢
  obtain ⟨filled, blanks⟩ := filled
  have lines := again (List.replicate (min blanks layout.maxBlankLines) [])
  have blankLines := putLines_replicate layout depth 0 (min blanks layout.maxBlankLines) [] filled
  rw [List.append_nil, Nat.zero_add] at blankLines
  refine ⟨relay layout depth 0 middle ++ List.replicate (min blanks layout.maxBlankLines) [],
    indent layout depth ++ spaced last.trim, ?_, ?_, ?_, ?_⟩
  · intro line member
    obtain member | member := List.mem_append.mp member
    · exact feed_not_mem_relay layout depth 0 clear line member
    · rw [List.eq_of_mem_replicate member]
      exact List.not_mem_nil
  · rw [List.mem_append, not_or]
    exact ⟨feed_not_mem_indent layout depth, feed_not_mem_spaced clearLast⟩
  · simp only at begun' written ⊢
    rw [text_putBefore, begun'.text_newline, written]
    simp
  · rw [putRest, lines, blankLines]
    simp only [putLines, newline_min, trim_append_spaced (fun c => isBlank_of_mem_indent) last]

/-! ## Gaps between leaves -/

/-- A gap on one line of a page that has begun is laid out again as it was. -/
theorem Begun.gap_again_of_line {page : Page} (begun : page.Begun) (layout : Layout) (depth : ℕ)
    {between : Text} (shape : between.lines = [between]) (unbroken : '\n' ∉ between) :
    ∃ laid, (page.gap layout depth between).text = page.text ++ laid ∧
      page.gap layout depth laid = page.gap layout depth between ∧ '\n' ∉ laid := by
  rw [gap_of_line shape]
  by_cases blank : between.trim = []
  · rw [if_pos blank]
    by_cases empty : between = []
    · rw [if_pos empty]
      exact ⟨[], by simp, gap_of_line rfl layout depth page, by simp⟩
    · rw [if_neg empty, begun.separate]
      refine ⟨[' '], by simp, ?_, by decide⟩
      rw [gap_of_line rfl, begun.separate]
      rfl
  · have solid := Text.solid_trim blank
    have clear := Text.not_mem_trim unbroken
    have squeezed : '\n' ∉ [' '] ++ between.trim ++ [' '] := by simpa using clear
    have trimmed : Text.trim ([' '] ++ between.trim ++ [' ']) = between.trim :=
      solid.trim (fun c => Text.isBlank_of_mem_space) fun c => Text.isBlank_of_mem_space
    rw [if_neg blank, begun.separate]
    refine ⟨[' '] ++ between.trim ++ [' '], by simp, ?_, squeezed⟩
    rw [gap_of_line (Text.lines_of_unbroken squeezed), trimmed, if_neg blank, begun.separate]

/-- A gap on a page that has begun is laid out again as it was, and it keeps to its line or breaks
it as before. -/
theorem Begun.gap_again {page : Page} (begun : page.Begun) (layout : Layout) (depth : ℕ)
    (between : Text) :
    ∃ laid, (page.gap layout depth between).text = page.text ++ laid ∧
      page.gap layout depth laid = page.gap layout depth between ∧
      ('\n' ∈ laid ↔ '\n' ∈ between) := by
  obtain ⟨shape, unbroken⟩ | ⟨first, middle, last, shape, feed, clear, clearMiddle, clearLast⟩ :=
    between.lines_cases
  · obtain ⟨laid, written, again, squeezed⟩ :=
      begun.gap_again_of_line layout depth shape unbroken
    exact ⟨laid, written, again, by simp [squeezed, unbroken]⟩
  · obtain ⟨lines, final, clearLines, clearEnd, written, again⟩ :=
      (begun.putBehind first).putRest_again layout depth clearMiddle clearLast
    have others : ∀ line ∈ lines ++ [final], '\n' ∉ line := by
      intro line member
      obtain member | member := List.mem_append.mp member
      · exact clearLines line member
      · rwa [List.mem_singleton.mp member]
    have relaid := Text.lines_breakInto (feed_not_mem_led clear) others
    refine ⟨led first.trim ++ Text.breakInto (lines ++ [final]), ?_, ?_, ?_⟩
    · rw [gap_of_lines shape, written, begun.text_putBehind, List.append_assoc]
    · rw [gap_of_lines relaid, gap_of_lines shape, trim_led, again]
    · simp [feed]

/-! ## The gap before the first leaf -/

/-- At depth zero, lines put on a blank page leave it blank, or the first of them with text begins
it. -/
theorem putLines_blank {layout : Layout} {depth : ℕ} (flush : indent layout depth = [])
    (blanks : ℕ) (lines : List Text) :
    (blank.putLines layout depth blanks lines).1 = blank ∨
      ∃ line rest, line :: rest <:+ lines ∧ line.trim ≠ [] ∧
        blank.putLines layout depth blanks lines =
          (blank.put line.trim).putLines layout depth 0 rest := by
  induction lines generalizing blanks with
  | nil => exact .inl rfl
  | cons line rest ih =>
    by_cases empty : line.trim = []
    · rw [putLines_cons_of_blank empty]
      obtain unchanged | ⟨text, behind, suffix, visible, shape⟩ := ih (blanks + 1)
      · exact .inl unchanged
      · exact .inr ⟨text, behind, suffix.trans (List.suffix_cons line rest), visible, shape⟩
    · refine .inr ⟨line, rest, List.suffix_rfl, empty, ?_⟩
      rw [putLines_cons_of_text empty, newline_blank, flush]
      rfl

/-- At depth zero, a gap of several lines on a blank page shows as its last line alone, or its
first text begins the page and the lines behind follow. -/
theorem gap_blank {layout : Layout} {depth : ℕ} (flush : indent layout depth = [])
    {between first last : Text} {middle : List Text}
    (shape : between.lines = first :: (middle ++ [last])) :
    blank.gap layout depth between = blank.putBefore last.trim ∨
      ∃ line rest, line :: rest <:+ first :: middle ∧ line.trim ≠ [] ∧
        blank.gap layout depth between = (blank.put line.trim).putRest layout depth rest last := by
  rw [gap_of_lines shape]
  by_cases empty : first.trim = []
  · have skipped : blank.putBehind first.trim = blank := by rw [empty]; rfl
    rw [skipped]
    obtain unchanged | ⟨line, rest, suffix, visible, begins⟩ := putLines_blank flush 0 middle
    · refine .inl ?_
      rw [putRest, unchanged, newline_blank, flush]
      rfl
    · refine .inr ⟨line, rest, suffix.trans (List.suffix_cons first middle), visible, ?_⟩
      rw [putRest, begins, putRest]
  · refine .inr ⟨first, middle, List.suffix_rfl, empty, ?_⟩
    simp [putBehind, empty]

/-- At depth zero, a gap on a blank page is laid out again as it was. -/
theorem gap_blank_again {layout : Layout} {depth : ℕ} (flush : indent layout depth = [])
    (between : Text) :
    ∃ laid, (blank.gap layout depth between).text = laid ∧
      blank.gap layout depth laid = blank.gap layout depth between := by
  have lone {line : Text} (unbroken : '\n' ∉ line) :
      blank.gap layout depth (spaced line.trim) = blank.putBefore line.trim := by
    have trimmed : (spaced line.trim).trim = line.trim :=
      trim_append_spaced (List.forall_mem_nil _) line
    rw [gap_of_line (Text.lines_of_unbroken (feed_not_mem_spaced unbroken)), trimmed]
    by_cases empty : line.trim = [] <;> simp [empty, spaced, putBefore]
  obtain ⟨shape, unbroken⟩ | ⟨first, middle, last, shape, _, clear, clearMiddle, clearLast⟩ :=
    between.lines_cases
  · have squeezed : blank.gap layout depth between = blank.putBefore between.trim := by
      rw [gap_of_line shape]
      by_cases empty : between.trim = [] <;> simp [empty, putBefore]
    refine ⟨spaced between.trim, ?_, ?_⟩
    · rw [squeezed, text_putBefore]
      rfl
    · rw [lone unbroken, squeezed]
  · obtain alone | ⟨line, rest, suffix, visible, begins⟩ := gap_blank flush shape
    · refine ⟨spaced last.trim, ?_, ?_⟩
      · rw [alone, text_putBefore]
        rfl
      · rw [lone clearLast, alone]
    · have clearLines : ∀ other ∈ line :: rest, '\n' ∉ other := by
        intro other member
        obtain rfl | member := List.mem_cons.mp (suffix.subset member)
        · exact clear
        · exact clearMiddle other member
      have solid := Text.solid_trim visible
      have clearLine := Text.not_mem_trim (clearLines line (List.mem_cons_self ..))
      obtain ⟨lines, final, clearAgain, clearEnd, written, again⟩ :=
        (blank.begun_put_solid solid).putRest_again layout depth
          (fun other member => clearLines other (List.mem_cons_of_mem _ member)) clearLast
      have others : ∀ other ∈ lines ++ [final], '\n' ∉ other := by
        intro other member
        obtain member | member := List.mem_append.mp member
        · exact clearAgain other member
        · rwa [List.mem_singleton.mp member]
      have relaid := Text.lines_breakInto clearLine others
      have trimmed : line.trim.trim = line.trim := by
        have whole := solid.trim (List.forall_mem_nil _) (List.forall_mem_nil _)
        rwa [List.append_nil, List.nil_append] at whole
      refine ⟨line.trim ++ Text.breakInto (lines ++ [final]), ?_, ?_⟩
      · rw [begins, written, text_put]
        rfl
      · rw [gap_of_lines relaid, trimmed, begins, ← again]
        simp [putBehind, visible]

/-! ## What follows the last leaf -/

/-- What follows the last leaf is laid out again as it was. -/
theorem Begun.trailer_again {page : Page} (begun : page.Begun) (layout : Layout)
    (behind : Text) :
    ∃ laid, (page.trailer layout behind).text = page.text ++ laid ∧
      page.trailer layout laid = page.trailer layout behind := by
  obtain ⟨first, rest, shape, unbroken⟩ := behind.exists_lines
  have clear := unbroken first (List.mem_cons_self ..)
  have clearRest : ∀ line ∈ rest, '\n' ∉ line :=
    fun line member => unbroken line (List.mem_cons_of_mem _ member)
  obtain ⟨filled, written, again⟩ := (begun.putBehind first).putLines_relay layout 0 0 rest
  have others : ∀ line ∈ relay layout 0 0 rest ++ [[]], '\n' ∉ line := by
    intro line member
    obtain member | member := List.mem_append.mp member
    · exact feed_not_mem_relay layout 0 0 clearRest line member
    · rw [List.mem_singleton.mp member]
      exact List.not_mem_nil
  have relaid := Text.lines_breakInto (feed_not_mem_led clear) others
  have ended (later : Page) : later.putLines layout 0 0 [[]] = (later, 1) := rfl
  refine ⟨led first.trim ++ Text.breakInto (relay layout 0 0 rest ++ [[]]), ?_, ?_⟩
  · rw [trailer_of_lines shape]
    simp only [filled.atLineStart, Bool.false_eq_true, ↓reduceIte, text_put, written,
      begun.text_putBehind]
    simp
  · rw [trailer_of_lines relaid, trailer_of_lines shape, trim_led, again, ended]

end Page

end FormatHost
