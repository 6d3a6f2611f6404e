import FormatHost.Proofs.NormalForm
import FormatHost.Proofs.Rendering.Course
import FormatHost.Proofs.Text.Utf8

/-! # Rendered texts are in normal form

While a tree without leaves of several lines is rendered, the text on the page is always one that
ending its last line would bring into normal form, or one that is ready for the next piece of text
to make it so. So a rendered text is in normal form, and formatting it as a whole leaves it alone.
-/

namespace FormatHost

namespace Layout

/-! ## Lines of a text that is not finished -/

/-- Lines behind which a line with text makes a normal form. -/
structure FrontLines (layout : Layout) (lines : List Text) : Prop where
  clean : ∀ line ∈ lines, CleanLine line
  first : lines.head? ≠ some []
  runs : ∀ n, List.replicate n [] <:+: lines → n ≤ layout.maxBlankLines

theorem frontLines_nil (layout : Layout) : layout.FrontLines [] where
  clean := by simp
  first := by simp
  runs := layout.keptLines_nil.runs

theorem reverse_replicate_infix_iff {n : ℕ} {lines : List Text} :
    List.replicate n [] <:+: lines.reverse ↔ List.replicate n [] <:+: lines := by
  rw [← List.reverse_infix, List.reverse_reverse, List.reverse_replicate]

/-- A line with text behind such lines. -/
theorem FrontLines.snoc {layout : Layout} {lines : List Text} {line : Text}
    (front : layout.FrontLines lines) (clean : CleanLine line) (nonempty : line ≠ []) :
    layout.NormalLines (lines ++ [line]) where
  clean := by
    intro other member
    obtain member | member := List.mem_append.mp member
    · exact front.clean other member
    · rw [List.mem_singleton.mp member]
      exact clean
  last := by
    rw [List.getLast?_append_of_ne_nil _ (by simp)]
    simpa using nonempty
  first := by
    cases lines with
    | nil => simpa using nonempty
    | cons other rest =>
      have first := front.first
      rwa [List.head?_cons] at first
  runs n run := by
    rw [← reverse_replicate_infix_iff, List.reverse_append] at run
    obtain short | behind := le_or_infix_of_replicate_infix (k := 0) nonempty run
    · exact short.trans (Nat.zero_le _)
    · exact front.runs n (reverse_replicate_infix_iff.mp behind)

theorem NormalLines.nonempty_last {layout : Layout} {done : List Text} {current : Text}
    (normal : layout.NormalLines (done ++ [current])) : current ≠ [] := by
  rintro rfl
  exact normal.last (by simp)

/-- The last line may be written anew. -/
theorem NormalLines.front {layout : Layout} {done : List Text} {current : Text}
    (normal : layout.NormalLines (done ++ [current])) : layout.FrontLines done where
  clean line member := normal.clean line (List.mem_append_left _ member)
  first := by
    cases done with
    | nil => simp
    | cons line rest =>
      have first := normal.first
      rwa [List.cons_append, List.head?_cons] at first
  runs n run := normal.runs n (run.trans (List.prefix_append _ _).isInfix)

/-- The last line may be followed by as many empty ones as the layout keeps. -/
theorem NormalLines.front_blanks {layout : Layout} {done : List Text} {current : Text} {blanks : ℕ}
    (normal : layout.NormalLines (done ++ [current])) (few : blanks ≤ layout.maxBlankLines) :
    layout.FrontLines (done ++ [current] ++ List.replicate blanks []) where
  clean line member := by
    obtain member | member := List.mem_append.mp member
    · exact normal.clean line member
    · rw [List.eq_of_mem_replicate member]
      exact ⟨by simp, by simp [Text.EndsVisibly], by simp⟩
  first := by
    rw [List.head?_append_of_ne_nil _ (by simp)]
    exact normal.first
  runs n run := by
    rw [← reverse_replicate_infix_iff, List.reverse_append, List.reverse_append,
      List.reverse_replicate, List.reverse_singleton, List.singleton_append] at run
    obtain short | behind := le_or_infix_of_replicate_infix normal.nonempty_last run
    · exact short.trans few
    · exact normal.front.runs n (reverse_replicate_infix_iff.mp behind)

/-! ## Texts that are not finished -/

/-- A text that a line feed makes a normal form with something in it. -/
def Tidy (layout : Layout) (text : Text) : Prop :=
  ∃ done current, layout.NormalLines (done ++ [current]) ∧ text = joinLines done ++ current

/-- A text that a piece of text on its last line makes tidy. -/
def Ready (layout : Layout) (text : Text) : Prop :=
  ∃ done opening, layout.FrontLines done ∧ '\n' ∉ opening ∧ '\t' ∉ opening.takeWhile isIndent ∧
    text = joinLines done ++ opening

theorem isIndent_eq_false {c : Char} (visible : Text.isBlank c = false) : isIndent c = false := by
  by_contra indent
  rw [isBlank_of_isIndent (Bool.not_eq_false _ ▸ indent)] at visible
  contradiction

/-- Text that does not begin with a blank ends the indentation of a line. -/
theorem takeWhile_isIndent_append {opening piece : Text} (solid : piece.Solid) :
    (opening ++ piece).takeWhile isIndent = opening.takeWhile isIndent := by
  obtain ⟨c, rest, rfl⟩ := List.exists_cons_of_ne_nil solid.nonempty
  have text := isIndent_eq_false (solid.startsVisibly c rfl)
  induction opening with
  | nil => simp [text]
  | cons d opening ih =>
    rw [List.cons_append, List.takeWhile_cons, List.takeWhile_cons, ih]

/-- Nothing behind the text of a line changes its indentation. -/
theorem takeWhile_isIndent_append_right {line : Text} (visible : line.EndsVisibly)
    (nonempty : line ≠ []) (behind : Text) :
    (line ++ behind).takeWhile isIndent = line.takeWhile isIndent := by
  obtain ⟨c, member, notBlank⟩ := visible.exists_not_blank nonempty
  rw [List.takeWhile_append]
  split
  · next whole =>
    have all := List.takeWhile_eq_self_iff.mp (List.takeWhile_prefix isIndent |>.eq_of_length whole)
    have indent := all c member
    rw [isIndent_eq_false notBlank] at indent
    contradiction
  · rfl

theorem Ready.append {layout : Layout} {text piece : Text} (ready : layout.Ready text)
    (solid : piece.Solid) (unbroken : '\n' ∉ piece) : layout.Tidy (text ++ piece) := by
  obtain ⟨done, opening, front, unbroken', noTab, rfl⟩ := ready
  refine ⟨done, opening ++ piece, front.snoc ⟨?_, ?_, ?_⟩ ?_, List.append_assoc ..⟩
  · rw [List.mem_append, not_or]
    exact ⟨unbroken', unbroken⟩
  · exact (Text.endsVisibly_append_iff _ solid.nonempty).mpr solid.endsVisibly
  · rwa [takeWhile_isIndent_append solid]
  · exact List.append_ne_nil_of_right_ne_nil _ solid.nonempty

/-- A tidy text may go on on its last line. -/
theorem Tidy.ready {layout : Layout} {text behind : Text} (tidy : layout.Tidy text)
    (unbroken : '\n' ∉ behind) : layout.Ready (text ++ behind) := by
  obtain ⟨done, current, normal, rfl⟩ := tidy
  have clean := normal.clean current (by simp)
  refine ⟨done, current ++ behind, normal.front, ?_, ?_, List.append_assoc ..⟩
  · rw [List.mem_append, not_or]
    exact ⟨clean.unbroken, unbroken⟩
  · rw [takeWhile_isIndent_append_right clean.endsVisibly normal.nonempty_last]
    exact clean.noTab

/-- A tidy text may go on on a new line. -/
theorem Tidy.ready_break {layout : Layout} {text : Text} {blanks : ℕ} (tidy : layout.Tidy text)
    (few : blanks ≤ layout.maxBlankLines) (depth : ℕ) :
    layout.Ready
      (text ++ Text.breakInto (List.replicate blanks [] ++ [Page.indent layout depth])) := by
  obtain ⟨done, current, normal, rfl⟩ := tidy
  refine ⟨_, Page.indent layout depth, normal.front_blanks few, by simp [Page.indent],
    by simp [Page.indent], ?_⟩
  rw [List.append_assoc, Text.append_breakInto_snoc]
  simp

private theorem ready_indent (layout : Layout) (depth : ℕ) :
    layout.Ready (Page.indent layout depth) :=
  ⟨[], Page.indent layout depth, layout.frontLines_nil, by simp [Page.indent],
    by simp [Page.indent], rfl⟩

/-- A tidy text is in normal form once its last line is ended. -/
theorem Tidy.isNormal {layout : Layout} {text : Text} (tidy : layout.Tidy text) :
    layout.IsNormal (text ++ ['\n']) := by
  obtain ⟨done, current, normal, rfl⟩ := tidy
  exact ⟨_, normal, by simp⟩

end Layout

namespace Page

/-! ## Pages in the course of a rendering -/

/-- A page with nothing on it, or with a tidy text. -/
inductive Orderly (layout : Layout) : Page → Prop
  | blank : Orderly layout blank
  | begun {page : Page} (begun : page.Begun) (tidy : layout.Tidy page.text) : Orderly layout page

/-- A piece of text is put on a page that is ready for it. -/
theorem orderly_put {layout : Layout} {page : Page} {piece : Text}
    (ready : layout.Ready page.text) (solid : piece.Solid) (unbroken : '\n' ∉ piece) :
    (page.put piece).Orderly layout := by
  refine .begun (page.begun_put_solid solid) ?_
  rw [text_put]
  exact ready.append solid unbroken

theorem Orderly.ready {layout : Layout} {page : Page} (orderly : page.Orderly layout) :
    layout.Ready page.text := by
  cases orderly with
  | blank => exact ⟨[], [], layout.frontLines_nil, by simp, by simp, rfl⟩
  | begun _ tidy =>
    have ready := tidy.ready (List.not_mem_nil (a := '\n'))
    rwa [List.append_nil] at ready

theorem Orderly.ready_separate {layout : Layout} {page : Page} (orderly : page.Orderly layout) :
    layout.Ready page.separate.text := by
  cases orderly with
  | blank => exact Orderly.blank.ready
  | begun begun tidy =>
    rw [begun.separate, text_put]
    exact tidy.ready (by simp)

theorem Orderly.ready_newline {layout : Layout} {page : Page} (orderly : page.Orderly layout)
    (blanks depth : ℕ) : layout.Ready (page.newline layout blanks depth).text := by
  cases orderly with
  | blank =>
    rw [newline_blank, text_put]
    exact layout.ready_indent depth
  | begun begun tidy =>
    rw [begun.text_newline]
    exact tidy.ready_break (Nat.min_le_right _ _) depth

/-- A piece of text and a space leave a page ready for the next piece. -/
theorem ready_put_space {layout : Layout} {page : Page} {piece : Text}
    (ready : layout.Ready page.text) (solid : piece.Solid) (unbroken : '\n' ∉ piece) :
    layout.Ready ((page.put piece).put [' ']).text := by
  rw [text_put, text_put]
  exact (ready.append solid unbroken).ready (by simp)

theorem Orderly.putBehind {layout : Layout} {page : Page} (orderly : page.Orderly layout)
    {line : Text} (unbroken : '\n' ∉ line) : (page.putBehind (Text.trim line)).Orderly layout := by
  rw [Page.putBehind]
  split
  · exact orderly
  · next text =>
    exact orderly_put orderly.ready_separate (Text.solid_trim (by simpa using text))
      (Text.not_mem_trim unbroken)

private theorem ready_putBefore {layout : Layout} {page : Page} (ready : layout.Ready page.text)
    {line : Text} (unbroken : '\n' ∉ line) :
    layout.Ready (page.putBefore (Text.trim line)).text := by
  rw [putBefore]
  split
  · exact ready
  · next text =>
    exact ready_put_space ready (Text.solid_trim (by simpa using text))
      (Text.not_mem_trim unbroken)

theorem Orderly.putLines {layout : Layout} {page : Page} (orderly : page.Orderly layout)
    (depth blanks : ℕ) {lines : List Text} (unbroken : ∀ line ∈ lines, '\n' ∉ line) :
    (page.putLines layout depth blanks lines).1.Orderly layout := by
  induction lines generalizing blanks page with
  | nil => exact orderly
  | cons line rest ih =>
    have later : ∀ other ∈ rest, '\n' ∉ other :=
      fun other member => unbroken other (List.mem_cons_of_mem _ member)
    cases trimmed : Text.trim line with
    | nil =>
      simp only [Page.putLines, trimmed]
      exact ih orderly (blanks + 1) later
    | cons c text =>
      have solid := Text.solid_trim (s := line) (by simp [trimmed])
      have clear := Text.not_mem_trim (unbroken line (List.mem_cons_self ..))
      rw [trimmed] at solid clear
      simp only [Page.putLines, trimmed]
      exact ih (orderly_put (orderly.ready_newline blanks depth) solid clear) 0 later

/-- A gap makes a page ready for the leaf behind it. -/
theorem Orderly.ready_gap {layout : Layout} {page : Page} (orderly : page.Orderly layout)
    (depth : ℕ) (between : Text) : layout.Ready (page.gap layout depth between).text := by
  obtain ⟨shape, unbroken⟩ | ⟨first, middle, last, shape, _, clear, clearMiddle, clearLast⟩ :=
    between.lines_cases
  · rw [gap_of_line shape]
    split
    · split
      · exact orderly.ready
      · exact orderly.ready_separate
    · next text =>
      exact ready_put_space orderly.ready_separate (Text.solid_trim text)
        (Text.not_mem_trim unbroken)
  · rw [gap_of_lines shape]
    have filled := (orderly.putBehind clear).putLines depth 0 clearMiddle
    exact ready_putBefore (filled.ready_newline _ depth) clearLast

/-- What follows the last leaf makes a normal form of the page. -/
theorem Orderly.isNormal_trailer {layout : Layout} {page : Page} (orderly : page.Orderly layout)
    (behind : Text) : layout.IsNormal (page.trailer layout behind).text := by
  obtain ⟨first, rest, shape, unbroken⟩ := behind.exists_lines
  have filled := (orderly.putBehind (unbroken first (List.mem_cons_self ..))).putLines 0 0
    fun line member => unbroken line (List.mem_cons_of_mem _ member)
  rw [trailer_of_lines shape]
  generalize ((page.putBehind first.trim).putLines layout 0 0 rest).1 = later at filled
  cases filled with
  | blank => exact ⟨[], layout.normalLines_keepLines [] (by simp), rfl⟩
  | begun begun tidy =>
    simp only [begun.atLineStart, Bool.false_eq_true, ↓reduceIte, text_put]
    exact tidy.isNormal

/-- Going through leaves of one line each makes a normal form of the page. -/
theorem Orderly.isNormal_putLeaves {layout : Layout} {source : Text} {page : Page} {offset : ℕ}
    {leaves : List Leaf} (orderly : page.Orderly layout)
    (solid : ∀ leaf ∈ leaves, (leaf.text source).Solid ∧ '\n' ∉ leaf.text source) :
    layout.IsNormal (page.putLeaves layout source offset leaves).text := by
  induction leaves generalizing page offset with
  | nil => exact orderly.isNormal_trailer _
  | cons leaf rest ih =>
    obtain ⟨text, unbroken⟩ := solid leaf (List.mem_cons_self ..)
    exact ih (orderly_put (orderly.ready_gap _ _) text unbroken)
      fun other member => solid other (List.mem_cons_of_mem _ member)

end Page

namespace Layout

/-- What is rendered from a valid tree whose leaves are solid texts on one line is in normal
form. -/
theorem isNormal_renderTree (layout : Layout) {source : Text} {root : Node}
    (valid : root.validate (.along source) = .ok ())
    (solid : ∀ leaf ∈ root.childless, (leaf.text source).Solid ∧ '\n' ∉ leaf.text source) :
    layout.IsNormal (layout.renderTree source root).flatten := by
  rw [layout.renderTree_eq_putLeaves valid]
  exact Page.Orderly.blank.isNormal_putLeaves
    (Tree.forall_leaves_text (P := fun text => text.Solid ∧ '\n' ∉ text) solid)

/-- Rendering and formatting agree: what is rendered from an accepted tree, each of whose leaves is
a solid text on one line, is left alone by formatting it as a whole. -/
theorem formatBytes_of_rendered (layout : Layout) {source tree : Bytes} {text : Text} {root : Node}
    (decoded : Utf8.decode source = .ok text) (accepted : Tree.decode text tree = .ok root)
    (solid : ∀ leaf ∈ root.childless, (leaf.text text).Solid ∧ '\n' ∉ leaf.text text) :
    ∃ tokens : List Bytes, layout.renderBytes source tree = .ok tokens ∧
      layout.formatBytes tokens.flatten = .ok tokens.flatten := by
  have normal := layout.isNormal_renderTree (Tree.validate_of_decode accepted) solid
  refine ⟨_, layout.renderBytes_of_decode decoded accepted, ?_⟩
  simp only [flatten_map_encode, formatBytes, decodeSource, Utf8.decode_encode, bind, Except.bind,
    normalize_of_isNormal normal]

/-- A call behind a comment, with its argument on a line of its own. -/
def brokenCall : Text := "# é\n\nf(\n\n\n\tx)".toList

def brokenCallTree : Bytes :=
  Utf8.ofString "[\"\",0,14,[[\"\",6,14,[[\"\",6,7],[\"\",7,8],[\"\",12,13],[\"\",13,14]]]]]"

def brokenCallRoot : Node :=
  ⟨"", 0, 14, [⟨"", 6, 14, [⟨"", 6, 7, []⟩, ⟨"", 7, 8, []⟩, ⟨"", 12, 13, []⟩, ⟨"", 13, 14, []⟩]⟩]⟩

theorem formatBytes_of_rendered_call :
    Utf8.decode (Utf8.encode brokenCall) = .ok brokenCall ∧
      Tree.decode brokenCall brokenCallTree = .ok brokenCallRoot ∧
      (∀ leaf ∈ brokenCallRoot.childless,
        (leaf.text brokenCall).Solid ∧ '\n' ∉ leaf.text brokenCall) ∧
      ∃ tokens : List Bytes,
        standard.renderBytes (Utf8.encode brokenCall) brokenCallTree = .ok tokens ∧
        standard.formatBytes tokens.flatten = .ok tokens.flatten := by
  have decoded : Utf8.decode (Utf8.encode brokenCall) = .ok brokenCall := by decide
  have accepted : Tree.decode brokenCall brokenCallTree = .ok brokenCallRoot := by decide +kernel
  have solid : ∀ leaf ∈ brokenCallRoot.childless,
      (leaf.text brokenCall).Solid ∧ '\n' ∉ leaf.text brokenCall := by decide
  exact ⟨decoded, accepted, solid, formatBytes_of_rendered standard decoded accepted solid⟩

end Layout

end FormatHost
