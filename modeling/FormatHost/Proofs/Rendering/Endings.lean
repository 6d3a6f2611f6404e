import FormatHost.Engine
import FormatHost.Proofs.Rendering.Relaying
import FormatHost.Proofs.Text.Endings
import FormatHost.Proofs.Text.Utf8

/-! # How renderings end

Each gap is laid out by itself, and a new line is begun whether or not the last one has been ended.
So where two gaps meet at a leaf with nothing in it, such as a marker at the end of a source, or
where a gap follows a leaf that ends its line, the empty lines of both add up. How the text on the
page ends is all that decides this. It is followed here from gap to leaf to gap, together with the
condition under which no run of empty lines grows too long.
-/

namespace FormatHost

namespace Text.Ending

/-- How a text ends behind a gap before a leaf of some depth. The line feeds at the end of the gap
count, unless the new line is indented. -/
def behindGap (layout : Layout) (depth : ℕ) (between : Text) (ending : Ending) : Ending :=
  let reached := if between.hasText then midLine else ending
  match between.trailFeeds with
  | 0 => reached
  | blanks + 1 =>
    if layout.indentation depth = 0 then reached.newline (min blanks layout.maxBlankLines)
    else midLine

/-- The first line of a gap counts for itself. -/
theorem behindGap_line_append {line : Text} (unbroken : '\n' ∉ line) (layout : Layout) (depth : ℕ)
    (behind : Text) (ending : Ending) :
    ending.behindGap layout depth (line ++ behind) =
      (if line.hasText then midLine else ending).behindGap layout depth behind := by
  rw [behindGap, behindGap, trailFeeds_line_append unbroken, hasText_append]
  cases line.hasText <;> cases behind.hasText <;> rfl

theorem fitsFeeds_line_append {most : ℕ} {line behind : Text} {ending : Ending}
    (unbroken : '\n' ∉ line) :
    ending.FitsFeeds most (line ++ behind).leadFeeds ↔
      (if line.hasText then midLine else ending).FitsFeeds most behind.leadFeeds := by
  rw [leadFeeds_line_append unbroken]
  cases line.hasText <;> simp

/-- How a text ends after its last line has been ended. -/
def close : Ending → Ending
  | nothing => nothing
  | midLine => ended 0
  | ended n => ended n

end Text.Ending

namespace Layout

/-- How a text ends before its last line is ended, behind the leaves of a source from an offset on
and what follows them. -/
def endingOf (layout : Layout) (source : Text) : ℕ → List Leaf → Text.Ending → Text.Ending
  | offset, [], ending => if (source.dropBytes offset).hasText then .midLine else ending
  | offset, leaf :: rest, ending =>
    layout.endingOf source leaf.stop rest
      ((ending.behindGap layout leaf.depth (source.slice offset leaf.start)).after
        (leaf.text source))

/-- Whether no gap and no leaf of a source, from an offset on, makes more empty lines in a row than
the layout keeps, with those right before it: a gap by the line feeds before its first text, a leaf
by its own. What follows the last leaf makes none if there is no text in it. -/
def KeepsCap (layout : Layout) (source : Text) : ℕ → List Leaf → Text.Ending → Prop
  | offset, [], ending =>
    let behind := source.dropBytes offset
    behind.hasText → ending.FitsFeeds layout.maxBlankLines behind.leadFeeds
  | offset, leaf :: rest, ending =>
    let between := source.slice offset leaf.start
    let reached := ending.behindGap layout leaf.depth between
    ending.FitsFeeds layout.maxBlankLines between.leadFeeds ∧
      reached.Allows layout.maxBlankLines (leaf.text source) ∧
      layout.KeepsCap source leaf.stop rest (reached.after (leaf.text source))

def decideKeepsCap (layout : Layout) (source : Text) : (offset : ℕ) → (leaves : List Leaf) →
    (ending : Text.Ending) → Decidable (layout.KeepsCap source offset leaves ending)
  | _, [], _ => inferInstanceAs (Decidable (_ → _))
  | _, leaf :: rest, _ =>
    have := decideKeepsCap layout source leaf.stop rest
    inferInstanceAs (Decidable (_ ∧ _ ∧ _))

instance (layout : Layout) (source : Text) (offset : ℕ) (leaves : List Leaf)
    (ending : Text.Ending) : Decidable (layout.KeepsCap source offset leaves ending) :=
  layout.decideKeepsCap source offset leaves ending

/-- The last leaf decides, unless it is empty or ends its line. -/
theorem endingOf_of_last (layout : Layout) {source : Text} (front : List Leaf) {leaf : Leaf}
    (nonempty : leaf.text source ≠ []) (unended : (leaf.text source).endsLine = false)
    (offset : ℕ) (ending : Text.Ending) :
    layout.endingOf source offset (front ++ [leaf]) ending = .midLine := by
  induction front generalizing offset ending with
  | nil =>
    rw [List.nil_append, endingOf, Text.Ending.after_of_last _ nonempty unended, endingOf, ite_self]
  | cons _ rest ih => exact ih _ _

end Layout

namespace Page

/-- A page in the course of a rendering: how its text ends, and under which condition there are no
more empty lines in a row than the layout keeps. -/
structure Stands (layout : Layout) (ending : Text.Ending) (capped : Prop) (page : Page) : Prop where
  filled : [] ∉ page.tokens.toList
  ending : page.text.ending = ending
  capped : page.text.Capped layout.maxBlankLines ↔ capped

private theorem stands_blank (layout : Layout) : blank.Stands layout .nothing True where
  filled := List.not_mem_nil
  ending := rfl
  capped := iff_of_true trivial trivial

variable {layout : Layout} {ending : Text.Ending} {capped : Prop} {page : Page}

theorem Stands.of_iff {same : Prop} (stands : page.Stands layout ending capped)
    (iff : capped ↔ same) : page.Stands layout ending same :=
  ⟨stands.filled, stands.ending, stands.capped.trans iff⟩

theorem Stands.isBlank_iff (stands : page.Stands layout ending capped) :
    page.isBlank = true ↔ ending = .nothing := by
  rw [← stands.ending, Text.ending_eq_nothing_iff, text, List.flatten_eq_nil_iff, isBlank]
  constructor
  · intro empty
    simp_all
  · intro empty
    by_contra tokens
    obtain ⟨token, rest, shape⟩ := List.exists_cons_of_ne_nil (l := page.tokens.toList)
      (by simpa using tokens)
    have member : token ∈ page.tokens.toList := by simp [shape]
    exact stands.filled (empty token member ▸ member)

theorem Stands.atLineStart_iff (stands : page.Stands layout ending capped) :
    page.atLineStart = true ↔ ending ≠ .midLine := by
  rw [← stands.ending, ne_eq, Text.ending_eq_midLine_iff]
  obtain empty | ⟨front, token, shape⟩ := List.eq_nil_or_concat' page.tokens.toList
  · have nothing : page.tokens = #[] := by simpa using empty
    simp [atLineStart, text, nothing]
  · have nonempty : token ≠ [] := by
      rintro rfl
      exact stands.filled (by simp [shape])
    have last : page.tokens.back? = some token := by
      rw [← Array.getLast?_toList, shape, List.getLast?_concat]
    have ends : page.text.endsLine = token.endsLine := by
      rw [text, shape, List.flatten_concat, Text.endsLine,
        List.getLast?_append_of_ne_nil _ nonempty, Text.endsLine]
    have begun : page.text ≠ [] := by simp [text, shape, nonempty]
    simp [atLineStart, last, ends, begun]

/-- More tokens on a page. -/
theorem Stands.grow (stands : page.Stands layout ending capped) {later : Page} {shown more : Text}
    (grows : page.Grows shown later) (text : later.text = page.text ++ more) :
    later.Stands layout (ending.after more)
      (capped ∧ ending.Allows layout.maxBlankLines more) where
  filled := by
    obtain ⟨added, tokens, filled, -⟩ := grows
    rw [tokens, List.mem_append, not_or]
    exact ⟨stands.filled, filled⟩
  ending := by rw [text, Text.ending_append, stands.ending]
  capped := by rw [text, Text.capped_append, stands.ending, stands.capped]

theorem Stands.put (stands : page.Stands layout ending capped) (token : Text) :
    (page.put token).Stands layout (ending.after token)
      (capped ∧ ending.Allows layout.maxBlankLines token) :=
  stands.grow (page.grows_put token) (page.text_put token)

/-- Text on one line. -/
theorem Stands.put_unbroken (stands : page.Stands layout ending capped) {token : Text}
    (unbroken : '\n' ∉ token) (nonempty : token ≠ []) :
    (page.put token).Stands layout .midLine capped := by
  have more := stands.put token
  rw [ending.after_of_unbroken unbroken nonempty] at more
  exact more.of_iff (and_iff_left (Text.Ending.allows_of_unbroken unbroken))

theorem Stands.separate (stands : page.Stands layout ending capped) :
    page.separate.Stands layout ending capped := by
  rw [Page.separate]
  split
  · exact stands
  · next midLine =>
    have here : ending = .midLine := by simpa [stands.atLineStart_iff] using midLine
    rw [here]
    exact stands.put_unbroken (by decide) (by simp)

/-- What a new line adds to a page: line feeds, if there is something on it, and the indentation. -/
theorem Stands.exists_newline (stands : page.Stands layout ending capped) (blanks depth : ℕ) :
    ∃ feeds, (page.newline layout blanks depth).text =
        page.text ++ (feeds ++ indent layout depth) ∧
      ending.after feeds = ending.newline (min blanks layout.maxBlankLines) ∧
      (ending.Allows layout.maxBlankLines feeds ↔
        ending.FitsFeeds layout.maxBlankLines (blanks + 1)) := by
  by_cases nothing : ending = .nothing
  · subst nothing
    refine ⟨[], ?_, rfl, Iff.rfl⟩
    simp [Page.newline, stands.isBlank_iff.mpr rfl, indent]
  · have nonblank : page.isBlank = false := by
      rw [Bool.eq_false_iff, ne_eq, stands.isBlank_iff]
      exact nothing
    refine ⟨_, text_newline nonblank layout blanks depth, Text.Ending.after_feeds nothing _, ?_⟩
    rw [Text.Ending.allows_feeds nothing, Text.Ending.fits_newline_min]

private theorem after_indent (layout : Layout) (depth : ℕ) (ending : Text.Ending) :
    ending.after (indent layout depth) =
      if layout.indentation depth = 0 then ending else .midLine := by
  split
  · next flush => rw [indent, flush, List.replicate_zero, Text.Ending.after_nil]
  · next deep =>
    exact ending.after_of_unbroken (feed_not_mem_indent layout depth) (by simpa [indent] using deep)

theorem Stands.newline (stands : page.Stands layout ending capped) (blanks depth : ℕ) :
    (page.newline layout blanks depth).Stands layout
      (if layout.indentation depth = 0 then ending.newline (min blanks layout.maxBlankLines)
        else .midLine)
      (capped ∧ ending.FitsFeeds layout.maxBlankLines (blanks + 1)) := by
  obtain ⟨feeds, text, reached, allowed⟩ := stands.exists_newline blanks depth
  have broken := stands.grow (page.grows_newline layout blanks depth) text
  rw [Text.Ending.after_append, reached, after_indent] at broken
  refine broken.of_iff (and_congr_right' ?_)
  rw [Text.Ending.allows_append, allowed]
  exact and_iff_left (Text.Ending.allows_of_unbroken (feed_not_mem_indent layout depth))

/-- The text of a line behind what is there. -/
theorem Stands.putBehind (stands : page.Stands layout ending capped) {line : Text}
    (unbroken : '\n' ∉ line) :
    (page.putBehind line.trim).Stands layout (if line.hasText then .midLine else ending)
      capped := by
  cases text : line.hasText with
  | false =>
    rw [Text.trim_eq_nil_iff.mpr text]
    exact stands
  | true =>
    have nonempty := Text.trim_ne_nil text
    have shape : page.putBehind line.trim = page.separate.put line.trim := by
      simp [Page.putBehind, nonempty]
    rw [shape]
    exact stands.separate.put_unbroken (Text.not_mem_trim unbroken) nonempty

/-- The text of a line before a leaf. -/
theorem Stands.putBefore (stands : page.Stands layout ending capped) {line : Text}
    (unbroken : '\n' ∉ line) :
    (page.putBefore line.trim).Stands layout (if line.hasText then .midLine else ending)
      capped := by
  cases text : line.hasText with
  | false =>
    rw [Text.trim_eq_nil_iff.mpr text]
    exact stands
  | true =>
    have nonempty := Text.trim_ne_nil text
    have shape : page.putBefore line.trim = (page.put line.trim).put [' '] := by
      simp [Page.putBefore, nonempty]
    rw [shape]
    exact (stands.put_unbroken (Text.not_mem_trim unbroken) nonempty).put_unbroken
      (by decide : '\n' ∉ [' ']) (by simp)

/-- Lines of a gap, each behind a line feed: only the first of them with text can meet empty lines
that were there before. -/
theorem Stands.putLines (stands : page.Stands layout ending capped) (depth blanks : ℕ)
    {lines : List Text} (unbroken : ∀ line ∈ lines, '\n' ∉ line) :
    let filled := page.putLines layout depth blanks lines
    let text := Text.breakInto lines
    filled.1.Stands layout (if text.hasText then .midLine else ending)
        (capped ∧ (text.hasText →
          ending.FitsFeeds layout.maxBlankLines (blanks + text.leadFeeds))) ∧
      filled.2 = text.trailFeeds + if text.hasText then 0 else blanks := by
  induction lines generalizing page ending capped blanks with
  | nil => exact ⟨stands.of_iff (by simp), by simp [Page.putLines]⟩
  | cons line rest ih =>
    obtain ⟨clear, later⟩ := List.forall_mem_cons.mp unbroken
    simp only [Text.breakInto_cons, Text.hasText_feed_cons, Text.hasText_append,
      Text.leadFeeds_feed_line clear, Text.trailFeeds_feed_line clear]
    cases seen : line.hasText with
    | false =>
      rw [putLines_cons_of_blank (Text.trim_eq_nil_iff.mpr seen)]
      obtain ⟨behind, count⟩ := ih stands (blanks + 1) later
      refine ⟨behind.of_iff (by simp [Nat.add_assoc]), count.trans ?_⟩
      cases (Text.breakInto rest).hasText
      · simp [Nat.add_assoc, Nat.add_comm blanks]
      · simp
    | true =>
      have nonempty := Text.trim_ne_nil seen
      rw [putLines_cons_of_text nonempty]
      have here := (stands.newline blanks depth).put_unbroken
        (Text.not_mem_trim clear) nonempty
      obtain ⟨behind, count⟩ := ih here 0 later
      exact ⟨by simpa using behind, count.trans (by simp)⟩

/-- The lines of a gap behind its first one. -/
theorem Stands.putRest (stands : page.Stands layout ending capped) (depth : ℕ)
    {middle : List Text} {last : Text} (clear : ∀ line ∈ middle, '\n' ∉ line)
    (clearLast : '\n' ∉ last) :
    (page.putRest layout depth middle last).Stands layout
      (ending.behindGap layout depth (Text.breakInto (middle ++ [last])))
      (capped ∧ ending.FitsFeeds layout.maxBlankLines
        (Text.breakInto (middle ++ [last])).leadFeeds) := by
  obtain ⟨filled, count⟩ := stands.putLines depth 0 clear
  rw [ite_self, Nat.add_zero] at count
  have laid := (filled.newline (Text.breakInto middle).trailFeeds depth).putBefore clearLast
  have lead : Text.leadFeeds ('\n' :: last) = 1 := by
    simpa using Text.leadFeeds_feed_line clearLast []
  have trail : Text.trailFeeds ('\n' :: last) = if last.hasText then 0 else 1 := by
    simpa using Text.trailFeeds_feed_line clearLast []
  rw [Page.putRest, count, Text.breakInto_append, Text.breakInto_cons, Text.breakInto_nil,
    List.append_nil, Text.Ending.behindGap, Text.leadFeeds_append, lead, Text.trailFeeds_append,
    trail, Text.hasText_append, Text.hasText_feed_cons]
  -- Text on the last line hides what ended before it; without, the lines behind the last text show.
  cases seen : last.hasText <;> cases text : (Text.breakInto middle).hasText <;>
    simp_all [Nat.add_comm 1, Text.leadFeeds_of_blank, Text.trailFeeds_of_blank]

/-- A gap on one line. -/
theorem Stands.gap_of_line (stands : page.Stands layout ending capped) (depth : ℕ) {between : Text}
    (shape : between.lines = [between]) (unbroken : '\n' ∉ between) :
    (page.gap layout depth between).Stands layout
      (if between.hasText then .midLine else ending) capped := by
  by_cases empty : between = []
  · subst empty
    exact stands
  · rw [gap_eq_separate shape empty]
    exact (stands.putBehind unbroken).separate

/-- A gap before a leaf. -/
theorem Stands.gap (stands : page.Stands layout ending capped) (depth : ℕ) (between : Text) :
    (page.gap layout depth between).Stands layout (ending.behindGap layout depth between)
      (capped ∧ ending.FitsFeeds layout.maxBlankLines between.leadFeeds) := by
  obtain ⟨shape, unbroken⟩ | ⟨first, middle, last, shape, -, clear, clearMiddle, clearLast⟩ :=
    between.lines_cases
  · rw [Text.leadFeeds_of_unbroken unbroken, Text.Ending.behindGap,
      Text.trailFeeds_of_unbroken unbroken]
    exact (stands.gap_of_line depth shape unbroken).of_iff (by simp)
  · have laid := (stands.putBehind clear).putRest depth clearMiddle clearLast
    rw [Page.gap_of_lines shape, Text.eq_breakInto_of_lines shape,
      Text.Ending.behindGap_line_append clear]
    exact laid.of_iff (and_congr_right' (Text.Ending.fitsFeeds_line_append clear).symm)

/-- The last line is ended, unless that has been done. -/
theorem Stands.close (stands : page.Stands layout ending capped) :
    (if page.atLineStart then page else page.put ['\n']).Stands layout ending.close capped := by
  split
  · next start =>
    rw [stands.atLineStart_iff] at start
    cases ending with
    | nothing => exact stands
    | midLine => contradiction
    | ended n => exact stands
  · next midLine =>
    have here : ending = .midLine := by simpa [stands.atLineStart_iff] using midLine
    subst here
    exact (stands.put ['\n']).of_iff (and_iff_left ⟨Nat.zero_le _, trivial⟩)

/-- What follows the last leaf. -/
theorem Stands.trailer (stands : page.Stands layout ending capped) (behind : Text) :
    (page.trailer layout behind).Stands layout
      (if behind.hasText then .midLine else ending : Text.Ending).close
      (capped ∧ (behind.hasText →
        ending.FitsFeeds layout.maxBlankLines behind.leadFeeds)) := by
  obtain ⟨first, rest, shape, unbroken⟩ := behind.exists_lines
  obtain ⟨clear, clearRest⟩ := List.forall_mem_cons.mp unbroken
  obtain ⟨filled, -⟩ := (stands.putBehind clear).putLines 0 0 clearRest
  have closed := filled.close
  rw [trailer_of_lines shape, Text.eq_breakInto_of_lines shape,
    Text.Ending.fitsFeeds_line_append clear, Text.hasText_append]
  cases seen : first.hasText <;> cases text : (Text.breakInto rest).hasText <;> simp_all

/-- All leaves from an offset on and what follows them. -/
theorem Stands.putLeaves (stands : page.Stands layout ending capped) (source : Text) (offset : ℕ)
    (leaves : List Leaf) :
    (page.putLeaves layout source offset leaves).Stands layout
      (layout.endingOf source offset leaves ending).close
      (capped ∧ layout.KeepsCap source offset leaves ending) := by
  induction leaves generalizing page offset ending capped with
  | nil => exact stands.trailer _
  | cons leaf rest ih =>
    have step := (stands.gap leaf.depth (source.slice offset leaf.start)).put (leaf.text source)
    exact (ih step _).of_iff (by simp only [Layout.KeepsCap, and_assoc])

end Page

namespace Layout

/-- How a rendering ends, and when it keeps to the cap. -/
theorem stands_renderTree (layout : Layout) {source : Text} {root : Node}
    (valid : root.validate (.along source) = .ok ()) :
    let rendered : Text := (layout.renderTree source root).flatten
    let leaves := Tree.leaves source root
    rendered.ending = (layout.endingOf source 0 leaves .nothing).close ∧
      (rendered.Capped layout.maxBlankLines ↔ layout.KeepsCap source 0 leaves .nothing) := by
  rw [layout.renderTree_eq_putLeaves valid]
  have stands := (Page.stands_blank layout).putLeaves source 0 (Tree.leaves source root)
  exact ⟨stands.ending, stands.capped.trans (iff_of_eq (true_and _))⟩

/-! ## The end of a rendering -/

/-- Every accepted tree is rendered. What is rendered is empty or ends with one line feed behind
something else exactly if no empty line is left at the end of the last gap or leaf that shows. So it
is whenever the last leaf has something in it and does not end its line. -/
theorem renderBytes_ends_once_iff (layout : Layout) {source tree : Bytes} {text : Text}
    {root : Node} (decoded : Utf8.decode source = .ok text)
    (accepted : Tree.decode text tree = .ok root) :
    ∃ tokens : List Text, layout.renderBytes source tree = .ok (tokens.map Utf8.encode) ∧
      ((tokens.flatten = [] ∨ ∃ front c, tokens.flatten = front ++ [c, '\n'] ∧ c ≠ '\n') ↔
        ∀ n, layout.endingOf text 0 (Tree.leaves text root) .nothing = .ended n → n = 0) ∧
      ((∀ last ∈ (root.childless.map (Node.text text)).getLast?,
          last ≠ [] ∧ last.endsLine = false) →
        ∃ front c, tokens.flatten = front ++ [c, '\n'] ∧ c ≠ '\n') := by
  have valid := Tree.validate_of_decode accepted
  have ends := (layout.stands_renderTree valid).1
  refine ⟨_, layout.renderBytes_of_decode decoded accepted, ?_, ?_⟩
  · rw [← Text.ending_eq_nothing_iff, ← Text.ending_eq_ended_zero_iff, ends]
    cases layout.endingOf text 0 (Tree.leaves text root) .nothing <;> simp [Text.Ending.close]
  · intro visible
    obtain ⟨front, leaf, shape⟩ := (List.eq_nil_or_concat' (Tree.leaves text root)).resolve_left
      (Tree.leavesBelow_ne_nil _ _ _)
    have same := Tree.leaves_text text root
    rw [shape, List.map_append] at same
    obtain ⟨nonempty, unended⟩ := visible (leaf.text text) (by simp [← same])
    rw [← Text.ending_eq_ended_zero_iff, ends, shape,
      layout.endingOf_of_last front nonempty unended]
    rfl

/-- A line with a comment and a marker behind it, at the end of the source. -/
def markedLine : Text := "x # é\n".toList

def markedLineTree : Bytes := Utf8.ofString "[\"\",0,7,[[\"\",0,1],[\"\",7,7]]]"

def markedLineRoot : Node := ⟨"", 0, 7, [⟨"", 0, 1, []⟩, ⟨"", 7, 7, []⟩]⟩

theorem renderBytes_ends_once_marked :
    Utf8.decode (Utf8.encode markedLine) = .ok markedLine ∧
      Tree.decode markedLine markedLineTree = .ok markedLineRoot ∧
      ∃ tokens : List Text,
        standard.renderBytes (Utf8.encode markedLine) markedLineTree =
          .ok (tokens.map Utf8.encode) ∧
        (tokens.flatten = [] ∨ ∃ front c, tokens.flatten = front ++ [c, '\n'] ∧ c ≠ '\n') := by
  have decoded : Utf8.decode (Utf8.encode markedLine) = .ok markedLine := by decide
  have accepted : Tree.decode markedLine markedLineTree = .ok markedLineRoot := by decide +kernel
  obtain ⟨tokens, rendered, once, -⟩ := renderBytes_ends_once_iff standard decoded accepted
  have ending : standard.endingOf markedLine 0 (Tree.leaves markedLine markedLineRoot) .nothing =
      .ended 0 := by decide
  rw [ending] at once
  exact ⟨decoded, accepted, tokens, rendered, once.mpr fun n same => by cases same; rfl⟩

/-- A marker at the end of a source with a blank line before it. The last leaf with something in it
does not end its line, and yet the rendering ends with the blank line. -/
theorem renderBytes_ends_blank :
    let text : Text := "x\n\n".toList
    let tree := Utf8.ofString "[\"\",0,3,[[\"\",0,1],[\"\",3,3]]]"
    let root : Node := ⟨"", 0, 3, [⟨"", 0, 1, []⟩, ⟨"", 3, 3, []⟩]⟩
    Engine.startBuiltin standard = .ok () ∧ Tree.decode text tree = .ok root ∧
      ((root.childless.map (Node.text text)).filter (· ≠ [])).getLast? = some ['x'] ∧
      ∃ tokens : List Text,
        standard.renderBytes (Utf8.encode text) tree = .ok (tokens.map Utf8.encode) ∧
        tokens.flatten = text ∧
        ¬(tokens.flatten = [] ∨ ∃ front c, tokens.flatten = front ++ [c, '\n'] ∧ c ≠ '\n') := by
  intro text tree root
  have accepted : Tree.decode text tree = .ok root := by decide +kernel
  have rendered := standard.renderBytes_of_decode (Utf8.decode_encode text) accepted
  have written : (standard.renderTree text root).flatten = text := by decide
  refine ⟨rfl, accepted, by decide, _, rendered, written, ?_⟩
  rw [written, ← Text.ending_eq_nothing_iff, ← Text.ending_eq_ended_zero_iff]
  decide

/-! ## Runs of empty lines in a rendering -/

/-- Whether what follows a leaf does not begin with empty lines, if the leaf has ended its line or
has nothing in it. -/
def Settles (source : Text) (leaf : Leaf) (behind : Text) : Prop :=
  leaf.text source = [] ∨ (leaf.text source).endsLine = true → behind.leadFeeds = 0

/-- Leaves of a source that make no empty line, neither by themselves nor with what follows them. -/
structure Modest (source : Text) (leaves : List Leaf) : Prop where
  single : ∀ leaf ∈ leaves, ¬['\n', '\n'] <:+: leaf.text source
  begun : ∀ leaf ∈ leaves, (leaf.text source).head? ≠ some '\n'
  between : leaves.IsChain fun leaf next =>
    Settles source leaf (source.slice leaf.stop next.start)
  behind : ∀ leaf ∈ leaves.getLast?, (source.dropBytes leaf.stop).hasText →
    Settles source leaf (source.dropBytes leaf.stop)

/-- Behind a leaf a line goes on, or no line feed follows before the next text. -/
theorem fitsFeeds_of_settles {source behind : Text} {leaf : Leaf}
    (settles : Settles source leaf behind) (most : ℕ) (ending : Text.Ending) :
    (ending.after (leaf.text source)).FitsFeeds most behind.leadFeeds := by
  by_cases unheld : leaf.text source = [] ∨ (leaf.text source).endsLine = true
  · rw [settles unheld]
    exact Text.Ending.fitsFeeds_zero _ _
  · rw [not_or, Bool.not_eq_true] at unheld
    rw [ending.after_of_last unheld.1 unheld.2]
    trivial

theorem Modest.allows {source : Text} {leaves : List Leaf} (modest : Modest source leaves)
    {leaf : Leaf} (member : leaf ∈ leaves) (most : ℕ) (ending : Text.Ending) :
    ending.Allows most (leaf.text source) :=
  (Text.Ending.allows_of_single (modest.single leaf member)).mpr fun feed =>
    absurd feed (modest.begun leaf member)

theorem Modest.tail {source : Text} {leaf next : Leaf} {rest : List Leaf}
    (modest : Modest source (leaf :: next :: rest)) : Modest source (next :: rest) where
  single := fun leaf member => modest.single leaf (List.mem_cons_of_mem _ member)
  begun := fun leaf member => modest.begun leaf (List.mem_cons_of_mem _ member)
  between := (List.isChain_cons_cons.mp modest.between).2
  behind := modest.behind

private theorem keepsCap_of_modest (layout : Layout) {source : Text} {leaf : Leaf}
    {rest : List Leaf} (modest : Modest source (leaf :: rest)) {offset : ℕ} {ending : Text.Ending}
    (fits : ending.FitsFeeds layout.maxBlankLines (source.slice offset leaf.start).leadFeeds) :
    layout.KeepsCap source offset (leaf :: rest) ending := by
  induction rest generalizing leaf offset ending with
  | nil =>
    refine ⟨fits, modest.allows (List.mem_singleton_self _) _ _, fun text => ?_⟩
    exact fitsFeeds_of_settles (modest.behind leaf rfl text) _ _
  | cons next rest ih =>
    have settles := (List.isChain_cons_cons.mp modest.between).1
    refine ⟨fits, modest.allows (List.mem_cons_self ..) _ _, ih modest.tail ?_⟩
    exact fitsFeeds_of_settles settles _ _

/-- Every accepted tree is rendered. There are never more empty lines in a row than the layout keeps
exactly if no gap and no leaf makes too many of them with those right before it. So it is whenever
the leaves make none and nothing that follows a leaf without text, or one that ends its line, begins
with a line feed. -/
theorem renderBytes_keeps_cap_iff (layout : Layout) {source tree : Bytes} {text : Text}
    {root : Node} (decoded : Utf8.decode source = .ok text)
    (accepted : Tree.decode text tree = .ok root) :
    ∃ tokens : List Text, layout.renderBytes source tree = .ok (tokens.map Utf8.encode) ∧
      ((∀ n, List.replicate n [] <:+: (Text.lines tokens.flatten).dropLast →
          n ≤ layout.maxBlankLines) ↔
        layout.KeepsCap text 0 (Tree.leaves text root) .nothing) ∧
      (Modest text (Tree.leaves text root) →
        ∀ n, List.replicate n [] <:+: (Text.lines tokens.flatten).dropLast →
          n ≤ layout.maxBlankLines) := by
  have capped := (layout.stands_renderTree (Tree.validate_of_decode accepted)).2
  rw [Text.capped_iff] at capped
  refine ⟨_, layout.renderBytes_of_decode decoded accepted, capped, fun modest => capped.mpr ?_⟩
  obtain ⟨leaf, rest, leaves⟩ := List.exists_cons_of_ne_nil (Tree.leavesBelow_ne_nil _ [] root)
  have shape : Tree.leaves text root = leaf :: rest := leaves
  rw [shape] at modest ⊢
  exact layout.keepsCap_of_modest modest trivial

/-- A leaf that ends its line, and a comment and blank lines before a marker. -/
def apartLines : Text := "a\n\nb # é\n\n\n c".toList

def apartLinesTree : Bytes :=
  Utf8.ofString "[\"\",0,14,[[\"\",0,2],[\"\",3,4],[\"\",12,12],[\"\",13,14]]]"

def apartLinesRoot : Node :=
  ⟨"", 0, 14, [⟨"", 0, 2, []⟩, ⟨"", 3, 4, []⟩, ⟨"", 12, 12, []⟩, ⟨"", 13, 14, []⟩]⟩

theorem renderBytes_keeps_cap_apart :
    Utf8.decode (Utf8.encode apartLines) = .ok apartLines ∧
      Tree.decode apartLines apartLinesTree = .ok apartLinesRoot ∧
      ∃ tokens : List Text,
        standard.renderBytes (Utf8.encode apartLines) apartLinesTree =
          .ok (tokens.map Utf8.encode) ∧
        ∀ n, List.replicate n [] <:+: (Text.lines tokens.flatten).dropLast → n ≤ 1 := by
  have decoded : Utf8.decode (Utf8.encode apartLines) = .ok apartLines := by decide
  have accepted : Tree.decode apartLines apartLinesTree = .ok apartLinesRoot := by decide +kernel
  obtain ⟨tokens, rendered, capped, -⟩ := renderBytes_keeps_cap_iff standard decoded accepted
  exact ⟨decoded, accepted, tokens, rendered, capped.mpr (by decide)⟩

/-- Whether a tree, no leaf of which has an empty line in it, is rendered with more empty lines in a
row than the layout keeps. -/
def ExceedsCap (layout : Layout) (text : Text) (tree : Bytes) : Prop :=
  ∃ root, Tree.decode text tree = .ok root ∧
    (∀ leaf ∈ root.childless, ¬['\n', '\n'] <:+: leaf.text text) ∧
    ∃ tokens : List Text,
      layout.renderBytes (Utf8.encode text) tree = .ok (tokens.map Utf8.encode) ∧
      List.replicate (layout.maxBlankLines + 1) [] <:+: (Text.lines tokens.flatten).dropLast

theorem exceedsCap_of_renderTree {layout : Layout} {text : Text} {tree : Bytes} (root : Node)
    (accepted : Tree.decode text tree = .ok root)
    (single : ∀ leaf ∈ root.childless, ¬['\n', '\n'] <:+: leaf.text text)
    (run : List.replicate (layout.maxBlankLines + 1) [] <:+:
      (Text.lines (layout.renderTree text root).flatten).dropLast) :
    layout.ExceedsCap text tree :=
  ⟨root, accepted, single, _, layout.renderBytes_of_decode (Utf8.decode_encode text) accepted, run⟩

/-- A gap behind a leaf that has ended its line ends it once more, and two gaps that meet at a marker
make more empty lines than one gap does. -/
theorem renderBytes_exceeds_cap :
    Engine.startBuiltin standard = .ok () ∧
      ExceedsCap standard "a\n\n\nb".toList (Utf8.ofString "[\"\",0,5,[[\"\",0,2],[\"\",4,5]]]") ∧
      ExceedsCap standard "a\n\n\n\nb".toList
        (Utf8.ofString "[\"\",0,6,[[\"\",0,1],[\"\",3,3],[\"\",5,6]]]") := by
  refine ⟨rfl, ?_, ?_⟩
  · exact exceedsCap_of_renderTree ⟨"", 0, 5, [⟨"", 0, 2, []⟩, ⟨"", 4, 5, []⟩]⟩
      (by decide +kernel) (by decide) (by decide)
  · exact exceedsCap_of_renderTree
      ⟨"", 0, 6, [⟨"", 0, 1, []⟩, ⟨"", 3, 3, []⟩, ⟨"", 5, 6, []⟩]⟩
      (by decide +kernel) (by decide) (by decide)

end Layout

end FormatHost
