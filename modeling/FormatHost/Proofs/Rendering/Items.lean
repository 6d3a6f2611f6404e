import FormatHost.Proofs.Rendering.FixedPoint
import FormatHost.Proofs.Rendering.Indentation

/-! # What a rendering looks like

The items of a source are its leaves and the pieces of text on the lines of its gaps. A rendering
shows them in order. What stands between two of them depends on the blanks between them in the
source, of which only the line feeds count, on whether both are leaves, and on the depth of the
second one. The rendering itself keeps no account of those blanks. It goes through the gaps line by
line, counts blank lines, and looks at the last token; that this comes to the same is shown for one
item at a time.
-/

namespace FormatHost

/-- A part of a source that is shown: a leaf, or a piece of text in a gap. -/
structure Item where
  start : ℕ
  stop : ℕ
  isLeaf : Bool
  /-- The depth of the leaf that ends its gap, or of the leaf itself; zero behind the last leaf. -/
  depth : ℕ

namespace Item

def text (source : Text) (item : Item) : Text :=
  source.slice item.start item.stop

/-- The pieces of text on some lines of a gap, the first of which starts at an offset: each line
without the blanks around it, unless nothing is left of it. -/
def ofLines (depth : ℕ) : ℕ → List Text → List Item
  | _, [] => []
  | offset, line :: rest =>
    let start := offset + Text.byteLength (line.takeWhile Text.isBlank)
    let others := ofLines depth (offset + line.byteLength + 1) rest
    if line.trim = [] then others
    else ⟨start, start + line.trim.byteLength, false, depth⟩ :: others

theorem ofLines_cons (depth offset : ℕ) (line : Text) (rest : List Text) :
    ofLines depth offset (line :: rest) =
      ofLines depth offset [line] ++ ofLines depth (offset + line.byteLength + 1) rest := by
  rw [ofLines, ofLines, ofLines]
  split
  · rfl
  · rfl

private theorem ofLines_append (depth offset : ℕ) (lines more : List Text) :
    ofLines depth (offset + 1) (lines ++ more) =
      ofLines depth (offset + 1) lines ++
        ofLines depth (offset + (Text.breakInto lines).byteLength + 1) more := by
  induction lines generalizing offset with
  | nil => rfl
  | cons line rest ih =>
    have behind : offset + (Text.breakInto (line :: rest)).byteLength + 1 =
        offset + 1 + line.byteLength + (Text.breakInto rest).byteLength + 1 := by
      have feed : Char.utf8Size '\n' = 1 := rfl
      rw [Text.breakInto_cons, Text.byteLength_cons, Text.byteLength_append, feed]
      omega
    rw [List.cons_append, ofLines_cons, ih, ofLines_cons _ _ _ rest, behind, List.append_assoc]

/-- The items of a source from an offset on, given the leaves behind it. -/
def cut (source : Text) : ℕ → List Leaf → List Item
  | offset, [] => ofLines 0 offset (source.dropBytes offset).lines
  | offset, leaf :: rest =>
    ofLines leaf.depth offset (source.slice offset leaf.start).lines ++
      ⟨leaf.start, leaf.stop, true, leaf.depth⟩ :: cut source leaf.stop rest

end Item

namespace Layout

/-- What stands before an item, given the item before it, if there is one, and the part of the
source between them. -/
def lead (layout : Layout) (space : Text) (before : Option Item) (item : Item) : Text :=
  let indent := List.replicate (layout.indentWidth * item.depth) ' '
  match before, space.count '\n' with
  | none, 0 => []
  | none, _ + 1 => indent
  | some before, 0 => if before.isLeaf && item.isLeaf && space.isEmpty then [] else [' ']
  | some _, blanks + 1 => '\n' :: (List.replicate (min blanks layout.maxBlankLines) '\n' ++ indent)

/-- Items in order behind another one, or from the start on, with what stands before each. -/
def arrange (layout : Layout) (source : Text) : Option Item → List Item → Text
  | _, [] => []
  | before, item :: rest =>
    layout.lead (source.slice ((before.map Item.stop).getD 0) item.start) before item ++
      (item.text source ++ layout.arrange source (some item) rest)

end Layout

namespace Page

/-! ## One item at a time -/

/-- Whether a page shows a source up to some offset: behind the last item shown, if there is one,
there were only blanks, and with the items to come the page makes up a target. -/
inductive Shows (layout : Layout) (source target : Text) :
    Option Item → Text → Page → Text → List Item → Prop
  | blank {space : Text} {todo : List Item} (laid : layout.arrange source none todo = target) :
      Shows layout source target none space blank space todo
  | begun {item : Item} {front space : Text} {page : Page} {todo : List Item} (begun : page.Begun)
      (stop : item.stop = front.byteLength)
      (laid : page.text ++ layout.arrange source (some item) todo = target) :
      Shows layout source target (some item) space page (front ++ space) todo

variable {layout : Layout} {source target : Text} {before : Option Item} {space done : Text}
  {page : Page} {item : Item} {todo : List Item}

/-- Going on in the source shows nothing. -/
theorem Shows.skip (shows : Shows layout source target before space page done todo) (more : Text) :
    Shows layout source target before (space ++ more) page (done ++ more) todo := by
  cases shows with
  | blank laid => exact .blank laid
  | begun begun stop laid =>
    rw [List.append_assoc]
    exact .begun begun stop laid

/-- The blanks are those behind the last item. -/
theorem Shows.slice (shows : Shows layout source target before space page done todo)
    {rest : Text} (whole : source = done ++ rest) :
    source.slice ((before.map Item.stop).getD 0) done.byteLength = space := by
  subst whole
  cases shows with
  | blank => exact Text.slice_append [] space rest
  | @begun _ front _ _ _ _ stop _ =>
    rw [Option.map_some, Option.getD_some, stop, List.append_assoc]
    exact Text.slice_append front space rest

/-- The page and the items to come make up the target. -/
theorem Shows.laid (shows : Shows layout source target before space page done todo) :
    page.text ++ layout.arrange source before todo = target := by
  cases shows with
  | blank laid => exact laid
  | begun _ _ laid => exact laid

section

variable {text rest : Text}
  (shows : Shows layout source target before space page done (item :: todo))
  (whole : source = done ++ (text ++ rest)) (solid : text.Solid)
  (start : item.start = done.byteLength) (stop : item.stop = (done ++ text).byteLength)

include shows whole solid start stop

/-- An item has been shown when it is put behind what stands before it. -/
theorem Shows.put {ready : Page}
    (written : ready.text = page.text ++ layout.lead space before item) :
    Shows layout source target (some item) [] (ready.put text) (done ++ text) todo := by
  have between := shows.slice whole
  have own : item.text source = text := by
    rw [Item.text, start, stop, whole]
    exact Text.slice_append done text rest
  have laid := shows.laid
  rw [Layout.arrange, start, between, own] at laid
  rw [← List.append_nil (done ++ text)]
  refine .begun (ready.begun_put_solid solid) stop ?_
  rw [text_put, written, ← laid]
  simp only [List.append_assoc]

/-- An item on the same line as the one before it is put behind a space. -/
theorem Shows.put_separate (unbroken : '\n' ∉ space)
    (apart : ∀ previous ∈ before, (previous.isLeaf && item.isLeaf && space.isEmpty) = false) :
    Shows layout source target (some item) [] (page.separate.put text) (done ++ text) todo := by
  have feeds := List.count_eq_zero.mpr unbroken
  apply shows.put whole solid start stop
  cases shows with
  | blank => simp only [Layout.lead, feeds, separate_blank, List.append_nil]
  | begun begun =>
    simp only [Layout.lead, feeds, apart _ rfl, begun.separate, text_put, Bool.false_eq_true,
      if_false]

/-- A leaf right behind another one is put there. -/
theorem Shows.put_adjacent (empty : space = [])
    (leaves : ∀ previous ∈ before, previous.isLeaf = true) (leaf : item.isLeaf = true) :
    Shows layout source target (some item) [] (page.put text) (done ++ text) todo := by
  subst empty
  apply shows.put whole solid start stop
  cases shows with
  | blank => simp [Layout.lead]
  | begun => simp [Layout.lead, leaf, leaves _ rfl]

/-- An item on another line than the one before it is put on a new line. -/
theorem Shows.put_newline {blanks : ℕ} (feeds : space.count '\n' = blanks + 1)
    (fits : layout.indentation item.depth = layout.indentWidth * item.depth) :
    Shows layout source target (some item) [] ((page.newline layout blanks item.depth).put text)
      (done ++ text) todo := by
  apply shows.put whole solid start stop
  cases shows with
  | blank => simp only [Layout.lead, feeds, newline_blank, text_put, text_blank, indent, fits]
  | begun begun =>
    rw [begun.text_newline, Text.breakInto_append, Text.breakInto_replicate, Text.breakInto_cons,
      Text.breakInto_nil, List.append_nil, indent, fits, List.append_cons, ← List.replicate_succ',
      List.replicate_succ, List.cons_append]
    simp only [Layout.lead, feeds]

end

/-! ## One line at a time -/

theorem byteLength_append_feed (s : Text) : (s ++ ['\n']).byteLength = s.byteLength + 1 :=
  Text.byteLength_append s ['\n']

/-- On a line with something to be seen on it, that is the next item. -/
theorem Shows.of_visible {line rest : Text} {depth : ℕ}
    (shows : Shows layout source target before space page done
      (Item.ofLines depth done.byteLength [line] ++ todo))
    (whole : source = done ++ (line ++ rest)) (visible : line.trim ≠ []) :
    ∃ piece front back, line = front ++ (line.trim ++ back) ∧ piece.isLeaf = false ∧
      piece.depth = depth ∧ piece.start = (done ++ front).byteLength ∧
      piece.stop = (done ++ front ++ line.trim).byteLength ∧
      source = done ++ front ++ (line.trim ++ (back ++ rest)) ∧
      Shows layout source target before (space ++ front) page (done ++ front) (piece :: todo) := by
  obtain ⟨back, shape⟩ : line.trim <+: line.trimStart := Text.trimEnd_isPrefix line.trimStart
  have split : line = line.takeWhile Text.isBlank ++ (line.trim ++ back) := by
    rw [shape]
    exact List.takeWhile_append_dropWhile.symm
  rw [Item.ofLines, if_neg visible] at shows
  refine ⟨_, line.takeWhile Text.isBlank, back, split, rfl, rfl, ?_, ?_, ?_, shows.skip _⟩
  · rw [Text.byteLength_append]
  · rw [Text.byteLength_append, Text.byteLength_append]
  · rw [whole]
    nth_rewrite 1 [split]
    simp only [List.append_assoc]

/-- A line behind the last item, if there is one on it. -/
theorem Shows.putBehind {line rest : Text} {depth : ℕ}
    (shows : Shows layout source target before [] page done
      (Item.ofLines depth done.byteLength [line] ++ todo))
    (whole : source = done ++ (line ++ rest)) (unbroken : '\n' ∉ line) :
    ∃ before' space', Shows layout source target before' space' (page.putBehind line.trim)
        (done ++ line) todo ∧ '\n' ∉ space' ∧
      (line ≠ [] → ∀ previous ∈ before', (previous.isLeaf && space'.isEmpty) = false) := by
  by_cases empty : line.trim = []
  · rw [Item.ofLines, if_pos empty] at shows
    refine ⟨before, line, ?_, unbroken, fun nonempty previous _ => by simp [nonempty]⟩
    rw [empty]
    exact shows.skip line
  · obtain ⟨piece, front, back, split, noLeaf, -, start, stop, whole', next⟩ :=
      shows.of_visible whole empty
    rw [split, List.mem_append, List.mem_append, not_or, not_or] at unbroken
    have shown := next.put_separate whole' (Text.solid_trim empty) start stop unbroken.1
      fun previous _ => by simp [noLeaf]
    refine ⟨some piece, back, ?_, unbroken.2.2, fun _ previous same => ?_⟩
    · have skipped := shown.skip back
      rw [List.append_assoc, List.append_assoc, ← split] at skipped
      simpa [Page.putBehind, empty] using skipped
    · obtain rfl := Option.some.inj same
      simp [noLeaf]

/-- A line with something to be seen on it, behind at least one line feed. -/
theorem Shows.putLine {line rest : Text} {depth blanks : ℕ}
    (shows : Shows layout source target before space page done
      (Item.ofLines depth done.byteLength [line] ++ todo))
    (whole : source = done ++ (line ++ rest)) (unbroken : '\n' ∉ line) (visible : line.trim ≠ [])
    (feeds : space.count '\n' = blanks + 1)
    (fits : layout.indentation depth = layout.indentWidth * depth) :
    ∃ piece space', Shows layout source target (some piece) space'
        ((page.newline layout blanks depth).put line.trim) (done ++ line) todo ∧
      '\n' ∉ space' ∧ piece.isLeaf = false := by
  obtain ⟨piece, front, back, split, noLeaf, rfl, start, stop, whole', next⟩ :=
    shows.of_visible whole visible
  rw [split, List.mem_append, List.mem_append, not_or, not_or] at unbroken
  have feeds' : (space ++ front).count '\n' = blanks + 1 := by
    rw [List.count_append, feeds, List.count_eq_zero.mpr unbroken.1]
  have shown := next.put_newline whole' (Text.solid_trim visible) start stop feeds' fits
  have skipped := shown.skip back
  rw [List.append_assoc, List.append_assoc, ← split] at skipped
  exact ⟨piece, back, skipped, unbroken.2.2, noLeaf⟩

/-- Lines, each behind a line feed: those that are blank are counted until the next item. -/
theorem Shows.putLines {lines : List Text} {rest : Text} {depth blanks : ℕ}
    (shows : Shows layout source target before space page done
      (Item.ofLines depth (done.byteLength + 1) lines ++ todo))
    (whole : source = done ++ (Text.breakInto lines ++ rest))
    (unbroken : ∀ line ∈ lines, '\n' ∉ line) (feeds : space.count '\n' = blanks)
    (fits : layout.indentation depth = layout.indentWidth * depth) :
    ∃ before' space', Shows layout source target before' space'
        (page.putLines layout depth blanks lines).1 (done ++ Text.breakInto lines) todo ∧
      space'.count '\n' = (page.putLines layout depth blanks lines).2 := by
  induction lines generalizing before space page done blanks with
  | nil =>
    rw [Text.breakInto_nil, List.append_nil]
    exact ⟨before, space, shows, feeds⟩
  | cons line others ih =>
    obtain ⟨clear, later⟩ := List.forall_mem_cons.mp unbroken
    have next := shows.skip ['\n']
    rw [Item.ofLines_cons, ← byteLength_append_feed, List.append_assoc,
      ← Text.byteLength_append _ line] at next
    have lines : Text.breakInto (line :: others) = ['\n'] ++ (line ++ Text.breakInto others) := rfl
    rw [lines, List.append_assoc, List.append_assoc, ← List.append_assoc] at whole
    rw [lines, ← List.append_assoc, ← List.append_assoc]
    have broken : (space ++ ['\n']).count '\n' = blanks + 1 := by
      rw [List.count_append, feeds]
      rfl
    by_cases blank : line.trim = []
    · rw [Item.ofLines, if_pos blank] at next
      rw [putLines_cons_of_blank blank]
      rw [← List.append_assoc] at whole
      apply ih (next.skip line) whole later
      rw [List.count_append, broken, List.count_eq_zero.mpr clear]
    · obtain ⟨piece, space', shown, none, -⟩ := next.putLine whole clear blank broken fits
      rw [putLines_cons_of_text blank]
      rw [← List.append_assoc] at whole
      exact ih shown whole later (List.count_eq_zero.mpr none)

/-! ## One leaf at a time -/

/-- A leaf on the same line as the item before it. -/
theorem Shows.putLeaf_of_line {between text rest : Text} {depth : ℕ}
    (shows : Shows layout source target before [] page done
      (Item.ofLines depth done.byteLength between.lines ++ item :: todo))
    (leaves : ∀ previous ∈ before, previous.isLeaf = true) (leaf : item.isLeaf = true)
    (whole : source = done ++ (between ++ (text ++ rest))) (solid : text.Solid)
    (start : item.start = (done ++ between).byteLength)
    (stop : item.stop = (done ++ between ++ text).byteLength)
    (shape : between.lines = [between]) (unbroken : '\n' ∉ between) :
    Shows layout source target (some item) [] ((page.gap layout depth between).put text)
      (done ++ between ++ text) todo := by
  rw [shape] at shows
  by_cases empty : between = []
  · subst empty
    rw [List.append_nil] at start stop ⊢
    exact shows.put_adjacent whole solid start stop rfl leaves leaf
  · obtain ⟨before', space', shown, clear, apart⟩ := shows.putBehind whole unbroken
    rw [← List.append_assoc] at whole
    rw [gap_eq_separate shape empty]
    apply shown.put_separate whole solid start stop clear
    intro previous same
    have apart := apart empty previous same
    rwa [leaf, Bool.and_true]

/-- A leaf on another line than the item before it, with the text that stands on its line. -/
theorem Shows.putLeaf_of_last {line text rest : Text} {blanks : ℕ}
    (shows : Shows layout source target before space page done
      (Item.ofLines item.depth done.byteLength [line] ++ item :: todo))
    (whole : source = done ++ (line ++ (text ++ rest))) (solid : text.Solid)
    (start : item.start = (done ++ line).byteLength)
    (stop : item.stop = (done ++ line ++ text).byteLength) (unbroken : '\n' ∉ line)
    (feeds : space.count '\n' = blanks + 1)
    (fits : layout.indentation item.depth = layout.indentWidth * item.depth) :
    Shows layout source target (some item) []
      (((page.newline layout blanks item.depth).putBefore line.trim).put text)
      (done ++ line ++ text) todo := by
  have onward := whole
  rw [← List.append_assoc] at onward
  by_cases blank : line.trim = []
  · rw [Item.ofLines, if_pos blank] at shows
    rw [blank]
    apply (shows.skip line).put_newline onward solid start stop ?_ fits
    rw [List.count_append, feeds, List.count_eq_zero.mpr unbroken]
  · obtain ⟨piece, space', shown, clear, noLeaf⟩ := shows.putLine whole unbroken blank feeds fits
    have begun := (page.newline layout blanks item.depth).begun_put_solid (Text.solid_trim blank)
    have separate := shown.put_separate onward solid start stop clear fun previous same => by
      obtain rfl := Option.some.inj same
      simp [noLeaf]
    rw [begun.separate] at separate
    simpa [putBefore, blank] using separate

/-- A leaf behind a gap of several lines. -/
theorem Shows.putLeaf_of_lines {between text rest first last : Text} {middle : List Text}
    (shows : Shows layout source target before [] page done
      (Item.ofLines item.depth done.byteLength between.lines ++ item :: todo))
    (whole : source = done ++ (between ++ (text ++ rest))) (solid : text.Solid)
    (start : item.start = (done ++ between).byteLength)
    (stop : item.stop = (done ++ between ++ text).byteLength)
    (shape : between.lines = first :: (middle ++ [last])) (clear : '\n' ∉ first)
    (clearMiddle : ∀ line ∈ middle, '\n' ∉ line) (clearLast : '\n' ∉ last)
    (fits : layout.indentation item.depth = layout.indentWidth * item.depth) :
    Shows layout source target (some item) []
      ((page.gap layout item.depth between).put text) (done ++ between ++ text) todo := by
  have lines : between = first ++ (Text.breakInto middle ++ (['\n'] ++ last)) := by
    rw [Text.eq_breakInto_of_lines shape, Text.breakInto_append]
    simp
  have reached : done ++ between = done ++ first ++ Text.breakInto middle ++ ['\n'] ++ last := by
    simp [lines]
  rw [lines, List.append_assoc, List.append_assoc] at whole
  rw [shape, Item.ofLines_cons, ← Text.byteLength_append, Item.ofLines_append, List.append_assoc,
    List.append_assoc, ← Text.byteLength_append] at shows
  rw [reached] at start stop ⊢
  -- the source is gone through line by line: what has been read moves to the front of it
  obtain ⟨before₁, space₁, behind, none, -⟩ := shows.putBehind whole clear
  rw [← List.append_assoc] at whole
  obtain ⟨before₂, space₂, filled, feeds⟩ :=
    behind.putLines whole clearMiddle (List.count_eq_zero.mpr none) fits
  have next := filled.skip ['\n']
  rw [← byteLength_append_feed] at next
  rw [← List.append_assoc, List.append_assoc ['\n'], ← List.append_assoc] at whole
  rw [gap_of_lines shape, putRest]
  apply next.putLeaf_of_last whole solid start stop clearLast ?_ fits
  rw [List.count_append, feeds]
  rfl

/-- A leaf and the gap before it. -/
theorem Shows.putLeaf {between text rest : Text} {depth : ℕ}
    (shows : Shows layout source target before [] page done
      (Item.ofLines depth done.byteLength between.lines ++ item :: todo))
    (leaves : ∀ previous ∈ before, previous.isLeaf = true) (leaf : item.isLeaf = true)
    (deep : item.depth = depth) (whole : source = done ++ (between ++ (text ++ rest)))
    (solid : text.Solid) (start : item.start = (done ++ between).byteLength)
    (stop : item.stop = (done ++ between ++ text).byteLength)
    (fits : layout.indentation depth = layout.indentWidth * depth) :
    Shows layout source target (some item) [] ((page.gap layout depth between).put text)
      (done ++ between ++ text) todo := by
  subst deep
  rcases between.lines_cases with
    ⟨shape, unbroken⟩ | ⟨first, middle, last, shape, -, clear, clearMiddle, clearLast⟩
  · exact shows.putLeaf_of_line leaves leaf whole solid start stop shape unbroken
  · exact shows.putLeaf_of_lines whole solid start stop shape clear clearMiddle clearLast fits

/-- What follows the last leaf, and the end of the last line. -/
theorem Shows.text_trailer {tail : Text}
    (shows : Shows layout source target (some item) [] page done
      (Item.ofLines 0 done.byteLength tail.lines))
    (whole : source = done ++ tail) : (page.trailer layout tail).text = target ++ ['\n'] := by
  obtain ⟨first, rest, shape, unbroken⟩ := tail.exists_lines
  obtain ⟨clear, clearRest⟩ := List.forall_mem_cons.mp unbroken
  have begun : page.Begun := by
    cases shows with
    | begun begun => exact begun
  have begunRest := ((begun.putBehind first).putLines_relay layout 0 0 rest).1
  rw [Text.eq_breakInto_of_lines shape] at whole
  rw [shape, Item.ofLines_cons, ← Text.byteLength_append] at shows
  obtain ⟨before₁, space₁, behind, none, -⟩ := shows.putBehind whole clear
  rw [← List.append_nil (Item.ofLines 0 _ rest)] at behind
  rw [← List.append_assoc, ← List.append_nil (Text.breakInto rest)] at whole
  obtain ⟨before₂, space₂, filled, -⟩ :=
    behind.putLines whole clearRest (List.count_eq_zero.mpr none) (by simp [Layout.indentation])
  have laid := filled.laid
  rw [Layout.arrange, List.append_nil] at laid
  rw [trailer_of_lines shape]
  simp only [begunRest.atLineStart, Bool.false_eq_true, ↓reduceIte, text_put, laid]

/-- The pieces of a source and what follows them. -/
theorem Shows.text_putPieces {pieces : List Piece} {tail : Text}
    (shows : Shows layout source target before [] page done
      (Item.cut source done.byteLength (Piece.leaves done pieces)))
    (leaves : ∀ previous ∈ before, previous.isLeaf = true)
    (nonempty : before = none → pieces ≠ [])
    (whole : source = done ++ (Piece.join pieces ++ tail))
    (solid : ∀ piece ∈ pieces, piece.text.Solid)
    (fits : ∀ piece ∈ pieces, layout.indentation piece.depth = layout.indentWidth * piece.depth) :
    (page.putPieces layout tail pieces).text = target ++ ['\n'] := by
  induction pieces generalizing before page done with
  | nil =>
    cases before with
    | none => exact absurd rfl (nonempty rfl)
    | some item =>
      have behind : source.dropBytes done.byteLength = tail := by
        rw [whole]
        exact Text.dropBytes_byteLength_append done tail
      rw [Piece.leaves, Item.cut, behind] at shows
      exact shows.text_trailer whole
  | cons piece rest ih =>
    obtain ⟨solidFirst, solidRest⟩ := List.forall_mem_cons.mp solid
    obtain ⟨fitsFirst, fitsRest⟩ := List.forall_mem_cons.mp fits
    rw [Piece.join_cons, List.append_assoc, List.append_assoc] at whole
    have gap : source.slice done.byteLength (done ++ piece.gap).byteLength = piece.gap := by
      rw [whole]
      exact Text.slice_append done piece.gap _
    rw [Piece.leaves, Item.cut, gap] at shows
    have shown := shows.putLeaf leaves rfl rfl whole solidFirst rfl rfl fitsFirst
    rw [← List.append_assoc, ← List.append_assoc] at whole
    refine ih shown ?_ (by simp) whole solidRest fitsRest
    intro previous same
    obtain rfl := Option.some.inj same
    rfl

end Page

namespace Layout

/-- A valid tree with solid leaves is rendered as its items are arranged. -/
theorem renderTree_eq_arrange (layout : Layout) {source : Text} {root : Node}
    (valid : root.validate (.along source) = .ok ())
    (solid : ∀ leaf ∈ root.childless, (leaf.text source).Solid)
    (fits : ∀ leaf ∈ Tree.leaves source root,
      layout.indentation leaf.depth = layout.indentWidth * leaf.depth) :
    (layout.renderTree source root).flatten =
      layout.arrange source none (Item.cut source 0 (Tree.leaves source root)) ++ ['\n'] := by
  obtain ⟨pieces, tail, whole, leaves, nonempty, texts⟩ := Piece.exists_of_validate valid solid
  rw [layout.renderTree_of_pieces valid whole leaves]
  rw [leaves] at fits ⊢
  have shows : Page.Shows layout source
      (layout.arrange source none (Item.cut source 0 (Piece.leaves [] pieces))) none [] .blank []
      (Item.cut source 0 (Piece.leaves [] pieces)) := .blank rfl
  refine shows.text_putPieces nofun (fun _ => nonempty) whole texts fun piece member => ?_
  have depth : piece.depth ∈ (Piece.leaves [] pieces).map Leaf.depth := by
    rw [Piece.map_depth_leaves]
    exact List.mem_map_of_mem member
  obtain ⟨leaf, present, same⟩ := List.mem_map.mp depth
  rw [← same]
  exact fits leaf present

/-- With every layout that the engine starts with, what is rendered from an accepted tree with solid
leaves is exactly this: the leaves and the pieces of text between them, in the order of the source.
Two of them on one line are a space apart, or adjacent if they are leaves that were. Two of them on
different lines are as many line feeds apart as there were, blank lines beyond those that the layout
keeps left out, and the second one is indented; so is the first of all behind a line feed. In the
end there is one line feed. -/
theorem renderBytes_arranges_items (layout : Layout) {source tree : Bytes} {text : Text}
    {root : Node} (started : Engine.startBuiltin layout = .ok ())
    (decoded : Utf8.decode source = .ok text) (accepted : Tree.decode text tree = .ok root)
    (solid : ∀ leaf ∈ root.childless, (leaf.text text).Solid) :
    ∃ tokens : List Bytes, layout.renderBytes source tree = .ok tokens ∧
      tokens.flatten = Utf8.encode
        (layout.arrange text none (Item.cut text 0 (Tree.leaves text root)) ++ ['\n']) := by
  refine ⟨_, layout.renderBytes_of_decode decoded accepted, ?_⟩
  rw [flatten_map_encode]
  apply congrArg Utf8.encode
  apply layout.renderTree_eq_arrange (Tree.validate_of_decode accepted) solid
  intro leaf member
  have bounded := product_le (Engine.width_le_of_start started)
    (Tree.depth_le_of_decode accepted member)
  exact indentation_of_lt (Nat.lt_of_le_of_lt bounded (by decide))

/-- A call in a call: the comment in front is on a line of its own, one of the blank lines is left
out, the comment in the middle has a space at each side, and the one behind has one before it. -/
theorem renderBytes_arranges_call :
    Engine.startBuiltin standard = .ok () ∧
      Utf8.decode (Utf8.encode nestedCall) = .ok nestedCall ∧
      Tree.decode nestedCall nestedCallTree = .ok nestedCallRoot ∧
      (∀ leaf ∈ nestedCallRoot.childless, (leaf.text nestedCall).Solid) ∧
      ∃ tokens : List Bytes,
        standard.renderBytes (Utf8.encode nestedCall) nestedCallTree = .ok tokens ∧
        tokens.flatten = Utf8.ofString "# é\nf(\n\n  g( /*c*/ x,\ny)) # end\n" := by
  have started : Engine.startBuiltin standard = .ok () := rfl
  have decoded : Utf8.decode (Utf8.encode nestedCall) = .ok nestedCall := by decide
  have accepted : Tree.decode nestedCall nestedCallTree = .ok nestedCallRoot := by decide +kernel
  have solid : ∀ leaf ∈ nestedCallRoot.childless, (leaf.text nestedCall).Solid := by decide
  obtain ⟨tokens, rendered, laid⟩ :=
    renderBytes_arranges_items standard started decoded accepted solid
  refine ⟨started, decoded, accepted, solid, tokens, rendered, ?_⟩
  rw [laid]
  decide +kernel

end Layout

end FormatHost
