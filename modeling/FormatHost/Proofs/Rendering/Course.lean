import FormatHost.Proofs.Rendering.Content
import FormatHost.Proofs.Text.Solid

/-! # The course of a rendering

One advance puts a gap and a leaf on the page, both cut out of the source; the last one puts what
follows the leaves. Along the leaves of a valid tree these cuts are all there is to a rendering, so
its page is found by going through the leaves once.
-/

namespace FormatHost

namespace Page

/-! ## The text of a page -/

@[simp] theorem text_blank : blank.text = [] := rfl

@[simp] theorem text_put (page : Page) (token : Text) :
    (page.put token).text = page.text ++ token := by
  rw [text, tokens_put, List.flatten_append, text]
  by_cases empty : token = [] <;> simp [empty]

private theorem text_putAll (page : Page) (tokens : List Text) :
    (page.putAll tokens).text = page.text ++ tokens.flatten := by
  induction tokens generalizing page with
  | nil => simp [putAll]
  | cons token rest ih =>
    have later := ih (page.put token)
    rw [text_put, List.append_assoc] at later
    exact later

/-! ## Pages on which a line has begun -/

/-- A page whose last line has something on it. -/
structure Begun (page : Page) : Prop where
  isBlank : page.isBlank = false
  atLineStart : page.atLineStart = false

/-- A token that does not end in a line feed leaves a line begun. -/
theorem begun_put (page : Page) {token : Text} (nonempty : token ≠ [])
    (visible : token.EndsVisibly) : (page.put token).Begun := by
  have shape : page.put token = ⟨page.tokens.push token⟩ := by simp [put, nonempty]
  have unended : token.endsLine = false := by
    rw [Text.endsLine, Bool.eq_false_iff, ne_eq, beq_iff_eq]
    intro feed
    have blank := visible '\n' feed
    contradiction
  rw [shape]
  constructor
  · simp [Page.isBlank]
  · simp [Page.atLineStart, unended]

theorem begun_put_solid (page : Page) {token : Text} (solid : token.Solid) :
    (page.put token).Begun :=
  page.begun_put solid.nonempty solid.endsVisibly

@[simp] theorem separate_blank : blank.separate = blank := rfl

theorem Begun.separate {page : Page} (begun : page.Begun) : page.separate = page.put [' '] := by
  rw [Page.separate, begun.atLineStart]
  rfl

def indent (layout : Layout) (depth : ℕ) : Text :=
  List.replicate (layout.indentation depth) ' '

theorem isBlank_of_mem_indent {layout : Layout} {depth : ℕ} {c : Char}
    (member : c ∈ indent layout depth) : Text.isBlank c = true := by
  rw [List.eq_of_mem_replicate member]
  decide

theorem newline_blank (layout : Layout) (blanks depth : ℕ) :
    blank.newline layout blanks depth = blank.put (indent layout depth) := rfl

/-- The text of a new line: a line feed, one for each blank line that is kept, the indentation. -/
theorem text_newline {page : Page} (nonblank : page.isBlank = false) (layout : Layout)
    (blanks depth : ℕ) :
    (page.newline layout blanks depth).text =
      page.text ++ (List.replicate (1 + min blanks layout.maxBlankLines) '\n' ++
        indent layout depth) := by
  rw [newline, nonblank]
  simp only [Bool.false_eq_true, ↓reduceIte, text_put, text_putAll, List.append_assoc,
    List.flatten_replicate_singleton]
  rfl

/-- The text of a new line as lines behind what is on the page. -/
theorem Begun.text_newline {page : Page} (begun : page.Begun) (layout : Layout)
    (blanks depth : ℕ) :
    (page.newline layout blanks depth).text =
      page.text ++ Text.breakInto
        (List.replicate (min blanks layout.maxBlankLines) [] ++ [indent layout depth]) := by
  rw [Page.text_newline begun.isBlank, Text.breakInto_append, Text.breakInto_replicate,
    Nat.add_comm, List.replicate_succ', List.append_assoc]
  simp

/-- Only as many blank lines count as are kept. -/
theorem newline_min (layout : Layout) (blanks depth : ℕ) (page : Page) :
    page.newline layout (min blanks layout.maxBlankLines) depth =
      page.newline layout blanks depth := by
  rw [newline, newline, Nat.min_assoc, Nat.min_self]

/-! ## Gaps and what follows the last leaf -/

/-- A gap on one line shows as its text or as a space. -/
theorem gap_of_line {between : Text} (shape : between.lines = [between]) (layout : Layout)
    (depth : ℕ) (page : Page) :
    page.gap layout depth between =
      if between.trim = [] then if between = [] then page else page.separate
      else (page.separate.put between.trim).put [' '] := by
  rw [gap, shape]
  cases trimmed : Text.trim between with
  | nil => simp [trimmed]
  | cons c text => simp [trimmed]

/-- A gap on one line that is not empty ends with a space. -/
theorem gap_eq_separate {between : Text} (shape : between.lines = [between])
    (nonempty : between ≠ []) (layout : Layout) (depth : ℕ) (page : Page) :
    page.gap layout depth between = (page.putBehind between.trim).separate := by
  rw [gap_of_line shape]
  by_cases blank : between.trim = []
  · simp [blank, nonempty, putBehind]
  · have begun := page.separate.begun_put_solid (Text.solid_trim blank)
    simp [blank, putBehind, begun.separate]

/-- A page after the lines of a gap behind its first one. -/
def putRest (layout : Layout) (depth : ℕ) (middle : List Text) (last : Text) (page : Page) : Page :=
  let filled := page.putLines layout depth 0 middle
  (filled.1.newline layout filled.2 depth).putBefore last.trim

theorem gap_of_lines {between first last : Text} {middle : List Text}
    (shape : between.lines = first :: (middle ++ [last])) (layout : Layout) (depth : ℕ)
    (page : Page) :
    page.gap layout depth between =
      (page.putBehind first.trim).putRest layout depth middle last := by
  obtain ⟨next, rest, more⟩ : ∃ next rest, middle ++ [last] = next :: rest :=
    List.exists_cons_of_ne_nil (by simp)
  rw [gap, shape, more]
  simp only [← more, List.dropLast_concat, List.getLastD_concat]
  rfl

theorem trailer_of_lines {behind first : Text} {rest : List Text}
    (shape : behind.lines = first :: rest) (layout : Layout) (page : Page) :
    page.trailer layout behind =
      let filled := ((page.putBehind first.trim).putLines layout 0 0 rest).1
      if filled.atLineStart then filled else filled.put ['\n'] := by
  rw [trailer, shape]

/-- A gap and a leaf go behind what is on a page. -/
theorem prefix_gap_put (layout : Layout) (depth : ℕ) (between token : Text) (page : Page) :
    page.tokens.toList <+: ((page.gap layout depth between).put token).tokens.toList := by
  obtain ⟨added, tokens, _⟩ := page.grows_gap layout depth between
  rw [tokens_put, tokens, List.append_assoc]
  exact List.prefix_append ..

/-- What follows the last leaf goes behind what is on a page. -/
theorem prefix_trailer (layout : Layout) (behind : Text) (page : Page) :
    page.tokens.toList <+: (page.trailer layout behind).tokens.toList := by
  obtain ⟨added, tokens, _⟩ := page.grows_trailer layout behind
  exact ⟨added, tokens.symm⟩

/-! ## Along the leaves -/

/-- A page after what lies between an offset of a source and a leaf, and the leaf. -/
def putLeaf (layout : Layout) (source : Text) (offset : ℕ) (leaf : Leaf) (page : Page) : Page :=
  (page.gap layout leaf.depth (source.slice offset leaf.start)).put (leaf.text source)

/-- A page after all leaves of a source from an offset on and what follows them. -/
def putLeaves (layout : Layout) (source : Text) : ℕ → List Leaf → Page → Page
  | offset, [], page => page.trailer layout (source.dropBytes offset)
  | offset, leaf :: rest, page =>
    putLeaves layout source leaf.stop rest (page.putLeaf layout source offset leaf)

end Page

namespace Rendering

/-- One advance puts a gap and a leaf on the page and goes on behind them. -/
theorem advance_eq_of_leaf {source : Text} {r : Rendering} {leaf : Leaf} {todo : List Leaf}
    (covers : r.Covers source) (next : r.todo = some (leaf :: todo))
    (behind : r.offset ≤ leaf.start) (ordered : leaf.start ≤ leaf.stop)
    (starts : source.isBoundary leaf.start = true) :
    r.advance = { r with
      offset := leaf.stop
      rest := source.dropBytes leaf.stop
      todo := some todo
      page := r.page.putLeaf r.layout source r.offset leaf } := by
  have reached := Text.dropBytes_dropBytes covers.boundary behind
  have passed := Text.dropBytes_dropBytes starts ordered
  simp only [advance, next, covers.rest, reached, passed]
  rfl

/-- The last advance puts what follows the leaves on the page. -/
theorem advance_eq_of_end {source : Text} {r : Rendering} (covers : r.Covers source)
    (next : r.todo = some []) :
    r.advance = { r with
      todo := none
      page := r.page.trailer r.layout (source.dropBytes r.offset) } := by
  simp only [advance, next, covers.rest]

/-- As many advances as there are leaves, and one more, put all of them on the page. -/
theorem advanceBy_page {source : Text} {r : Rendering} {leaves : List Leaf} {last : ℕ}
    (covers : r.Covers source) (next : r.todo = some leaves)
    (laid : Tree.Laid source r.offset leaves last) :
    (r.advanceBy (leaves.length + 1)).page =
      r.page.putLeaves r.layout source r.offset leaves := by
  induction leaves generalizing r with
  | nil =>
    change r.advance.page = _
    rw [advance_eq_of_end covers next]
    rfl
  | cons leaf rest ih =>
    cases laid with
    | cons behind ordered inside starts stops later =>
      have step := advance_eq_of_leaf covers next behind ordered starts
      change (r.advance.advanceBy (rest.length + 1)).page = _
      rw [step]
      exact ih ⟨rfl, stops⟩ rfl later

end Rendering

namespace Layout

/-- The tokens of a valid tree are what going through its leaves puts on a page. -/
theorem renderTree_eq_putLeaves (layout : Layout) {source : Text} {root : Node}
    (valid : root.validate (.along source) = .ok ()) :
    layout.renderTree source root =
      (Page.blank.putLeaves layout source 0 (Tree.leaves source root)).tokens.toList := by
  have page := Rendering.advanceBy_page
    (Rendering.covers_start layout source (Tree.leaves source root)) rfl (Tree.laid_leaves valid)
  exact congrArg (fun page => page.tokens.toList) page

/-- Rendering an accepted tree over some text gives the tokens of the tree. -/
theorem renderBytes_of_decode (layout : Layout) {source tree : Bytes} {text : Text} {root : Node}
    (decoded : Utf8.decode source = .ok text) (accepted : Tree.decode text tree = .ok root) :
    layout.renderBytes source tree = .ok ((layout.renderTree text root).map Utf8.encode) := by
  simp [renderBytes, decodeSource, decoded, accepted, bind, Except.bind]

theorem flatten_map_encode (tokens : List Text) :
    (tokens.map Utf8.encode).flatten = Utf8.encode tokens.flatten := by
  induction tokens with
  | nil => rfl
  | cons token rest ih => simp [ih]

end Layout

end FormatHost
