import FormatHost.Proofs.Rendering.Course

/-! # A source in pieces

Along its leaves a source falls into pieces, each of them a gap and the leaf behind it, and what
follows the last leaf. The pieces say where the leaves lie, and a rendering reads nothing else.
-/

namespace FormatHost

/-- A leaf with the gap before it. -/
structure Piece where
  depth : ℕ
  gap : Text
  text : Text

namespace Piece

/-- The text of some pieces. -/
def join (pieces : List Piece) : Text :=
  pieces.flatMap fun piece => piece.gap ++ piece.text

@[simp] theorem join_nil : join [] = [] := rfl

@[simp] theorem join_cons (piece : Piece) (rest : List Piece) :
    join (piece :: rest) = piece.gap ++ (piece.text ++ join rest) :=
  List.append_assoc ..

/-- The leaves of some pieces behind a text. -/
def leaves : Text → List Piece → List Leaf
  | _, [] => []
  | before, piece :: rest =>
    ⟨(before ++ piece.gap).byteLength, (before ++ piece.gap ++ piece.text).byteLength,
      piece.depth⟩ :: leaves (before ++ piece.gap ++ piece.text) rest

@[simp] theorem map_depth_leaves (before : Text) (pieces : List Piece) :
    (leaves before pieces).map Leaf.depth = pieces.map depth := by
  induction pieces generalizing before with
  | nil => rfl
  | cons piece rest ih => rw [leaves, List.map_cons, List.map_cons, ih]

@[simp] theorem length_leaves (before : Text) (pieces : List Piece) :
    (leaves before pieces).length = pieces.length := by
  have same := congrArg List.length (map_depth_leaves before pieces)
  rwa [List.length_map, List.length_map] at same

/-- The first piece belongs to what lies before the others. -/
theorem append_join_cons (before : Text) (piece : Piece) (rest : List Piece) (tail : Text) :
    before ++ (join (piece :: rest) ++ tail) =
      before ++ piece.gap ++ piece.text ++ (join rest ++ tail) := by
  simp

/-- The leaves of pieces lie one behind the other in their text. -/
theorem laid_leaves (before : Text) (pieces : List Piece) (tail : Text) :
    Tree.Laid (before ++ (join pieces ++ tail)) before.byteLength (leaves before pieces)
      (before ++ (join pieces ++ tail)).byteLength := by
  induction pieces generalizing before with
  | nil => exact .nil (by simp)
  | cons piece rest ih =>
    have starts := Text.isBoundary_append (before ++ piece.gap)
      (piece.text ++ (join rest ++ tail))
    have stops := Text.isBoundary_append (before ++ piece.gap ++ piece.text) (join rest ++ tail)
    rw [← List.append_assoc (before ++ piece.gap)] at starts
    rw [append_join_cons]
    exact .cons (Text.byteLength_le_append ..) (Text.byteLength_le_append ..)
      (Text.byteLength_le_append ..) starts stops (ih (before ++ piece.gap ++ piece.text))

/-- A source falls into pieces along leaves that lie one behind the other in it. -/
theorem exists_of_laid {leaves' : List Leaf} {before rest : Text} {last : ℕ}
    (laid : Tree.Laid (before ++ rest) before.byteLength leaves' last) :
    ∃ pieces tail, rest = join pieces ++ tail ∧ leaves' = leaves before pieces := by
  induction leaves' generalizing before rest with
  | nil => exact ⟨[], rest, rfl, rfl⟩
  | cons leaf others ih =>
    cases laid with
    | cons behind ordered inside starts stops later =>
      obtain ⟨gap, onward, rfl, start⟩ := Text.exists_eq_append_of_isBoundary starts behind
      rw [← List.append_assoc] at stops later
      rw [← start] at ordered
      obtain ⟨text, rest, rfl, stop⟩ := Text.exists_eq_append_of_isBoundary stops ordered
      rw [← List.append_assoc (before ++ gap), ← stop] at later
      obtain ⟨pieces, tail, rfl, rfl⟩ := ih later
      refine ⟨⟨leaf.depth, gap, text⟩ :: pieces, tail, by simp, ?_⟩
      rw [leaves, start, stop]

/-- The leaves of pieces have their texts. -/
theorem map_text_leaves (before : Text) (pieces : List Piece) (tail : Text) :
    (leaves before pieces).map (Leaf.text (before ++ (join pieces ++ tail))) =
      pieces.map Piece.text := by
  induction pieces generalizing before with
  | nil => rfl
  | cons piece rest ih =>
    have text := Text.slice_append (before ++ piece.gap) piece.text (join rest ++ tail)
    rw [← List.append_assoc (before ++ piece.gap)] at text
    rw [append_join_cons, leaves, List.map_cons, ih, Leaf.text, text, List.map_cons]

/-- A source falls into pieces along the leaves of a valid tree. There is a leaf, and the texts of
the leaves are solid if those of the childless nodes are. -/
theorem exists_of_validate {source : Text} {root : Node}
    (valid : root.validate (.along source) = .ok ())
    (solid : ∀ leaf ∈ root.childless, (leaf.text source).Solid) :
    ∃ pieces tail, source = join pieces ++ tail ∧ Tree.leaves source root = leaves [] pieces ∧
      pieces ≠ [] ∧ ∀ piece ∈ pieces, piece.text.Solid := by
  have laid : Tree.Laid ([] ++ source) (Text.byteLength []) (Tree.leaves source root) root.stop :=
    Tree.laid_leaves valid
  obtain ⟨pieces, tail, whole, leaves⟩ := exists_of_laid laid
  refine ⟨pieces, tail, whole, leaves, ?_, fun piece member => ?_⟩
  · rintro rfl
    exact Tree.leavesBelow_ne_nil _ _ _ leaves
  · have texts := map_text_leaves [] pieces tail
    rw [List.nil_append, ← whole, ← leaves, Tree.leaves_text] at texts
    have text : piece.text ∈ pieces.map Piece.text := List.mem_map_of_mem member
    rw [← texts] at text
    obtain ⟨leaf, childless, same⟩ := List.mem_map.mp text
    rw [← same]
    exact solid leaf childless

/-- Leaves that are not empty start one after the other. -/
theorem pairwise_start_leaves (before : Text) {pieces : List Piece}
    (nonempty : ∀ piece ∈ pieces, piece.text ≠ []) :
    ((leaves before pieces).map Leaf.start).Pairwise (· < ·) ∧
      ∀ start ∈ (leaves before pieces).map Leaf.start, before.byteLength ≤ start := by
  induction pieces generalizing before with
  | nil => exact ⟨.nil, List.forall_mem_nil _⟩
  | cons piece rest ih =>
    obtain ⟨increasing, behind⟩ := ih (before ++ piece.gap ++ piece.text)
      fun other member => nonempty other (List.mem_cons_of_mem _ member)
    obtain ⟨c, text, shape⟩ :=
      List.exists_cons_of_ne_nil (nonempty piece (List.mem_cons_self ..))
    have positive := c.utf8Size_pos
    have length : (before ++ piece.gap).byteLength <
        (before ++ piece.gap ++ piece.text).byteLength := by
      rw [Text.byteLength_append (before ++ piece.gap), shape, Text.byteLength_cons]
      omega
    rw [leaves, List.map_cons, List.pairwise_cons]
    refine ⟨⟨fun start member => length.trans_le (behind start member), increasing⟩, ?_⟩
    intro start member
    have onward := Text.byteLength_le_append before piece.gap
    obtain rfl | member := List.mem_cons.mp member
    · exact onward
    · exact (onward.trans length.le).trans (behind start member)

end Piece

namespace Page

/-- A page after pieces and what follows them. -/
def putPieces (layout : Layout) (tail : Text) : List Piece → Page → Page
  | [], page => page.trailer layout tail
  | piece :: rest, page =>
    putPieces layout tail rest ((page.gap layout piece.depth piece.gap).put piece.text)

/-- The leaf of a piece is put on a page with the gap before it. -/
theorem putLeaf_piece (layout : Layout) (before : Text) (piece : Piece) (behind : Text)
    (page : Page) :
    page.putLeaf layout (before ++ piece.gap ++ piece.text ++ behind) before.byteLength
        ⟨(before ++ piece.gap).byteLength, (before ++ piece.gap ++ piece.text).byteLength,
          piece.depth⟩ =
      (page.gap layout piece.depth piece.gap).put piece.text := by
  have gap := Text.slice_append before piece.gap (piece.text ++ behind)
  have text := Text.slice_append (before ++ piece.gap) piece.text behind
  rw [← List.append_assoc before, ← List.append_assoc (before ++ piece.gap)] at gap
  rw [← List.append_assoc (before ++ piece.gap)] at text
  rw [putLeaf, Leaf.text, gap, text]

/-- Going through the leaves of pieces puts the pieces on a page. -/
theorem putLeaves_leaves (layout : Layout) (before : Text) (pieces : List Piece) (tail : Text)
    (page : Page) :
    page.putLeaves layout (before ++ (Piece.join pieces ++ tail)) before.byteLength
        (Piece.leaves before pieces) =
      page.putPieces layout tail pieces := by
  induction pieces generalizing before page with
  | nil => exact congrArg (page.trailer layout) (Text.dropBytes_byteLength_append before tail)
  | cons piece rest ih =>
    rw [Piece.append_join_cons, Piece.leaves, putLeaves, putLeaf_piece, ih, putPieces]

end Page

/-- The tokens of a valid tree are what its pieces put on a page. -/
theorem Layout.renderTree_of_pieces (layout : Layout) {source tail : Text} {root : Node}
    {pieces : List Piece} (valid : root.validate (.along source) = .ok ())
    (whole : source = Piece.join pieces ++ tail)
    (leaves : Tree.leaves source root = Piece.leaves [] pieces) :
    layout.renderTree source root =
      (Page.blank.putPieces layout tail pieces).tokens.toList := by
  have page := Page.putLeaves_leaves layout [] pieces tail Page.blank
  rw [List.nil_append, ← whole, ← leaves] at page
  rw [layout.renderTree_eq_putLeaves valid, ← page]
  rfl

end FormatHost
