import FormatHost.Proofs.Rendering.Pieces
import FormatHost.Proofs.Rendering.Relaying
import FormatHost.Proofs.Text.Utf8
import FormatHost.Proofs.Tree.Moved
import Mathlib.Data.List.Pairwise

/-! # Rendering what has been rendered

A rendered text has a tree again: that of the source, with each leaf where its token lies. Piece by
piece the gaps of the rendered text are laid out as they are, and from one leaf to the next a line
is broken where one was broken before. So the leaves have the depths they had, and rendering the
rendered text gives it back.
-/

namespace FormatHost

/-! ## Where the tokens of the leaves lie -/

/-- Where the last token of a page lies in its text. -/
def Page.lastSpan (page : Page) : ℕ × ℕ :=
  (page.text.byteLength - (page.tokens.back?.getD []).byteLength, page.text.byteLength)

/-- Where the tokens of the next leaves come to lie. -/
def Rendering.spots : ℕ → Rendering → List (ℕ × ℕ)
  | 0, _ => []
  | n + 1, r => r.advance.page.lastSpan :: spots n r.advance

private theorem Rendering.length_spots (n : ℕ) (r : Rendering) : (r.spots n).length = n := by
  induction n generalizing r with
  | zero => rfl
  | succ n ih => rw [spots, List.length_cons, ih]

namespace Layout

/-- Where the token of the leaf that starts at an offset lies. -/
def place (layout : Layout) (source : Text) (leaves : List Leaf) (start : ℕ) : ℕ × ℕ :=
  let spots := (Rendering.start layout source leaves).spots leaves.length
  (((leaves.map Leaf.start).zip spots).lookup start).getD (start, start)

/-- The tree of a rendered text: that of its source, with the leaves where their tokens lie. -/
def relaid (layout : Layout) (source : Text) (root : Node) : Node :=
  root.movedInto (Text.byteLength (layout.renderTree source root).flatten)
    (layout.place source (Tree.leaves source root))

end Layout

namespace Page

theorem lastSpan_put (page : Page) {token : Text} (nonempty : token ≠ []) :
    (page.put token).lastSpan = (page.text.byteLength, (page.text ++ token).byteLength) := by
  have shape : page.put token = ⟨page.tokens.push token⟩ := by simp [put, nonempty]
  have last : (page.put token).tokens.back? = some token := by simp [shape]
  rw [lastSpan, last, text_put, Option.getD_some, Text.byteLength_append, Nat.add_sub_cancel]

/-- Where the tokens of pieces come to lie. -/
def spots (layout : Layout) : List Piece → Page → List (ℕ × ℕ)
  | [], _ => []
  | piece :: rest, page =>
    let next := (page.gap layout piece.depth piece.gap).put piece.text
    next.lastSpan :: spots layout rest next

/-- Pieces go behind what is on a page. -/
theorem prefix_putPieces (layout : Layout) (tail : Text) (pieces : List Piece) (page : Page) :
    page.tokens.toList <+: (page.putPieces layout tail pieces).tokens.toList := by
  induction pieces generalizing page with
  | nil => exact page.prefix_trailer layout tail
  | cons piece rest ih => exact (page.prefix_gap_put ..).trans (ih _)

/-- A token is what the text of its page holds where it lies. -/
theorem slice_text {page : Page} {front back : List Text} {token : Text}
    (shape : page.tokens.toList = front ++ token :: back) :
    page.text.slice (Text.byteLength front.flatten) (Text.byteLength (front.flatten ++ token)) =
      token := by
  rw [text, shape, List.flatten_append, List.flatten_cons]
  exact Text.slice_append ..

/-- Where the token of a piece comes to lie, a token begins, and it is the text there. -/
theorem exists_token_of_mem_spots {layout : Layout} {pieces : List Piece}
    (nonempty : ∀ piece ∈ pieces, piece.text ≠ []) (tail : Text) (page : Page) :
    let filled := page.putPieces layout tail pieces
    ∀ spot ∈ page.spots layout pieces, ∃ front back,
      filled.tokens.toList = front ++ filled.text.slice spot.1 spot.2 :: back ∧
        spot.1 = Text.byteLength front.flatten := by
  induction pieces generalizing page with
  | nil => exact List.forall_mem_nil _
  | cons piece rest ih =>
    have text := nonempty piece (List.mem_cons_self ..)
    intro filled spot member
    obtain rfl | member := List.mem_cons.mp member
    · obtain ⟨back, whole⟩ := prefix_putPieces layout tail rest
        ((page.gap layout piece.depth piece.gap).put piece.text)
      have shape : filled.tokens.toList =
          (page.gap layout piece.depth piece.gap).tokens.toList ++ piece.text :: back := by
        refine whole.symm.trans ?_
        rw [tokens_put]
        simp [text]
      refine ⟨_, back, ?_, congrArg Prod.fst (lastSpan_put _ text)⟩
      rw [lastSpan_put _ text]
      exact shape.trans (congrArg (_ ++ · :: back) (slice_text shape).symm)
    · exact ih (fun other later => nonempty other (List.mem_cons_of_mem _ later)) _ spot member

end Page

/-- The tokens of leaves lie where those of the pieces do. -/
theorem Rendering.spots_leaves {r : Rendering} (before : Text) {pieces : List Piece} {tail : Text}
    (covers : r.Covers (before ++ (Piece.join pieces ++ tail)))
    (offset : r.offset = before.byteLength)
    (next : r.todo = some (Piece.leaves before pieces)) :
    r.spots pieces.length = r.page.spots r.layout pieces := by
  induction pieces generalizing r before with
  | nil => rfl
  | cons piece rest ih =>
    have laid := Piece.laid_leaves before (piece :: rest) tail
    rw [Piece.append_join_cons] at covers laid
    rw [Piece.leaves] at laid next
    cases laid with
    | cons behind ordered inside starts stops later =>
      rw [← offset] at behind
      have step := advance_eq_of_leaf covers next behind ordered starts
      rw [offset, Page.putLeaf_piece] at step
      rw [List.length_cons, spots, Page.spots, step]
      exact congrArg (_ :: ·) (ih _ ⟨rfl, stops⟩ rfl rfl)

/-! ## Pieces -/

namespace Piece

/-- A piece and what it is in the rendered text: its gap is laid out, but breaks the line as
before. -/
structure Relaid (piece again : Piece) : Prop where
  depth : again.depth = piece.depth
  text : again.text = piece.text
  broken : '\n' ∈ again.gap ↔ '\n' ∈ piece.gap

theorem map_eq_of_relaid {pieces pieces' : List Piece}
    (relaid : List.Forall₂ Relaid pieces pieces') :
    pieces'.map depth = pieces.map depth ∧ pieces'.map Piece.text = pieces.map Piece.text := by
  induction relaid with
  | nil => exact ⟨rfl, rfl⟩
  | cons same _ ih => simp only [List.map_cons, same.depth, same.text, ih, and_self]

end Piece

namespace Page

/-- Pieces and those they are laid out as on a page, with what follows the last leaf: the others are
what is written, they are laid out the same, and their leaves lie where the tokens do. -/
structure Repeats (layout : Layout) (page : Page) (pieces : List Piece) (tail : Text)
    (pieces' : List Piece) (tail' : Text) : Prop where
  written : (page.putPieces layout tail pieces).text = page.text ++ (Piece.join pieces' ++ tail')
  again : page.putPieces layout tail' pieces' = page.putPieces layout tail pieces
  spots : (Piece.leaves page.text pieces').map (fun leaf => (leaf.start, leaf.stop)) =
    page.spots layout pieces

/-- One piece more, whose gap is laid out again as it was. -/
theorem Repeats.cons {layout : Layout} {page : Page} {piece : Piece} {rest rest' : List Piece}
    {laid tail tail' : Text} (nonempty : piece.text ≠ [])
    (written : (page.gap layout piece.depth piece.gap).text = page.text ++ laid)
    (again : page.gap layout piece.depth laid = page.gap layout piece.depth piece.gap)
    (later : Repeats layout ((page.gap layout piece.depth piece.gap).put piece.text) rest tail rest'
      tail') :
    Repeats layout page (piece :: rest) tail (⟨piece.depth, laid, piece.text⟩ :: rest') tail' where
  written := by
    rw [putPieces, later.written, text_put, written]
    simp
  again := by rw [putPieces, again, later.again, putPieces]
  spots := by
    have spots := later.spots
    rw [text_put, written] at spots
    rw [Piece.leaves, List.map_cons, spots, Page.spots, lastSpan_put _ nonempty, written]

/-- Pieces on a page that has begun are laid out again as they were. -/
theorem Begun.repeats {page : Page} (begun : page.Begun) (layout : Layout) (tail : Text)
    {pieces : List Piece} (solid : ∀ piece ∈ pieces, piece.text.Solid) :
    ∃ pieces' tail', List.Forall₂ Piece.Relaid pieces pieces' ∧
      Repeats layout page pieces tail pieces' tail' := by
  induction pieces generalizing page with
  | nil =>
    obtain ⟨laid, written, again⟩ := begun.trailer_again layout tail
    exact ⟨[], laid, .nil, written, again, rfl⟩
  | cons piece rest ih =>
    have text := solid piece (List.mem_cons_self ..)
    obtain ⟨laid, written, again, broken⟩ := begun.gap_again layout piece.depth piece.gap
    obtain ⟨rest', tail', relaid, later⟩ :=
      ih (begun_put_solid _ text) fun other member => solid other (List.mem_cons_of_mem _ member)
    exact ⟨⟨piece.depth, laid, piece.text⟩ :: rest', tail', .cons ⟨rfl, rfl, broken⟩ relaid,
      later.cons text.nonempty written again⟩

/-- Pieces on a blank page are laid out again as they were, if the first is not indented. -/
theorem blank_repeats {layout : Layout} {piece : Piece} {rest : List Piece} (tail : Text)
    (flush : indent layout piece.depth = []) (solid : ∀ other ∈ piece :: rest, other.text.Solid) :
    ∃ laid rest' tail', List.Forall₂ Piece.Relaid rest rest' ∧
      Repeats layout blank (piece :: rest) tail (⟨piece.depth, laid, piece.text⟩ :: rest')
        tail' := by
  have text := solid piece (List.mem_cons_self ..)
  obtain ⟨laid, written, again⟩ := gap_blank_again flush piece.gap
  obtain ⟨rest', tail', relaid, later⟩ := (begun_put_solid _ text).repeats layout tail
    fun other member => solid other (List.mem_cons_of_mem _ member)
  exact ⟨laid, rest', tail', relaid, later.cons text.nonempty written again⟩

end Page

/-! ## Lines -/

/-- Two pairs of offsets, each with one in the source and one in the rendered text, in this order:
between them a line is broken in both texts or in none. -/
structure Abreast (source out : Text) (p q : ℕ × ℕ) : Prop where
  ahead : source.lineOf p.1 ≤ source.lineOf q.1
  aheadOut : out.lineOf p.2 ≤ out.lineOf q.2
  broken : source.lineOf p.1 < source.lineOf q.1 ↔ out.lineOf p.2 < out.lineOf q.2

instance (source out : Text) :
    Trans (Abreast source out) (Abreast source out) (Abreast source out) where
  trans first second := by
    obtain ⟨ahead, aheadOut, broken⟩ := first
    obtain ⟨onward, onwardOut, brokenThen⟩ := second
    exact ⟨ahead.trans onward, aheadOut.trans onwardOut, by omega⟩

private theorem abreast_append {source out before between behind before' between' behind' : Text}
    (whole : source = before ++ between ++ behind) (whole' : out = before' ++ between' ++ behind')
    (broken : '\n' ∈ between' ↔ '\n' ∈ between) :
    Abreast source out (before.byteLength, before'.byteLength)
      ((before ++ between).byteLength, (before' ++ between').byteLength) := by
  have starts := Text.lineOf_append before (between ++ behind)
  have starts' := Text.lineOf_append before' (between' ++ behind')
  rw [← List.append_assoc, ← whole] at starts
  rw [← List.append_assoc, ← whole'] at starts'
  have stops := Text.lineOf_append (before ++ between) behind
  have stops' := Text.lineOf_append (before' ++ between') behind'
  rw [← whole, List.count_append] at stops
  rw [← whole', List.count_append] at stops'
  have feeds := List.count_pos_iff (a := '\n') (l := between)
  have feeds' := List.count_pos_iff (a := '\n') (l := between')
  rw [← feeds, ← feeds'] at broken
  constructor
  all_goals
    simp only
    omega

namespace Piece

/-- From each leaf to the next, a line is broken in both texts or in none. -/
theorem isChain_abreast {source out before before' text tail tail' : Text}
    {pieces pieces' : List Piece} (relaid : List.Forall₂ Relaid pieces pieces')
    (whole : source = before ++ (text ++ (join pieces ++ tail)))
    (whole' : out = before' ++ (text ++ (join pieces' ++ tail'))) :
    List.IsChain (Abreast source out) ((before.byteLength, before'.byteLength) ::
      ((leaves (before ++ text) pieces).map Leaf.start).zip
        ((leaves (before' ++ text) pieces').map Leaf.start)) := by
  induction relaid generalizing before before' text with
  | nil => exact .singleton _
  | @cons piece again rest rest' same _ ih =>
    have broken : '\n' ∈ text ++ again.gap ↔ '\n' ∈ text ++ piece.gap := by
      rw [List.mem_append, List.mem_append, same.broken]
    have onward : source = before ++ text ++ piece.gap ++ (piece.text ++ (join rest ++ tail)) := by
      simp [whole]
    have onward' : out = before' ++ text ++ again.gap ++ (piece.text ++ (join rest' ++ tail')) := by
      simp [whole', same.text]
    have first : Abreast source out (before.byteLength, before'.byteLength)
        ((before ++ (text ++ piece.gap)).byteLength, (before' ++ (text ++ again.gap)).byteLength) :=
      abreast_append (by rw [onward, List.append_assoc before])
        (by rw [onward', List.append_assoc before']) broken
    rw [← List.append_assoc before, ← List.append_assoc before'] at first
    rw [leaves, leaves, List.map_cons, List.map_cons, List.zip_cons_cons, same.text,
      List.isChain_cons_cons]
    exact ⟨first, ih onward onward'⟩

end Piece

namespace Tree

/-- Leaves that are moved to the places of others of the same depths are these. -/
theorem map_moved_eq {as bs : List Leaf} {place : ℕ → ℕ × ℕ}
    (places : (as.map Leaf.start).map place = bs.map fun leaf => (leaf.start, leaf.stop))
    (depths : as.map Leaf.depth = bs.map Leaf.depth) : as.map (Leaf.moved place) = bs := by
  induction as generalizing bs with
  | nil => exact (List.map_eq_nil_iff.mp depths.symm).symm
  | cons a as ih =>
    cases bs with
    | nil => contradiction
    | cons b bs =>
      simp only [List.map_cons, List.cons.injEq] at places depths
      have first : a.moved place = b := by rw [Leaf.moved, places.1, depths.1]
      rw [List.map_cons, first, ih places.2 depths.2]

/-- Starts that are abreast of their places are aligned with them. -/
theorem aligned_of_pairwise {source out : Text} {place : ℕ → ℕ × ℕ} {starts : List ℕ}
    (abreast : (starts.zip ((starts.map place).map Prod.fst)).Pairwise (Abreast source out)) :
    Aligned source out place starts := by
  have shape : starts.zip ((starts.map place).map Prod.fst) =
      starts.map fun start => (start, (place start).1) := by
    have zipped := List.zip_map' (f := id) (g := fun start => (place start).1) (l := starts)
    rw [List.map_id] at zipped
    rw [List.map_map]
    exact zipped
  rw [shape, List.pairwise_map] at abreast
  -- The order of two starts does not matter, since both comparisons are kept.
  have both : starts.Pairwise fun a b =>
      (source.lineOf a < source.lineOf b ↔ out.lineOf (place a).1 < out.lineOf (place b).1) ∧
      (source.lineOf b < source.lineOf a ↔ out.lineOf (place b).1 < out.lineOf (place a).1) := by
    refine abreast.imp fun {a b} pair => ?_
    obtain ⟨ahead, aheadOut, broken⟩ := pair
    simp only at ahead aheadOut broken
    omega
  have symmetric : Std.Symm fun a b =>
      (source.lineOf a < source.lineOf b ↔ out.lineOf (place a).1 < out.lineOf (place b).1) ∧
      (source.lineOf b < source.lineOf a ↔ out.lineOf (place b).1 < out.lineOf (place a).1) :=
    ⟨fun a b pair => pair.symm⟩
  intro a first b second
  exact (both.forall_of_forall (by simp) first second).1

end Tree

/-- Each key finds the value beside it, if the keys are distinct. -/
theorem map_lookup_zip {keys : List ℕ} {values : List (ℕ × ℕ)} (distinct : keys.Nodup)
    (lengths : keys.length = values.length) :
    keys.map (fun key => ((keys.zip values).lookup key).getD (key, key)) = values := by
  induction keys generalizing values with
  | nil => exact (List.length_eq_zero_iff.mp lengths.symm).symm
  | cons key keys ih =>
    obtain ⟨value, values, rfl⟩ := List.exists_cons_of_length_eq_add_one lengths.symm
    obtain ⟨fresh, distinct⟩ := List.nodup_cons.mp distinct
    have later := ih distinct (Nat.succ.inj lengths)
    rw [List.map_cons, List.zip_cons_cons, List.lookup_cons_self, Option.getD_some]
    refine congrArg (value :: ·) (Eq.trans (List.map_congr_left fun other member => ?_) later)
    have different : (other == key) = false := by
      rw [beq_eq_false_iff_ne]
      rintro rfl
      exact fresh member
    rw [List.lookup_cons, different]

namespace Layout

/-! ## The rendered text -/

/-- The leaves of pieces have their places where the tokens of the pieces lie. -/
theorem map_place_leaves (layout : Layout) {pieces : List Piece}
    (nonempty : ∀ piece ∈ pieces, piece.text ≠ []) (tail : Text) :
    ((Piece.leaves [] pieces).map Leaf.start).map
        (layout.place (Piece.join pieces ++ tail) (Piece.leaves [] pieces)) =
      Page.blank.spots layout pieces := by
  obtain ⟨increasing, _⟩ := Piece.pairwise_start_leaves [] nonempty
  have distinct : ((Piece.leaves [] pieces).map Leaf.start).Nodup :=
    increasing.imp fun less => less.ne
  have covers := Rendering.covers_start layout (Piece.join pieces ++ tail) (Piece.leaves [] pieces)
  have spots := Rendering.spots_leaves [] covers rfl rfl
  rw [← Piece.length_leaves [] pieces] at spots
  refine (map_lookup_zip distinct ?_).trans spots
  rw [List.length_map, Rendering.length_spots]

/-- A valid tree that is not indented at its start has its source in pieces. -/
theorem exists_pieces {source : Text} {root : Node}
    (valid : root.validate (.along source) = .ok ())
    (solid : ∀ leaf ∈ root.childless, (leaf.text source).Solid) (anchored : root.Anchored) :
    ∃ piece rest tail, source = Piece.join (piece :: rest) ++ tail ∧
      Tree.leaves source root = Piece.leaves [] (piece :: rest) ∧ piece.depth = 0 ∧
      ∀ other ∈ piece :: rest, other.text.Solid := by
  obtain ⟨pieces, tail, whole, leaves, nonempty, texts⟩ := Piece.exists_of_validate valid solid
  obtain ⟨piece, rest, rfl⟩ := List.exists_cons_of_ne_nil nonempty
  have depth : piece.depth = 0 := by
    rw [Piece.leaves] at leaves
    exact Tree.depth_first_leaves anchored (by rw [leaves]; rfl)
  exact ⟨piece, rest, tail, whole, leaves, depth, texts⟩

/-- A tree that is moved from pieces to those they are laid out as is valid, and its leaves are
theirs. -/
theorem movedInto_pieces {source out laid tail tail' : Text} {root : Node} {piece : Piece}
    {rest rest' : List Piece} {place : ℕ → ℕ × ℕ} (anchored : root.Anchored)
    (relaid : List.Forall₂ Piece.Relaid rest rest')
    (whole : source = Piece.join (piece :: rest) ++ tail)
    (whole' : out = Piece.join (⟨piece.depth, laid, piece.text⟩ :: rest') ++ tail')
    (leaves : Tree.leaves source root = Piece.leaves [] (piece :: rest))
    (places : ((Tree.leaves source root).map Leaf.start).map place =
      (Piece.leaves [] (⟨piece.depth, laid, piece.text⟩ :: rest')).map
        fun leaf => (leaf.start, leaf.stop)) :
    (root.movedInto out.byteLength place).validate (.along out) = .ok () ∧
      Tree.leaves out (root.movedInto out.byteLength place) =
        Piece.leaves [] (⟨piece.depth, laid, piece.text⟩ :: rest') := by
  have aligned : Tree.Aligned source out place ((Tree.leaves source root).map Leaf.start) := by
    apply Tree.aligned_of_pairwise
    rw [Piece.join_cons, List.append_assoc, List.append_assoc] at whole whole'
    have chain := Piece.isChain_abreast relaid whole whole'
    rw [places, leaves, List.map_map]
    exact List.isChain_iff_pairwise.mp chain
  have moved : (Tree.leaves source root).map (Leaf.moved place) =
      Piece.leaves [] (⟨piece.depth, laid, piece.text⟩ :: rest') := by
    apply Tree.map_moved_eq places
    rw [leaves, Piece.map_depth_leaves, Piece.map_depth_leaves, List.map_cons, List.map_cons,
      (Piece.map_eq_of_relaid relaid).1]
  have lies := Piece.laid_leaves [] (⟨piece.depth, laid, piece.text⟩ :: rest') tail'
  rw [List.nil_append, ← whole', ← moved] at lies
  refine ⟨Tree.validate_movedInto lies, ?_⟩
  rw [Tree.leaves_movedInto aligned anchored ?_, moved]
  intro leaf member
  have starts := congrArg (List.map Prod.fst) (Tree.leavesBelow_spans (.along source) [] root)
  rw [List.map_map, List.map_map] at starts
  exact starts ▸ List.mem_map_of_mem member

/-- The tree of a rendered text is valid, its leaves have the texts and the depths that they had and
lie where their tokens do, and its tokens are the same. -/
theorem renderTree_relaid (layout : Layout) {source : Text} {root : Node}
    (valid : root.validate (.along source) = .ok ())
    (solid : ∀ leaf ∈ root.childless, (leaf.text source).Solid) (anchored : root.Anchored) :
    let out := (layout.renderTree source root).flatten
    (layout.relaid source root).validate (.along out) = .ok () ∧
      (Tree.leaves out (layout.relaid source root)).map (Leaf.text out) =
        (Tree.leaves source root).map (Leaf.text source) ∧
      (Tree.leaves out (layout.relaid source root)).map Leaf.depth =
        (Tree.leaves source root).map Leaf.depth ∧
      (∀ leaf ∈ Tree.leaves out (layout.relaid source root), ∃ front back,
        layout.renderTree source root = front ++ leaf.text out :: back ∧
          leaf.start = Text.byteLength front.flatten) ∧
      layout.renderTree out (layout.relaid source root) = layout.renderTree source root := by
  obtain ⟨piece, rest, tail, whole, leaves, depth, texts⟩ := exists_pieces valid solid anchored
  have flush : Page.indent layout piece.depth = [] := by
    rw [depth, Page.indent, indentation, Nat.mul_zero, Nat.zero_mod, List.replicate_zero]
  obtain ⟨laid, rest', tail', relaid, written, again, spots⟩ := Page.blank_repeats tail flush texts
  have tokens := layout.renderTree_of_pieces valid whole leaves
  have whole' : (layout.renderTree source root).flatten =
      Piece.join (⟨piece.depth, laid, piece.text⟩ :: rest') ++ tail' := by
    rw [tokens]
    exact written
  have places := layout.map_place_leaves (fun other member => (texts other member).nonempty) tail
  rw [← whole, ← leaves, ← spots] at places
  obtain ⟨valid', leaves'⟩ := movedInto_pieces anchored relaid whole whole' leaves places
  have tokens' := layout.renderTree_of_pieces valid' whole' leaves'
  rw [again, ← tokens] at tokens'
  obtain ⟨depths, sameTexts⟩ := Piece.map_eq_of_relaid relaid
  refine ⟨valid', ?_, ?_, ?_, tokens'⟩
  · have laidTexts := Piece.map_text_leaves [] (⟨piece.depth, laid, piece.text⟩ :: rest') tail'
    have sourceTexts := Piece.map_text_leaves [] (piece :: rest) tail
    rw [List.nil_append, ← whole', ← leaves'] at laidTexts
    rw [List.nil_append, ← whole, ← leaves] at sourceTexts
    rw [sourceTexts, List.map_cons, ← sameTexts]
    exact laidTexts
  · rw [leaves, Piece.map_depth_leaves, List.map_cons, ← depths]
    exact (congrArg (List.map Leaf.depth) leaves').trans (Piece.map_depth_leaves ..)
  · intro leaf member
    have spot : (leaf.start, leaf.stop) ∈ Page.blank.spots layout (piece :: rest) := by
      rw [← spots, Page.text_blank, ← leaves']
      exact List.mem_map_of_mem member
    obtain ⟨front, back, shape, start⟩ := Page.exists_token_of_mem_spots
      (fun other member => (texts other member).nonempty) tail Page.blank _ spot
    refine ⟨front, back, ?_, start⟩
    rw [tokens]
    exact shape

/-- Rendering is a fixed point: if the leaves of an accepted tree are solid and its nodes start
where their first leaves do, then the rendered text has the same tree, with the leaves where their
tokens lie. It is valid, its leaves keep their texts and their depths, and wherever it is written,
rendering the rendered text gives it back, token for token. -/
theorem renderBytes_of_relaid (layout : Layout) {source tree : Bytes} {text : Text} {root : Node}
    (decoded : Utf8.decode source = .ok text) (accepted : Tree.decode text tree = .ok root)
    (solid : ∀ leaf ∈ root.childless, (leaf.text text).Solid) (anchored : root.Anchored) :
    ∃ tokens : List Text,
      layout.renderBytes source tree = .ok (tokens.map Utf8.encode) ∧
      let out := tokens.flatten
      let moved := layout.relaid text root
      moved.validate (.along out) = .ok () ∧
      (Tree.leaves out moved).map (Leaf.text out) =
        (Tree.leaves text root).map (Leaf.text text) ∧
      (∀ leaf ∈ Tree.leaves out moved, ∃ front back,
        tokens = front ++ leaf.text out :: back ∧ leaf.start = Text.byteLength front.flatten) ∧
      (Tree.leaves out moved).map Leaf.depth = (Tree.leaves text root).map Leaf.depth ∧
      layout.renderTree out moved = tokens ∧
      ∀ tree', Tree.read tree' = .ok moved →
        Tree.decode out tree' = .ok moved ∧
        layout.renderBytes (Utf8.encode out) tree' = .ok (tokens.map Utf8.encode) := by
  obtain ⟨valid, texts, depths, places, again⟩ :=
    layout.renderTree_relaid (Tree.validate_of_decode accepted) solid anchored
  refine ⟨layout.renderTree text root, layout.renderBytes_of_decode decoded accepted, valid, texts,
    places, depths, again, fun tree' written => ?_⟩
  have accepted' := Tree.decode_of_validate written valid
  have rendered := layout.renderBytes_of_decode (Utf8.decode_encode _) accepted'
  rw [again] at rendered
  exact ⟨accepted', rendered⟩

/-- A call in a call behind a comment, with a leaf of two lines. -/
def nestedCall : Text := "\n# é\nf(\n\n\n\tg( /*c*/ x,\ny)) # end".toList

def nestedCallTree : Bytes :=
  Utf8.ofString ("[\"\",0,33,[[\"\",6,27,[[\"\",6,7],[\"\",7,8]," ++
    "[\"\",12,26,[[\"\",12,13],[\"\",13,14],[\"\",21,25],[\"\",25,26]]],[\"\",26,27]]]]]")

def nestedCallRoot : Node :=
  ⟨"", 0, 33, [⟨"", 6, 27, [⟨"", 6, 7, []⟩, ⟨"", 7, 8, []⟩,
    ⟨"", 12, 26, [⟨"", 12, 13, []⟩, ⟨"", 13, 14, []⟩, ⟨"", 21, 25, []⟩, ⟨"", 25, 26, []⟩]⟩,
    ⟨"", 26, 27, []⟩]⟩]⟩

def nestedCallRelaid : Bytes :=
  Utf8.ofString ("[\"\",0,33,[[\"\",5,26,[[\"\",5,6],[\"\",6,7]," ++
    "[\"\",11,25,[[\"\",11,12],[\"\",12,13],[\"\",20,24],[\"\",24,25]]],[\"\",25,26]]]]]")

theorem renderBytes_of_relaid_call :
    Utf8.decode (Utf8.encode nestedCall) = .ok nestedCall ∧
      Tree.decode nestedCall nestedCallTree = .ok nestedCallRoot ∧
      (∀ leaf ∈ nestedCallRoot.childless, (leaf.text nestedCall).Solid) ∧
      nestedCallRoot.Anchored ∧
      ∃ tokens : List Text,
        standard.renderBytes (Utf8.encode nestedCall) nestedCallTree =
          .ok (tokens.map Utf8.encode) ∧
        standard.renderBytes (Utf8.encode tokens.flatten) nestedCallRelaid =
          .ok (tokens.map Utf8.encode) := by
  have decoded : Utf8.decode (Utf8.encode nestedCall) = .ok nestedCall := by decide
  have accepted : Tree.decode nestedCall nestedCallTree = .ok nestedCallRoot := by decide +kernel
  have solid : ∀ leaf ∈ nestedCallRoot.childless, (leaf.text nestedCall).Solid := by decide
  have anchored : nestedCallRoot.Anchored := by decide
  obtain ⟨tokens, rendered, _, _, _, _, _, again⟩ :=
    renderBytes_of_relaid standard decoded accepted solid anchored
  have written : Tree.read nestedCallRelaid = .ok (standard.relaid nestedCall nestedCallRoot) := by
    decide +kernel
  exact ⟨decoded, accepted, solid, anchored, tokens, rendered, (again _ written).2⟩

end Layout

end FormatHost
