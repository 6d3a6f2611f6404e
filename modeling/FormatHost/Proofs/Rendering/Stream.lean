import FormatHost.Render.Stream
import FormatHost.Proofs.Rendering.Course
import FormatHost.Proofs.Tree.Depth

/-! # Streams of accepted trees

The stream of an accepted tree never finds anything out of range. Each advance is one of the
rendering as a whole, so after one for every leaf and one more the stream is done, and it gives out
the tokens of the tree, one after the other, and then nothing any more.
-/

namespace FormatHost

/-! ## The course of a rendering -/

namespace Rendering

theorem advanceBy_succ (n : ℕ) (r : Rendering) : r.advanceBy (n + 1) = (r.advanceBy n).advance := by
  induction n generalizing r with
  | zero => rfl
  | succ n ih => exact ih r.advance

/-- An advance keeps the tokens on the page. -/
theorem prefix_advance (r : Rendering) :
    r.page.tokens.toList <+: r.advance.page.tokens.toList := by
  rw [advance]
  split
  · exact List.prefix_rfl
  · exact r.page.prefix_trailer r.layout r.rest
  · exact r.page.prefix_gap_put ..

theorem prefix_advanceBy (r : Rendering) {n m : ℕ} (ordered : n ≤ m) :
    (r.advanceBy n).page.tokens.toList <+: (r.advanceBy m).page.tokens.toList := by
  induction ordered with
  | refl => exact List.prefix_rfl
  | @step m _ ih =>
    rw [advanceBy_succ]
    exact ih.trans (prefix_advance _)

def stopBefore (leaves : List Leaf) : ℕ → ℕ
  | 0 => 0
  | n + 1 => (leaves[n]?.map Leaf.stop).getD 0

/-- How far a rendering has come after an advance for each of the first leaves. -/
structure Reached (layout : Layout) (source : Text) (leaves : List Leaf) (last n : ℕ)
    (r : Rendering) : Prop where
  covers : r.Covers source
  layout : r.layout = layout
  todo : r.todo = some (leaves.drop n)
  offset : r.offset = stopBefore leaves n
  laid : Tree.Laid source r.offset (leaves.drop n) last

variable {layout : Layout} {source : Text} {leaves : List Leaf} {last n : ℕ} {r : Rendering}

/-- As long as there are leaves, an advance puts the next one on the page. -/
theorem Reached.advance (reached : r.Reached layout source leaves last n)
    (within : n < leaves.length) :
    r.advance.page = r.page.putLeaf layout source (stopBefore leaves n) leaves[n] ∧
      r.advance.Reached layout source leaves last (n + 1) := by
  have shape := List.drop_eq_getElem_cons within
  have laid := reached.laid
  have todo := reached.todo
  rw [shape] at laid todo
  cases laid with
  | cons behind ordered inside starts stops later =>
    have step := advance_eq_of_leaf reached.covers todo behind ordered starts
    rw [reached.layout, reached.offset] at step
    rw [step]
    refine ⟨rfl, ⟨rfl, stops⟩, rfl, rfl, ?_, later⟩
    simp [stopBefore, within]

theorem reached_advanceBy (layout : Layout) (laid : Tree.Laid source 0 leaves last)
    (within : n ≤ leaves.length) :
    ((start layout source leaves).advanceBy n).Reached layout source leaves last n := by
  induction n with
  | zero => exact ⟨covers_start layout source leaves, rfl, rfl, rfl, laid⟩
  | succ n ih =>
    rw [advanceBy_succ]
    exact ((ih (Nat.le_of_succ_le within)).advance within).2

/-- Behind the last leaf, an advance puts what follows it on the page. -/
theorem Reached.advance_end (reached : r.Reached layout source leaves last leaves.length) :
    r.advance.page =
      r.page.trailer layout (source.dropBytes (stopBefore leaves leaves.length)) := by
  have todo := reached.todo
  rw [List.drop_length] at todo
  rw [advance_eq_of_end reached.covers todo, reached.layout, reached.offset]

end Rendering

namespace Text

theorem cut_of_boundaries {s : Text} {start stop : ℕ} (ordered : start ≤ stop)
    (starts : s.isBoundary start = true) (stops : s.isBoundary stop = true) :
    s.cut start stop = .ok (s.slice start stop) := by
  simp [cut, ordered, starts, stops, slice]

/-- A cut from a boundary to the end. -/
theorem cut_to_end {s : Text} {start : ℕ} (starts : s.isBoundary start = true) :
    s.cut start s.byteLength = .ok (s.dropBytes start) := by
  obtain ⟨before, behind, rfl, rfl⟩ := isBoundary_iff.mp starts
  have stops := isBoundary_append (before ++ behind) []
  have rest := slice_append before behind []
  rw [List.append_nil] at stops rest
  rw [cut_of_boundaries (byteLength_le_append ..) starts stops, rest, dropBytes_byteLength_append]

end Text

/-- Indentations of accepted trees are far from too long. -/
theorem Layout.checkIndentation_of_le {layout : Layout} {depth : ℕ}
    (narrow : layout.indentWidth ≤ widestIndent) (shallow : depth ≤ 62) (between : Text) :
    layout.checkIndentation depth between = .ok () := by
  have short : ¬ Text.greatestLength < layout.indentWidth * depth := by
    have product := Nat.mul_le_mul narrow shallow
    have bound : widestIndent * 62 ≤ Text.greatestLength := by decide
    omega
  simp [checkIndentation, short]

namespace Stream

/-! ## Advances -/

/-- A stream after some advances and some tokens given out. -/
def after (layout : Layout) (source : Text) (leaves : List Leaf) (n given : ℕ) : Stream where
  layout := layout
  source := source
  leaves := leaves
  next := n
  page := ((Rendering.start layout source leaves).advanceBy n).page
  given := given
  done := n = leaves.length + 1

theorem start_eq_after (layout : Layout) (source : Text) (leaves : List Leaf) :
    start layout source leaves = after layout source leaves 0 0 := by
  simp [start, after, Rendering.advanceBy, Rendering.start]

theorem leaf_of_lt {stream : Stream} {n : ℕ} (within : n < stream.leaves.length) :
    stream.leaf n = .ok stream.leaves[n] := by
  simp [Stream.leaf, within]

private theorem gapStart_of_le {stream : Stream} {n : ℕ} (within : n ≤ stream.leaves.length) :
    stream.gapStart n = .ok (Rendering.stopBefore stream.leaves n) := by
  cases n with
  | zero => rfl
  | succ n =>
    have inside : n < stream.leaves.length := within
    simp [gapStart, leaf_of_lt inside, Rendering.stopBefore, inside, Except.map]

private theorem getLast?_stop (leaves : List Leaf) :
    (leaves.getLast?.map Leaf.stop).getD 0 = Rendering.stopBefore leaves leaves.length := by
  cases leaves with
  | nil => rfl
  | cons leaf rest => simp [Rendering.stopBefore, List.getLast?_eq_getElem?]

variable {layout : Layout} {source : Text} {leaves : List Leaf} {last n : ℕ}

/-- The next leaf and the gap before it are cut out of the source. -/
theorem putLeaf_after (narrow : layout.indentWidth ≤ Layout.widestIndent)
    (laid : Tree.Laid source 0 leaves last) (within : n < leaves.length)
    (shallow : leaves[n].depth ≤ 62) (given : ℕ) :
    (after layout source leaves n given).putLeaf leaves[n] =
      .ok ((Rendering.start layout source leaves).advanceBy (n + 1)).page := by
  have reached := Rendering.reached_advanceBy layout laid (Nat.le_of_lt within)
  have offset : (after layout source leaves n given).gapStart n =
      .ok (Rendering.stopBefore leaves n) := gapStart_of_le (Nat.le_of_lt within)
  have ahead := reached.laid.le_start leaves[n]
    (by rw [List.drop_eq_getElem_cons within]; exact List.mem_cons_self ..)
  have starts := reached.covers.boundary
  obtain ⟨ordered, _, begins, ends⟩ := laid.boundaries leaves[n] (List.getElem_mem within)
  rw [reached.offset] at ahead starts
  have gap := Text.cut_of_boundaries ahead starts begins
  have text := Text.cut_of_boundaries ordered begins ends
  have indented := Layout.checkIndentation_of_le narrow shallow
    (source.slice (Rendering.stopBefore leaves n) leaves[n].start)
  rw [Rendering.advanceBy_succ, (reached.advance within).1]
  simp only [putLeaf, after, bind, Except.bind] at offset ⊢
  simp only [offset, gap, indented, text]
  rfl

/-- What follows the last leaf is cut out of the source. -/
theorem putTail_after (layout : Layout) (laid : Tree.Laid source 0 leaves last) (given : ℕ) :
    (after layout source leaves leaves.length given).putTail =
      .ok ((Rendering.start layout source leaves).advanceBy (leaves.length + 1)).page := by
  have reached := Rendering.reached_advanceBy layout laid (Nat.le_refl _)
  have starts := reached.covers.boundary
  rw [reached.offset] at starts
  rw [Rendering.advanceBy_succ, reached.advance_end]
  simp only [putTail, after, getLast?_stop, Text.cut_to_end starts, bind, Except.bind]

/-- An advance finds nothing out of range and is one of the rendering. -/
theorem advance_after (narrow : layout.indentWidth ≤ Layout.widestIndent)
    (shallow : ∀ leaf ∈ leaves, leaf.depth ≤ 62) (laid : Tree.Laid source 0 leaves last)
    (within : n ≤ leaves.length) (given : ℕ) :
    (after layout source leaves n given).advance =
      .ok (after layout source leaves (n + 1) given) := by
  obtain rfl | before := Nat.eq_or_lt_of_le within
  · refine (advance_of_putTail rfl (putTail_after layout laid given)).trans ?_
    simp [after]
  · have found : (after layout source leaves n given).leaf n = .ok leaves[n] := leaf_of_lt before
    have put := putLeaf_after narrow laid before (shallow _ (List.getElem_mem before)) given
    refine (advance_of_putLeaf found put).trans ?_
    have unfinished : n ≠ leaves.length + 1 := by omega
    simp [after, unfinished, Nat.ne_of_lt before]

/-- A token that is on the page is given out. -/
theorem pull_of_lt {tokens : List Text} {given : ℕ}
    (whole : (after layout source leaves (leaves.length + 1) 0).page.tokens.toList = tokens)
    (within : n ≤ leaves.length + 1)
    (more : given < (after layout source leaves n 0).page.tokens.size) :
    given + 1 ≤ tokens.length ∧
      (after layout source leaves n given).pull =
        .ok (tokens[given]?, after layout source leaves n (given + 1)) := by
  obtain ⟨added, grown⟩ :=
    Rendering.prefix_advanceBy (Rendering.start layout source leaves) within
  have shape : (after layout source leaves n 0).page.tokens.toList ++ added = tokens :=
    grown.trans whole
  have present : (after layout source leaves n given).page.tokens[given]? =
      some (after layout source leaves n 0).page.tokens[given] :=
    Array.getElem?_eq_getElem more
  refine ⟨?_, (pull_of_token present).trans ?_⟩
  · rw [← shape, List.length_append, Array.length_toList]
    omega
  · rw [← shape, List.getElem?_append_left (by simpa using more), Array.getElem?_toList,
      Array.getElem?_eq_getElem more]
    rfl

section Steps

variable (steps : ∀ n ≤ leaves.length, ∀ given,
  (after layout source leaves n given).advance = .ok (after layout source leaves (n + 1) given))

include steps

/-- Several advances from the start. -/
theorem advanceBy_start (within : n ≤ leaves.length + 1) :
    (start layout source leaves).advanceBy n = .ok (after layout source leaves n 0) := by
  have onward (m k : ℕ) (inside : k + m ≤ leaves.length + 1) :
      (after layout source leaves k 0).advanceBy m =
        .ok (after layout source leaves (k + m) 0) := by
    induction m generalizing k with
    | zero => rfl
    | succ m ih =>
      have later := ih (k + 1) (by omega)
      rw [Nat.add_assoc, Nat.add_comm 1] at later
      rw [advanceBy, steps k (by omega) 0]
      exact later
  have run := onward n 0 (by omega)
  rwa [Nat.zero_add, ← start_eq_after] at run

/-- A pull gives the next token of the whole rendering, or nothing behind the last one. -/
theorem pull_after {tokens : List Text} {given : ℕ}
    (whole : (after layout source leaves (leaves.length + 1) 0).page.tokens.toList = tokens)
    (within : n ≤ leaves.length + 1)
    (taken : given ≤ (after layout source leaves n 0).page.tokens.size) :
    ∃ m ≤ leaves.length + 1,
      min (given + 1) tokens.length ≤ (after layout source leaves m 0).page.tokens.size ∧
      (after layout source leaves n given).pull =
        .ok (tokens[given]?, after layout source leaves m (min (given + 1) tokens.length)) := by
  -- Only advances that are still to come are made, and they become fewer.
  obtain ⟨left, rest⟩ := Nat.exists_eq_add_of_le within
  induction left generalizing n with
  | zero =>
    obtain rfl : n = leaves.length + 1 := rest.symm
    by_cases more : given < (after layout source leaves (leaves.length + 1) 0).page.tokens.size
    · obtain ⟨inside, pulled⟩ := pull_of_lt whole within more
      rw [Nat.min_eq_left inside]
      exact ⟨_, within, more, pulled⟩
    · have all : given = tokens.length := by
        rw [← whole, Array.length_toList]
        omega
      have absent : (after layout source leaves (leaves.length + 1) given).page.tokens[given]? =
          none := Array.getElem?_eq_none (Nat.le_of_not_lt more)
      have pulled := pull_of_done absent (by simp [after])
      refine ⟨_, within, by omega, ?_⟩
      rw [pulled, Nat.min_eq_right (by omega), ← all, List.getElem?_eq_none (by omega)]
  | succ left ih =>
    by_cases more : given < (after layout source leaves n 0).page.tokens.size
    · obtain ⟨inside, pulled⟩ := pull_of_lt whole within more
      rw [Nat.min_eq_left inside]
      exact ⟨_, within, more, pulled⟩
    · have absent : (after layout source leaves n given).page.tokens[given]? = none :=
        Array.getElem?_eq_none (Nat.le_of_not_lt more)
      have undone : (after layout source leaves n given).done = false := by
        simp only [after, decide_eq_false_iff_not]
        omega
      have grown := Rendering.prefix_advanceBy (Rendering.start layout source leaves)
        (Nat.le_succ n)
      have size := Nat.le_trans taken grown.length_le
      rw [pull_of_advance absent undone (steps n (by omega) given)]
      exact ih (by omega) size (by omega)

/-- The first answers of a stream are the tokens of the whole rendering, and nothing behind them. -/
theorem answers_after {tokens : List Text}
    (whole : (after layout source leaves (leaves.length + 1) 0).page.tokens.toList = tokens)
    (count : ℕ) {given : ℕ} (within : n ≤ leaves.length + 1)
    (taken : given ≤ (after layout source leaves n 0).page.tokens.size) :
    (after layout source leaves n given).answers count =
      .ok ((List.range count).map fun i => tokens[given + i]?) := by
  induction count generalizing n given with
  | zero => rfl
  | succ count ih =>
    obtain ⟨m, within', taken', pulled⟩ := pull_after steps whole within taken
    have later := ih within' taken'
    have same (i : ℕ) : tokens[min (given + 1) tokens.length + i]? = tokens[given + (i + 1)]? := by
      obtain inside | behind := Nat.lt_or_ge given tokens.length
      · rw [Nat.min_eq_left inside, Nat.succ_add_eq_add_succ]
      · rw [Nat.min_eq_right (by omega), List.getElem?_eq_none (by omega),
          List.getElem?_eq_none (by omega)]
    simp only [answers, pulled, later, bind, Except.bind, List.range_succ_eq_map, List.map_cons,
      List.map_map, Function.comp_def, same, Nat.add_zero, Nat.succ_eq_add_one]

end Steps

end Stream

namespace Layout

/-- The stream of an accepted tree, with a layout that the built-in engine starts with: there is a
leaf, each leaf is ordered, lies between characters of the source and ends before the next one
starts, so nothing is ever out of range. Every advance up to one behind the last leaf succeeds as
one of the rendering does, and the stream is done with the last of them. Whatever number of answers
is asked for, they are the tokens of the tree and nothing behind the last one. -/
theorem stream_of_accepted {layout : Layout} (narrow : layout.indentWidth ≤ widestIndent)
    {text : Text} {tree : Bytes} {root : Node} (accepted : Tree.decode text tree = .ok root) :
    let leaves := Tree.leaves text root
    leaves ≠ [] ∧
    (∀ leaf ∈ leaves, leaf.start ≤ leaf.stop ∧ leaf.stop ≤ text.byteLength ∧
      text.isBoundary leaf.start = true ∧ text.isBoundary leaf.stop = true) ∧
    leaves.Pairwise (fun a b => a.stop ≤ b.start) ∧
    (∀ n ≤ leaves.length + 1, ∃ later, (Stream.start layout text leaves).advanceBy n = .ok later ∧
      later.page = ((Rendering.start layout text leaves).advanceBy n).page ∧
      (later.done = true ↔ n = leaves.length + 1)) ∧
    ∀ count, (Stream.start layout text leaves).answers count =
      .ok ((List.range count).map fun i => (layout.renderTree text root)[i]?) := by
  have laid := Tree.laid_leaves (Tree.validate_of_decode accepted)
  have height := Tree.height_le_of_decode accepted
  have shallow : ∀ leaf ∈ Tree.leaves text root, leaf.depth ≤ 62 := by
    intro leaf member
    have depth := Tree.depth_leaves member
    omega
  have steps : ∀ n ≤ (Tree.leaves text root).length, ∀ given,
      (Stream.after layout text (Tree.leaves text root) n given).advance =
        .ok (Stream.after layout text (Tree.leaves text root) (n + 1) given) :=
    fun n within given => Stream.advance_after narrow shallow laid within given
  refine ⟨Tree.leavesBelow_ne_nil _ _ _, laid.boundaries, laid.pairwise, ?_, ?_⟩
  · intro n within
    exact ⟨_, Stream.advanceBy_start steps within, rfl, by simp [Stream.after]⟩
  · intro count
    have answers := Stream.answers_after steps rfl count (Nat.zero_le _) (Nat.zero_le _)
    rw [← Stream.start_eq_after] at answers
    simp only [Nat.zero_add] at answers
    exact answers

theorem stream_of_accepted_call :
    standard.indentWidth ≤ widestIndent ∧ Tree.decode callSource callTree = .ok callRoot ∧
      (∃ later, (Stream.start standard callSource (Tree.leaves callSource callRoot)).advanceBy 7 =
        .ok later ∧ later.done = true) ∧
      (Stream.start standard callSource (Tree.leaves callSource callRoot)).answers 12 =
        .ok (["f", "(", " ", "/*é*/", "\n", "\n", "x\n", ")", " ", "\n"].map
          (some ∘ String.toList) ++ [none, none]) := by
  have narrow : standard.indentWidth ≤ widestIndent := by decide
  have accepted : Tree.decode callSource callTree = .ok callRoot := by decide +kernel
  obtain ⟨_, _, _, advances, answers⟩ := stream_of_accepted narrow accepted
  have six : (Tree.leaves callSource callRoot).length = 6 := by decide
  have tokens : (List.range 12).map (fun i => (standard.renderTree callSource callRoot)[i]?) =
      ["f", "(", " ", "/*é*/", "\n", "\n", "x\n", ")", " ", "\n"].map (some ∘ String.toList) ++
        [none, none] := by decide
  obtain ⟨later, advanced, _, done⟩ := advances 7 (by omega)
  refine ⟨narrow, accepted, ⟨later, advanced, done.mpr (by omega)⟩, ?_⟩
  rw [answers 12, tokens]

end Layout

end FormatHost
