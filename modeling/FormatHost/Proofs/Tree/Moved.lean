import FormatHost.Proofs.Tree.Leaves
import Mathlib.Data.List.Forall2

/-! # Moving the leaves of a tree

Each leaf of a tree is moved to a place that is given for its start, and the nodes above follow:
they reach from their first leaf to their last. A moved tree is valid for any text in which the
places lie one behind the other. If each node starts where its first leaf does, and if the lines of
the places compare as the lines of the leaves did, then the leaves keep their depths.
-/

namespace FormatHost

namespace Node

def lastStop (cursor : ℕ) : List Node → ℕ
  | [] => cursor
  | child :: rest => lastStop child.stop rest

mutual

/-- A node with its leaves moved to the places given for their starts. -/
def moved (place : ℕ → ℕ × ℕ) : Node → Node
  | ⟨kind, start, _, []⟩ => ⟨kind, (place start).1, (place start).2, []⟩
  | ⟨kind, _, _, child :: rest⟩ =>
    let first := child.moved place
    let others := movedAll place rest
    ⟨kind, first.start, lastStop first.stop others, first :: others⟩

def movedAll (place : ℕ → ℕ × ℕ) : List Node → List Node
  | [] => []
  | child :: rest => child.moved place :: movedAll place rest

end

/-- A tree with its leaves moved into a text of some length, which the root covers unless it is a
leaf itself. -/
def movedInto (length : ℕ) (place : ℕ → ℕ × ℕ) : Node → Node
  | ⟨kind, start, stop, []⟩ => moved place ⟨kind, start, stop, []⟩
  | ⟨kind, _, _, child :: rest⟩ => ⟨kind, 0, length, movedAll place (child :: rest)⟩

mutual

def descendants : Node → List Node
  | ⟨_, _, _, children⟩ => descendantsOf children

def descendantsOf : List Node → List Node
  | [] => []
  | child :: rest => child :: (child.descendants ++ descendantsOf rest)

end

/-- Every node below the root starts where its first leaf does. -/
def Anchored (root : Node) : Prop :=
  ∀ node ∈ root.descendants, ∀ leaf ∈ node.childless.head?, node.start = leaf.start

instance (root : Node) : Decidable root.Anchored :=
  inferInstanceAs (Decidable (∀ node ∈ root.descendants, ∀ leaf ∈ node.childless.head?,
    node.start = leaf.start))

/-- A moved node starts where its first leaf was moved to. -/
theorem start_moved (place : ℕ → ℕ × ℕ) : (node : Node) →
    ∀ leaf ∈ node.childless.head?, (node.moved place).start = (place leaf.start).1
  | ⟨kind, start, stop, []⟩, leaf, first => by
    simp only [childless, List.isEmpty_nil, ↓reduceIte, List.head?_cons,
      Option.mem_some_iff] at first
    rw [← first, moved]
  | ⟨kind, start, stop, child :: rest⟩, leaf, first => by
    rw [childless, List.isEmpty_cons, if_neg Bool.false_ne_true, childlessOf,
      List.head?_append_of_ne_nil _ child.childless_ne_nil] at first
    rw [moved]
    exact start_moved place child leaf first

end Node

/-- A leaf moved to the place given for its start. -/
def Leaf.moved (place : ℕ → ℕ × ℕ) (leaf : Leaf) : Leaf :=
  ⟨(place leaf.start).1, (place leaf.start).2, leaf.depth⟩

namespace Tree

/-! ## Validity -/

section Validity

variable {out : Text} {place : ℕ → ℕ × ℕ}

mutual

/-- A node is valid where its leaves were moved to, and what lay behind it lies behind it. -/
theorem validate_moved (source : Text.Ruler) (path : List Ancestor) {behind : List Leaf}
    {last : ℕ} : (node : Node) → (first : ℕ) →
    Laid out first ((leavesBelow source path node).map (Leaf.moved place) ++ behind) last →
    first ≤ (node.moved place).start ∧ (node.moved place).validate (.along out) = .ok () ∧
      Laid out (node.moved place).stop behind last
  | ⟨kind, start, stop, []⟩, first, laid => by
    rw [leavesBelow, List.isEmpty_nil, if_pos rfl] at laid
    rw [Node.moved]
    cases laid with
    | cons behind ordered inside starts stops later =>
      refine ⟨behind, Node.validate_eq_ok_iff.mpr ⟨ordered, ?_, ?_, ?_, rfl⟩, later⟩
      · rwa [Text.Ruler.length_along]
      · rwa [Text.Ruler.isBoundary_along]
      · rwa [Text.Ruler.isBoundary_along]
  | ⟨kind, start, stop, child :: rest⟩, first, laid => by
    rw [leavesBelow, List.isEmpty_cons, if_neg Bool.false_ne_true, leavesOfAll, List.map_append,
      List.append_assoc] at laid
    obtain ⟨ahead, childValid, later⟩ := validate_moved source _ child first laid
    obtain ⟨ordered, inside, starts, stops, _⟩ := Node.validate_eq_ok_iff.mp childValid
    obtain ⟨onward, inside', stops', restValid, remaining⟩ :=
      validateAll_moved source path rest _ inside stops later
    rw [Node.moved]
    refine ⟨ahead, Node.validate_eq_ok_iff.mpr ⟨Nat.le_trans ordered onward, inside', starts,
      stops', ?_⟩, remaining⟩
    exact Node.validateAll_cons_eq_ok_iff.mpr
      ⟨Nat.le_refl _, onward, childValid, restValid _ (Nat.le_refl _)⟩

/-- Nodes that are moved stay in order. -/
theorem validateAll_moved (source : Text.Ruler) (path : List Ancestor) {behind : List Leaf}
    {last : ℕ} : (children : List Node) → (first : ℕ) → first ≤ (Text.Ruler.along out).length →
    (Text.Ruler.along out).isBoundary first = true →
    Laid out first ((leavesOfAll source path children).map (Leaf.moved place) ++ behind) last →
    first ≤ Node.lastStop first (Node.movedAll place children) ∧
      Node.lastStop first (Node.movedAll place children) ≤ (Text.Ruler.along out).length ∧
      (Text.Ruler.along out).isBoundary (Node.lastStop first (Node.movedAll place children)) =
        true ∧
      (∀ limit, Node.lastStop first (Node.movedAll place children) ≤ limit →
        Node.validateAll (.along out) limit first (Node.movedAll place children) = .ok ()) ∧
      Laid out (Node.lastStop first (Node.movedAll place children)) behind last
  | [], first, inside, starts, laid => by
    rw [leavesOfAll] at laid
    rw [Node.movedAll, Node.lastStop]
    exact ⟨Nat.le_refl _, inside, starts, fun limit _ => rfl, laid⟩
  | child :: rest, first, _, _, laid => by
    rw [leavesOfAll, List.map_append, List.append_assoc] at laid
    obtain ⟨ahead, childValid, later⟩ := validate_moved source _ child first laid
    obtain ⟨ordered, inside, _, stops, _⟩ := Node.validate_eq_ok_iff.mp childValid
    obtain ⟨onward, inside', stops', restValid, remaining⟩ :=
      validateAll_moved source path rest _ inside stops later
    rw [Node.movedAll, Node.lastStop]
    have passed := Nat.le_trans ahead (Nat.le_trans ordered onward)
    refine ⟨passed, inside', stops', fun limit within => ?_, remaining⟩
    exact Node.validateAll_cons_eq_ok_iff.mpr
      ⟨ahead, Nat.le_trans onward within, childValid, restValid limit within⟩

end

/-- A tree is valid for a text into which its leaves were moved, one behind the other. -/
theorem validate_movedInto {source : Text} {root : Node} {last : ℕ}
    (laid : Laid out 0 ((leaves source root).map (Leaf.moved place)) last) :
    (root.movedInto out.byteLength place).validate (.along out) = .ok () := by
  rw [← List.append_nil ((leaves source root).map (Leaf.moved place)), leaves] at laid
  have ends : out.isBoundary out.byteLength = true :=
    Text.isBoundary_iff.mpr ⟨out, [], (List.append_nil out).symm, rfl⟩
  have starts : out.isBoundary 0 = true := Text.isBoundary_iff.mpr ⟨[], out, rfl, rfl⟩
  obtain ⟨kind, start, stop, children⟩ := root
  cases children with
  | nil => exact (validate_moved _ [] _ 0 laid).2.1
  | cons child rest =>
    rw [leavesBelow, List.isEmpty_cons, if_neg Bool.false_ne_true] at laid
    rw [← Text.Ruler.isBoundary_along] at ends starts
    obtain ⟨_, inside, _, valid, _⟩ :=
      validateAll_moved _ [] (child :: rest) 0 (Nat.zero_le _) starts laid
    rw [Text.Ruler.length_along] at inside
    rw [Node.movedInto]
    exact Node.validate_eq_ok_iff.mpr
      ⟨Nat.zero_le _, Nat.le_of_eq (Text.Ruler.length_along out).symm, starts, ends, valid _ inside⟩

end Validity

/-! ## Depths -/

section Depths

variable {source out : Text} {place : ℕ → ℕ × ℕ} {starts : List ℕ}

/-- Places of some starts whose lines compare as the lines of the starts do. -/
def Aligned (source out : Text) (place : ℕ → ℕ × ℕ) (starts : List ℕ) : Prop :=
  ∀ a ∈ starts, ∀ b ∈ starts,
    (source.lineOf a < source.lineOf b ↔ out.lineOf (place a).1 < out.lineOf (place b).1)

/-- An ancestor and what it is in a moved tree: to the leaves they look the same. -/
structure Ancestor.Alike (source out : Text) (place : ℕ → ℕ × ℕ) (starts : List ℕ)
    (a b : Ancestor) : Prop where
  closing : a.closing = b.closing
  line : ∀ s ∈ starts, (a.line < source.lineOf s ↔ b.line < out.lineOf (place s).1)

private theorem depthOn_of_alike {path path' : List Ancestor} {s : ℕ} (member : s ∈ starts)
    (alike : List.Forall₂ (Ancestor.Alike source out place starts) path path') :
    depthOn (out.lineOf (place s).1) path' = depthOn (source.lineOf s) path := by
  induction alike with
  | nil => rfl
  | @cons a b path path' same _ ih =>
    have counted : (decide (b.line < out.lineOf (place s).1) && !b.closing) =
        (decide (a.line < source.lineOf s) && !a.closing) := by
      rw [same.closing, decide_eq_decide.mpr (same.line s member)]
    rw [depthOn] at ih ⊢
    rw [List.countP_cons, ih, counted, depthOn, depthOn, List.countP_cons]

private theorem forall₂_alike_passed {path path' : List Ancestor}
    (alike : List.Forall₂ (Ancestor.Alike source out place starts) path path') :
    List.Forall₂ (Ancestor.Alike source out place starts) (path.map Ancestor.passed)
      (path'.map Ancestor.passed) := by
  rw [List.forall₂_map_left_iff, List.forall₂_map_right_iff]
  exact alike.imp fun a b same => ⟨rfl, same.line⟩

mutual

/-- The leaves of a moved node are the leaves of the node, moved, with the depths they had. -/
theorem leavesBelow_moved (aligned : Aligned source out place starts) : (node : Node) →
    (path path' : List Ancestor) → node.Anchored → (∀ leaf ∈ node.childless, leaf.start ∈ starts) →
    List.Forall₂ (Ancestor.Alike source out place starts) path path' →
    leavesBelow (.along out) path' (node.moved place) =
      (leavesBelow (.along source) path node).map (Leaf.moved place)
  | ⟨kind, start, stop, []⟩, path, path', _, known, alike => by
    have member : start ∈ starts := known ⟨kind, start, stop, []⟩ (by simp [Node.childless])
    simp only [Node.moved, leavesBelow, List.isEmpty_nil, ↓reduceIte, Text.Ruler.lineOf_along,
      depthOn_of_alike member alike, List.map_cons, List.map_nil, Leaf.moved]
  | ⟨kind, start, stop, child :: rest⟩, path, path', anchored, known, alike => by
    rw [Node.Anchored, Node.descendants] at anchored
    rw [Node.childless, List.isEmpty_cons, if_neg Bool.false_ne_true] at known
    have below := leavesOfAll_moved aligned (child :: rest) path path' anchored known alike
    rw [Node.moved, leavesBelow, List.isEmpty_cons, if_neg Bool.false_ne_true, leavesBelow,
      List.isEmpty_cons, if_neg Bool.false_ne_true, ← below, Node.movedAll]

theorem leavesOfAll_moved (aligned : Aligned source out place starts) : (children : List Node) →
    (path path' : List Ancestor) →
    (∀ node ∈ Node.descendantsOf children, ∀ leaf ∈ node.childless.head?, node.start = leaf.start) →
    (∀ leaf ∈ Node.childlessOf children, leaf.start ∈ starts) →
    List.Forall₂ (Ancestor.Alike source out place starts) path path' →
    leavesOfAll (.along out) path' (Node.movedAll place children) =
      (leavesOfAll (.along source) path children).map (Leaf.moved place)
  | [], path, path', _, _, _ => by
    rw [Node.movedAll, leavesOfAll, leavesOfAll, List.map_nil]
  | child :: rest, path, path', anchored, known, alike => by
    rw [Node.descendantsOf] at anchored
    rw [Node.childlessOf] at known
    obtain ⟨leaf, others, shape⟩ := List.exists_cons_of_ne_nil child.childless_ne_nil
    have first : leaf ∈ child.childless.head? := by simp [shape]
    have anchor := anchored child (List.mem_cons_self ..) leaf first
    have member : leaf.start ∈ starts := known leaf (by simp [shape])
    have still : (rest.isEmpty = true ↔ (Node.movedAll place rest).isEmpty = true) := by
      cases rest <;> simp [Node.movedAll]
    have above : List.Forall₂ (Ancestor.Alike source out place starts)
        (if rest.isEmpty then path else path.map Ancestor.passed)
        (if (Node.movedAll place rest).isEmpty then path' else path'.map Ancestor.passed) := by
      by_cases last : rest.isEmpty = true
      · rwa [if_pos last, if_pos (still.mp last)]
      · rw [if_neg last, if_neg fun empty => last (still.mpr empty)]
        exact forall₂_alike_passed alike
    have same : Ancestor.Alike source out place starts
        ⟨(Text.Ruler.along source).lineOf child.start, true⟩
        ⟨(Text.Ruler.along out).lineOf (child.moved place).start, true⟩ := by
      refine ⟨rfl, fun s known' => ?_⟩
      rw [Text.Ruler.lineOf_along, Text.Ruler.lineOf_along, anchor,
        child.start_moved place leaf first]
      exact aligned leaf.start member s known'
    have front := leavesBelow_moved aligned child _ _
      (fun node below => anchored node (by simp [below]))
      (fun leaf below => known leaf (List.mem_append_left _ below)) (.cons same above)
    have back := leavesOfAll_moved aligned rest path path'
      (fun node below => anchored node (by simp [below]))
      (fun leaf below => known leaf (List.mem_append_right _ below)) alike
    rw [Node.movedAll, leavesOfAll, leavesOfAll, List.map_append, ← front, ← back]

end

/-- The leaves of a moved tree are its leaves, moved, with the depths they had. -/
theorem leaves_movedInto (aligned : Aligned source out place starts) {root : Node}
    (anchored : root.Anchored) (known : ∀ leaf ∈ root.childless, leaf.start ∈ starts) (length : ℕ) :
    leaves out (root.movedInto length place) = (leaves source root).map (Leaf.moved place) := by
  have below := leavesBelow_moved aligned root [] [] anchored known .nil
  obtain ⟨kind, start, stop, children⟩ := root
  cases children with
  | nil => exact below
  | cons child rest =>
    rw [Node.moved, leavesBelow, List.isEmpty_cons, if_neg Bool.false_ne_true] at below
    rw [leaves, leaves, ← below, Node.movedInto, Node.movedAll, leavesBelow, List.isEmpty_cons,
      if_neg Bool.false_ne_true]

/-- The first leaf below a node starts where its first childless node does. -/
theorem start_first_leavesBelow {ruler : Text.Ruler} {path : List Ancestor} {node : Node}
    {leaf : Leaf} (first : leaf ∈ (leavesBelow ruler path node).head?) :
    ∃ childless ∈ node.childless.head?, childless.start = leaf.start := by
  have spans := congrArg List.head? (leavesBelow_spans ruler path node)
  rw [List.head?_map, List.head?_map, Option.mem_def.mp first] at spans
  obtain ⟨childless, head, same⟩ := Option.map_eq_some_iff.mp spans.symm
  exact ⟨childless, head, congrArg Prod.fst same⟩

/-- The first leaf below a node is not indented for nodes that start on its line or later. -/
theorem depth_first_leavesBelow (ruler : Text.Ruler) : (node : Node) → (path : List Ancestor) →
    node.Anchored → ∀ leaf ∈ (leavesBelow ruler path node).head?,
    (∀ a ∈ path, ruler.lineOf leaf.start ≤ a.line) → leaf.depth = 0
  | ⟨kind, start, stop, []⟩, path, _, leaf, first, level => by
    simp only [leavesBelow, List.isEmpty_nil, ↓reduceIte, List.head?_cons,
      Option.mem_some_iff] at first
    subst first
    refine List.countP_eq_zero.mpr fun a member => ?_
    have later : ruler.lineOf start ≤ a.line := level a member
    rw [Bool.and_eq_true, decide_eq_true_eq]
    omega
  | ⟨kind, start, stop, child :: rest⟩, path, anchored, leaf, first, level => by
    rw [Node.Anchored, Node.descendants, Node.descendantsOf] at anchored
    rw [leavesBelow, List.isEmpty_cons, if_neg Bool.false_ne_true, leavesOfAll,
      List.head?_append_of_ne_nil _ (leavesBelow_ne_nil _ _ _)] at first
    obtain ⟨childless, head, same⟩ := start_first_leavesBelow first
    have anchor := anchored child (List.mem_cons_self ..) childless head
    refine depth_first_leavesBelow ruler child _ (fun node below => anchored node (by simp [below]))
      leaf first fun a member => ?_
    obtain rfl | member := List.mem_cons.mp member
    · exact Nat.le_of_eq (congrArg ruler.lineOf (anchor.trans same).symm)
    · split at member
      · exact level a member
      · obtain ⟨b, above, rfl⟩ := List.mem_map.mp member
        exact level b above

/-- The first leaf of a tree is not indented. -/
theorem depth_first_leaves {root : Node} (anchored : root.Anchored) {leaf : Leaf}
    (first : leaf ∈ (leaves source root).head?) : leaf.depth = 0 :=
  depth_first_leavesBelow _ root [] anchored leaf first (List.forall_mem_nil _)

end Depths

end Tree

end FormatHost
