import FormatHost.Tree.Decode
import FormatHost.Proofs.Text.Spans

/-! # The leaves of a valid tree

The leaves of a tree are its childless nodes in order. In a valid tree they lie one behind the
other between the ends of the root, and each of them begins and ends between characters. The check
compares neighbours only; that leaves of different parents do not overlap follows along the tree.
-/

namespace FormatHost

namespace Node

mutual

/-- The childless nodes of a tree, in order. -/
def childless : Node → List Node
  | ⟨kind, start, stop, children⟩ =>
    if children.isEmpty then [⟨kind, start, stop, children⟩] else childlessOf children

/-- The childless nodes of some trees, in order. -/
def childlessOf : List Node → List Node
  | [] => []
  | child :: rest => child.childless ++ childlessOf rest

end

/-- Every tree has a leaf. -/
theorem childless_ne_nil : (node : Node) → node.childless ≠ []
  | ⟨kind, start, stop, []⟩ => by simp [childless]
  | ⟨kind, start, stop, child :: rest⟩ => by
    rw [childless, List.isEmpty_cons, if_neg Bool.false_ne_true, childlessOf]
    exact List.append_ne_nil_of_left_ne_nil child.childless_ne_nil _

def text (source : Text) (node : Node) : Text :=
  source.slice node.start node.stop

/-- What the check of a node is made of. -/
theorem validate_eq_ok_iff {source : Text.Ruler} {node : Node} :
    node.validate source = .ok () ↔
      node.start ≤ node.stop ∧ node.stop ≤ source.length ∧
        source.isBoundary node.start = true ∧ source.isBoundary node.stop = true ∧
        validateAll source node.stop node.start node.children = .ok () := by
  obtain ⟨kind, start, stop, children⟩ := node
  rw [validate]
  split_ifs with outside splits
  · simp only [Bool.or_eq_true, decide_eq_true_eq] at outside
    simp only [false_iff]
    omega
  · simp only [Bool.or_eq_true, Bool.not_eq_true'] at splits
    simp only [false_iff]
    rintro ⟨_, _, starts, stops, _⟩
    simp [starts, stops] at splits
  · simp only [Bool.or_eq_true, decide_eq_true_eq, not_or, Nat.not_lt] at outside
    simp only [Bool.or_eq_true, Bool.not_eq_true', not_or, Bool.not_eq_false] at splits
    simp [outside, splits]

/-- What the check of children is made of. -/
theorem validateAll_cons_eq_ok_iff {source : Text.Ruler} {limit cursor : ℕ} {child : Node}
    {rest : List Node} :
    validateAll source limit cursor (child :: rest) = .ok () ↔
      cursor ≤ child.start ∧ child.stop ≤ limit ∧ child.validate source = .ok () ∧
        validateAll source limit child.stop rest = .ok () := by
  rw [validateAll]
  split_ifs with disordered
  · simp only [Bool.or_eq_true, decide_eq_true_eq] at disordered
    simp only [false_iff]
    omega
  · simp only [Bool.or_eq_true, decide_eq_true_eq, not_or, Nat.not_lt] at disordered
    cases child.validate source with
    | error fault => simp [bind, Except.bind]
    | ok done => simp [bind, Except.bind, disordered]

end Node

namespace Leaf

def text (source : Text) (leaf : Leaf) : Text :=
  source.slice leaf.start leaf.stop

end Leaf

namespace Tree

/-! ## Leaves and childless nodes -/

mutual

theorem leavesBelow_spans (source : Text.Ruler) (path : List Ancestor) : (node : Node) →
    (leavesBelow source path node).map (fun leaf => (leaf.start, leaf.stop)) =
      node.childless.map fun node => (node.start, node.stop)
  | ⟨kind, start, stop, children⟩ => by
    rw [leavesBelow, Node.childless]
    split
    · rfl
    · exact leavesOfAll_spans source path children

theorem leavesOfAll_spans (source : Text.Ruler) (path : List Ancestor) : (children : List Node) →
    (leavesOfAll source path children).map (fun leaf => (leaf.start, leaf.stop)) =
      (Node.childlessOf children).map fun node => (node.start, node.stop)
  | [] => by rw [leavesOfAll, Node.childlessOf]; rfl
  | child :: rest => by
    rw [leavesOfAll, Node.childlessOf, List.map_append, List.map_append,
      leavesBelow_spans, leavesOfAll_spans]

end

theorem leavesBelow_ne_nil (source : Text.Ruler) (path : List Ancestor) (node : Node) :
    leavesBelow source path node ≠ [] := by
  intro none
  have spans := leavesBelow_spans source path node
  rw [none, List.map_nil, eq_comm, List.map_eq_nil_iff] at spans
  exact node.childless_ne_nil spans

/-- The leaves cover what the childless nodes cover, in the same order. -/
theorem leaves_text (source : Text) (root : Node) :
    (leaves source root).map (Leaf.text source) = root.childless.map (Node.text source) := by
  have spans := congrArg (List.map fun span : ℕ × ℕ => source.slice span.1 span.2)
    (leavesBelow_spans (.along source) [] root)
  rw [List.map_map, List.map_map] at spans
  exact spans

/-- What holds of the texts of the childless nodes holds of the texts of the leaves. -/
theorem forall_leaves_text {source : Text} {root : Node} {P : Text → Prop}
    (each : ∀ node ∈ root.childless, P (node.text source)) :
    ∀ leaf ∈ leaves source root, P (leaf.text source) := by
  have texts : ∀ text ∈ (leaves source root).map (Leaf.text source), P text := by
    rw [leaves_text]
    exact List.forall_mem_map.mpr each
  exact List.forall_mem_map.mp texts

/-! ## The order of the leaves -/

/-- Leaves that lie one behind the other from one offset of a source to another. -/
inductive Laid (source : Text) : ℕ → List Leaf → ℕ → Prop
  | nil {first last : ℕ} (ordered : first ≤ last) : Laid source first [] last
  | cons {first last : ℕ} {leaf : Leaf} {rest : List Leaf} (behind : first ≤ leaf.start)
      (ordered : leaf.start ≤ leaf.stop) (inside : leaf.stop ≤ source.byteLength)
      (starts : source.isBoundary leaf.start = true) (stops : source.isBoundary leaf.stop = true)
      (later : Laid source leaf.stop rest last) : Laid source first (leaf :: rest) last

theorem Laid.weaken {source : Text} {first middle last : ℕ} {leaves : List Leaf}
    (ordered : first ≤ middle) (laid : Laid source middle leaves last) :
    Laid source first leaves last := by
  cases laid with
  | nil within => exact .nil (Nat.le_trans ordered within)
  | cons behind span inside starts stops later =>
    exact .cons (Nat.le_trans ordered behind) span inside starts stops later

theorem Laid.append {source : Text} {first middle last : ℕ} {before behind : List Leaf}
    (front : Laid source first before middle) (back : Laid source middle behind last) :
    Laid source first (before ++ behind) last := by
  induction front with
  | nil ordered => exact back.weaken ordered
  | cons behind span inside starts stops _ ih =>
    exact .cons behind span inside starts stops (ih back)

theorem Laid.le_start {source : Text} {first last : ℕ} {leaves : List Leaf}
    (laid : Laid source first leaves last) : ∀ leaf ∈ leaves, first ≤ leaf.start := by
  induction laid with
  | nil => exact List.forall_mem_nil _
  | cons behind ordered _ _ _ _ ih =>
    refine List.forall_mem_cons.mpr ⟨behind, fun leaf member => ?_⟩
    exact Nat.le_trans (Nat.le_trans behind ordered) (ih leaf member)

/-- Each leaf lies behind those before it. -/
theorem Laid.pairwise {source : Text} {first last : ℕ} {leaves : List Leaf}
    (laid : Laid source first leaves last) : leaves.Pairwise fun a b => a.stop ≤ b.start := by
  induction laid with
  | nil => exact .nil
  | cons _ _ _ _ _ later ih => exact .cons later.le_start ih

/-- Each leaf begins and ends between characters. -/
theorem Laid.boundaries {source : Text} {first last : ℕ} {leaves : List Leaf}
    (laid : Laid source first leaves last) :
    ∀ leaf ∈ leaves, leaf.start ≤ leaf.stop ∧ leaf.stop ≤ source.byteLength ∧
      source.isBoundary leaf.start = true ∧ source.isBoundary leaf.stop = true := by
  induction laid with
  | nil => exact List.forall_mem_nil _
  | cons _ ordered inside starts stops _ ih =>
    exact List.forall_mem_cons.mpr ⟨⟨ordered, inside, starts, stops⟩, ih⟩

mutual

/-- The leaves of a valid node lie between its ends. -/
theorem laid_leavesBelow (source : Text) (path : List Ancestor) : (node : Node) →
    node.validate (.along source) = .ok () →
    Laid source node.start (leavesBelow (.along source) path node) node.stop
  | ⟨kind, start, stop, children⟩, valid => by
    obtain ⟨ordered, inside, starts, stops, below⟩ := Node.validate_eq_ok_iff.mp valid
    rw [Text.Ruler.length_along] at inside
    rw [Text.Ruler.isBoundary_along] at starts stops
    rw [leavesBelow]
    split
    · exact .cons (Nat.le_refl _) ordered inside starts stops (.nil (Nat.le_refl _))
    · exact laid_leavesOfAll source path children start ordered below

theorem laid_leavesOfAll (source : Text) (path : List Ancestor) {limit : ℕ} :
    (children : List Node) → (cursor : ℕ) → cursor ≤ limit →
    Node.validateAll (.along source) limit cursor children = .ok () →
    Laid source cursor (leavesOfAll (.along source) path children) limit
  | [], cursor, ordered, _ => by
    rw [leavesOfAll]
    exact .nil ordered
  | child :: rest, cursor, _, valid => by
    obtain ⟨behind, within, childValid, restValid⟩ := Node.validateAll_cons_eq_ok_iff.mp valid
    rw [leavesOfAll]
    exact ((laid_leavesBelow source _ child childValid).weaken behind).append
      (laid_leavesOfAll source path rest child.stop within restValid)

end

/-- An accepted tree is valid. -/
theorem validate_of_decode {source : Text} {text : Bytes} {root : Node}
    (accepted : decode source text = .ok root) : root.validate (.along source) = .ok () := by
  simp only [decode, bind, Except.bind, check] at accepted
  cases parsed : read text with
  | error failure => simp [parsed] at accepted
  | ok tree =>
    cases checked : tree.validate (.along source) with
    | error fault => simp [parsed, checked] at accepted
    | ok done =>
      simp only [parsed, checked, Except.ok.injEq] at accepted
      rw [← accepted, checked]

/-- A valid tree is accepted wherever it is written. -/
theorem decode_of_validate {source : Text} {text : Bytes} {root : Node}
    (written : read text = .ok root) (valid : root.validate (.along source) = .ok ()) :
    decode source text = .ok root := by
  simp only [decode, written, check, valid, bind, Except.bind]

/-- The leaves of a valid tree lie one behind the other in its source. -/
theorem laid_leaves {source : Text} {root : Node} (valid : root.validate (.along source) = .ok ()) :
    Laid source 0 (leaves source root) root.stop :=
  (laid_leavesBelow source [] root valid).weaken (Nat.zero_le _)

end Tree

end FormatHost
