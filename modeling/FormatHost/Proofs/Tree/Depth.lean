import FormatHost.Proofs.Json.Gives
import FormatHost.Proofs.Tree.Leaves

/-! # How deep a tree can be

Each level of nodes takes two brackets, one for the node and one for the list of its children, so
the bound on open brackets bounds the levels of a tree that is read. A leaf is indented by the nodes
between the root and itself at most, without either.
-/

namespace FormatHost

namespace Node

mutual

def height : Node → ℕ
  | ⟨_, _, _, children⟩ => heightOf children + 1

/-- The number of levels of the highest of some trees. -/
def heightOf : List Node → ℕ
  | [] => 0
  | child :: rest => max child.height (heightOf rest)

end

private theorem heightOf_le_iff {children : List Node} {n : ℕ} :
    heightOf children ≤ n ↔ ∀ child ∈ children, child.height ≤ n := by
  induction children with
  | nil => simp [heightOf]
  | cons child rest ih => rw [heightOf, Nat.max_le, ih, List.forall_mem_cons]

end Node

namespace Tree

open Json

/-! ## Levels -/

private theorem children_of_complete {draft : Draft} {node : Node}
    (complete : draft.complete = .ok node) :
    node.children = draft.children.getD [] := by
  rw [Draft.complete] at complete
  split at complete
  · contradiction
  · contradiction
  · contradiction
  · obtain rfl := Except.ok.inj complete
    rfl

/-- A node read has one level more than its children. -/
theorem gives_nodeRecord {nodes : Reader (List Node)} {n : ℕ}
    (each : Gives nodes fun children => ∀ child ∈ children, child.height ≤ n) (room : Bool) :
    Gives ((nodeRecord nodes).read room) fun node => node.height ≤ n + 1 := by
  refine gives_record (I := fun draft => ∀ child ∈ draft.children.getD [], child.height ≤ n)
    ?_ (by simp [nodeRecord]) ?_ room
  · intro slot member draft holds s draft' rest read
    simp only [nodeRecord, List.mem_cons, List.not_mem_nil, or_false] at member
    obtain rfl | rfl | rfl | rfl := member
    · obtain ⟨_, _, filled⟩ := bind_eq_ok_iff.mp read
      obtain ⟨rfl, rfl⟩ := Prod.mk.inj (Except.ok.inj filled)
      exact holds
    · obtain ⟨_, _, filled⟩ := bind_eq_ok_iff.mp read
      obtain ⟨rfl, rfl⟩ := Prod.mk.inj (Except.ok.inj filled)
      exact holds
    · obtain ⟨_, _, filled⟩ := bind_eq_ok_iff.mp read
      obtain ⟨rfl, rfl⟩ := Prod.mk.inj (Except.ok.inj filled)
      exact holds
    · obtain ⟨⟨children, _⟩, list, filled⟩ := bind_eq_ok_iff.mp read
      obtain ⟨rfl, rfl⟩ := Prod.mk.inj (Except.ok.inj filled)
      exact each _ _ _ list
  · intro draft node holds complete
    rw [← children_of_complete complete] at holds
    obtain ⟨kind, start, stop, children⟩ := node
    rw [Node.height]
    exact Nat.succ_le_succ (Node.heightOf_le_iff.mpr holds)

/-- A tree read with some brackets to open has a level for each two of them. -/
theorem gives_readNode : (brackets : ℕ) →
    Gives (readNode brackets) fun node => node.height ≤ (brackets + 1) / 2
  | 0 => fun s node rest read => (gives_record_false _ s node rest read).elim
  | 1 => by
    refine gives_nodeRecord (gives_readList ?_ false) true
    intro s node rest read
    exact absurd read peeked_ne_ok
  | brackets + 2 => by
    have levels : (brackets + 2 + 1) / 2 = (brackets + 1) / 2 + 1 := by omega
    rw [levels]
    exact gives_nodeRecord (gives_readList (gives_readNode brackets) true) true

/-- A tree that is read has at most 64 levels. -/
theorem height_le_of_read {text : Bytes} {root : Node} (read : Tree.read text = .ok root) :
    root.height ≤ 64 := by
  rw [Tree.read] at read
  split at read
  · next parsed =>
    obtain rfl := Except.ok.inj read
    exact readWhole_gives (gives_readNode maxDepth) parsed
  · contradiction

/-- An accepted tree has at most 64 levels. -/
theorem height_le_of_decode {source : Text} {text : Bytes} {root : Node}
    (accepted : decode source text = .ok root) : root.height ≤ 64 := by
  obtain ⟨tree, read, checked⟩ := bind_eq_ok_iff.mp accepted
  obtain ⟨_, _, same⟩ := bind_eq_ok_iff.mp checked
  obtain rfl := Except.ok.inj same
  exact height_le_of_read read

/-! ## Depths of leaves -/

mutual

/-- Below a node, leaves are indented by the nodes above it and the levels below it, the last one
aside. -/
theorem depth_leavesBelow (source : Text.Ruler) : (node : Node) → (own : Ancestor) →
    (above : List Ancestor) → own.closing = true →
    ∀ leaf ∈ leavesBelow source (own :: above) node, leaf.depth < above.length + node.height
  | ⟨kind, start, stop, children⟩, own, above, closing, leaf, member => by
    rw [leavesBelow] at member
    rw [Node.height]
    split at member
    · rw [List.mem_singleton] at member
      have counted : leaf.depth ≤ above.length := by
        rw [member, depthOn, List.countP_cons, closing]
        simpa using List.countP_le_length
      omega
    · have deeper := depth_leavesOfAll source children (own :: above) leaf member
      rw [List.length_cons] at deeper
      omega

theorem depth_leavesOfAll (source : Text.Ruler) : (children : List Node) →
    (path : List Ancestor) →
    ∀ leaf ∈ leavesOfAll source path children, leaf.depth < path.length + Node.heightOf children
  | [], _, leaf, member => by
    rw [leavesOfAll] at member
    contradiction
  | child :: rest, path, leaf, member => by
    rw [leavesOfAll, List.mem_append] at member
    rw [Node.heightOf]
    obtain member | member := member
    · have bound := depth_leavesBelow source child _ _ rfl leaf member
      have length : (if rest.isEmpty then path else path.map Ancestor.passed).length =
          path.length := by
        split <;> simp
      rw [length] at bound
      omega
    · have bound := depth_leavesOfAll source rest path leaf member
      omega

end

/-- Leaves are indented by the levels between the root and themselves at most. -/
theorem depth_leaves {source : Text} {root : Node} {leaf : Leaf}
    (member : leaf ∈ leaves source root) : leaf.depth ≤ root.height - 2 := by
  obtain ⟨kind, start, stop, children⟩ := root
  rw [leaves, leavesBelow] at member
  rw [Node.height]
  split at member
  · rw [List.mem_singleton] at member
    rw [member]
    exact Nat.zero_le _
  · have bound := depth_leavesOfAll _ children [] leaf member
    rw [List.length_nil] at bound
    omega

end Tree

end FormatHost
