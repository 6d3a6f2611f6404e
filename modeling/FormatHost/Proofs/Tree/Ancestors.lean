import FormatHost.Proofs.Text.Utf8
import FormatHost.Proofs.Tree.WellFormed
import Mathlib.Data.List.Infix
import Mathlib.Data.Set.Card

/-! # The depth of a leaf

The walk through a tree keeps the nodes from the one it is at up to the root, and a flag for each of
them that is put down as soon as a child other than the last one is entered below it. The depth of a
leaf is read off these flags. It is the number of nodes between the root and the leaf that start on
an earlier line and of which the leaf is not the last leaf. Nothing is asked of the tree: its nodes
may lie anywhere, also behind the end of the source.
-/

namespace FormatHost

namespace Text

/-- How many of the first bytes of a text are line feeds. -/
def feedsBefore (s : Text) (n : ℕ) : ℕ :=
  ((Utf8.encode s).take n).count 0x0A

/-- No byte of a character is a line feed, unless the character is one. -/
theorem feed_not_mem_encodeChar {c : Char} (other : c ≠ '\n') :
    (0x0A : UInt8) ∉ String.utf8EncodeChar c := by
  intro member
  have feed : UInt8.toNat 0x0A = 10 := rfl
  by_cases wide : 128 ≤ c.toNat
  · have large := Utf8.le_toNat_of_mem_encodeChar wide member
    omega
  · have small : c.val.toNat ≤ 0x7f := Nat.le_of_lt_succ (Nat.lt_of_not_le wide)
    rw [String.utf8EncodeChar, if_pos small, List.mem_singleton] at member
    have code := congrArg UInt8.toNat member
    rw [UInt8.toNat_ofNat', feed] at code
    apply other
    apply Char.toNat_inj.mp
    change c.val.toNat = 10
    omega

/-- The line of an offset is the number of line feeds among the bytes before it. Behind the end of
the text these are all of them. -/
theorem lineOf_eq_feedsBefore (s : Text) (n : ℕ) : s.lineOf n = s.feedsBefore n := by
  induction s generalizing n with
  | nil => cases n <;> rfl
  | cons c rest ih =>
    cases n with
    | zero => rfl
    | succ n =>
      rw [lineOf, ih, feedsBefore, feedsBefore, Utf8.encode_cons, List.take_append,
        String.length_utf8EncodeChar, List.count_append]
      congr 1
      by_cases feed : c = '\n'
      · subst feed
        simp [String.utf8EncodeChar]
      · rw [if_neg feed, eq_comm, List.count_eq_zero]
        intro member
        exact feed_not_mem_encodeChar feed (List.mem_of_mem_take member)

end Text

namespace Node

/-! ## Leaves by their addresses -/

/-- Whether there is a childless node at an address. -/
def IsLeafAt (root : Node) (address : List ℕ) : Prop :=
  ∃ leaf, root.nodeAt? address = some leaf ∧ leaf.children = []

/-- Whether an address takes the last child at every step from a node down. -/
def FollowsLast (node : Node) (below : List ℕ) : Prop :=
  ∀ front i back parent, below = front ++ i :: back → node.nodeAt? front = some parent →
    i + 1 = parent.children.length

theorem isLeafAt_nil_iff {node : Node} : node.IsLeafAt [] ↔ node.children = [] := by
  simp [IsLeafAt]

theorem isLeafAt_cons_iff {node : Node} {i : ℕ} {rest : List ℕ} :
    node.IsLeafAt (i :: rest) ↔
      ∃ child, node.children[i]? = some child ∧ child.IsLeafAt rest := by
  constructor
  · rintro ⟨leaf, found, childless⟩
    obtain ⟨child, there, below⟩ := nodeAt?_cons_eq_some_iff.mp found
    exact ⟨child, there, leaf, below, childless⟩
  · rintro ⟨child, there, leaf, below, childless⟩
    exact ⟨leaf, nodeAt?_cons_eq_some_iff.mpr ⟨child, there, below⟩, childless⟩

/-- Every node has a leaf below it, or is one. -/
theorem exists_isLeafAt (node : Node) : ∃ below, node.IsLeafAt below := by
  induction node using induction_children with
  | step node ih =>
    cases shape : node.children with
    | nil => exact ⟨[], isLeafAt_nil_iff.mpr shape⟩
    | cons child rest =>
      obtain ⟨below, leaf⟩ := ih child (by simp [shape])
      exact ⟨0 :: below, isLeafAt_cons_iff.mpr ⟨child, by simp [shape], leaf⟩⟩

theorem followsLast_nil (node : Node) : node.FollowsLast [] := by
  intro front i back parent shape
  simp at shape

/-- The first step is to the last child, and so are the others. -/
theorem followsLast_cons_iff {node child : Node} {i : ℕ} {rest : List ℕ}
    (there : node.children[i]? = some child) :
    node.FollowsLast (i :: rest) ↔ i + 1 = node.children.length ∧ child.FollowsLast rest := by
  constructor
  · intro follows
    refine ⟨follows [] i rest node rfl rfl, ?_⟩
    rintro front j back parent rfl found
    exact follows (i :: front) j back parent rfl
      (nodeAt?_cons_eq_some_iff.mpr ⟨child, there, found⟩)
  · rintro ⟨last, follows⟩ front j back parent shape found
    cases front with
    | nil =>
      obtain ⟨rfl, -⟩ := List.cons.inj shape
      obtain rfl := Option.some.inj found
      exact last
    | cons k front =>
      obtain ⟨rfl, rfl⟩ := List.cons.inj shape
      obtain ⟨other, same, below⟩ := nodeAt?_cons_eq_some_iff.mp found
      obtain rfl := Option.some.inj (there.symm.trans same)
      exact follows front j back parent rfl below

/-- The leaf to which only last children lead is the last one. -/
theorem followsLast_iff_forall_le {node : Node} {below : List ℕ} (leaf : node.IsLeafAt below) :
    node.FollowsLast below ↔ ∀ other, node.IsLeafAt other → other ≤ below := by
  induction below generalizing node with
  | nil =>
    have childless := isLeafAt_nil_iff.mp leaf
    refine ⟨fun _ other reached => ?_, fun _ => node.followsLast_nil⟩
    cases other with
    | nil => exact le_rfl
    | cons i rest =>
      obtain ⟨child, there, -⟩ := isLeafAt_cons_iff.mp reached
      simp [childless] at there
  | cons i rest ih =>
    obtain ⟨child, there, onward⟩ := isLeafAt_cons_iff.mp leaf
    have inside : i < node.children.length := (List.getElem?_eq_some_iff.mp there).1
    rw [followsLast_cons_iff there, ih onward]
    constructor
    · rintro ⟨last, greatest⟩ other reached
      cases other with
      | nil => exact (List.nil_lt_cons i rest).le
      | cons j tail =>
        obtain ⟨sibling, member, under⟩ := isLeafAt_cons_iff.mp reached
        have within : j < node.children.length := (List.getElem?_eq_some_iff.mp member).1
        obtain less | rfl : j < i ∨ j = i := by omega
        · exact (List.cons_lt_cons_iff.mpr (.inl less)).le
        · obtain rfl := Option.some.inj (there.symm.trans member)
          exact List.cons_le_cons j (greatest tail under)
    · intro greatest
      constructor
      · -- a leaf of the next child would come behind
        by_contra more
        have next : i + 1 < node.children.length := by omega
        obtain ⟨tail, under⟩ := (node.children[i + 1]).exists_isLeafAt
        have later := greatest ((i + 1) :: tail)
          (isLeafAt_cons_iff.mpr ⟨_, List.getElem?_eq_getElem next, under⟩)
        exact absurd (List.cons_lt_cons_iff.mpr (.inl (Nat.lt_succ_self i))) (not_lt.mpr later)
      · intro other under
        by_contra greater
        have later := greatest (i :: other) (isLeafAt_cons_iff.mpr ⟨child, there, under⟩)
        exact absurd (List.cons_lt_cons_iff.mpr (.inr ⟨rfl, not_le.mp greater⟩))
          (not_lt.mpr later)

mutual

/-- The addresses of the leaves below a node, in order. -/
def leafAddresses : Node → List (List ℕ)
  | ⟨_, _, _, children⟩ => if children.isEmpty then [[]] else leafAddressesOf 0 children

/-- The addresses of the leaves below some children, the first of which has a number. -/
def leafAddressesOf : ℕ → List Node → List (List ℕ)
  | _, [] => []
  | i, child :: rest => child.leafAddresses.map (i :: ·) ++ leafAddressesOf (i + 1) rest

end

mutual

theorem mem_leafAddresses_iff {address : List ℕ} : (node : Node) →
    (address ∈ node.leafAddresses ↔ node.IsLeafAt address)
  | ⟨kind, start, stop, children⟩ => by
    rw [leafAddresses]
    split
    · next childless =>
      rw [List.isEmpty_iff] at childless
      subst childless
      cases address with
      | nil => simp [isLeafAt_nil_iff]
      | cons i rest => simp [isLeafAt_cons_iff]
    · next parent =>
      rw [mem_leafAddressesOf_iff children]
      cases address with
      | nil => simpa [isLeafAt_nil_iff] using parent
      | cons i rest => simp [isLeafAt_cons_iff]

theorem mem_leafAddressesOf_iff {address : List ℕ} : (children : List Node) → {i : ℕ} →
    (address ∈ leafAddressesOf i children ↔
      ∃ j child below, address = (i + j) :: below ∧ children[j]? = some child ∧
        child.IsLeafAt below)
  | [], i => by simp [leafAddressesOf]
  | child :: rest, i => by
    rw [leafAddressesOf, List.mem_append, List.mem_map, mem_leafAddressesOf_iff rest]
    simp only [mem_leafAddresses_iff child]
    constructor
    · rintro (⟨below, leaf, rfl⟩ | ⟨j, other, below, rfl, there, leaf⟩)
      · exact ⟨0, child, below, rfl, rfl, leaf⟩
      · refine ⟨j + 1, other, below, ?_, there, leaf⟩
        rw [Nat.add_assoc, Nat.add_comm 1]
    · rintro ⟨_ | j, other, below, rfl, there, leaf⟩
      · obtain rfl := Option.some.inj there
        exact .inl ⟨below, leaf, rfl⟩
      · refine .inr ⟨j, other, below, ?_, there, leaf⟩
        rw [Nat.add_assoc, Nat.add_comm 1]

end

mutual

theorem pairwise_leafAddresses : (node : Node) → node.leafAddresses.Pairwise (· < ·)
  | ⟨kind, start, stop, children⟩ => by
    rw [leafAddresses]
    split
    · exact List.pairwise_singleton ..
    · exact pairwise_leafAddressesOf 0 children

theorem pairwise_leafAddressesOf (i : ℕ) : (children : List Node) →
    (leafAddressesOf i children).Pairwise (· < ·)
  | [] => by
    rw [leafAddressesOf]
    exact .nil
  | child :: rest => by
    rw [leafAddressesOf, List.pairwise_append]
    refine ⟨?_, pairwise_leafAddressesOf (i + 1) rest, ?_⟩
    · refine child.pairwise_leafAddresses.map _ fun a b less => ?_
      exact List.cons_lt_cons_iff.mpr (.inr ⟨rfl, less⟩)
    · intro a first b second
      obtain ⟨below, -, rfl⟩ := List.mem_map.mp first
      obtain ⟨j, other, under, rfl, -, -⟩ := (mem_leafAddressesOf_iff rest).mp second
      exact List.cons_lt_cons_iff.mpr (.inl (by omega))

end

end Node

namespace Tree

open Node

/-! ## The walk to a leaf -/

/-- What the walk knows when it comes to the node at an address: the nodes from there up, and the
node. -/
def arrive (source : Text.Ruler) : List Ancestor → Node → List ℕ → Option (List Ancestor × Node)
  | path, node, [] => some (path, node)
  | path, node, i :: rest =>
    node.children[i]?.bind fun child =>
      let above := if i + 1 = node.children.length then path else path.map Ancestor.passed
      arrive source (⟨source.lineOf child.start, true⟩ :: above) child rest

/-- The walk comes to the node at the address. -/
theorem nodeAt?_of_arrive {source : Text.Ruler} {path frames : List Ancestor} {node found : Node}
    {address : List ℕ} (arrived : arrive source path node address = some (frames, found)) :
    node.nodeAt? address = some found := by
  induction address generalizing path node with
  | nil =>
    obtain ⟨-, rfl⟩ := Prod.mk.inj (Option.some.inj arrived)
    rfl
  | cons i rest ih =>
    obtain ⟨child, there, onward⟩ := Option.bind_eq_some_iff.mp arrived
    exact nodeAt?_cons_eq_some_iff.mpr ⟨child, there, ih onward⟩

/-- The leaf that is made of a childless node, given the nodes from it up. -/
def Arrives (source : Text.Ruler) (path : List Ancestor) (node : Node) (address : List ℕ)
    (leaf : Leaf) : Prop :=
  ∃ frames found, arrive source path node address = some (frames, found) ∧
    leaf = ⟨found.start, found.stop, depthOn (source.lineOf found.start) frames⟩

private theorem arrives_cons_iff {source : Text.Ruler} {path : List Ancestor} {node child : Node}
    {i : ℕ} {rest : List ℕ} {leaf : Leaf} (there : node.children[i]? = some child) :
    Arrives source path node (i :: rest) leaf ↔
      Arrives source (⟨source.lineOf child.start, true⟩ ::
        if i + 1 = node.children.length then path else path.map Ancestor.passed) child rest
        leaf := by
  rw [Arrives, arrive, there, Option.bind_some, Arrives]

mutual

/-- The leaves are what the walk finds at their addresses. -/
theorem arrives_leavesBelow (source : Text.Ruler) (path : List Ancestor) : (node : Node) →
    List.Forall₂ (Arrives source path node) node.leafAddresses (leavesBelow source path node)
  | ⟨kind, start, stop, children⟩ => by
    rw [leafAddresses, leavesBelow]
    split
    · exact .cons ⟨path, _, rfl, rfl⟩ .nil
    · exact arrives_leavesOfAll source path ⟨kind, start, stop, children⟩ [] children rfl

theorem arrives_leavesOfAll (source : Text.Ruler) (path : List Ancestor) (parent : Node)
    (before : List Node) : (children : List Node) → parent.children = before ++ children →
    List.Forall₂ (Arrives source path parent) (leafAddressesOf before.length children)
      (leavesOfAll source path children)
  | [], _ => by
    rw [leafAddressesOf, leavesOfAll]
    exact .nil
  | child :: rest, shape => by
    have there : parent.children[before.length]? = some child := by simp [shape]
    have last : before.length + 1 = parent.children.length ↔ rest = [] := by
      rw [shape, List.length_append, List.length_cons, ← List.length_eq_zero_iff]
      omega
    have later := arrives_leavesOfAll source path parent (before ++ [child]) rest (by simp [shape])
    rw [List.length_append, List.length_singleton] at later
    rw [leafAddressesOf, leavesOfAll]
    refine List.rel_append ?_ later
    rw [List.forall₂_map_left_iff]
    simp only [arrives_cons_iff there, last, List.isEmpty_iff]
    exact arrives_leavesBelow source _ child

end

/-! ## What the flags say -/

/-- The nodes on the way from a node down an address that start before a line and that the address
leaves by a child other than the last one, there or further down. -/
def openOnWay (source : Text.Ruler) (line : ℕ) (node : Node) (address : List ℕ) : Set (List ℕ) :=
  {above | above ≠ [] ∧ ∃ below ancestor, address = above ++ below ∧
    node.nodeAt? above = some ancestor ∧ source.lineOf ancestor.start < line ∧
    ¬ancestor.FollowsLast below}

section Way

variable {source : Text.Ruler} {line : ℕ} {node child : Node} {i : ℕ} {rest : List ℕ}

private theorem finite_openOnWay (address : List ℕ) :
    (openOnWay source line node address).Finite := by
  apply address.inits.finite_toSet.subset
  rintro above ⟨-, below, -, shape, -⟩
  exact (List.mem_inits above address).mpr ⟨below, shape.symm⟩

private theorem openOnWay_nil : openOnWay source line node [] = ∅ := by
  rw [Set.eq_empty_iff_forall_notMem]
  rintro above ⟨nonempty, below, -, shape, -⟩
  exact nonempty (List.append_eq_nil_iff.mp shape.symm).1

/-- The first node on the way counts for itself, the others on the way from it. -/
theorem mem_openOnWay_cons_iff (there : node.children[i]? = some child) {above : List ℕ} :
    above ∈ openOnWay source line node (i :: rest) ↔
      above = [i] ∧ source.lineOf child.start < line ∧ ¬child.FollowsLast rest ∨
        ∃ onward ∈ openOnWay source line child rest, i :: onward = above := by
  constructor
  · rintro ⟨nonempty, below, ancestor, shape, found, earlier, passed⟩
    obtain ⟨j, onward, rfl⟩ := List.exists_cons_of_ne_nil nonempty
    obtain ⟨rfl, rfl⟩ := List.cons.inj shape
    obtain ⟨other, same, under⟩ := nodeAt?_cons_eq_some_iff.mp found
    obtain rfl := Option.some.inj (there.symm.trans same)
    cases onward with
    | nil =>
      obtain rfl := Option.some.inj under
      exact .inl ⟨rfl, earlier, passed⟩
    | cons k onward =>
      exact .inr ⟨k :: onward, ⟨by simp, below, ancestor, rfl, under, earlier, passed⟩, rfl⟩
  · rintro (⟨rfl, earlier, passed⟩ | ⟨onward, ⟨-, below, ancestor, rfl, under, counted⟩, rfl⟩)
    · exact ⟨by simp, rest, child, rfl, nodeAt?_cons_eq_some_iff.mpr ⟨child, there, rfl⟩, earlier,
        passed⟩
    · exact ⟨by simp, below, ancestor, rfl, nodeAt?_cons_eq_some_iff.mpr ⟨child, there, under⟩,
        counted⟩

open scoped Classical in
private theorem ncard_openOnWay_cons (there : node.children[i]? = some child) :
    (openOnWay source line node (i :: rest)).ncard =
      (openOnWay source line child rest).ncard +
        if source.lineOf child.start < line ∧ ¬child.FollowsLast rest then 1 else 0 := by
  have onward : ((i :: ·) '' openOnWay source line child rest).ncard =
      (openOnWay source line child rest).ncard :=
    Set.ncard_image_of_injective _ (List.cons_injective (a := i))
  have finite : ((i :: ·) '' openOnWay source line child rest).Finite :=
    (finite_openOnWay rest).image _
  split_ifs with counted
  · have shape : openOnWay source line node (i :: rest) =
        insert [i] ((i :: ·) '' openOnWay source line child rest) := by
      ext above
      simp [mem_openOnWay_cons_iff there, counted]
    have apart : [i] ∉ (i :: ·) '' openOnWay source line child rest := by
      rintro ⟨above, ⟨nonempty, -⟩, same⟩
      exact nonempty (List.cons.inj same).2
    rw [shape, Set.ncard_insert_of_notMem apart finite, onward]
  · have shape : openOnWay source line node (i :: rest) =
        (i :: ·) '' openOnWay source line child rest := by
      ext above
      simp only [mem_openOnWay_cons_iff there, counted, and_false, false_or]
      rfl
    rw [shape, onward, Nat.add_zero]

end Way

theorem depthOn_cons (line : ℕ) (a : Ancestor) (path : List Ancestor) :
    depthOn line (a :: path) = depthOn line path + if a.line < line ∧ ¬a.closing then 1 else 0 := by
  simp [depthOn, List.countP_cons]

private theorem map_passed_map_passed (path : List Ancestor) :
    (path.map Ancestor.passed).map Ancestor.passed = path.map Ancestor.passed := by
  rw [List.map_map]
  rfl

open scoped Classical in
/-- On the way to a leaf all flags are up to date: the nodes passed since are counted if they are
open, and those from before keep their flags as long as only last children were followed. -/
theorem depthOn_of_arrive {source : Text.Ruler} {address : List ℕ} {path frames : List Ancestor}
    {node found : Node} (arrived : arrive source path node address = some (frames, found))
    (line : ℕ) :
    depthOn line frames = (openOnWay source line node address).ncard +
      depthOn line (if node.FollowsLast address then path else path.map Ancestor.passed) := by
  induction address generalizing path node with
  | nil =>
    obtain ⟨rfl, -⟩ := Prod.mk.inj (Option.some.inj arrived)
    rw [openOnWay_nil, Set.ncard_empty, Nat.zero_add, if_pos node.followsLast_nil]
  | cons i rest ih =>
    obtain ⟨child, there, onward⟩ := Option.bind_eq_some_iff.mp arrived
    rw [ih onward, ncard_openOnWay_cons there, Nat.add_assoc]
    congr 1
    by_cases follows : child.FollowsLast rest
    · simp [follows, followsLast_cons_iff there, depthOn_cons]
    · have flags : (if i + 1 = node.children.length then path else path.map Ancestor.passed).map
          Ancestor.passed = path.map Ancestor.passed := by
        split_ifs
        · rfl
        · exact map_passed_map_passed path
      simp [follows, followsLast_cons_iff there, depthOn_cons, flags, Ancestor.passed, Nat.add_comm]

/-! ## The leaves of a tree -/

/-- The nodes between the root of a tree and the leaf at an address that start on an earlier line
than the leaf and of which it is not the last leaf. -/
def openAncestors (source : Text) (root : Node) (address : List ℕ) : Set (List ℕ) :=
  {above | ∃ below ancestor leaf, above ≠ [] ∧ below ≠ [] ∧ address = above ++ below ∧
    root.nodeAt? above = some ancestor ∧ ancestor.nodeAt? below = some leaf ∧
    source.feedsBefore ancestor.start < source.feedsBefore leaf.start ∧
    ¬ancestor.FollowsLast below}

private theorem openAncestors_eq {source : Text} {root leaf : Node} {address : List ℕ}
    (found : root.nodeAt? address = some leaf) :
    openAncestors source root address =
      openOnWay (.along source) ((Text.Ruler.along source).lineOf leaf.start) root address := by
  ext above
  simp only [openAncestors, openOnWay, Set.mem_ofPred_eq, Text.Ruler.lineOf_along,
    Text.lineOf_eq_feedsBefore]
  constructor
  · rintro ⟨below, ancestor, other, nonempty, -, rfl, reached, under, earlier, passed⟩
    have same := nodeAt?_append_eq_some_iff.mpr ⟨ancestor, reached, under⟩
    obtain rfl := Option.some.inj (found.symm.trans same)
    exact ⟨nonempty, below, ancestor, rfl, reached, earlier, passed⟩
  · rintro ⟨nonempty, below, ancestor, rfl, reached, earlier, passed⟩
    obtain ⟨middle, same, under⟩ := nodeAt?_append_eq_some_iff.mp found
    obtain rfl := Option.some.inj (reached.symm.trans same)
    -- a leaf is the last one of itself
    have proper : below ≠ [] := by
      rintro rfl
      exact passed ancestor.followsLast_nil
    exact ⟨below, ancestor, leaf, nonempty, proper, rfl, reached, under, earlier, passed⟩

/-- What the walk finds at the address of a leaf has the depth that the nodes above it give. -/
theorem eq_of_arrives {source : Text} {root : Node} {address : List ℕ} {leaf : Leaf}
    (arrived : Arrives (.along source) [] root address leaf) :
    ∃ node, root.nodeAt? address = some node ∧
      leaf = ⟨node.start, node.stop, (openAncestors source root address).ncard⟩ := by
  obtain ⟨frames, node, arrived, rfl⟩ := arrived
  have found := nodeAt?_of_arrive arrived
  refine ⟨node, found, ?_⟩
  rw [depthOn_of_arrive arrived, openAncestors_eq found]
  simp [depthOn]

/-- Whatever the source and the tree, the leaves of the tree are its childless nodes in the order of
their addresses. The depth of each one is the number of nodes between the root and it that start
behind fewer line feeds and of which it is not the last leaf, that is, from which not only last
children lead to it. -/
theorem leaves_count_open_ancestors (source : Text) (root : Node) :
    ∃ addresses : List (List ℕ), addresses.Pairwise (· < ·) ∧
      (∀ address, address ∈ addresses ↔ root.IsLeafAt address) ∧
      List.Forall₂ (fun address leaf => ∃ node, root.nodeAt? address = some node ∧
          leaf = ⟨node.start, node.stop, (openAncestors source root address).ncard⟩)
        addresses (leaves source root) ∧
      ∀ above below ancestor, root.nodeAt? above = some ancestor →
        root.IsLeafAt (above ++ below) →
        (ancestor.FollowsLast below ↔ ∀ other, ancestor.IsLeafAt other → other ≤ below) := by
  refine ⟨root.leafAddresses, root.pairwise_leafAddresses, fun address =>
    mem_leafAddresses_iff root, ?_, ?_⟩
  · exact (arrives_leavesBelow (.along source) [] root).imp fun _ _ arrived => eq_of_arrives arrived
  · rintro above below ancestor reached ⟨leaf, found, childless⟩
    obtain ⟨middle, same, under⟩ := nodeAt?_append_eq_some_iff.mp found
    obtain rfl := Option.some.inj (reached.symm.trans same)
    exact followsLast_iff_forall_le ⟨leaf, under, childless⟩

/-- The second leaf lies behind the end of the source, so it is on the last line, and it closes the
inner node but not the outer one. -/
example :
    leaves "a\n\nb".toList
        ⟨"root", 0, 0, [⟨"outer", 0, 0, [⟨"inner", 2, 0, [⟨"x", 3, 4, []⟩, ⟨"y", 99, 7, []⟩]⟩,
          ⟨"z", 3, 4, []⟩]⟩]⟩ =
      [⟨3, 4, 2⟩, ⟨99, 7, 1⟩, ⟨3, 4, 0⟩] := by
  decide

end Tree

end FormatHost
