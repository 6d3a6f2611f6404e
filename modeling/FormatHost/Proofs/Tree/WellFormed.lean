import FormatHost.Proofs.Tree.Leaves
import Mathlib.Data.List.Lex

/-! # The check accepts the well-formed trees

The check goes through a tree once and compares each node with its parent and with the sibling
before it. What it grants is said of all nodes and all pairs of nodes: they lie in the source and
between characters, inside all their ancestors, and behind whatever comes before them without being
an ancestor. A node is named by its address, and a node comes before another one if its address is
the smaller one when the numbers are compared from the root on.
-/

namespace FormatHost

namespace Node

/-- The node at an address: the numbers of the children that are followed from a node down. -/
def nodeAt? : Node → List ℕ → Option Node
  | node, [] => some node
  | node, i :: rest => node.children[i]?.bind fun child => child.nodeAt? rest

@[simp] theorem nodeAt?_nil (node : Node) : node.nodeAt? [] = some node := rfl

theorem nodeAt?_cons_eq_some_iff {node found : Node} {i : ℕ} {rest : List ℕ} :
    node.nodeAt? (i :: rest) = some found ↔
      ∃ child, node.children[i]? = some child ∧ child.nodeAt? rest = some found :=
  Option.bind_eq_some_iff

theorem nodeAt?_append_eq_some_iff {node found : Node} {above below : List ℕ} :
    node.nodeAt? (above ++ below) = some found ↔
      ∃ middle, node.nodeAt? above = some middle ∧ middle.nodeAt? below = some found := by
  induction above generalizing node with
  | nil => simp
  | cons i rest ih =>
    simp only [List.cons_append, nodeAt?_cons_eq_some_iff, ih]
    constructor
    · rintro ⟨child, there, middle, front, back⟩
      exact ⟨middle, ⟨child, there, front⟩, back⟩
    · rintro ⟨middle, ⟨child, there, front⟩, back⟩
      exact ⟨child, there, middle, front, back⟩

theorem nodeAt?_snoc_eq_some_iff {node found : Node} {above : List ℕ} {i : ℕ} :
    node.nodeAt? (above ++ [i]) = some found ↔
      ∃ parent, node.nodeAt? above = some parent ∧ parent.children[i]? = some found := by
  simp [nodeAt?_append_eq_some_iff, nodeAt?_cons_eq_some_iff]

/-- What holds of a node whenever it holds of its children holds of all nodes. -/
@[elab_as_elim]
theorem induction_children {motive : Node → Prop}
    (step : ∀ node, (∀ child ∈ node.children, motive child) → motive node) (node : Node) :
    motive node :=
  step node fun child _member => induction_children step child
termination_by sizeOf node
decreasing_by
  have smaller := List.sizeOf_lt_of_mem _member
  obtain ⟨kind, start, stop, children⟩ := node
  simp only [Node.mk.sizeOf_spec] at smaller ⊢
  omega

/-- Where the child with a number may start: where the one before it stops, and for the first one
at a given offset. -/
def earliestStart (first : ℕ) (children : List Node) (i : ℕ) : ℕ :=
  ((children.take i).map stop).getLastD first

@[simp] theorem earliestStart_zero (first : ℕ) (children : List Node) :
    earliestStart first children 0 = first := rfl

@[simp] theorem earliestStart_cons_succ (first : ℕ) (child : Node) (rest : List Node) (i : ℕ) :
    earliestStart first (child :: rest) (i + 1) = earliestStart child.stop rest i := by
  rw [earliestStart, List.take_succ_cons, List.map_cons, List.getLastD_cons, earliestStart]

private theorem earliestStart_succ {first i : ℕ} {children : List Node} {child : Node}
    (there : children[i]? = some child) : earliestStart first children (i + 1) = child.stop := by
  simp [earliestStart, List.take_add_one, there]

end Node

namespace Tree

/-! ## Well-formed trees -/

/-- A tree whose nodes lie in a source and between its characters, inside all their ancestors, and
behind the nodes that come before them, ancestors aside. -/
structure WellFormed (source : Text) (root : Node) : Prop where
  inside : ∀ address node, root.nodeAt? address = some node →
    node.start ≤ node.stop ∧ node.stop ≤ source.byteLength
  boundaries : ∀ address node, root.nodeAt? address = some node →
    source.isBoundary node.start = true ∧ source.isBoundary node.stop = true
  nested : ∀ above below ancestor node, root.nodeAt? above = some ancestor →
    root.nodeAt? (above ++ below) = some node →
    ancestor.start ≤ node.start ∧ node.stop ≤ ancestor.stop
  ordered : ∀ first second earlier later, root.nodeAt? first = some earlier →
    root.nodeAt? second = some later → first < second → ¬first <+: second →
    earlier.stop ≤ later.start

/-! ## Single checks -/

/-- A rule to be checked at an address. -/
structure Check where
  address : List ℕ
  rule : SpanRule

/-- The place of a rule among those that are checked for one node. -/
def SpanRule.rank : SpanRule → ℕ
  | .orderedInParent => 0
  | .insideSource => 1
  | .betweenCharacters => 2

namespace Check

/-- The order of checks: a node comes before what is below it and before the siblings that follow,
and its place in its parent is looked at before its range, and that before its ends. -/
def Precedes (a b : Check) : Prop :=
  a.address < b.address ∨ a.address = b.address ∧ a.rule.rank < b.rule.rank

/-- Whether a child does not lie behind the one before it or ends behind its parent. -/
def OutOfPlace (limit first : ℕ) (children : List Node) (i : ℕ) (child : Node) : Prop :=
  child.start < Node.earliestStart first children i ∨ limit < child.stop

/-- Whether a node breaks a rule for its own range. -/
def Breaks (source : Text) (node : Node) : SpanRule → Prop
  | .insideSource => node.stop < node.start ∨ source.byteLength < node.stop
  | .betweenCharacters =>
    source.isBoundary node.start = false ∨ source.isBoundary node.stop = false
  | .orderedInParent => False

/-- Whether the node at an address breaks a rule, for its own range or for its place in its
parent. -/
def Fails (source : Text) (root : Node) (check : Check) (node : Node) : Prop :=
  root.nodeAt? check.address = some node ∧
    (Breaks source node check.rule ∨
      check.rule = .orderedInParent ∧ ∃ above i parent, check.address = above ++ [i] ∧
        root.nodeAt? above = some parent ∧
        OutOfPlace parent.stop parent.start parent.children i node)

/-- A check that fails, whereas all checks before it do not. -/
structure IsFirstFailure (source : Text) (root : Node) (check : Check) (node : Node) : Prop where
  fails : check.Fails source root node
  least : ∀ (other : Check) found, other.Precedes check → ¬other.Fails source root found

/-! ## Checks along a tree -/

variable {source : Text} {root node : Node} {check : Check}

/-- The first child may start with its parent, the others where the one before them stops. -/
theorem outOfPlace_cons_succ {limit first i : ℕ} {child other : Node} {rest : List Node} :
    OutOfPlace limit first (child :: rest) (i + 1) other ↔
      OutOfPlace limit child.stop rest i other := by
  rw [OutOfPlace, Node.earliestStart_cons_succ, OutOfPlace]

/-- At the root there is no place in a parent to be checked. -/
theorem fails_root_iff {rule : SpanRule} :
    Fails source root ⟨[], rule⟩ node ↔ node = root ∧ Breaks source root rule := by
  constructor
  · rintro ⟨found, broken | ⟨-, above, i, parent, address, -⟩⟩
    · obtain rfl := Option.some.inj found
      exact ⟨rfl, broken⟩
    · simp at address
  · rintro ⟨rfl, broken⟩
    exact ⟨rfl, .inl broken⟩

/-- Below the root a check is a check of a child, or it is about the place of the child. -/
theorem fails_cons_iff {i : ℕ} {rest : List ℕ} {rule : SpanRule} :
    Fails source root ⟨i :: rest, rule⟩ node ↔
      ∃ child, root.children[i]? = some child ∧
        (Fails source child ⟨rest, rule⟩ node ∨
          rest = [] ∧ rule = .orderedInParent ∧ node = child ∧
            OutOfPlace root.stop root.start root.children i child) := by
  constructor
  · rintro ⟨found, failed⟩
    obtain ⟨child, there, below⟩ := Node.nodeAt?_cons_eq_some_iff.mp found
    refine ⟨child, there, ?_⟩
    rcases failed with broken | ⟨rfl, above, j, parent, address, parentFound, misplaced⟩
    · exact .inl ⟨below, .inl broken⟩
    · cases above with
      | nil =>
        obtain ⟨rfl, rfl⟩ := List.cons.inj address
        obtain rfl := Option.some.inj parentFound
        obtain rfl := Option.some.inj below
        exact .inr ⟨rfl, rfl, rfl, misplaced⟩
      | cons k above =>
        obtain ⟨rfl, rfl⟩ := List.cons.inj address
        obtain ⟨other, same, parentFound⟩ := Node.nodeAt?_cons_eq_some_iff.mp parentFound
        obtain rfl := Option.some.inj (there.symm.trans same)
        exact .inl ⟨below, .inr ⟨rfl, above, j, parent, rfl, parentFound, misplaced⟩⟩
  · rintro ⟨child, there, ⟨found, failed⟩ | ⟨rfl, rfl, rfl, misplaced⟩⟩
    · refine ⟨Node.nodeAt?_cons_eq_some_iff.mpr ⟨child, there, found⟩, ?_⟩
      rcases failed with broken | ⟨rfl, above, j, parent, rfl, parentFound, misplaced⟩
      · exact .inl broken
      · refine .inr ⟨rfl, i :: above, j, parent, rfl, ?_, misplaced⟩
        exact Node.nodeAt?_cons_eq_some_iff.mpr ⟨child, there, parentFound⟩
    · refine ⟨Node.nodeAt?_cons_eq_some_iff.mpr ⟨_, there, rfl⟩, ?_⟩
      exact .inr ⟨rfl, [], i, root, rfl, rfl, misplaced⟩

/-! ## What the check of a tree is made of -/

private theorem validate_eq_ok_iff_breaks :
    root.validate (.along source) = .ok () ↔
      ¬Breaks source root .insideSource ∧ ¬Breaks source root .betweenCharacters ∧
        Node.validateAll (.along source) root.stop root.start root.children = .ok () := by
  rw [Node.validate_eq_ok_iff]
  simp [Breaks, and_assoc]

/-- A tree is rejected for its root, first for its range and then for its ends, or for a child. -/
theorem validate_eq_error {fault : SpanFault}
    (failed : root.validate (.along source) = .error fault) :
    (∃ rule, Breaks source root rule ∧ fault = .of root rule ∧
        ∀ other : SpanRule, other.rank < rule.rank → ¬Breaks source root other) ∨
      (∀ rule, ¬Breaks source root rule) ∧
        Node.validateAll (.along source) root.stop root.start root.children = .error fault := by
  obtain ⟨kind, start, stop, children⟩ := root
  rw [Node.validate] at failed
  split_ifs at failed with outside splits
  · obtain rfl := Except.error.inj failed
    refine .inl ⟨.insideSource, by simpa [Breaks] using outside, rfl, ?_⟩
    rintro (_ | _ | _) less
    · simp at less
    · simp [SpanRule.rank] at less
    · exact id
  · obtain rfl := Except.error.inj failed
    refine .inl ⟨.betweenCharacters, by simpa [Breaks] using splits, rfl, ?_⟩
    rintro (_ | _ | _) less
    · simpa [Breaks] using outside
    · simp at less
    · exact id
  · refine .inr ⟨?_, failed⟩
    rintro (_ | _ | _)
    · simpa [Breaks] using outside
    · simpa [Breaks] using splits
    · exact id

private theorem validateAll_eq_ok_iff {ruler : Text.Ruler} {limit first : ℕ}
    {children : List Node} :
    Node.validateAll ruler limit first children = .ok () ↔
      ∀ i child, children[i]? = some child →
        ¬OutOfPlace limit first children i child ∧ child.validate ruler = .ok () := by
  induction children generalizing first with
  | nil => simp [Node.validateAll]
  | cons child rest ih =>
    rw [Node.validateAll_cons_eq_ok_iff, ih]
    constructor
    · rintro ⟨starts, stops, valid, later⟩ (_ | i) other there
      · obtain rfl := Option.some.inj there
        exact ⟨not_or.mpr ⟨Nat.not_lt.mpr starts, Nat.not_lt.mpr stops⟩, valid⟩
      · rw [outOfPlace_cons_succ]
        exact later i other there
    · intro all
      obtain ⟨inPlace, valid⟩ := all 0 child rfl
      obtain ⟨starts, stops⟩ := not_or.mp inPlace
      refine ⟨Nat.le_of_not_lt starts, Nat.le_of_not_lt stops, valid, fun i other there => ?_⟩
      rw [← outOfPlace_cons_succ]
      exact all (i + 1) other there

/-- Children are rejected for the first one that is out of place or not valid itself. -/
theorem validateAll_eq_error {ruler : Text.Ruler} {limit first : ℕ} {children : List Node}
    {fault : SpanFault} (failed : Node.validateAll ruler limit first children = .error fault) :
    ∃ i child, children[i]? = some child ∧
      (∀ j < i, ∀ other, children[j]? = some other →
        ¬OutOfPlace limit first children j other ∧ other.validate ruler = .ok ()) ∧
      (OutOfPlace limit first children i child ∧ fault = .of child .orderedInParent ∨
        ¬OutOfPlace limit first children i child ∧ child.validate ruler = .error fault) := by
  induction children generalizing first with
  | nil => cases failed
  | cons child rest ih =>
    rw [Node.validateAll] at failed
    split_ifs at failed with misplaced
    · obtain rfl := Except.error.inj failed
      refine ⟨0, child, rfl, ?_, .inl ⟨by simpa [OutOfPlace] using misplaced, rfl⟩⟩
      exact fun j none => absurd none (Nat.not_lt_zero j)
    · have inPlace : ¬OutOfPlace limit first (child :: rest) 0 child := by
        simpa [OutOfPlace] using misplaced
      cases valid : child.validate ruler with
      | error fault =>
        rw [valid] at failed
        obtain rfl := Except.error.inj failed
        refine ⟨0, child, rfl, ?_, .inr ⟨inPlace, valid⟩⟩
        exact fun j none => absurd none (Nat.not_lt_zero j)
      | ok =>
        rw [valid] at failed
        obtain ⟨i, found, there, before, cause⟩ := ih failed
        refine ⟨i + 1, found, there, ?_, ?_⟩
        · rintro (_ | j) less other member
          · obtain rfl := Option.some.inj member
            exact ⟨inPlace, valid⟩
          · rw [outOfPlace_cons_succ]
            exact before j (Nat.lt_of_succ_lt_succ less) other member
        · rw [outOfPlace_cons_succ]
          exact cause

/-! ## All checks of a tree -/

/-- In a valid tree no check fails. -/
theorem not_fails_of_validate (valid : root.validate (.along source) = .ok ()) (check : Check)
    (node : Node) : ¬check.Fails source root node := by
  induction root using Node.induction_children generalizing check with
  | step root ih =>
    obtain ⟨inside, between, below⟩ := validate_eq_ok_iff_breaks.mp valid
    obtain ⟨address, rule⟩ := check
    cases address with
    | nil =>
      rw [fails_root_iff]
      rintro ⟨rfl, broken⟩
      cases rule with
      | insideSource => exact inside broken
      | betweenCharacters => exact between broken
      | orderedInParent => exact broken
    | cons i rest =>
      rw [fails_cons_iff]
      rintro ⟨child, there, failed⟩
      obtain ⟨inPlace, childValid⟩ := validateAll_eq_ok_iff.mp below i child there
      rcases failed with failed | ⟨-, -, -, misplaced⟩
      · exact ih child (List.mem_of_getElem? there) childValid ⟨rest, rule⟩ failed
      · exact inPlace misplaced

/-- Before a child come the checks of its parent and of the children before it. -/
theorem not_fails_before {i : ℕ} (sound : ∀ rule, ¬Breaks source root rule)
    (before : ∀ j < i, ∀ other, root.children[j]? = some other →
      ¬OutOfPlace root.stop root.start root.children j other ∧
        other.validate (.along source) = .ok ())
    (less : check.address < [i]) : ¬check.Fails source root node := by
  obtain ⟨address, rule⟩ := check
  cases address with
  | nil =>
    rw [fails_root_iff]
    rintro ⟨-, broken⟩
    exact sound rule broken
  | cons j rest =>
    rcases List.cons_lt_cons_iff.mp less with less | ⟨-, less⟩
    · rw [fails_cons_iff]
      rintro ⟨other, there, failed⟩
      obtain ⟨inPlace, valid⟩ := before j less other there
      rcases failed with failed | ⟨-, -, -, misplaced⟩
      · exact not_fails_of_validate valid _ _ failed
      · exact inPlace misplaced
    · exact absurd less (List.not_lt_nil rest)

/-- The first failure below a child that is in place is the first one of the parent, if nothing
fails before the child. -/
theorem IsFirstFailure.below {i : ℕ} {child : Node} {address : List ℕ} {rule : SpanRule}
    (first : IsFirstFailure source child ⟨address, rule⟩ node)
    (there : root.children[i]? = some child)
    (inPlace : ¬OutOfPlace root.stop root.start root.children i child)
    (before : ∀ {other : Check} {found : Node}, other.address < [i] →
      ¬other.Fails source root found) :
    IsFirstFailure source root ⟨i :: address, rule⟩ node where
  fails := fails_cons_iff.mpr ⟨child, there, .inl first.fails⟩
  least := by
    rintro ⟨other, broken⟩ found precedes
    cases other with
    | nil => exact before (List.nil_lt_cons i [])
    | cons j rest =>
      by_cases less : j < i
      · exact before (List.cons_lt_cons_iff.mpr (.inl less))
      · obtain ⟨rfl, earlier⟩ : j = i ∧ Precedes ⟨rest, broken⟩ ⟨address, rule⟩ := by
          simpa [Precedes, List.cons_lt_cons_iff, less, and_assoc, ← and_or_left] using precedes
        rw [fails_cons_iff]
        rintro ⟨other, member, failed⟩
        obtain rfl := Option.some.inj (there.symm.trans member)
        rcases failed with failed | ⟨-, -, -, misplaced⟩
        · exact first.least _ _ earlier failed
        · exact inPlace misplaced

/-- A tree that is rejected is rejected for the first check that fails. -/
theorem exists_first_failure {fault : SpanFault}
    (failed : root.validate (.along source) = .error fault) :
    ∃ check node, IsFirstFailure source root check node ∧ fault = .of node check.rule := by
  induction root using Node.induction_children generalizing fault with
  | step root ih =>
    rcases validate_eq_error failed with ⟨rule, broken, rfl, earlier⟩ | ⟨sound, below⟩
    · refine ⟨⟨[], rule⟩, root, ⟨fails_root_iff.mpr ⟨rfl, broken⟩, ?_⟩, rfl⟩
      rintro ⟨address, other⟩ found (less | ⟨same, less⟩)
      · exact absurd less (List.not_lt_nil address)
      · obtain rfl : address = [] := same
        rw [fails_root_iff]
        rintro ⟨-, broken⟩
        exact earlier other less broken
    · obtain ⟨i, child, there, before, cause⟩ := validateAll_eq_error below
      rcases cause with ⟨misplaced, rfl⟩ | ⟨inPlace, invalid⟩
      · refine ⟨⟨[i], .orderedInParent⟩, child, ⟨?_, ?_⟩, rfl⟩
        · exact fails_cons_iff.mpr ⟨child, there, .inr ⟨rfl, rfl, rfl, misplaced⟩⟩
        · rintro other found (less | ⟨-, less⟩)
          · exact not_fails_before sound before less
          · simp [SpanRule.rank] at less
      · obtain ⟨⟨address, rule⟩, node, first, rfl⟩ :=
          ih child (List.mem_of_getElem? there) invalid
        exact ⟨⟨i :: address, rule⟩, node,
          first.below there inPlace (not_fails_before sound before), rfl⟩

private theorem rank_injective : Function.Injective SpanRule.rank := by
  rintro (_ | _ | _) (_ | _ | _) same
  all_goals first | rfl | simp [SpanRule.rank] at same

/-- There is one first failure at most. -/
theorem IsFirstFailure.unique {other : Check} {found : Node}
    (first : IsFirstFailure source root check node)
    (second : IsFirstFailure source root other found) : check = other ∧ node = found := by
  obtain ⟨address, rule⟩ := check
  obtain ⟨address', rule'⟩ := other
  have notBefore := fun precedes => first.least _ _ precedes second.fails
  have notBehind := fun precedes => second.least _ _ precedes first.fails
  obtain less | rfl | less := lt_trichotomy address address'
  · exact absurd (.inl less) notBehind
  · obtain less | same | less := lt_trichotomy rule.rank rule'.rank
    · exact absurd (.inr ⟨rfl, less⟩) notBehind
    · obtain rfl := rank_injective same
      exact ⟨rfl, Option.some.inj (first.fails.1.symm.trans second.fails.1)⟩
    · exact absurd (.inr ⟨rfl, less⟩) notBefore
  · exact absurd (.inl less) notBefore

end Check

open Check

variable {source : Text} {root : Node}

/-! ## From checks to pairs of nodes -/

/-- Children that are in place lie one behind the other. -/
theorem ordered_of_inPlace {limit first : ℕ} {children : List Node}
    (inPlace : ∀ i child, children[i]? = some child →
      ¬OutOfPlace limit first children i child ∧ child.start ≤ child.stop) :
    (∀ (i : ℕ) (child : Node), children[i]? = some child → first ≤ child.start) ∧
      ∀ (i j : ℕ) (earlier later : Node), children[i]? = some earlier →
        children[j]? = some later → i < j → earlier.stop ≤ later.start := by
  induction children generalizing first with
  | nil => simp
  | cons child rest ih =>
    obtain ⟨here, span⟩ := inPlace 0 child rfl
    have starts : first ≤ child.start := Nat.le_of_not_lt (not_or.mp here).1
    obtain ⟨behind, apart⟩ := ih fun i other there => by
      rw [← outOfPlace_cons_succ]
      exact inPlace (i + 1) other there
    constructor
    · rintro (_ | i) other there
      · obtain rfl := Option.some.inj there
        exact starts
      · have later := behind i other there
        omega
    · rintro (_ | i) (_ | j) earlier later there member less
      · omega
      · obtain rfl := Option.some.inj there
        exact behind j later member
      · omega
      · exact apart i j earlier later there member (Nat.lt_of_succ_lt_succ less)

/-- Two addresses of which none is the beginning of the other part at some node, where the smaller
one goes on to an earlier child. -/
theorem exists_fork {first second : List ℕ} (less : first < second) (apart : ¬first <+: second) :
    ∃ common i j front back,
      first = common ++ i :: front ∧ second = common ++ j :: back ∧ i < j := by
  induction first generalizing second with
  | nil => exact absurd List.nil_prefix apart
  | cons i front ih =>
    cases second with
    | nil => exact absurd less (List.not_lt_nil _)
    | cons j back =>
      rcases List.cons_lt_cons_iff.mp less with smaller | ⟨rfl, onward⟩
      · exact ⟨[], i, j, front, back, rfl, rfl, smaller⟩
      · have apart' : ¬front <+: back := by
          intro inside
          exact apart (List.cons_prefix_cons.mpr ⟨rfl, inside⟩)
        obtain ⟨common, k, l, front, back, rfl, rfl, smaller⟩ := ih onward apart'
        exact ⟨i :: common, k, l, front, back, rfl, rfl, smaller⟩

section Sound

variable (sound : ∀ (check : Check) (node : Node), ¬check.Fails source root node)

include sound

theorem inside_of_sound {address : List ℕ} {node : Node}
    (found : root.nodeAt? address = some node) :
    node.start ≤ node.stop ∧ node.stop ≤ source.byteLength := by
  simpa [Fails, Breaks, found] using sound ⟨address, .insideSource⟩ node

theorem inPlace_of_sound {address : List ℕ} {node child : Node} {i : ℕ}
    (found : root.nodeAt? address = some node) (there : node.children[i]? = some child) :
    ¬OutOfPlace node.stop node.start node.children i child ∧ child.start ≤ child.stop := by
  have reached := Node.nodeAt?_snoc_eq_some_iff.mpr ⟨node, found, there⟩
  refine ⟨fun misplaced => ?_, (inside_of_sound sound reached).1⟩
  exact sound ⟨address ++ [i], .orderedInParent⟩ child
    ⟨reached, .inr ⟨rfl, address, i, node, rfl, found, misplaced⟩⟩

theorem nested_of_sound {above below : List ℕ} {ancestor node : Node}
    (found : root.nodeAt? above = some ancestor) (under : ancestor.nodeAt? below = some node) :
    ancestor.start ≤ node.start ∧ node.stop ≤ ancestor.stop := by
  induction below generalizing above ancestor with
  | nil =>
    obtain rfl := Option.some.inj under
    exact ⟨le_rfl, le_rfl⟩
  | cons i rest ih =>
    obtain ⟨child, there, onward⟩ := Node.nodeAt?_cons_eq_some_iff.mp under
    have reached := Node.nodeAt?_snoc_eq_some_iff.mpr ⟨ancestor, found, there⟩
    obtain ⟨starts, stops⟩ := ih reached onward
    have first := (ordered_of_inPlace fun _ _ => inPlace_of_sound sound found).1 i child there
    have last := (not_or.mp (inPlace_of_sound sound found there).1).2
    omega

/-- A tree all of whose checks pass is well-formed. -/
theorem wellFormed_of_sound : WellFormed source root where
  inside _ _ found := inside_of_sound sound found
  boundaries address node found := by
    simpa [Fails, Breaks, found] using sound ⟨address, .betweenCharacters⟩ node
  nested above below ancestor node found reached := by
    obtain ⟨middle, same, under⟩ := Node.nodeAt?_append_eq_some_iff.mp reached
    obtain rfl := Option.some.inj (found.symm.trans same)
    exact nested_of_sound sound found under
  ordered first second earlier later foundFirst foundSecond less apart := by
    -- both lie inside the children at which their addresses part
    obtain ⟨common, i, j, front, back, rfl, rfl, smaller⟩ := exists_fork less apart
    obtain ⟨parent, above, under⟩ := Node.nodeAt?_append_eq_some_iff.mp foundFirst
    obtain ⟨child, there, onward⟩ := Node.nodeAt?_cons_eq_some_iff.mp under
    obtain ⟨other, same, under'⟩ := Node.nodeAt?_append_eq_some_iff.mp foundSecond
    obtain rfl := Option.some.inj (above.symm.trans same)
    obtain ⟨sibling, member, onward'⟩ := Node.nodeAt?_cons_eq_some_iff.mp under'
    have apart := (ordered_of_inPlace fun _ _ => inPlace_of_sound sound above).2 i j child sibling
      there member smaller
    obtain ⟨-, stops⟩ := nested_of_sound sound
      (Node.nodeAt?_snoc_eq_some_iff.mpr ⟨parent, above, there⟩) onward
    obtain ⟨starts, -⟩ := nested_of_sound sound
      (Node.nodeAt?_snoc_eq_some_iff.mpr ⟨parent, above, member⟩) onward'
    omega

end Sound

/-- In a well-formed tree all checks pass. -/
theorem WellFormed.sound (formed : WellFormed source root) (check : Check) (node : Node) :
    ¬check.Fails source root node := by
  rintro ⟨found, broken | ⟨-, above, i, parent, address, parentFound, misplaced⟩⟩
  · have inside := formed.inside _ _ found
    have boundaries := formed.boundaries _ _ found
    cases rule : check.rule with
    | insideSource =>
      rw [rule, Breaks] at broken
      omega
    | betweenCharacters => simp [rule, Breaks, boundaries] at broken
    | orderedInParent => simp [rule, Breaks] at broken
  · rw [address] at found
    obtain ⟨starts, stops⟩ := formed.nested above [i] parent node parentFound found
    rcases misplaced with early | late
    · cases i with
      | zero => exact Nat.not_lt.mpr starts early
      | succ i =>
        obtain ⟨other, same, there⟩ := Node.nodeAt?_snoc_eq_some_iff.mp found
        obtain rfl := Option.some.inj (parentFound.symm.trans same)
        have exists_before : i < parent.children.length :=
          Nat.lt_of_succ_lt (List.getElem?_eq_some_iff.mp there).1
        have before := List.getElem?_eq_getElem exists_before
        have smaller : above ++ [i] < above ++ [i + 1] :=
          List.Lex.append_left (· < ·) (.rel (Nat.lt_succ_self i)) above
        have apart : ¬above ++ [i] <+: above ++ [i + 1] := by
          simp
        have behind := formed.ordered _ _ _ _
          (Node.nodeAt?_snoc_eq_some_iff.mpr ⟨parent, parentFound, before⟩) found smaller apart
        rw [Node.earliestStart_succ before] at early
        omega
    · omega

private theorem validate_eq_ok_iff_wellFormed :
    root.validate (.along source) = .ok () ↔ WellFormed source root := by
  constructor
  · intro valid
    exact wellFormed_of_sound (not_fails_of_validate valid)
  · intro formed
    cases valid : root.validate (.along source) with
    | ok => rfl
    | error fault =>
      obtain ⟨check, node, first, -⟩ := exists_first_failure valid
      exact absurd first.fails (formed.sound check node)

theorem validate_eq_error_iff {fault : SpanFault} :
    root.validate (.along source) = .error fault ↔
      ∃ check node, IsFirstFailure source root check node ∧ fault = .of node check.rule := by
  constructor
  · exact exists_first_failure
  · rintro ⟨check, node, first, rfl⟩
    cases valid : root.validate (.along source) with
    | ok => exact absurd first.fails (not_fails_of_validate valid check node)
    | error fault =>
      obtain ⟨other, found, second, rfl⟩ := exists_first_failure valid
      obtain ⟨rfl, rfl⟩ := first.unique second
      rfl

/-- Whatever the source and the tree: the check accepts the tree exactly if it is well-formed. It
rejects the tree exactly if some check fails, with words for the node and the rule of the first one
that does. -/
theorem check_finds_first_failure (source : Text) (root : Node) :
    (check source root = .ok () ↔ WellFormed source root) ∧
      ∀ failure, check source root = .error failure ↔
        ∃ first node, IsFirstFailure source root first node ∧
          failure = .treeRejected (SpanFault.of node first.rule).message := by
  rw [← validate_eq_ok_iff_wellFormed]
  cases valid : root.validate (.along source) with
  | ok =>
    have accepted : check source root = .ok () := by rw [check, valid]
    rw [accepted]
    refine ⟨by simp, fun failure => ?_⟩
    constructor
    · intro failed
      cases failed
    · rintro ⟨first, node, isFirst, -⟩
      exact absurd isFirst.fails (not_fails_of_validate valid first node)
  | error fault =>
    have rejected : check source root = .error (.treeRejected fault.message) := by
      rw [check, valid]
    rw [rejected]
    refine ⟨by simp, fun failure => ?_⟩
    constructor
    · intro same
      obtain ⟨first, node, isFirst, rfl⟩ := validate_eq_error_iff.mp valid
      exact ⟨first, node, isFirst, (Except.error.inj same).symm⟩
    · rintro ⟨first, node, isFirst, rfl⟩
      have same := validate_eq_error_iff.mpr ⟨first, node, isFirst, rfl⟩
      rw [Except.error.inj (valid.symm.trans same)]

/-- The second child overlaps with the first one and splits a character; the overlap comes first. -/
example :
    check "aé".toList ⟨"root", 0, 3, [⟨"left", 0, 3, []⟩, ⟨"right", 2, 3, []⟩]⟩ =
      .error (.treeRejected "node `right` at 2..3 is not ordered inside its parent") := by
  decide

end Tree

end FormatHost
