import FormatHost.Text.Ruler

/-! # Syntax trees over a source

A node covers a range of bytes of the source. In a valid tree every range lies in the source and
between characters, and the children of a node lie inside it, one after the other.
-/

namespace FormatHost

/-- A node of a syntax tree. -/
structure Node where
  kind : String
  start : Nat
  stop : Nat
  children : List Node
deriving Inhabited

namespace Tree

/-- The rules for the range of a node. -/
inductive SpanRule where
  | insideSource
  | betweenCharacters
  | orderedInParent
deriving DecidableEq

def SpanRule.message : SpanRule → String
  | .insideSource => "lies outside the source"
  | .betweenCharacters => "splits a character"
  | .orderedInParent => "is not ordered inside its parent"

/-- A node that breaks a rule. -/
structure SpanFault where
  kind : String
  start : Nat
  stop : Nat
  rule : SpanRule
deriving DecidableEq

def SpanFault.message (fault : SpanFault) : String :=
  "node `" ++ fault.kind ++ "` at " ++ toString fault.start ++ ".." ++ toString fault.stop ++ " " ++
    fault.rule.message

def SpanFault.of (node : Node) (rule : SpanRule) : SpanFault :=
  ⟨node.kind, node.start, node.stop, rule⟩

end Tree

namespace Node

mutual

def decideEq : (a b : Node) → Decidable (a = b)
  | ⟨kind, start, stop, children⟩, ⟨kind', start', stop', children'⟩ =>
    match decideEqAll children children' with
    | isTrue same =>
      decidable_of_iff (kind = kind' ∧ start = start' ∧ stop = stop') (by simp [same])
    | isFalse different => isFalse fun same => different (by injection same)

/-- Decides whether two lists of nodes are the same. -/
def decideEqAll : (as bs : List Node) → Decidable (as = bs)
  | [], [] => isTrue rfl
  | [], _ :: _ | _ :: _, [] => isFalse (by simp)
  | a :: as, b :: bs =>
    match decideEq a b, decideEqAll as bs with
    | isTrue first, isTrue rest => isTrue (by rw [first, rest])
    | isFalse different, _ => isFalse fun same => different (by injection same)
    | isTrue _, isFalse different => isFalse fun same => different (by injection same)

end

instance : DecidableEq Node := decideEq

mutual

/-- Checks a node and what is below it against the ruler of a source: its own range, its own ends,
then each child in order. -/
def validate (source : Text.Ruler) : Node → Except Tree.SpanFault Unit
  | ⟨kind, start, stop, children⟩ =>
    if stop < start || source.length < stop then .error ⟨kind, start, stop, .insideSource⟩
    else if !source.isBoundary start || !source.isBoundary stop then
      .error ⟨kind, start, stop, .betweenCharacters⟩
    else validateAll source stop start children

/-- Checks children in order: each starts where the one before it ended or later, and ends
inside the parent. -/
def validateAll (source : Text.Ruler) (limit cursor : Nat) : List Node → Except Tree.SpanFault Unit
  | [] => .ok ()
  | child :: rest =>
    if child.start < cursor || limit < child.stop then .error (.of child .orderedInParent)
    else do
      child.validate source
      validateAll source limit child.stop rest

end

end Node

/-- A childless node with the number of levels it is indented by. -/
structure Leaf where
  start : Nat
  stop : Nat
  depth : Nat
deriving DecidableEq

namespace Tree

/-- A node on the way from the root to a leaf. -/
structure Ancestor where
  /-- The line the node starts on. -/
  line : Nat
  /-- Whether only last children were followed from the node on. -/
  closing : Bool
deriving DecidableEq

/-- An ancestor of which some child that is not the last has been followed. -/
def Ancestor.passed (a : Ancestor) : Ancestor :=
  { a with closing := false }

/-- The depth of a leaf on a line: it counts the ancestors that start on an earlier line and that
the leaf does not close. -/
def depthOn (line : Nat) (ancestors : List Ancestor) : Nat :=
  ancestors.countP fun a => a.line < line && !a.closing

mutual

/-- The leaves below a node, in order, given the nodes from it up to the root, which is left out. -/
def leavesBelow (source : Text.Ruler) (path : List Ancestor) : Node → List Leaf
  | ⟨_, start, stop, children⟩ =>
    if children.isEmpty then [⟨start, stop, depthOn (source.lineOf start) path⟩]
    else leavesOfAll source path children

/-- The leaves of the children of a node, one child after the other. -/
def leavesOfAll (source : Text.Ruler) (path : List Ancestor) : List Node → List Leaf
  | [] => []
  | child :: rest =>
    let above := if rest.isEmpty then path else path.map Ancestor.passed
    leavesBelow source (⟨source.lineOf child.start, true⟩ :: above) child ++
      leavesOfAll source path rest

end

def leaves (source : Text) (root : Node) : List Leaf :=
  leavesBelow (.along source) [] root

end Tree

end FormatHost
