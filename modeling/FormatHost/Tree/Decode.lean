import FormatHost.Fault
import FormatHost.Json.Record
import FormatHost.Tree.Basic

/-! # Trees written in JSON

A node is an object with the members `type`, `start`, `end` and, unless it is a leaf, `children`,
or the list of the four. A tree is accepted for a source if it can be read and is valid.
-/

namespace FormatHost.Tree

open Json

/-- A node of which some members have been read. -/
structure Draft where
  kind : Option String
  start : Option Nat
  stop : Option Nat
  children : Option (List Node)

def kindSlot : Slot Draft where
  name := "type"
  filled draft := draft.kind.isSome
  read draft s := do
    let (kind, rest) ← readString s
    .ok ({ draft with kind := some kind }, rest)

def startSlot : Slot Draft where
  name := "start"
  filled draft := draft.start.isSome
  read draft s := do
    let (start, rest) ← readOffset s
    .ok ({ draft with start := some start }, rest)

def stopSlot : Slot Draft where
  name := "end"
  filled draft := draft.stop.isSome
  read draft s := do
    let (stop, rest) ← readOffset s
    .ok ({ draft with stop := some stop }, rest)

/-- The member that is called `children`, which may be absent. -/
def childrenSlot (nodes : Reader (List Node)) : Slot Draft where
  name := "children"
  filled draft := draft.children.isSome
  read draft s := do
    let (children, rest) ← nodes s
    .ok ({ draft with children := some children }, rest)

/-- The node of a draft. -/
def Draft.complete (draft : Draft) : Except String Node :=
  match draft.kind, draft.start, draft.stop with
  | none, _, _ => .error "type"
  | some _, none, _ => .error "start"
  | some _, some _, none => .error "end"
  | some kind, some start, some stop => .ok ⟨kind, start, stop, draft.children.getD []⟩

/-- How nodes are read, given how lists of nodes are. -/
def nodeRecord (nodes : Reader (List Node)) : Record Draft Node where
  what := "struct Node"
  blank := ⟨none, none, none, none⟩
  slots := [kindSlot, startSlot, stopSlot, childrenSlot nodes]
  required := 3
  complete := Draft.complete

/-- Reads a node when that many brackets may still be opened: one for the node itself and one for
the list of its children. -/
def readNode : Nat → Reader Node
  | 0 => (nodeRecord fun s => peeked .tooDeep s).read false
  | 1 => (nodeRecord (readList false fun s => peeked .tooDeep s)).read true
  | levels + 2 => (nodeRecord (readList true (readNode levels))).read true

def ofJson (text : Bytes) : Except Fault Node :=
  readWhole (readNode maxDepth) text

/-- The tree written in a JSON text, with a reason in words if there is none. -/
def read (text : Bytes) : Except FormatFailure Node :=
  match ofJson text with
  | .ok root => .ok root
  | .error fault => .error (.treeRejected (fault.message text))

/-- Checks a tree against a source, with a reason in words if it is not valid. -/
def check (source : Text) (root : Node) : Except FormatFailure Unit :=
  match root.validate (.along source) with
  | .ok () => .ok ()
  | .error fault => .error (.treeRejected fault.message)

/-- The tree written in a JSON text, if it is valid for a source. -/
def decode (source : Text) (text : Bytes) : Except FormatFailure Node := do
  let root ← read text
  check source root
  .ok root

end FormatHost.Tree
