import FormatHost.Diff.Compact
import FormatHost.Text.Utf8

/-! # Unified diffs

Changes are shown in hunks with three lines of context. Each hunk starts with the lines it covers
on both sides; a line that nothing ends is marked.
-/

namespace FormatHost.Diff

/-- A run of lines on both sides that is kept or changed as a whole. -/
structure Change where
  kept : Bool
  oldStart : Nat
  oldLength : Nat
  newStart : Nat
  newLength : Nat
deriving DecidableEq

namespace Change

def count (action : Action) (edits : List Edit) : Nat :=
  edits.foldr (fun e n => if e.action = action then e.length + n else n) 0

/-- The change that some neighbouring edits are together. -/
def ofEdits (edits : List Edit) : Change :=
  let first (action : Action) := edits.find? fun e => e.action = action
  let keep := count .keep edits
  match first .keep, first .delete, first .insert with
  | some e, _, _ => ⟨true, e.old, keep, e.new, keep⟩
  | none, some d, some i => ⟨false, d.old, count .delete edits, i.new, count .insert edits⟩
  | none, some d, none => ⟨false, d.old, count .delete edits, d.new, 0⟩
  | none, none, some i => ⟨false, i.old, 0, i.new, count .insert edits⟩
  | none, none, none => ⟨true, 0, 0, 0, 0⟩

def take (c : Change) (n : Nat) : Change :=
  { c with oldLength := min c.oldLength n, newLength := min c.newLength n }

def takeLast (c : Change) (n : Nat) : Change :=
  { c with
    oldStart := c.oldStart + (c.oldLength - n)
    oldLength := min c.oldLength n
    newStart := c.newStart + (c.newLength - n)
    newLength := min c.newLength n }

end Change

/-- The changes of a script: neighbouring kept runs are one, and so are neighbouring edits. -/
def changes (edits : List Edit) : List Change :=
  (edits.splitBy fun a b => (a.action == .keep) == (b.action == .keep)).map Change.ofEdits

/-- How many kept lines are shown around changes. -/
def contextLines : Nat := 3

/-- The changes with the kept lines at both ends cut to the context. -/
def trimEnds (list : List Change) : List Change :=
  let front :=
    match list with
    | first :: rest => if first.kept then first.takeLast contextLines :: rest else first :: rest
    | [] => []
  match front.getLast? with
  | some last => if last.kept then front.dropLast ++ [last.take contextLines] else front
  | none => []

/-- Divides changes into hunks at kept runs that are longer than the context on both sides. The
hunk that is being collected is given backwards. -/
def divide (hunk : List Change) : List Change → List (List Change)
  | [] =>
    match hunk with
    | [] => []
    | [only] => if only.kept then [] else [hunk]
    | _ :: _ :: _ => [hunk.reverse]
  | c :: rest =>
    if c.kept && 2 * contextLines < c.oldLength then
      (c.take contextLines :: hunk).reverse :: divide [c.takeLast contextLines] rest
    else divide (c :: hunk) rest

def hunks (list : List Change) : List (List Change) :=
  divide [] (trimEnds list)

/-- The lines from `start` up to `stop`, counted from one. -/
def rangeText (start stop : Nat) : String :=
  let length := stop - start
  if length = 1 then toString (start + 1)
  else if length = 0 then toString start ++ ",0"
  else toString (start + 1) ++ "," ++ toString length

def hunkHeader (hunk : List Change) : String :=
  match hunk.head?, hunk.getLast? with
  | some first, some last =>
    "@@ -" ++ rangeText first.oldStart (last.oldStart + last.oldLength) ++ " +" ++
      rangeText first.newStart (last.newStart + last.newLength) ++ " @@\n"
  | _, _ => ""

def isEnded (line : Text) : Bool :=
  line.getLast? == some '\n' || line.getLast? == some '\r'

def shownLine (mark : Char) (line : Text) : Text :=
  mark :: line ++ (if isEnded line then [] else "\n\\ No newline at end of file\n".toList)

def shownLines (mark : Char) (lines : Array String) (start length : Nat) : Text :=
  (lines.extract start (start + length)).toList.flatMap fun line => shownLine mark line.toList

def shownChange (old new : Array String) (c : Change) : Text :=
  if c.kept then shownLines ' ' old c.oldStart c.oldLength
  else
    shownLines '-' old c.oldStart c.oldLength ++ shownLines '+' new c.newStart c.newLength

def shownHunk (old new : Array String) (hunk : List Change) : Text :=
  (hunkHeader hunk).toList ++ hunk.flatMap (shownChange old new)

/-- The lines of a text with what ends them: a line feed, a carriage return, or a carriage return
and a line feed. The line that is being collected is given backwards. -/
def splitLines (line : Text) : Text → List Text
  | [] => if line.isEmpty then [] else [line.reverse]
  | '\r' :: '\n' :: rest => ('\n' :: '\r' :: line).reverse :: splitLines [] rest
  | c :: rest =>
    if c = '\r' || c = '\n' then (c :: line).reverse :: splitLines [] rest
    else splitLines (c :: line) rest

/-- The unified diff of two texts under a name; empty if there is nothing to show. -/
def unifiedText (name : String) (before after : Text) : Text :=
  let lines (text : Text) : Array String := ((splitLines [] text).map String.ofList).toArray
  let old := lines before
  let new := lines after
  let sides := Sides.ofLines old new
  match hunks (changes (compact sides sides.edits)) with
  | [] => []
  | hunks =>
    ("--- " ++ name ++ "\n+++ " ++ name ++ "\n").toList ++ hunks.flatMap (shownHunk old new)

/-- The unified diff of two sources; bytes that are no text are shown as replacement characters. -/
def unified (name : String) (before after : Bytes) : String :=
  String.ofList (unifiedText name (Utf8.decodeLossy before) (Utf8.decodeLossy after))

end FormatHost.Diff
