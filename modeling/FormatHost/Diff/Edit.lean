import Std.Data.HashMap
import Std.Data.HashSet
import FormatHost.Text.Blank

/-! # Edit scripts

An edit script says how a sequence of lines becomes another one: which lines are kept, deleted and
inserted. The script is found by divide and conquer: lines common to both ends are kept, and what
is left between them is divided where a shortest path forwards meets one backwards.
-/

namespace FormatHost.Diff

inductive Action where
  | keep
  | delete
  | insert
deriving DecidableEq

/-- A run of lines, with where it starts on both sides. -/
structure Edit where
  action : Action
  old : Nat
  new : Nat
  length : Nat
deriving DecidableEq

/-- A stretch of both sequences. -/
structure Region where
  oldStart : Nat
  oldStop : Nat
  newStart : Nat
  newStop : Nat
deriving DecidableEq

/-- Two sequences of lines that are compared. A line is given by a number, which is the same for the
same lines. -/
structure Sides where
  old : Array Nat
  new : Array Nat

namespace Region

def oldLength (r : Region) : Nat :=
  r.oldStop - r.oldStart

def newLength (r : Region) : Nat :=
  r.newStop - r.newStart

def size (r : Region) : Nat :=
  r.oldLength + r.newLength

def dropFront (r : Region) (count : Nat) : Region :=
  { r with oldStart := r.oldStart + count, newStart := r.newStart + count }

def dropBack (r : Region) (count : Nat) : Region :=
  { r with oldStop := r.oldStop - count, newStop := r.newStop - count }

def before (r : Region) (old new : Nat) : Region :=
  { r with oldStop := old, newStop := new }

def fromPoint (r : Region) (old new : Nat) : Region :=
  { r with oldStart := old, newStart := new }

end Region

namespace Sides

/-- The numbers of some lines, and the lines that have a number then. A line without a number gets
the next one. -/
def number (known : Std.HashMap String Nat) (lines : Array String) :
    Array Nat × Std.HashMap String Nat :=
  lines.foldl (fun (numbers, known) line =>
    match known[line]? with
    | some n => (numbers.push n, known)
    | none => (numbers.push known.size, known.insert line known.size)) (#[], known)

/-- Two sequences of lines by their numbers. -/
def ofLines (old new : Array String) : Sides :=
  let (oldNumbers, known) := number ∅ old
  ⟨oldNumbers, (number known new).1⟩

@[inline] def agree (s : Sides) (i j : Nat) : Bool :=
  s.old.getD i 0 == s.new.getD j 0

/-- How many lines from an old and a new one on are the same on both sides, at most `limit`. -/
def sameFrom (s : Sides) : Nat → Nat → Nat → Nat
  | 0, _, _ => 0
  | limit + 1, i, j => if s.agree i j then 1 + s.sameFrom limit (i + 1) (j + 1) else 0

/-- How many lines before an old and a new one are the same on both sides, at most `limit`. -/
def sameBefore (s : Sides) : Nat → Nat → Nat → Nat
  | 0, _, _ => 0
  | limit + 1, i, j =>
    if s.agree (i - 1) (j - 1) then 1 + s.sameBefore limit (i - 1) (j - 1) else 0

def commonFront (s : Sides) (r : Region) : Nat :=
  s.sameFrom (min r.oldLength r.newLength) r.oldStart r.newStart

def commonBack (s : Sides) (r : Region) : Nat :=
  s.sameBefore (min r.oldLength r.newLength) r.oldStop r.newStop

end Sides

/-- The farthest old line reached on each diagonal. Diagonals are numbered upwards, by how many more
old lines than new lines lie before their points. -/
abbrev Frontier := Array Nat

/-- A region that is being divided. -/
structure Search where
  sides : Sides
  region : Region
  oldLength : Nat
  newLength : Nat
  /-- The number of the diagonal that paths start on. -/
  origin : Nat
  /-- Whether a shortest script has an odd number of edits. -/
  odd : Bool

namespace Search

/-- A search that is to begin, with paths of less than so many edits. -/
def start (sides : Sides) (r : Region) (edits : Nat) : Search where
  sides := sides
  region := r
  oldLength := r.oldLength
  newLength := r.newLength
  origin := edits + 1
  odd := (r.oldLength + r.newLength) % 2 == 1

def blank (s : Search) : Frontier :=
  Array.replicate (2 * s.origin + 1) 0

/-- Where a path of `d` edits that ends on a diagonal leaves the last edit. -/
@[inline] def enter (s : Search) (f : Frontier) (d diagonal : Nat) : Nat :=
  let below := f.getD (diagonal - 1) 0
  let above := f.getD (diagonal + 1) 0
  if diagonal + d == s.origin || (diagonal != s.origin + d && below < above) then above
  else below + 1

/-- How many new lines lie before the point of a diagonal with so many old lines before it. -/
@[inline] def newBefore (s : Search) (diagonal x : Nat) : Nat :=
  x + s.origin - diagonal

/-- How many lines can be followed from a point of a diagonal on: none before the first new line. -/
@[inline] def followable (s : Search) (diagonal x : Nat) : Nat :=
  if x + s.origin < diagonal then 0
  else min (s.oldLength - x) (s.newLength - s.newBefore diagonal x)

/-- Whether the paths of the other end have come to a diagonal within so many edits, and at least to
the line `x` from there. The number of the diagonal is as seen from this end. -/
@[inline] def meets (s : Search) (other : Frontier) (edits diagonal x : Nat) : Bool :=
  let here := diagonal + s.newLength
  let there := s.origin + s.oldLength
  here < there + edits && there < here + edits &&
    s.oldLength ≤ x + other.getD (s.origin + there - here) 0

/-- Extends the paths forwards by an edit, on so many diagonals from one on downwards. The search
ends, with the point where the last edit was left, if a path meets one that came backwards. -/
def forward (s : Search) (d : Nat) (backwards : Frontier) :
    Nat → Nat → Frontier → Except (Nat × Nat) Frontier
  | 0, _, forwards => .ok forwards
  | count + 1, diagonal, forwards =>
    let x := s.enter forwards d diagonal
    let y := s.newBefore diagonal x
    let far := x + s.sides.sameFrom (s.followable diagonal x)
      (s.region.oldStart + x) (s.region.newStart + y)
    if s.odd && s.meets backwards d diagonal far then
      .error (s.region.oldStart + x, s.region.newStart + y)
    else s.forward d backwards count (diagonal - 2) (forwards.setIfInBounds diagonal far)

/-- Extends the paths backwards by an edit, on so many diagonals from one on downwards. The search
ends, with the point that was reached, if a path meets one that came forwards. -/
def backward (s : Search) (d : Nat) (forwards : Frontier) :
    Nat → Nat → Frontier → Except (Nat × Nat) Frontier
  | 0, _, backwards => .ok backwards
  | count + 1, diagonal, backwards =>
    let x := s.enter backwards d diagonal
    let y := s.newBefore diagonal x
    let far := x + s.sides.sameBefore (s.followable diagonal x)
      (s.region.oldStop - x) (s.region.newStop - y)
    if !s.odd && s.meets forwards (d + 1) diagonal far then
      .error (s.region.oldStop - far, s.region.newStop - s.newBefore diagonal far)
    else s.backward d forwards count (diagonal - 2) (backwards.setIfInBounds diagonal far)

/-- Extends the paths from both ends, so many times, until two of them meet. -/
def meet? (s : Search) : Nat → Nat → Frontier → Frontier → Option (Nat × Nat)
  | 0, _, _, _ => none
  | rounds + 1, d, forwards, backwards =>
    match s.forward d backwards (d + 1) (s.origin + d) forwards with
    | .error point => some point
    | .ok forwards =>
      match s.backward d forwards (d + 1) (s.origin + d) backwards with
      | .error point => some point
      | .ok backwards => s.meet? rounds (d + 1) forwards backwards

end Search

/-- The greatest number of edits on each of the two paths. -/
def longestPath (r : Region) : Nat :=
  (r.size + 1) / 2 + 1

/-- Whether no line of a region is on both sides. -/
def Sides.disjoint (s : Sides) (r : Region) : Bool :=
  let old : Std.HashSet Nat := (s.old.extract r.oldStart r.oldStop).foldl (·.insert ·) ∅
  !(s.new.extract r.newStart r.newStop).any old.contains

/-- Where the paths meet in a region that has no line on both sides: after half of the edits, on the
first diagonal that both have reached. -/
def Region.middle (r : Region) : Nat × Nat :=
  let half := (r.size + 1) / 2
  if r.size % 2 = 1 then
    if r.newLength < r.oldLength then (r.oldStart + half, r.newStart)
    else (r.oldStop, r.newStop + 1 - half)
  else if r.newLength ≤ r.oldLength then (r.oldStop - half, r.newStop)
  else (r.oldStart, r.newStart + half)

/-- A point that a shortest script for a region goes through. -/
def midpoint? (sides : Sides) (r : Region) : Option (Nat × Nat) :=
  if sides.disjoint r then some r.middle
  else
    let search := Search.start sides r (longestPath r)
    search.meet? (longestPath r) 0 search.blank search.blank

/-- The edits for a region whose ends have nothing in common. -/
def replaceAll (r : Region) : List Edit :=
  (if r.oldLength = 0 then [] else [⟨.delete, r.oldStart, r.newStart, r.oldLength⟩]) ++
    (if r.newLength = 0 then [] else [⟨.insert, r.oldStart, r.newStart, r.newLength⟩])

/-- The edit that keeps some lines, if there are any. -/
def keepLines (old new count : Nat) : List Edit :=
  if count = 0 then [] else [⟨.keep, old, new, count⟩]

def script (sides : Sides) (r : Region) : List Edit :=
  let front := sides.commonFront r
  let rest := r.dropFront front
  let back := sides.commonBack rest
  let middle := rest.dropBack back
  let inner :=
    if middle.oldLength = 0 || middle.newLength = 0 then replaceAll middle
    else
      match midpoint? sides middle with
      | none => replaceAll middle
      | some (old, new) =>
        if _smaller : (middle.before old new).size < r.size ∧
            (middle.fromPoint old new).size < r.size then
          script sides (middle.before old new) ++ script sides (middle.fromPoint old new)
        else replaceAll middle
  keepLines r.oldStart r.newStart front ++ inner ++
    keepLines middle.oldStop middle.newStop back
termination_by r.size
decreasing_by
  · exact _smaller.1
  · exact _smaller.2

/-- The edits that turn the old lines into the new ones. -/
def Sides.edits (sides : Sides) : List Edit :=
  script sides ⟨0, sides.old.size, 0, sides.new.size⟩

end FormatHost.Diff
