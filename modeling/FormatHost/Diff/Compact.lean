import FormatHost.Diff.Edit

/-! # Compact edit scripts

Where the same script can be written in several ways, edits are moved together: a run of inserted
lines slides over kept lines that read the same, and runs of one kind that meet become one. The
edit being moved is held apart from those before it, nearest first, and those behind it.
-/

namespace FormatHost.Diff

namespace Edit

/-- The edit with other lines in front of its own. -/
def growFront (e : Edit) (count : Nat) : Edit :=
  { e with old := e.old - count, new := e.new - count, length := e.length + count }

/-- The edit with other lines behind its own. -/
def growBack (e : Edit) (count : Nat) : Edit :=
  { e with length := e.length + count }

def shrinkFront (e : Edit) (count : Nat) : Edit :=
  { e with old := e.old + count, new := e.new + count, length := e.length - count }

def shrinkBack (e : Edit) (count : Nat) : Edit :=
  { e with length := e.length - count }

def moveUp (e : Edit) (count : Nat) : Edit :=
  { e with old := e.old - count, new := e.new - count }

def moveDown (e : Edit) (count : Nat) : Edit :=
  { e with old := e.old + count, new := e.new + count }

end Edit

/-- A script with one edit singled out. -/
structure Focus where
  /-- The edits before it, the nearest first. -/
  before : List Edit
  edit : Edit
  after : List Edit

/-- The lines of some edits, and one more for each edit. -/
def weight : List Edit → Nat
  | [] => 0
  | e :: rest => e.length + 1 + weight rest

namespace Sides

/-- By how many lines an edit can move up over kept lines. -/
def slideUp (s : Sides) (kept e : Edit) : Nat :=
  if e.action = .insert then
    s.commonBack ⟨kept.old, kept.old + kept.length, e.new, e.new + e.length⟩
  else 0

/-- By how many lines an edit can move down over kept lines. -/
def slideDown (s : Sides) (kept e : Edit) : Nat :=
  if e.action = .insert then
    s.commonFront ⟨kept.old, kept.old + kept.length, e.new, e.new + e.length⟩
  else 0

end Sides

/-- Kept lines put in front of some edits. -/
def keepBefore (kept : Edit) (edits : List Edit) : List Edit :=
  match edits with
  | next :: rest =>
    if next.action = .keep then next.growFront kept.length :: rest else kept :: next :: rest
  | [] => [kept]

/-- Kept lines put behind some edits, of which the nearest comes first. -/
def keepAfter (kept : Edit) (edits : List Edit) : List Edit :=
  match edits with
  | previous :: rest =>
    if previous.action = .keep then previous.growBack kept.length :: rest
    else kept :: previous :: rest
  | [] => [kept]

/-- Moves an edit up as far as it goes. -/
def moveUp (sides : Sides) (before : List Edit) (e : Edit) (after : List Edit) : Focus :=
  match before with
  | [] => ⟨[], e, after⟩
  | previous :: rest =>
    if previous.action = e.action then moveUp sides rest (previous.growBack e.length) after
    else if previous.action = .keep then
      let count := sides.slideUp previous e
      if _moves : 0 < count ∧ count ≤ previous.length then
        let kept : Edit :=
          ⟨.keep, previous.old + previous.length - count, e.new + e.length - count, count⟩
        let above := if previous.length = count then rest else previous.shrinkBack count :: rest
        moveUp sides above (e.moveUp count) (keepBefore kept after)
      else ⟨previous :: rest, e, after⟩
    else moveUp sides rest e (previous :: after)
termination_by weight before
decreasing_by
  · simp [weight]
  · rw [dite_eq_ite]
    split
    · simp [weight]
    · simp [weight, Edit.shrinkBack]; omega
  · simp [weight]

/-- Moves an edit down as far as it goes. -/
def moveDown (sides : Sides) (before : List Edit) (e : Edit) (after : List Edit) : Focus :=
  match after with
  | [] => ⟨before, e, []⟩
  | next :: rest =>
    if next.action = e.action then moveDown sides before (e.growBack next.length) rest
    else if next.action = .keep then
      let count := sides.slideDown next e
      if _moves : 0 < count ∧ count ≤ next.length then
        let kept : Edit := ⟨.keep, next.old, e.new, count⟩
        let below := if next.length = count then rest else next.shrinkFront count :: rest
        moveDown sides (keepAfter kept before) (e.moveDown count) below
      else ⟨before, e, next :: rest⟩
    else moveDown sides (next :: before) e rest
termination_by weight after
decreasing_by
  · simp [weight]
  · rw [dite_eq_ite]
    split
    · simp [weight]
    · simp [weight, Edit.shrinkFront]; omega
  · simp [weight]

/-- Moves each edit of one kind up and then down, from the front. Every turn either leaves an edit
behind or joins two, so that the number of turns is bounded. -/
def settle (sides : Sides) (action : Action) : Nat → List Edit → List Edit → List Edit
  | 0, before, after => before.reverse ++ after
  | _ + 1, before, [] => before.reverse
  | turns + 1, before, e :: rest =>
    if e.action = action then
      let up := moveUp sides before e rest
      let down := moveDown sides up.before up.edit up.after
      settle sides action turns (down.edit :: down.before) down.after
    else settle sides action turns (e :: before) rest

/-- The script with deletions and then insertions moved together. -/
def compact (sides : Sides) (edits : List Edit) : List Edit :=
  let turns := (weight edits + 1) * (weight edits + 1)
  settle sides .insert turns [] (settle sides .delete turns [] edits)

end FormatHost.Diff
