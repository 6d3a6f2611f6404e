import FormatHost.Render

/-! # Rendering on demand

A stream renders a tree as far as its tokens are asked for. It finds the leaves by their numbers and
cuts the source at their offsets. What is out of range stops it: a leaf that is not there, a cut
that goes backwards or splits a character, an indentation longer than any text can be.
-/

namespace FormatHost

/-- What can be out of range in a rendering. -/
inductive OutOfRange where
  | leaf
  | cut
  | indentation
deriving DecidableEq

/-- The part of a text between two offsets, which have to be in order and between characters. -/
def Text.cut (s : Text) (start stop : Nat) : Except OutOfRange Text :=
  if start ≤ stop && s.isBoundary start && s.isBoundary stop then
    .ok ((s.dropBytes start).takeBytes (stop - start))
  else .error .cut

def Text.greatestLength : Nat := Nat.pow 2 63 - 1

/-- Checks that the lines a gap is broken into can be indented. -/
def Layout.checkIndentation (layout : Layout) (depth : Nat) (between : Text) :
    Except OutOfRange Unit :=
  if between.contains '\n' && Text.greatestLength < layout.indentWidth * depth then
    .error .indentation
  else .ok ()

/-- A tree being rendered on demand. -/
structure Stream where
  layout : Layout
  source : Text
  leaves : List Leaf
  /-- The number of the leaf that comes next. -/
  next : Nat
  page : Page
  /-- How many tokens of the page have been given out. -/
  given : Nat
  /-- Whether what follows the last leaf is on the page. -/
  done : Bool

namespace Stream

def start (layout : Layout) (source : Text) (leaves : List Leaf) : Stream :=
  ⟨layout, source, leaves, 0, .blank, 0, false⟩

def leaf (stream : Stream) (n : Nat) : Except OutOfRange Leaf :=
  match stream.leaves[n]? with
  | some leaf => .ok leaf
  | none => .error .leaf

def gapStart (stream : Stream) : Nat → Except OutOfRange Nat
  | 0 => .ok 0
  | n + 1 => (stream.leaf n).map Leaf.stop

def putLeaf (stream : Stream) (leaf : Leaf) : Except OutOfRange Page := do
  let offset ← stream.gapStart stream.next
  let between ← stream.source.cut offset leaf.start
  stream.layout.checkIndentation leaf.depth between
  let text ← stream.source.cut leaf.start leaf.stop
  .ok ((stream.page.gap stream.layout leaf.depth between).put text)

def putTail (stream : Stream) : Except OutOfRange Page := do
  let tail := (stream.leaves.getLast?.map Leaf.stop).getD 0
  let behind ← stream.source.cut tail stream.source.byteLength
  .ok (stream.page.trailer stream.layout behind)

/-- Puts the next gap and leaf on the page, or what follows the last leaf. -/
def advance (stream : Stream) : Except OutOfRange Stream :=
  let later (page : Page) (done : Bool) : Stream :=
    { stream with next := stream.next + 1, page, done }
  if stream.next = stream.leaves.length then do .ok (later (← stream.putTail) true)
  else do
    let leaf ← stream.leaf stream.next
    .ok (later (← stream.putLeaf leaf) stream.done)

theorem lt_of_leaf_eq_ok {stream : Stream} {n : Nat} {leaf : Leaf}
    (found : stream.leaf n = .ok leaf) : n < stream.leaves.length := by
  rw [Stream.leaf] at found
  split at found
  · next present => exact (List.getElem?_eq_some_iff.mp present).1
  · contradiction

/-- An advance goes on to the next number, from one that is at most behind the last leaf. -/
theorem next_of_advance {stream later : Stream} (step : stream.advance = .ok later) :
    later.leaves = stream.leaves ∧ later.next = stream.next + 1 ∧
      stream.next ≤ stream.leaves.length := by
  rw [advance] at step
  split at step
  · next last =>
    cases tail : stream.putTail with
    | error fault => simp [tail, bind, Except.bind] at step
    | ok page =>
      simp only [tail, bind, Except.bind, Except.ok.injEq] at step
      subst step
      exact ⟨rfl, rfl, Nat.le_of_eq last⟩
  · cases found : stream.leaf stream.next with
    | error fault => simp [found, bind, Except.bind] at step
    | ok leaf =>
      cases put : stream.putLeaf leaf with
      | error fault => simp [found, put, bind, Except.bind] at step
      | ok page =>
        simp only [found, put, bind, Except.bind, Except.ok.injEq] at step
        subst step
        exact ⟨rfl, rfl, Nat.le_of_lt (lt_of_leaf_eq_ok found)⟩

theorem advance_of_putLeaf {stream : Stream} {leaf : Leaf} {page : Page}
    (found : stream.leaf stream.next = .ok leaf) (put : stream.putLeaf leaf = .ok page) :
    stream.advance = .ok { stream with next := stream.next + 1, page } := by
  have inside := lt_of_leaf_eq_ok found
  simp [advance, Nat.ne_of_lt inside, found, put, bind, Except.bind]

theorem advance_of_putTail {stream : Stream} {page : Page}
    (ended : stream.next = stream.leaves.length) (put : stream.putTail = .ok page) :
    stream.advance = .ok { stream with next := stream.next + 1, page, done := true } := by
  simp [advance, ended, put, bind, Except.bind]

/-- Gives out the next token, if there is one. -/
def pull (stream : Stream) : Except OutOfRange (Option Text × Stream) :=
  match stream.page.tokens[stream.given]? with
  | some token => .ok (some token, { stream with given := stream.given + 1 })
  | none =>
    if stream.done then .ok (none, stream)
    else
      match _ : stream.advance with
      | .error fault => .error fault
      | .ok later => later.pull
termination_by stream.leaves.length + 1 - stream.next
decreasing_by
  obtain ⟨leaves, next, inside⟩ := next_of_advance ‹stream.advance = .ok later›
  rw [leaves, next]
  omega

theorem pull_of_token {stream : Stream} {token : Text}
    (present : stream.page.tokens[stream.given]? = some token) :
    stream.pull = .ok (some token, { stream with given := stream.given + 1 }) := by
  rw [pull, present]

theorem pull_of_done {stream : Stream} (absent : stream.page.tokens[stream.given]? = none)
    (done : stream.done = true) : stream.pull = .ok (none, stream) := by
  rw [pull, absent]
  simp [done]

theorem pull_of_advance {stream later : Stream}
    (absent : stream.page.tokens[stream.given]? = none) (undone : stream.done = false)
    (step : stream.advance = .ok later) : stream.pull = later.pull := by
  rw [pull, absent]
  simp only [undone, Bool.false_eq_true, ↓reduceIte]
  split
  · next failed => simp [step] at failed
  · next reached =>
    rw [step, Except.ok.injEq] at reached
    rw [reached]

def advanceBy : Nat → Stream → Except OutOfRange Stream
  | 0, stream => .ok stream
  | n + 1, stream => do advanceBy n (← stream.advance)

def answers : Nat → Stream → Except OutOfRange (List (Option Text))
  | 0, _ => .ok []
  | n + 1, stream => do
    let (answer, later) ← stream.pull
    .ok (answer :: (← later.answers n))

end Stream

end FormatHost
