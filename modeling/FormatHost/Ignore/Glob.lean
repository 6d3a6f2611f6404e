import FormatHost.Text.Utf8

/-! # Globs

Patterns for paths. They are matched byte by byte: a star and a question mark stop at slashes, two
stars that fill a component stand for any number of directories, classes and alternatives are
written in brackets and braces. Matching marks the places of a path that the parts of a pattern
can reach one after another, so its time grows only with the product of their lengths.
-/

namespace FormatHost

namespace Glob

/-- A part of a pattern. -/
inductive Token where
  | literal (b : UInt8)
  /-- One byte that is no slash. -/
  | any
  /-- Any number of bytes that are no slashes. -/
  | many
  /-- One byte in, or outside of, some ranges. -/
  | oneOf (negated : Bool) (ranges : List (UInt8 × UInt8))
  /-- Any number of directories at the front. -/
  | anyDirectories
  /-- Everything below a directory. -/
  | everythingBelow
  /-- A slash, or any number of directories between two slashes. -/
  | anyBetween
  | alternatives (branches : List (List Token))
deriving Inhabited

/-- Why a pattern cannot be read. -/
inductive Fault where
  | badRange (low high : Char)
  | unopenedGroup
  | unclosedGroup
  | danglingEscape
deriving DecidableEq

def Fault.message : Fault → String
  | .badRange low high =>
    "invalid range; '" ++ low.toString ++ "' > '" ++ high.toString ++ "'"
  | .unopenedGroup =>
    "unopened alternate group; missing '\x7b' (maybe escape '\x7d' with '[\x7d]'?)"
  | .unclosedGroup =>
    "unclosed alternate group; missing '\x7d' (maybe escape '\x7b' with '[\x7b]'?)"
  | .danglingEscape => "dangling '\\'"

/-! ## Matching -/

def slash : UInt8 := 0x2F

/-- The places of a path that can be reached: one mark for the front of each byte and one for the
end. -/
abbrev Reach := List Bool

/-- Runs over the places of a path with a state. `mark` gives the new mark of a place from the state
and the old mark, `next` the state behind the byte that follows. -/
def sweep {σ : Type} (mark : σ → Bool → Bool) (next : σ → Bool → UInt8 → σ) :
    σ → Bytes → Reach → Reach
  | _, _, [] => []
  | state, [], old :: _ => [mark state old]
  | state, b :: path, old :: reach =>
    mark state old :: sweep mark next (next state old b) path reach

/-- The places behind one byte that passes a test. -/
def behindByte (test : UInt8 → Bool) : Bytes → Reach → Reach :=
  sweep (fun behind _ => behind) (fun _ old b => old && test b) false

/-- The places that can be reached without a slash on the way. -/
def alongName : Bytes → Reach → Reach :=
  sweep (fun before old => before || old) (fun before old b => (before || old) && b != slash) false

/-- The places reached so far, and those behind a slash that comes later. -/
def alongDirectories : Bytes → Reach → Reach :=
  sweep (fun (before, behindSlash) old => old || (before && behindSlash))
    (fun (before, _) old b => (before || old, b == slash)) (false, false)

/-- All places behind a slash at a place reached so far. -/
def belowSlash : Bytes → Reach → Reach :=
  sweep (fun below _ => below) (fun below old b => below || (old && b == slash)) false

/-- The places behind a slash at a place reached so far, and behind the later slashes. -/
def betweenSlashes : Bytes → Reach → Reach :=
  sweep (fun (below, behindSlash) _ => below && behindSlash)
    (fun (below, _) old b => (below || (old && b == slash), b == slash)) (false, false)

/-- The places in either of two marked paths. -/
def Reach.union (r r' : Reach) : Reach :=
  r.zipWith (· || ·) r'

def inRanges (ranges : List (UInt8 × UInt8)) (b : UInt8) : Bool :=
  ranges.any fun r => r.1 ≤ b && b ≤ r.2

mutual

/-- Whether a part of a pattern has nothing to it. -/
def Token.isVoid : Token → Bool
  | .alternatives branches => areVoid branches
  | _ => false

def isVoid : List Token → Bool
  | [] => true
  | token :: rest => token.isVoid && isVoid rest

/-- Whether none of some alternatives has anything to it. -/
def areVoid : List (List Token) → Bool
  | [] => true
  | branch :: rest => isVoid branch && areVoid rest

end

mutual

def Token.advance (path : Bytes) : Token → Reach → Reach
  | .literal c, reach => behindByte (· == c) path reach
  | .any, reach => behindByte (· != slash) path reach
  | .many, reach => alongName path reach
  | .oneOf negated ranges, reach => behindByte (fun b => inRanges ranges b != negated) path reach
  | .anyDirectories, reach => alongDirectories path reach
  | .everythingBelow, reach => belowSlash path reach
  | .anyBetween, reach => betweenSlashes path reach
  | .alternatives branches, reach =>
    if areVoid branches then reach else advanceAny path branches reach

def advanceAll (path : Bytes) : List Token → Reach → Reach
  | [], reach => reach
  | token :: more, reach => advanceAll path more (token.advance path reach)

/-- The places that some alternatives lead to. Those with nothing to them do not count. -/
def advanceAny (path : Bytes) : List (List Token) → Reach → Reach
  | [], reach => reach.map fun _ => false
  | branch :: more, reach =>
    let others := advanceAny path more reach
    if isVoid branch then others else (advanceAll path branch reach).union others

end

/-! ## Reading -/

/-- The alternatives of a group that is being read. -/
structure Group where
  /-- What came before the group, backwards. -/
  outer : List Token
  /-- The branches that are complete, backwards. -/
  branches : List (List Token)

/-- A pattern that is being read. -/
structure Draft where
  /-- The parts of the innermost branch, backwards. -/
  tokens : List Token
  /-- The groups that are open, the innermost first. -/
  groups : List Group
  /-- The character before the next one. -/
  previous : Option Char
  /-- Whether brackets stand for themselves, since one of them was never closed. -/
  plainBrackets : Bool

namespace Draft

def push (draft : Draft) (token : Token) : Draft :=
  { draft with tokens := token :: draft.tokens }

def pushChar (draft : Draft) (c : Char) : Draft :=
  { draft with tokens := ((String.utf8EncodeChar c).map .literal).reverse ++ draft.tokens }

def openGroup (draft : Draft) : Draft :=
  { draft with tokens := [], groups := ⟨draft.tokens, []⟩ :: draft.groups }

/-- Goes to the next branch of the innermost group; outside of groups a comma is a comma. -/
def nextBranch (draft : Draft) : Draft :=
  match draft.groups with
  | [] => draft.pushChar ','
  | group :: rest =>
    { draft with
      tokens := []
      groups := { group with branches := draft.tokens.reverse :: group.branches } :: rest }

def closeGroup (draft : Draft) : Except Fault Draft :=
  match draft.groups with
  | [] => .error .unopenedGroup
  | group :: rest =>
    .ok
      { draft with
        tokens := .alternatives (draft.tokens.reverse :: group.branches).reverse :: group.outer
        groups := rest }

end Draft

/-- Reads characters and ranges up to a closing bracket, which stands for itself if it comes first.
Gives the ranges, backwards, and the number of characters, or nothing if no bracket closes the
class. `isOpen` says whether a dash has been read that may go on with the last range. -/
def readRanges (first isOpen : Bool) (ranges : List (Char × Char)) (taken : Nat) :
    Text → Except Fault (Option (List (Char × Char) × Nat))
  | [] => .ok none
  | c :: rest =>
    if c = ']' && !first then
      .ok (some (if isOpen then ('-', '-') :: ranges else ranges, taken + 1))
    else
      match isOpen, ranges with
      | true, (low, _) :: more =>
        if c < low then .error (.badRange low c)
        else readRanges false false ((low, c) :: more) (taken + 1) rest
      | _, ranges =>
        if c = '-' && !first then readRanges false true ranges (taken + 1) rest
        else readRanges false false ((c, c) :: ranges) (taken + 1) rest

/-- The ranges of bytes that a range of characters comes to: all bytes of both ends, and what lies
between the last byte of the one and the first byte of the other. -/
def byteRanges (range : Char × Char) : List (UInt8 × UInt8) :=
  let single (b : UInt8) := (b, b)
  let low := String.utf8EncodeChar range.1
  let high := String.utf8EncodeChar range.2
  match range.1 == range.2, low.getLast?, high with
  | false, some a, b :: rest => low.dropLast.map single ++ (a, b) :: rest.map single
  | _, _, _ => low.map single

/-- Reads a class behind its opening bracket: the part that it stands for and the number of its
characters, or nothing if it is not closed. -/
def readClass (s : Text) : Except Fault (Option (Token × Nat)) :=
  let class? (negated : Bool) (read : Except Fault (Option (List (Char × Char) × Nat))) :=
    read.map fun read? => read?.map fun (ranges, taken) =>
      (Token.oneOf negated (ranges.reverse.flatMap byteRanges), taken)
  if s.head? == some '!' || s.head? == some '^' then
    class? true (readRanges true false [] 1 (s.drop 1))
  else class? false (readRanges true false [] 0 s)

/-- Whether a text is at its end or goes on with a slash. -/
def endsComponent (s : Text) : Bool :=
  s.isEmpty || s.head? == some '/'

/-- What two stars come to, given what follows them, and how many more characters they take. Only
stars that fill a component of the path stand for directories. -/
def twoStars (draft : Draft) (rest : Text) : Draft × Nat :=
  let plain := ((draft.push .many).push .many, 0)
  let inGroup := !draft.groups.isEmpty
  let replaceLast (token : Token) (more : Nat) : Draft × Nat :=
    match draft.tokens with
    | .anyDirectories :: _ => (draft, more)
    | .everythingBelow :: _ => (draft, more)
    | _ :: before => ({ draft with tokens := token :: before }, more)
    | [] => (draft.push token, more)
  if draft.tokens.isEmpty then
    if endsComponent rest then (draft.push .anyDirectories, 1) else plain
  else if draft.previous != some '/' &&
      !(inGroup && (draft.previous == some ',' || draft.previous == some '\x7b')) then plain
  else
    match rest with
    | [] => replaceLast .everythingBelow 0
    | '/' :: _ => replaceLast .anyBetween 1
    | c :: _ =>
      if inGroup && (c = ',' || c = '\x7d') then replaceLast .everythingBelow 0 else plain

/-- Reads a pattern. The first `skip` characters have been taken care of. -/
def readFrom (skip : Nat) (draft : Draft) : Text → Except Fault Draft
  | [] => .ok draft
  | c :: rest =>
    let go (skip : Nat) (draft : Draft) : Except Fault Draft :=
      readFrom skip { draft with previous := some c } rest
    if 0 < skip then go (skip - 1) draft
    else if c = '?' then go 0 (draft.push .any)
    else if c = '*' then
      if rest.head? == some '*' then
        let (draft, more) := twoStars draft (rest.drop 1)
        go (1 + more) draft
      else go 0 (draft.push .many)
    else if c = '[' && !draft.plainBrackets then
      match readClass rest with
      | .error fault => .error fault
      | .ok none => go 0 ({ draft with plainBrackets := true }.pushChar '[')
      | .ok (some (token, taken)) => go taken (draft.push token)
    else if c = '\x7b' then go 0 draft.openGroup
    else if c = '\x7d' then
      match draft.closeGroup with
      | .error fault => .error fault
      | .ok draft => go 0 draft
    else if c = ',' then go 0 draft.nextBranch
    else if c = '\\' then
      match rest with
      | [] => .error .danglingEscape
      | d :: _ => go 1 (draft.pushChar d)
    else go 0 (draft.pushChar c)

end Glob

/-- A pattern for paths. -/
structure Glob where
  tokens : List Glob.Token

namespace Glob

def parse (pattern : Text) : Except Fault Glob :=
  match readFrom 0 ⟨[], [], none, false⟩ pattern with
  | .error fault => .error fault
  | .ok draft => if draft.groups.isEmpty then .ok ⟨draft.tokens.reverse⟩ else .error .unclosedGroup

/-- Whether a pattern matches a whole path. Two stars alone match everything. -/
def accepts (glob : Glob) (path : Bytes) : Bool :=
  match glob.tokens with
  | [.anyDirectories] => true
  | tokens => (advanceAll path tokens (true :: path.map fun _ => false)).getLast? == some true

end Glob

end FormatHost
