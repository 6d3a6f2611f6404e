import FormatHost.Layout
import FormatHost.Tree.Decode

/-! # Rendering a tree

The source is cut into leaves and the gaps between them. Leaves are emitted as they are; of a gap
only its pieces of text are kept, line by line, and the space between them is laid out anew. What
has been emitted is a page of non-empty tokens.
-/

namespace FormatHost

/-- The tokens emitted so far. -/
structure Page where
  tokens : Array Text
deriving DecidableEq

namespace Page

def blank : Page := ⟨#[]⟩

def isBlank (page : Page) : Bool :=
  page.tokens.isEmpty

/-- Whether the next token starts a line. -/
def atLineStart (page : Page) : Bool :=
  match page.tokens.back? with
  | none => true
  | some token => token.endsLine

/-- Emits a token, unless it is empty. -/
def put (page : Page) (token : Text) : Page :=
  if token.isEmpty then page else ⟨page.tokens.push token⟩

def putAll (page : Page) (tokens : List Text) : Page :=
  tokens.foldl put page

/-- Emits a space, unless a line starts here. -/
def separate (page : Page) : Page :=
  if page.atLineStart then page else page.put [' ']

/-- Starts a line at a depth, after as many of the blank lines as the layout keeps. The first line
of a page needs no line feed. -/
def newline (layout : Layout) (blanks depth : Nat) (page : Page) : Page :=
  let broken :=
    if page.isBlank then page
    else page.putAll (List.replicate (1 + min blanks layout.maxBlankLines) ['\n'])
  broken.put (List.replicate (layout.indentation depth) ' ')

/-- Emits pieces of text, each on a line of its own. Gives the number of blank lines at the end. -/
def putLines (layout : Layout) (depth : Nat) : Nat → List Text → Page → Page × Nat
  | blanks, [], page => (page, blanks)
  | blanks, line :: rest, page =>
    match Text.trim line with
    | [] => putLines layout depth (blanks + 1) rest page
    | c :: text =>
      putLines layout depth 0 rest ((page.newline layout blanks depth).put (c :: text))

/-- Emits a piece of text behind what is on the line, unless it is empty. -/
def putBehind (page : Page) (text : Text) : Page :=
  if text.isEmpty then page else page.separate.put text

/-- Emits a piece of text and a space, unless it is empty. -/
def putBefore (page : Page) (text : Text) : Page :=
  if text.isEmpty then page else (page.put text).put [' ']

/-- Emits what lies before a leaf of a given depth. -/
def gap (layout : Layout) (depth : Nat) (between : Text) (page : Page) : Page :=
  match between.lines with
  | [] => page
  | [only] =>
    match Text.trim only with
    | [] => if between.isEmpty then page else page.separate
    | c :: text => (page.separate.put (c :: text)).put [' ']
  | first :: next :: rest =>
    let middle := (next :: rest).dropLast
    let last := (next :: rest).getLastD []
    let (filled, blanks) := (page.putBehind (Text.trim first)).putLines layout depth 0 middle
    (filled.newline layout blanks depth).putBefore (Text.trim last)

/-- Emits what lies behind the last leaf and ends the last line. -/
def trailer (layout : Layout) (behind : Text) (page : Page) : Page :=
  match behind.lines with
  | [] => page
  | first :: rest =>
    let (filled, _) := (page.putBehind (Text.trim first)).putLines layout 0 0 rest
    if filled.atLineStart then filled else filled.put ['\n']

def text (page : Page) : Text :=
  page.tokens.toList.flatten

end Page

/-- A tree being rendered. -/
structure Rendering where
  layout : Layout
  /-- The offset up to which the source has been emitted. -/
  offset : Nat
  /-- The source from there on. -/
  rest : Text
  /-- The leaves to come; nothing is left to do once what follows the last one is out. -/
  todo : Option (List Leaf)
  page : Page

namespace Rendering

def start (layout : Layout) (source : Text) (leaves : List Leaf) : Rendering :=
  ⟨layout, 0, source, some leaves, .blank⟩

/-- Emits the next gap and leaf, or what follows the last leaf. -/
def advance (r : Rendering) : Rendering :=
  match r.todo with
  | none => r
  | some [] => { r with todo := none, page := r.page.trailer r.layout r.rest }
  | some (leaf :: todo) =>
    let between := Text.takeBytes r.rest (leaf.start - r.offset)
    let rest := Text.dropBytes r.rest (leaf.start - r.offset)
    { r with
      offset := leaf.stop
      rest := Text.dropBytes rest (leaf.stop - leaf.start)
      todo := some todo
      page := (r.page.gap r.layout leaf.depth between).put
        (Text.takeBytes rest (leaf.stop - leaf.start)) }

def advanceBy : Nat → Rendering → Rendering
  | 0, r => r
  | n + 1, r => advanceBy n r.advance

end Rendering

namespace Layout

/-- The tokens of a valid tree over its source: one advance for each leaf and one for the rest. -/
def renderTree (layout : Layout) (source : Text) (root : Node) : List Text :=
  let leaves := Tree.leaves source root
  ((Rendering.start layout source leaves).advanceBy (leaves.length + 1)).page.tokens.toList

def decodeSource (source : Bytes) : Except FormatFailure Text :=
  match Utf8.decode source with
  | .ok text => .ok text
  | .error fault =>
    .error (.sourceRejected ("invalid UTF-8 at byte " ++ toString fault.validUpTo))

/-- The normal form of some source bytes. -/
def formatBytes (layout : Layout) (source : Bytes) : Except FormatFailure Bytes := do
  let text ← decodeSource source
  .ok (Utf8.encode (layout.normalize text))

/-- The tokens of a tree, in the order they are emitted. -/
def renderBytes (layout : Layout) (source tree : Bytes) : Except FormatFailure (List Bytes) := do
  let text ← decodeSource source
  let root ← Tree.decode text tree
  .ok ((layout.renderTree text root).map Utf8.encode)

end Layout

end FormatHost
