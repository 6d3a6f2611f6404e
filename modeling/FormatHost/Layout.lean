import FormatHost.Text.Blank

/-! # Layout of whole texts

A layout says how wide an indentation level is and how many blank lines may follow one another.
Normalising a text trims its lines at the end, writes leading tabs as spaces, shortens runs of
blank lines and drops those at both ends. Every line left is ended by a line feed.
-/

namespace FormatHost

/-- How texts are laid out. -/
structure Layout where
  /-- Spaces per indentation level. -/
  indentWidth : Nat
  /-- The longest run of blank lines that is kept. -/
  maxBlankLines : Nat
deriving DecidableEq, Inhabited

namespace Layout

def standard : Layout := ⟨2, 1⟩

def widestIndent : Nat := 16

/-- How many spaces a depth is indented by. The product is kept in a word of 64 bits. -/
def indentation (layout : Layout) (depth : Nat) : Nat :=
  layout.indentWidth * depth % Nat.pow 2 64

/-- A product that fits in a word is the indentation. -/
theorem indentation_of_lt {layout : Layout} {depth : Nat}
    (fits : layout.indentWidth * depth < Nat.pow 2 64) :
    layout.indentation depth = layout.indentWidth * depth :=
  Nat.mod_eq_of_lt fits

/-- Blanks that count as indentation at the front of a line. -/
def isIndent (c : Char) : Bool :=
  c == ' ' || c == '\t'

/-- What a character of the indentation is written as. -/
def expandIndent (layout : Layout) (c : Char) : Text :=
  if c = '\t' then List.replicate layout.indentWidth ' ' else [' ']

/-- A line with the tabs of its indentation written as spaces. -/
def expandTabs (layout : Layout) (line : Text) : Text :=
  (line.takeWhile isIndent).flatMap layout.expandIndent ++ line.dropWhile isIndent

/-- The lines that are kept, in order. `blanks` is the number of blank lines since the last line
with text, and `none` as long as there was no such line. -/
def keepLines (layout : Layout) : Option Nat → List Text → List Text
  | _, [] => []
  | blanks, line :: rest =>
    match Text.trimEnd line with
    | [] => keepLines layout (blanks.map (· + 1)) rest
    | c :: body =>
      List.replicate (min (blanks.getD 0) layout.maxBlankLines) [] ++
        layout.expandTabs (c :: body) :: keepLines layout (some 0) rest

def joinLines (lines : List Text) : Text :=
  lines.flatMap (· ++ ['\n'])

def normalize (layout : Layout) (source : Text) : Text :=
  joinLines (layout.keepLines none source.lines)

@[simp] theorem joinLines_nil : joinLines [] = [] := rfl

@[simp] theorem joinLines_cons (line : Text) (rest : List Text) :
    joinLines (line :: rest) = line ++ '\n' :: joinLines rest := by
  simp [joinLines]

@[simp] theorem joinLines_append (a b : List Text) :
    joinLines (a ++ b) = joinLines a ++ joinLines b := by
  simp [joinLines]

end Layout

end FormatHost
