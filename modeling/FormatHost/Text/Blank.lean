/-! # Texts, blank characters and lines

A text is the list of its characters. Blank characters are those with the Unicode property
White_Space; lines are what lies between line feeds, so a text has one line more than it has
line feeds.
-/

namespace FormatHost

/-- Texts are handled as lists of characters, so that every rule is a rule about lists. -/
abbrev Text := List Char

namespace Text

/-- The characters with the property White_Space. Zero-width characters and the separators
U+001C to U+001F are not among them. -/
def isBlank (c : Char) : Bool :=
  let n := c.toNat
  (0x09 ≤ n && n ≤ 0x0D) || n == 0x20 || n == 0x85 || n == 0xA0 || n == 0x1680 ||
    (0x2000 ≤ n && n ≤ 0x200A) || n == 0x2028 || n == 0x2029 || n == 0x202F ||
    n == 0x205F || n == 0x3000

def trimStart (s : Text) : Text :=
  s.dropWhile isBlank

def trimEnd (s : Text) : Text :=
  (s.reverse.dropWhile isBlank).reverse

def trim (s : Text) : Text :=
  trimEnd (trimStart s)

/-- The pieces between the occurrences of a separator: one more than there are separators. -/
def splitOn (separator : Char) (s : Text) : List Text :=
  s.foldr (fun c pieces =>
    match pieces with
    | [] => [[c]]
    | piece :: rest => if c = separator then [] :: piece :: rest else (c :: piece) :: rest) [[]]

/-- The lines of a text, without their line feeds. -/
def lines (s : Text) : List Text :=
  splitOn '\n' s

def endsLine (s : Text) : Bool :=
  s.getLast? == some '\n'

@[simp] theorem trimStart_nil : trimStart [] = [] := rfl

@[simp] theorem trimEnd_nil : trimEnd [] = [] := rfl

@[simp] theorem splitOn_nil (separator : Char) : splitOn separator [] = [[]] := rfl

/-- Splitting never gives an empty list of pieces. -/
theorem splitOn_ne_nil (separator : Char) (s : Text) : splitOn separator s ≠ [] := by
  cases s with
  | nil => simp
  | cons c rest =>
    simp only [splitOn, List.foldr_cons]
    split
    · simp
    · split <;> simp

end Text

end FormatHost
