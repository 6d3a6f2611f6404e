import FormatHost.Text.Utf8

/-! # Byte offsets in a text

Spans of a source are given in bytes of its UTF-8 form. The functions here measure a list of
characters in those bytes; an offset inside a character is no boundary, and cutting there takes
the characters that lie wholly before it.
-/

namespace FormatHost.Text

def byteLength : Text → Nat
  | [] => 0
  | c :: rest => c.utf8Size + byteLength rest

/-- Whether an offset lies between two characters, or at an end, of a text. -/
def isBoundary : Text → Nat → Bool
  | _, 0 => true
  | [], _ + 1 => false
  | c :: rest, n + 1 => c.utf8Size ≤ n + 1 && isBoundary rest (n + 1 - c.utf8Size)

/-- The characters that lie wholly within the first `n` bytes. -/
def takeBytes : Text → Nat → Text
  | [], _ => []
  | c :: rest, n => if c.utf8Size ≤ n then c :: takeBytes rest (n - c.utf8Size) else []

/-- The characters after those that lie wholly within the first `n` bytes. -/
def dropBytes : Text → Nat → Text
  | [], _ => []
  | c :: rest, n => if c.utf8Size ≤ n then dropBytes rest (n - c.utf8Size) else c :: rest

/-- How many line feeds start before an offset. -/
def lineOf : Text → Nat → Nat
  | _, 0 => 0
  | [], _ + 1 => 0
  | c :: rest, n + 1 => (if c = '\n' then 1 else 0) + lineOf rest (n + 1 - c.utf8Size)

@[simp] theorem byteLength_nil : byteLength [] = 0 := rfl

@[simp] theorem byteLength_cons (c : Char) (s : Text) :
    byteLength (c :: s) = c.utf8Size + byteLength s := rfl

@[simp] theorem byteLength_append (s t : Text) :
    byteLength (s ++ t) = byteLength s + byteLength t := by
  induction s with
  | nil => simp
  | cons c rest ih => simp [ih, Nat.add_assoc]

/-- Cutting loses nothing. -/
theorem takeBytes_append_dropBytes (s : Text) (n : Nat) : takeBytes s n ++ dropBytes s n = s := by
  induction s generalizing n with
  | nil => rfl
  | cons c rest ih =>
    simp only [takeBytes, dropBytes]
    split
    · simp [ih]
    · simp

end FormatHost.Text
