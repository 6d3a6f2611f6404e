import FormatHost.Text.Utf8

/-! # Header comments

A source can say near its top whether it wants to be formatted: a line starts with a hash mark,
then come the key, a colon and `true` or `false`. Blanks, line feeds among them, may stand before
the key and around the value. The first such comment counts.
-/

namespace FormatHost

/-- Which header comments are obeyed. -/
structure HeaderPolicy where
  /-- Only sources that ask for it are formatted. -/
  optIn : Bool
  /-- Sources that refuse it are not formatted. -/
  optOut : Bool
deriving DecidableEq

namespace Header

def windowSize : Nat := 500

/-- The characters that start within the first `n` bytes. -/
def window : Text → Nat → Text
  | [], _ => []
  | _ :: _, 0 => []
  | c :: rest, n + 1 => c :: window rest (n + 1 - c.utf8Size)

/-- What follows a word at the front of a text. -/
def after? (word text : Text) : Option Text :=
  if word.isPrefixOf text then some (text.drop word.length) else none

/-- Whether only blanks follow up to the end of some line. -/
def lineMayEnd (text : Text) : Bool :=
  (text.dropWhile Text.isBlank).isEmpty || (text.takeWhile Text.isBlank).contains '\n'

/-- The value at the front of a text, if its line can end behind it. -/
def value? (text : Text) : Option Bool :=
  match after? "true".toList text, after? "false".toList text with
  | some rest, _ => if lineMayEnd rest then some true else none
  | none, some rest => if lineMayEnd rest then some false else none
  | none, none => none

/-- The value of the comment at the front of a text. -/
def commentAt? (text : Text) : Option Bool := do
  let rest ← after? ['#'] text
  let rest ← after? "fmtb:".toList (Text.trimStart rest)
  value? (Text.trimStart rest)

/-- The value of the first comment that starts a line. -/
def search (atLineStart : Bool) : Text → Option Bool
  | [] => none
  | c :: rest =>
    match (if atLineStart then commentAt? (c :: rest) else none) with
    | some value => some value
    | none => search (c == '\n') rest

def find? (source : Text) : Option Bool :=
  search true (window source windowSize)

end Header

namespace HeaderPolicy

def allowsText (policy : HeaderPolicy) (source : Text) : Bool :=
  if !policy.optIn && !policy.optOut then true
  else (Header.find? source).getD (!policy.optIn)

/-- Whether a source is to be formatted. Bytes that are no text have no header. -/
def allows (policy : HeaderPolicy) (source : Bytes) : Bool :=
  match Utf8.decode source with
  | .ok text => policy.allowsText text
  | .error _ => !policy.optIn

end HeaderPolicy

end FormatHost
