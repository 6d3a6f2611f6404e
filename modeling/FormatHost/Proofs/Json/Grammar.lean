import FormatHost.Json.Scan
import Mathlib.Data.Nat.Notation

/-! # JSON texts

The grammar of JSON, as relations between what is meant and the bytes it is written in. Nothing
here refers to a reader: insignificant space, strings with the freedom to escape, numbers, lists of
items between brackets, and values of any depth. A string that is only skipped may hold escaped
surrogates that pair with nothing; one that is read stands for characters.
-/

namespace FormatHost.Json

/-- Insignificant space: blanks, tabs, line feeds and carriage returns. -/
def IsSpacing (space : Bytes) : Prop :=
  ∀ b ∈ space, b = byte ' ' ∨ b = byte '\n' ∨ b = byte '\t' ∨ b = byte '\r'

/-- The bytes after a value: none, or first one that no value goes on with. -/
def Follows (rest : Bytes) : Prop :=
  ∀ b ∈ rest.head?, IsSpacing [b] ∨ b = byte ',' ∨ b = byte ']' ∨ b = byte '\x7d'

/-! ## Strings -/

def IsHexDigit (value : ℕ) (b : UInt8) : Prop :=
  value < 10 ∧ b.toNat = 48 + value ∨
    10 ≤ value ∧ value < 16 ∧ (b.toNat = 87 + value ∨ b.toNat = 55 + value)

inductive IsHexFour : ℕ → Bytes → Prop
  | digits {a b c d : ℕ} {w x y z : UInt8} (first : IsHexDigit a w) (second : IsHexDigit b x)
      (third : IsHexDigit c y) (fourth : IsHexDigit d z) :
      IsHexFour (((a * 16 + b) * 16 + c) * 16 + d) [w, x, y, z]

/-- The letters that may follow a backslash, with the characters they stand for. -/
def shortEscapes : List (Char × Char) :=
  [('"', '"'), ('\\', '\\'), ('/', '/'), ('b', '\x08'), ('f', '\x0c'), ('n', '\n'), ('r', '\r'),
    ('t', '\t')]

/-- Characters that may stand for themselves: all but controls, quotes and backslashes. -/
def IsPlain (c : Char) : Prop :=
  0x20 ≤ c.toNat ∧ c ≠ '"' ∧ c ≠ '\\'

instance : DecidablePred IsPlain := fun _ => inferInstanceAs (Decidable (_ ∧ _ ∧ _))

/-- The ways to write a character in a string. -/
inductive SpellsChar : Char → Bytes → Prop
  | plain {c : Char} (plain : IsPlain c) : SpellsChar c (String.utf8EncodeChar c)
  | short {letter c : Char} (stands : (letter, c) ∈ shortEscapes) :
      SpellsChar c [byte '\\', byte letter]
  | code {c : Char} {digits : Bytes} (code : IsHexFour c.toNat digits) :
      SpellsChar c (byte '\\' :: byte 'u' :: digits)
  | pair {c : Char} {leading trailing : ℕ} {first second : Bytes}
      (leads : 0xD800 ≤ leading ∧ leading ≤ 0xDBFF) (trails : 0xDC00 ≤ trailing ∧ trailing ≤ 0xDFFF)
      (value : c.toNat = 0x10000 + (leading - 0xD800) * 0x400 + (trailing - 0xDC00))
      (high : IsHexFour leading first) (low : IsHexFour trailing second) :
      SpellsChar c (byte '\\' :: byte 'u' :: (first ++ byte '\\' :: byte 'u' :: second))

/-- The ways to write the characters of a text between quotes. -/
inductive Spells : Text → Bytes → Prop
  | nil : Spells [] []
  | cons {c : Char} {s : Text} {front rest : Bytes} (first : SpellsChar c front)
      (others : Spells s rest) : Spells (c :: s) (front ++ rest)

/-- What may stand between the quotes of a string, whether or not it stands for characters. -/
inductive IsContent : Bytes → Prop
  | nil : IsContent []
  | plain {c : Char} {rest : Bytes} (plain : IsPlain c) (others : IsContent rest) :
      IsContent (String.utf8EncodeChar c ++ rest)
  | short {letter c : Char} {rest : Bytes} (stands : (letter, c) ∈ shortEscapes)
      (others : IsContent rest) : IsContent (byte '\\' :: byte letter :: rest)
  | code {code : ℕ} {digits rest : Bytes} (code : IsHexFour code digits)
      (others : IsContent rest) : IsContent (byte '\\' :: byte 'u' :: (digits ++ rest))

def quoted (content : Bytes) : Bytes :=
  byte '"' :: (content ++ [byte '"'])

/-! ## Numbers -/

def AreDigits (digits : Bytes) : Prop :=
  digits ≠ [] ∧ ∀ b ∈ digits, 48 ≤ b.toNat ∧ b.toNat ≤ 57

/-- The digits before the point: a zero, or digits that do not start with one. -/
def IsInteger (digits : Bytes) : Prop :=
  AreDigits digits ∧ (digits.head? = some (byte '0') → digits = [byte '0'])

/-- A point and digits, or nothing. -/
inductive IsFraction : Bytes → Prop
  | none : IsFraction []
  | digits {digits : Bytes} (run : AreDigits digits) : IsFraction (byte '.' :: digits)

/-- An exponent, with or without a sign, or nothing. -/
inductive IsExponent : Bytes → Prop
  | none : IsExponent []
  | unsigned {mark : UInt8} {digits : Bytes} (marked : mark = byte 'e' ∨ mark = byte 'E')
      (run : AreDigits digits) : IsExponent (mark :: digits)
  | signed {mark sign : UInt8} {digits : Bytes} (marked : mark = byte 'e' ∨ mark = byte 'E')
      (signed : sign = byte '+' ∨ sign = byte '-') (run : AreDigits digits) :
      IsExponent (mark :: sign :: digits)

/-- A number without its sign. -/
inductive IsMagnitude : Bytes → Prop
  | parts {digits fraction exponent : Bytes} (integer : IsInteger digits)
      (fractional : IsFraction fraction) (scaled : IsExponent exponent) :
      IsMagnitude (digits ++ (fraction ++ exponent))

/-! ## Lists and values -/

/-- Items with commas between them and space around each. -/
inductive Listed : List Bytes → Bytes → Prop
  | none {space : Bytes} (blank : IsSpacing space) : Listed [] space
  | one {item front back : Bytes} (before : IsSpacing front) (after : IsSpacing back) :
      Listed [item] (front ++ (item ++ back))
  | more {item next front back rest : Bytes} {items : List Bytes} (before : IsSpacing front)
      (after : IsSpacing back) (others : Listed (next :: items) rest) :
      Listed (item :: next :: items) (front ++ (item ++ (back ++ byte ',' :: rest)))

def square (content : Bytes) : Bytes :=
  byte '[' :: (content ++ [byte ']'])

def curly (content : Bytes) : Bytes :=
  byte '\x7b' :: (content ++ [byte '\x7d'])

/-- A member of an object in its parts: what is between the quotes of its key, the space on both
sides of the colon, and its value. -/
structure ObjectEntry where
  key : Bytes
  front : Bytes
  back : Bytes
  value : Bytes

def ObjectEntry.text (entry : ObjectEntry) : Bytes :=
  quoted entry.key ++ (entry.front ++ byte ':' :: (entry.back ++ entry.value))

def literals : List String :=
  ["null", "true", "false"]

/-- JSON values, nested to any depth. -/
inductive IsValue : Bytes → Prop
  | literal {word : String} (listed : word ∈ literals) : IsValue (Utf8.ofString word)
  | positive {digits : Bytes} (magnitude : IsMagnitude digits) : IsValue digits
  | negative {digits : Bytes} (magnitude : IsMagnitude digits) : IsValue (byte '-' :: digits)
  | string {content : Bytes} (characters : IsContent content) : IsValue (quoted content)
  | list {items : List Bytes} {content : Bytes} (listed : Listed items content)
      (each : ∀ item ∈ items, IsValue item) : IsValue (square content)
  | object {entries : List ObjectEntry} {content : Bytes}
      (listed : Listed (entries.map ObjectEntry.text) content)
      (keys : ∀ entry ∈ entries, IsContent entry.key)
      (spaces : ∀ entry ∈ entries, IsSpacing entry.front ∧ IsSpacing entry.back)
      (each : ∀ entry ∈ entries, IsValue entry.value) : IsValue (curly content)

end FormatHost.Json
