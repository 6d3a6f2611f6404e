import FormatHost.Text.Blank

/-! # UTF-8

Bytes are read by a small machine that holds the character it is inside of. Its output is a list
of pieces: a character, or a run of bytes that can be no part of one. Decoding, the length of
the valid part and the lossy reading are three views of those pieces.
-/

namespace FormatHost

abbrev Bytes := List UInt8

namespace Utf8

def encode (s : Text) : Bytes :=
  s.flatMap String.utf8EncodeChar

def ofString (s : String) : Bytes :=
  encode s.toList

/-- A character whose first bytes have been read. -/
structure Partial where
  /-- The bits collected so far. -/
  code : Nat
  /-- How many bytes have been read. -/
  taken : Nat
  /-- How many bytes are still to come. -/
  missing : Nat
  /-- The least value allowed for the next byte. -/
  low : UInt8
  /-- The greatest value allowed for the next byte. -/
  high : UInt8
deriving DecidableEq

/-- What a leading byte above 127 announces, if it can lead at all. The bounds on the second byte
exclude overlong forms, surrogates and code points above U+10FFFF. -/
def lead (b : UInt8) : Option Partial :=
  let n := b.toNat
  if 0xC2 ≤ n ∧ n ≤ 0xDF then some ⟨n - 0xC0, 1, 1, 0x80, 0xBF⟩
  else if n = 0xE0 then some ⟨0, 1, 2, 0xA0, 0xBF⟩
  else if n = 0xED then some ⟨0xD, 1, 2, 0x80, 0x9F⟩
  else if 0xE1 ≤ n ∧ n ≤ 0xEF then some ⟨n - 0xE0, 1, 2, 0x80, 0xBF⟩
  else if n = 0xF0 then some ⟨0, 1, 3, 0x90, 0xBF⟩
  else if 0xF1 ≤ n ∧ n ≤ 0xF3 then some ⟨n - 0xF0, 1, 3, 0x80, 0xBF⟩
  else if n = 0xF4 then some ⟨4, 1, 3, 0x80, 0x8F⟩
  else none

/-- The partial character after one more byte. -/
def Partial.push (p : Partial) (b : UInt8) : Partial :=
  ⟨p.code * 64 + (b.toNat - 0x80), p.taken + 1, p.missing - 1, 0x80, 0xBF⟩

def Partial.accepts (p : Partial) (b : UInt8) : Bool :=
  p.low ≤ b && b ≤ p.high

/-- A stretch of bytes: a character, a run that can be no part of one, or a character cut off by
the end of the bytes. -/
inductive Piece where
  | char (c : Char) (width : Nat)
  | invalid (width : Nat)
  | cut (width : Nat)
deriving DecidableEq

/-- Reads a byte outside of any character. -/
def enter (b : UInt8) : List Piece × Option Partial :=
  if b < 0x80 then ([.char (Char.ofNat b.toNat) 1], none)
  else
    match lead b with
    | none => ([.invalid 1], none)
    | some p => ([], some p)

/-- Reads one byte. A byte that cannot continue the open character ends it as invalid and is then
read afresh. -/
def step (held : Option Partial) (b : UInt8) : List Piece × Option Partial :=
  match held with
  | none => enter b
  | some p =>
    if p.accepts b then
      if p.missing = 1 then ([.char (Char.ofNat (p.push b).code) (p.taken + 1)], none)
      else ([], some (p.push b))
    else
      let (pieces, next) := enter b
      (.invalid p.taken :: pieces, next)

/-- The pieces of the bytes that follow, given the character that is open. -/
def piecesFrom : Option Partial → Bytes → List Piece
  | none, [] => []
  | some p, [] => [.cut p.taken]
  | held, b :: rest => (step held b).1 ++ piecesFrom (step held b).2 rest

def pieces (s : Bytes) : List Piece :=
  piecesFrom none s

/-- Where and how bytes stop being UTF-8. -/
structure Fault where
  /-- The length of the valid part. -/
  validUpTo : Nat
  /-- The length of the faulty run, unless the bytes end inside a character. -/
  length : Option Nat
deriving DecidableEq

/-- The reason given for bytes that are not UTF-8. -/
def Fault.message (f : Fault) : String :=
  match f.length with
  | some n => s!"invalid utf-8 sequence of {n} bytes from index {f.validUpTo}"
  | none => s!"incomplete utf-8 byte sequence from index {f.validUpTo}"

/-- The first fault among pieces that start at an offset. -/
def faultFrom : Nat → List Piece → Option Fault
  | _, [] => none
  | offset, .char _ w :: rest => faultFrom (offset + w) rest
  | offset, .invalid w :: _ => some ⟨offset, some w⟩
  | offset, .cut _ :: _ => some ⟨offset, none⟩

/-- The character a piece stands for when faults are replaced by U+FFFD. -/
def Piece.lossy : Piece → Char
  | .char c _ => c
  | .invalid _ => '\uFFFD'
  | .cut _ => '\uFFFD'

/-- The text of some bytes, or the first fault in them. -/
def decode (s : Bytes) : Except Fault Text :=
  match faultFrom 0 (pieces s) with
  | some fault => .error fault
  | none => .ok ((pieces s).map Piece.lossy)

/-- The text of some bytes, each faulty run replaced by U+FFFD. -/
def decodeLossy (s : Bytes) : Text :=
  (pieces s).map Piece.lossy

def toString? (s : Bytes) : Option String :=
  match decode s with
  | .ok text => some (String.ofList text)
  | .error _ => none

@[simp] theorem encode_nil : encode [] = [] := rfl

@[simp] theorem encode_cons (c : Char) (s : Text) :
    encode (c :: s) = String.utf8EncodeChar c ++ encode s := rfl

@[simp] theorem encode_append (s t : Text) : encode (s ++ t) = encode s ++ encode t := by
  simp [encode]

end Utf8

end FormatHost
