import FormatHost.Fault
import FormatHost.Text.Utf8

/-! # Buffers handed in from outside

A buffer is a pointer and a declared length. It can be read unless the length is negative or the
pointer is null although the length is not zero. Results go the other way: bytes that the host
owns, or bytes that a foreign engine keeps until they are released.
-/

namespace FormatHost

/-- A pointer, null or to some bytes, with the length that its owner declares. -/
structure Buffer where
  data : Option Bytes
  length : Int
deriving DecidableEq

namespace Buffer

def ofBytes (bytes : Bytes) : Buffer :=
  ⟨some bytes, bytes.length⟩

def null : Buffer :=
  ⟨none, 0⟩

def isNull (buffer : Buffer) : Bool :=
  buffer.data.isNone

/-- The bytes of a buffer, if it can be read. -/
def read (buffer : Buffer) : Except HostError Bytes :=
  if buffer.length < 0 then .error (.badArgument "negative buffer length")
  else
    match buffer.data with
    | some bytes => .ok (bytes.take buffer.length.toNat)
    | none =>
      if buffer.length = 0 then .ok []
      else .error (.badArgument "null buffer with non-zero length")

/-- The bytes of a buffer, none if it cannot be read. -/
def bytes (buffer : Buffer) : Bytes :=
  match buffer.read with
  | .ok bytes => bytes
  | .error _ => []

/-- A buffer of bytes reads as those bytes. -/
@[simp] theorem read_ofBytes (bytes : Bytes) : (ofBytes bytes).read = .ok bytes := by
  simp [ofBytes, read]

end Buffer

/-- The bytes that an engine made of an input. -/
structure Result where
  bytes : Bytes
  /-- Whether a foreign engine keeps the bytes. -/
  foreign : Bool
deriving DecidableEq

namespace Result

/-- A result that the host owns. -/
def owned (bytes : Bytes) : Result :=
  ⟨bytes, false⟩

def describe (result : Result) : String :=
  "ResultBuffer \x7b len: " ++ toString result.bytes.length ++ ", foreign: " ++
    (if result.foreign then "true" else "false") ++ " \x7d"

end Result

/-- A token in words; bytes that are no text are shown as replacement characters. -/
def Token.describe (token : Bytes) : String :=
  "Token(" ++ String.ofList (Text.quoted (Utf8.decodeLossy token)) ++ ")"

end FormatHost
