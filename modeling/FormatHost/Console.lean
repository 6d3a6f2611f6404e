import FormatHost.Fault
import FormatHost.Text.Utf8

/-! # Standard output

What is printed appears on the console at once. A console that is full takes nothing; text without
a line feed is then still accepted as long as it fits in the line being held back, and only
flushing shows that it cannot go anywhere. A console is full from the beginning or never: one that
fills up while something is printed, and keeps a part of it, is not described here.
-/

namespace FormatHost

/-- Standard output. -/
structure Console where
  /-- What has appeared. -/
  written : Bytes
  /-- Whether nothing more can appear. -/
  full : Bool
  /-- How many bytes are held back on a full console. -/
  held : Nat
  /-- Whether a text that had to be shown could not be printed. This ends the program. -/
  lost : Bool
deriving DecidableEq

namespace Console

/-- A console on which nothing has appeared yet. -/
def clear : Console := ⟨[], false, 0, false⟩

/-- A console on which nothing can appear. -/
def blocked : Console := ⟨[], true, 0, false⟩

/-- The longest line that is held back. -/
def lineCapacity : Nat := 1024

def canHold (console : Console) (bytes : Bytes) : Bool :=
  !bytes.contains 0x0A && bytes.length < lineCapacity &&
    console.held + bytes.length ≤ lineCapacity

def print (console : Console) (bytes : Bytes) : Except IoFault Console :=
  if !console.full then .ok { console with written := console.written ++ bytes }
  else if console.canHold bytes then .ok { console with held := console.held + bytes.length }
  else .error (.os .noSpace)

/-- Makes sure that everything printed has appeared. -/
def flush (console : Console) : Except IoFault Unit :=
  if console.held = 0 then .ok () else .error (.os .noSpace)

/-- Shows a text that must not get lost. -/
def display (console : Console) (text : String) : Console :=
  match console.print (Utf8.ofString text) with
  | .ok console => console
  | .error _ => { console with lost := true }

/-- Shows a text, as far as it can appear. -/
def offer (console : Console) (text : String) : Console :=
  match console.print (Utf8.ofString text) with
  | .ok console => console
  | .error _ => console

/-- The exit code of a program that ends because a text is lost. -/
def lostCode : Nat := 101

@[simp] theorem print_of_not_full {console : Console} (room : console.full = false)
    (bytes : Bytes) :
    console.print bytes = .ok { console with written := console.written ++ bytes } := by
  simp [print, room]

end Console

end FormatHost
