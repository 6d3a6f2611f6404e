import FormatHost.Fault
import FormatHost.Text.Utf8

/-! # Lines of files

A line ends with a line feed, or with a carriage return and a line feed. What comes after the last
line feed is a line as well, unless it is empty. Every line is decoded by itself, so one that is
no text leaves those before it readable.
-/

namespace FormatHost.Lines

/-- The pieces between the line feeds: one more than there are line feeds. -/
def pieces (s : Bytes) : List Bytes :=
  s.foldr (fun b pieces =>
    match pieces with
    | [] => [[b]]
    | piece :: rest => if b = 0x0A then [] :: piece :: rest else (b :: piece) :: rest) [[]]

/-- A line without a carriage return at its end. -/
def dropReturn (line : Bytes) : Bytes :=
  if line.getLast? == some 0x0D then line.dropLast else line

/-- The lines of some bytes, without what ends them. -/
def ofBytes (s : Bytes) : List Bytes :=
  match (pieces s).reverse with
  | [] => []
  | last :: ended =>
    (ended.map dropReturn).reverse ++ (if last.isEmpty then [] else [last])

def decode (line : Bytes) : Except IoFault Text :=
  match Utf8.decode line with
  | .ok text => .ok text
  | .error _ => .error .notText

def first? (s : Bytes) : Option (Except IoFault Text) :=
  (ofBytes s).head?.map decode

end FormatHost.Lines
