import FormatHost.Json.Scan

/-! # Reading records

A record is read from an object, whose members may stand in any order and among unknown ones, or
from a list of its fields in their own order. Faults of the whole record are reported where an
attempt to close it ends.
-/

namespace FormatHost.Json

/-- Reports that something else was wanted where the input, which is not at its end, goes on. -/
def unexpected {α : Type} (expected : String) (s : Bytes) : Except Fault α :=
  let wrong (found : Found) (rest : Bytes) : Except Fault α := here (.wrongType found expected) rest
  match s with
  | [] => peeked .endInValue []
  | b :: rest =>
    if b == byte 'n' then do wrong .null (← keyword (Utf8.ofString "ull") rest)
    else if b == byte 't' then do wrong (.boolean true) (← keyword (Utf8.ofString "rue") rest)
    else if b == byte 'f' then do wrong (.boolean false) (← keyword (Utf8.ofString "alse") rest)
    else if b == byte '-' then do
      let (n, rest) ← number false rest
      wrong n.found rest
    else if isDigit b then do
      let (n, rest) ← number true s
      wrong n.found rest
    else if b == byte '"' then do
      let (text, rest) ← string rest
      wrong (.string text) rest
    else if b == byte '[' then wrong .sequence s
    else if b == byte '\x7b' then wrong .map s
    else peeked .noValue s

def readString : Reader String := fun s =>
  match skipSpace s with
  | [] => peeked .endInValue []
  | b :: rest => if b == byte '"' then string rest else unexpected "a string" (b :: rest)

/-- Reads an offset: a natural number of at most 64 bits. -/
def readOffset : Reader Nat := fun s =>
  let accept (read : Except Fault (Number × Bytes)) : Except Fault (Nat × Bytes) := do
    let (n, rest) ← read
    match n with
    | .natural value => .ok (value, rest)
    | .negative _ => here (.wrongValue n.found "usize") rest
    | .float _ => here (.wrongType n.found "usize") rest
  match skipSpace s with
  | [] => peeked .endInValue []
  | b :: rest =>
    if b == byte '-' then accept (number false rest)
    else if isDigit b then accept (number true (b :: rest))
    else unexpected "usize" (b :: rest)

/-! ## Lists -/

/-- Goes to the next element of a list, if there is one. -/
def nextElement (first : Bool) (s : Bytes) : Except Fault (Option Bytes) :=
  match skipSpace s with
  | [] => peeked .endInList []
  | b :: rest =>
    if b == byte ']' then .ok none
    else if first then .ok (some (b :: rest))
    else if b == byte ',' then
      match skipSpace rest with
      | [] => peeked .endInValue []
      | c :: rest =>
        if c == byte ']' then peeked .commaAtEnd (c :: rest) else .ok (some (c :: rest))
    else peeked .noCommaOrBracket (b :: rest)

def closeList (s : Bytes) : Except Fault Bytes :=
  match skipSpace s with
  | [] => peeked .endInList []
  | b :: rest =>
    if b == byte ']' then .ok rest
    else if b == byte ',' then
      match skipSpace rest with
      | [] => peeked .trailing []
      | c :: rest => peeked (if c == byte ']' then .commaAtEnd else .trailing) (c :: rest)
    else peeked .trailing (b :: rest)

/-- Where an attempt to close a list ends. -/
def afterList (s : Bytes) : Bytes :=
  match skipSpace s with
  | [] => []
  | b :: rest =>
    if b == byte ']' then rest else if b == byte ',' then skipSpace rest else b :: rest

/-- One element of a list; those read before are in reverse order. -/
def elementStep {α : Type} (item : Reader α) (state : Bool × List α) (s : Bytes) :
    Except Fault (Next (Bool × List α) (List α) × Bytes) := do
  match ← nextElement state.1 s with
  | none => .ok (.done state.2.reverse, ← closeList s)
  | some s =>
    let (value, rest) ← item s
    .ok (.again (false, value :: state.2), rest)

/-- Reads a list, if `room` says that one more bracket may be opened. -/
def readList {α : Type} (room : Bool) (item : Reader α) : Reader (List α) := fun s =>
  match skipSpace s with
  | [] => peeked .endInValue []
  | b :: rest =>
    if b == byte '[' then
      if room then loop (elementStep item) (true, []) rest else peeked .tooDeep (b :: rest)
    else unexpected "a sequence" (b :: rest)

/-! ## Records -/

/-- A field of a record that is being read into a draft. -/
structure Slot (σ : Type) where
  name : String
  /-- Whether the draft has the field. -/
  filled : σ → Bool
  /-- Reads the field into the draft. -/
  read : σ → Reader σ

/-- How records of a kind are read. -/
structure Record (σ α : Type) where
  /-- What the record is called in messages. -/
  what : String
  /-- The draft without any field. -/
  blank : σ
  /-- The fields in their own order; those that may be absent come last. -/
  slots : List (Slot σ)
  /-- How many fields may not be absent. -/
  required : Nat
  /-- The record of a draft, or the name of the first field that it lacks. -/
  complete : σ → Except String α

/-- Where an attempt to close an object ends. -/
def afterObject (s : Bytes) : Bytes :=
  match skipSpace s with
  | [] => []
  | b :: rest => if b == byte '\x7d' then rest else b :: rest

/-- Goes behind the opening quote of the next key of an object, or behind its closing brace. -/
def nextKey (first : Bool) (s : Bytes) : Except Fault (Bool × Bytes) :=
  match skipSpace s with
  | [] => peeked .endInObject []
  | b :: rest =>
    if b == byte '\x7d' then .ok (false, rest)
    else if first then
      if b == byte '"' then .ok (true, rest) else peeked .keyNotString (b :: rest)
    else if b == byte ',' then
      match skipSpace rest with
      | [] => peeked .endInValue []
      | c :: rest =>
        if c == byte '"' then .ok (true, rest)
        else peeked (if c == byte '\x7d' then .commaAtEnd else .keyNotString) (c :: rest)
    else peeked .noCommaOrBrace (b :: rest)

/-- One member of an object. -/
def memberStep {σ : Type} (slots : List (Slot σ)) (state : Bool × σ) (s : Bytes) :
    Except Fault (Next (Bool × σ) σ × Bytes) := do
  let (more, rest) ← nextKey state.1 s
  if more then
    let (key, rest) ← string rest
    match slots.find? (·.name == key) with
    | none =>
      let rest ← colon rest
      .ok (.again (false, state.2), ← skipValue rest)
    | some slot =>
      if slot.filled state.2 then here (.duplicateField slot.name) (afterObject rest)
      else
        let rest ← colon rest
        let (draft, rest) ← slot.read state.2 rest
        .ok (.again (false, draft), rest)
  else .ok (.done state.2, rest)

/-- Reads fields in their own order, as many as there are, and counts them. -/
def readInOrder {σ : Type} :
    List (Slot σ) → Bool → Nat → σ → Bytes → Except Fault ((σ × Nat) × Bytes)
  | [], _, count, draft, s => .ok ((draft, count), s)
  | slot :: slots, first, count, draft, s => do
    match ← nextElement first s with
    | none => .ok ((draft, count), s)
    | some s =>
      let (draft, s) ← slot.read draft s
      readInOrder slots false (count + 1) draft s

/-- Reads a record from an object whose brace has been read. -/
def Record.readObject {σ α : Type} (record : Record σ α) : Reader α := fun s => do
  let (draft, rest) ← loop (memberStep record.slots) (true, record.blank) s
  match record.complete draft with
  | .ok value => .ok (value, rest)
  | .error field => here (.missingField field) rest

def Record.readFields {σ α : Type} (record : Record σ α) : Reader α := fun s => do
  let ((draft, count), rest) ← readInOrder record.slots true 0 record.blank s
  let wanted := record.what ++ " with " ++ toString record.slots.length ++ " elements"
  let short : Except Fault (α × Bytes) := here (.wrongLength count wanted) (afterList rest)
  if count < record.required then short
  else
    match record.complete draft with
    | .ok value => .ok (value, ← closeList rest)
    | .error _ => short

/-- Reads a record, if `room` says that one more bracket may be opened. -/
def Record.read {σ α : Type} (record : Record σ α) (room : Bool) : Reader α := fun s =>
  match skipSpace s with
  | [] => peeked .endInValue []
  | b :: rest =>
    if b == byte '\x7b' then
      if room then record.readObject rest else peeked .tooDeep (b :: rest)
    else if b == byte '[' then
      if room then record.readFields rest else peeked .tooDeep (b :: rest)
    else unexpected record.what (b :: rest)

/-- Reads a whole text: nothing but space may follow the value. -/
def readWhole {α : Type} (reader : Reader α) (text : Bytes) : Except Fault α := do
  let (value, rest) ← reader text
  match skipSpace rest with
  | [] => .ok value
  | b :: rest => peeked .trailing (b :: rest)

/-- How many brackets may be open at once. -/
def maxDepth : Nat := 127

end FormatHost.Json
