import FormatHost.Toml.Scan

/-! # TOML documents

A document is a sequence of lines: headers that open tables, and keys with their values. It is
well formed if every line can be read and no table or key is defined twice.
-/

namespace FormatHost.Toml

/-- Reads a value that starts with none of the brackets. -/
def scalar : Reader Value
  | 't' :: 'r' :: 'u' :: 'e' :: rest => some (.boolean true, rest)
  | 'f' :: 'a' :: 'l' :: 's' :: 'e' :: rest => some (.boolean false, rest)
  | s =>
    match string s, moment s, float s, integer s with
    | some (text, rest), _, _, _ => some (.string text, rest)
    | none, some rest, _, _ => some (.moment, rest)
    | none, none, some (_, rest), _ => some (.float, rest)
    | none, none, none, some (n, rest) => some (.integer n, rest)
    | none, none, none, none => none

def arrayItems (item : Reader Value) : Reader (List Value) :=
  loop (fun (read : List Value) s => do
    match ← skipLines false s with
    | ']' :: rest => some (.inr read.reverse, rest)
    | s =>
      let (value, rest) ← item s
      match ← skipLines false rest with
      | ',' :: rest => some (.inl (value :: read), rest)
      | ']' :: rest => some (.inr (value :: read).reverse, rest)
      | _ => none) []

def member (item : Reader Value) : Reader ((List String × String) × Value) := fun s => do
  let (name, rest) ← key s
  let (value, rest) ← item (skipSpace (← mark '=' (skipSpace rest)))
  some ((name, value), rest)

/-- Reads the members of a table in braces, behind the opening one. They stand on one line, and
only a member follows a comma. -/
def inlineMembers (item : Reader Value) : Reader Members := fun s =>
  match skipSpace s with
  | '\x7d' :: rest => some ([], rest)
  | s =>
    loop (fun (read : Members) s => do
      let (((path, name), value), rest) ← member item s
      let read ← Members.assign read path name value
      match skipSpace rest with
      | ',' :: rest => some (.inl read, rest)
      | '\x7d' :: rest => some (.inr read, rest)
      | _ => none) [] s

/-- Reads a value when so many brackets may still be opened. -/
def value : Nat → Reader Value
  | 0, s =>
    match s with
    | '[' :: _ => none
    | '\x7b' :: _ => none
    | s => scalar s
  | levels + 1, s =>
    match s with
    | '[' :: rest => do
      let (items, rest) ← arrayItems (value levels) rest
      some (.array items, rest)
    | '\x7b' :: rest => do
      let (members, rest) ← inlineMembers (value levels) rest
      some (.table .inline members, rest)
    | s => scalar s

inductive Line where
  | openTable (path : List String) (key : String)
  | openNext (path : List String) (key : String)
  | assign (path : List String) (key : String) (value : Value)

def line : Reader Line
  | '[' :: '[' :: rest => do
    let ((path, name), rest) ← key rest
    let rest ← endLine? (← mark ']' (← mark ']' (skipSpace rest)))
    some (.openNext path name, rest)
  | '[' :: rest => do
    let ((path, name), rest) ← key rest
    let rest ← endLine? (← mark ']' (skipSpace rest))
    some (.openTable path name, rest)
  | s => do
    let (((path, name), v), rest) ← member (value (depthLimit - 1)) s
    some (.assign path name v, ← endLine? rest)

def lines : Reader (List Line) :=
  loop (fun (read : List Line) s =>
    match skipSpace s with
    | [] => some (.inr read.reverse, [])
    | s =>
      match endLine? s with
      | some rest => some (.inl read, rest)
      | none => do
        let (next, rest) ← line s
        some (.inl (next :: read), rest)) []

structure Draft where
  /-- The table that the last header opened. -/
  opened : List String
  members : Members

def Draft.add (draft : Draft) : Line → Option Draft
  | .openTable path name => do
    some ⟨path ++ [name], ← Members.openTable draft.members path name⟩
  | .openNext path name => do
    some ⟨path ++ [name], ← Members.openNext draft.members path name⟩
  | .assign path name v => do
    some { draft with members := ← Members.assignBelow draft.members draft.opened path name v }

/-- The members of the document written in a text. A byte order mark in front means nothing. -/
def parse (text : Text) : Option Members := do
  let text :=
    match text with
    | '\uFEFF' :: rest => rest
    | text => text
  let (lines, _) ← lines text
  let draft ← lines.foldlM Draft.add ⟨[], []⟩
  some draft.members

end FormatHost.Toml
