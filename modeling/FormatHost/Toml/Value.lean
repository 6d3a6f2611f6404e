/-! # TOML values and tables

A table remembers how it came to be, because that decides how it may be extended: by a header of
its own once if only longer headers have named it so far, by dotted keys if dotted keys made it,
and not at all if it was written in braces.
-/

namespace FormatHost.Toml

/-- How a table came to be. -/
inductive Origin where
  /-- It has a header of its own. -/
  | header
  /-- Only headers of tables below it have named it. -/
  | implied
  /-- Dotted keys made it. -/
  | dotted
  /-- It was written in braces. -/
  | inline
deriving DecidableEq

/-- A value. Of floating-point numbers, dates and times it is only known that they are some. -/
inductive Value where
  | string (text : String)
  | integer (n : Int)
  | float
  | boolean (b : Bool)
  | moment
  | array (items : List Value)
  | table (origin : Origin) (members : List (String × Value))
  /-- Tables with a common header, each one a list of members. -/
  | tables (elements : List (List (String × Value)))
deriving Inhabited

abbrev Members := List (String × Value)

namespace Members

/-- Replaces the value of a key that is present. -/
def set (members : Members) (key : String) (value : Value) : Members :=
  members.map fun m => if m.1 == key then (key, value) else m

/-- Changes the members of the table at the end of a path. Tables that are missing on the way are
made; the last of several tables with a common header stands for all of them. -/
def alter (dotted : Bool) (change : Origin → Members → Option Members) :
    List String → Origin → Members → Option Members
  | [], origin, members => change origin members
  | key :: path, _, members =>
    let made : Origin := if dotted then .dotted else .implied
    match members.lookup key with
    | none => do
      let inner ← alter dotted change path made []
      some (members ++ [(key, .table made inner)])
    | some (.table origin inner) =>
      if origin = .inline || (dotted && origin = .header) then none
      else do
        let inner ← alter dotted change path origin inner
        some (set members key (.table origin inner))
    | some (.tables elements) =>
      match elements.getLast? with
      | none => none
      | some last => do
        let last ← alter dotted change path .header last
        some (set members key (.tables (elements.dropLast ++ [last])))
    | some _ => none

/-- Adds a member under a dotted key. A key is given once, and dotted keys extend no table that
has other reasons to be. -/
def assign (members : Members) (path : List String) (key : String) (value : Value) :
    Option Members :=
  alter true (fun origin inner =>
    if !path.isEmpty && origin != .dotted then none
    else if (inner.lookup key).isSome then none
    else some (inner ++ [(key, value)])) path .header members

def openTable (members : Members) (path : List String) (key : String) : Option Members :=
  alter false (fun _ inner =>
    match inner.lookup key with
    | none => some (inner ++ [(key, .table .header [])])
    | some (.table .implied below) => some (set inner key (.table .header below))
    | some _ => none) path .header members

/-- Opens the next of several tables with a common header. -/
def openNext (members : Members) (path : List String) (key : String) : Option Members :=
  alter false (fun _ inner =>
    match inner.lookup key with
    | none => some (inner ++ [(key, .tables [[]])])
    | some (.tables elements) => some (set inner key (.tables (elements ++ [[]])))
    | some _ => none) path .header members

/-- Adds a member to the table that a header opened. -/
def assignBelow (members : Members) (opened path : List String) (key : String) (value : Value) :
    Option Members :=
  alter false (fun _ inner => assign inner path key value) opened .header members

end Members

end FormatHost.Toml
