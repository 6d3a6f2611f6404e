import FormatHost.Header
import FormatHost.Settings

/-! # Command lines

Arguments are read from left to right. Those that start with a dash are options, by name or by
letter, and some options take a value; every other argument is a path, as is everything behind a
bare double dash. The first fault counts, unless the version or help was asked for before it, and
options that exclude each other are looked for in the end.
-/

namespace FormatHost

inductive Flag where
  | check
  | inPlace
  | headerOptIn
  | headerOptOut
  | includeIgnored
  | failFast
  | noColor
  | verbose
  | configPath
  | configInit
  | help
  | version
deriving DecidableEq

inductive Field where
  | output
  | tree
  | engine
  | engineStem
  | indentWidth
  | maxBlankLines
  | extensions
deriving DecidableEq

inductive Switch where
  | flag (flag : Flag)
  | field (field : Field)
deriving DecidableEq

namespace Flag

def all : List Flag :=
  [.check, .inPlace, .headerOptIn, .headerOptOut, .includeIgnored, .failFast, .noColor, .verbose,
    .configPath, .configInit, .help, .version]

def name : Flag → String
  | .check => "check"
  | .inPlace => "in-place"
  | .headerOptIn => "header-opt-in"
  | .headerOptOut => "header-opt-out"
  | .includeIgnored => "include-gitignored"
  | .failFast => "fail-fast"
  | .noColor => "no-color"
  | .verbose => "verbose"
  | .configPath => "config-path"
  | .configInit => "config-init"
  | .help => "help"
  | .version => "version"

def letter? : Flag → Option Char
  | .inPlace => some 'i'
  | .noColor => some 'C'
  | .verbose => some 'v'
  | .help => some 'h'
  | .version => some 'V'
  | _ => none

end Flag

namespace Field

def all : List Field :=
  [.output, .tree, .engine, .engineStem, .indentWidth, .maxBlankLines, .extensions]

def name : Field → String
  | .output => "output"
  | .tree => "tree"
  | .engine => "engine"
  | .engineStem => "engine-prefix"
  | .indentWidth => "indent-width"
  | .maxBlankLines => "max-blank-lines"
  | .extensions => "extensions"

def letter? : Field → Option Char
  | .output => some 'o'
  | _ => none

end Field

namespace Switch

def all : List Switch :=
  Flag.all.map .flag ++ Field.all.map .field

def name : Switch → String
  | .flag f => f.name
  | .field f => f.name

def letter? : Switch → Option Char
  | .flag f => f.letter?
  | .field f => f.letter?

def ofName? (name : String) : Option Switch :=
  all.find? (·.name == name)

def ofLetter? (letter : Char) : Option Switch :=
  all.find? (·.letter? == some letter)

end Switch

/-- What is wrong with a command line. Options are given by name. -/
inductive UsageFault where
  | unknown (option : String)
  | repeated (option : String)
  | missingValue (option : String)
  | unneededValue (option : String)
  | badValue (option value : String)
  | conflict (one other : String)
deriving DecidableEq

namespace UsageFault

def message : UsageFault → String
  | .unknown option => "unexpected argument " ++ option
  | .repeated option => "--" ++ option ++ " cannot be used multiple times"
  | .missingValue option => "a value is required for --" ++ option ++ " but none was supplied"
  | .unneededValue option => "no value was expected for --" ++ option
  | .badValue option value => "invalid value " ++ Text.quote value ++ " for --" ++ option
  | .conflict one other => one ++ " cannot be used with " ++ other

end UsageFault

/-- What to do with formatted text. -/
inductive Mode where
  /-- Write it out. -/
  | print
  /-- Show how it differs from the input. -/
  | check
  /-- Put it in the place of the input. -/
  | replace
deriving DecidableEq

/-- The paths and options of a command line. -/
structure Invocation where
  paths : List String
  flags : List Flag
  output : Option String
  tree : Option String
  engine : Option String
  engineStem : Option String
  indentWidth : Option Nat
  maxBlankLines : Option Nat
  extensions : Option (List String)
deriving DecidableEq

inductive Request where
  | help
  | version
  | run (invocation : Invocation)
deriving DecidableEq

/-- Why reading a command line ends before its end. -/
inductive Halt where
  | fault (fault : UsageFault)
  | help
  | version
deriving DecidableEq

namespace Invocation

def empty : Invocation :=
  ⟨[], [], none, none, none, none, none, none, none⟩

def has (invocation : Invocation) (flag : Flag) : Bool :=
  invocation.flags.contains flag

def mode (invocation : Invocation) : Mode :=
  if invocation.has .check then .check
  else if invocation.has .inPlace then .replace
  else .print

def policy (invocation : Invocation) : HeaderPolicy :=
  ⟨invocation.has .headerOptIn, invocation.has .headerOptOut⟩

def addPath (invocation : Invocation) (path : String) : Invocation :=
  { invocation with paths := invocation.paths ++ [path] }

/-- Sets a flag. Only verbosity can be asked for more than once. -/
def raise (invocation : Invocation) : Flag → Except Halt Invocation
  | .help => .error .help
  | .version => .error .version
  | flag =>
    if invocation.has flag && flag != .verbose then .error (.fault (.repeated flag.name))
    else .ok { invocation with flags := invocation.flags ++ [flag] }

/-- The path that a text stands for, which is any but the empty one. -/
def path? (text : String) : Option String :=
  if text.isEmpty then none else some text

/-- The value of a field that may be given once. -/
def once {α : Type} (field : Field) (old : Option α) (read? : String → Option α) (text : String) :
    Except UsageFault (Option α) :=
  match old, read? text with
  | some _, _ => .error (.repeated field.name)
  | none, none => .error (.badValue field.name text)
  | none, some value => .ok (some value)

/-- The extensions after one more list of them, which is cut at its commas. -/
def moreExtensions (old : Option (List String)) (list : String) : List String :=
  old.getD [] ++ (Text.splitOn ',' list.toList).map String.ofList

def assign (invocation : Invocation) (field : Field) (text : String) :
    Except UsageFault Invocation :=
  match field with
  | .output =>
    (once field invocation.output path? text).map fun v => { invocation with output := v }
  | .tree => (once field invocation.tree path? text).map fun v => { invocation with tree := v }
  | .engine =>
    (once field invocation.engine path? text).map fun v => { invocation with engine := v }
  | .engineStem =>
    (once field invocation.engineStem some text).map fun v => { invocation with engineStem := v }
  | .indentWidth =>
    (once field invocation.indentWidth parseNatural? text).map fun v =>
      { invocation with indentWidth := v }
  | .maxBlankLines =>
    (once field invocation.maxBlankLines parseNatural? text).map fun v =>
      { invocation with maxBlankLines := v }
  | .extensions =>
    .ok { invocation with extensions := some (moreExtensions invocation.extensions text) }

/-- Gives a field its value while a command line is read. -/
def give (invocation : Invocation) (field : Field) (text : String) : Except Halt Invocation :=
  (invocation.assign field text).mapError .fault

/-! ## Reading -/

/-- Reads an option that is given by its name, and perhaps a value behind an equals sign. Gives the
field that still waits for its value, if there is one. -/
def readName (invocation : Invocation) (name : String) (value : Option String) :
    Except Halt (Invocation × Option Field) :=
  match Switch.ofName? name, value with
  | none, _ => .error (.fault (.unknown ("--" ++ name)))
  | some (.flag flag), none => (invocation.raise flag).map (·, none)
  | some (.flag flag), some _ => .error (.fault (.unneededValue flag.name))
  | some (.field field), none => .ok (invocation, some field)
  | some (.field field), some value => (invocation.give field value).map (·, none)

/-- A value behind the letter of its option, from which an equals sign may set it off. -/
def attachedValue : List Char → String
  | '=' :: value => String.ofList value
  | value => String.ofList value

/-- Reads options that are given by their letters. What follows the letter of a field is its value.
Gives the field that still waits for its value, if there is one. -/
def readLetters (invocation : Invocation) : List Char → Except Halt (Invocation × Option Field)
  | [] => .ok (invocation, none)
  | letter :: rest =>
    match Switch.ofLetter? letter, rest with
    | none, _ => .error (.fault (.unknown (String.ofList ['-', letter])))
    | some (.field field), [] => .ok (invocation, some field)
    | some (.field field), value => (invocation.give field (attachedValue value)).map (·, none)
    | some (.flag flag), rest => do readLetters (← invocation.raise flag) rest

end Invocation

/-- How an argument is to be taken. -/
inductive Word where
  | plain
  /-- The end of the options. -/
  | ending
  | name (name : String) (value : Option String)
  | letters (letters : List Char)
deriving DecidableEq

/-- How an argument is to be taken. A single dash is a path. -/
def Word.ofArgument (argument : String) : Word :=
  match argument.toList with
  | ['-', '-'] => .ending
  | '-' :: '-' :: rest =>
    let value := match rest.dropWhile (· != '=') with
      | _ :: value => some (String.ofList value)
      | [] => none
    .name (String.ofList (rest.takeWhile (· != '='))) value
  | '-' :: letter :: rest => .letters (letter :: rest)
  | _ => .plain

namespace Invocation

/-- Reads arguments, given the field that waits for its value. A field does not take anything that
looks like an option. -/
def readAll (invocation : Invocation) (waiting : Option Field) :
    List String → Except Halt Invocation
  | [] =>
    match waiting with
    | none => .ok invocation
    | some field => .error (.fault (.missingValue field.name))
  | argument :: rest =>
    match waiting, Word.ofArgument argument with
    | some field, .plain => do readAll (← invocation.give field argument) none rest
    | some field, _ => .error (.fault (.missingValue field.name))
    | none, .plain => readAll (invocation.addPath argument) none rest
    | none, .ending => .ok { invocation with paths := invocation.paths ++ rest }
    | none, .name name value => do
      let (invocation, waiting) ← invocation.readName name value
      readAll invocation waiting rest
    | none, .letters letters => do
      let (invocation, waiting) ← invocation.readLetters letters
      readAll invocation waiting rest

/-- Options that exclude each other, with whether both are there. -/
def exclusions (invocation : Invocation) : List (Bool × String × String) :=
  let hasPaths := !invocation.paths.isEmpty
  let hasEngine := invocation.engine.isSome
  [(invocation.has .check && invocation.has .inPlace, "--check", "--in-place"),
    (invocation.output.isSome && hasPaths, "--output", "paths"),
    (invocation.tree.isSome && hasPaths, "--tree", "paths"),
    (invocation.tree.isSome && invocation.has .check, "--tree", "--check"),
    (invocation.indentWidth.isSome && hasEngine, "--indent-width", "--engine"),
    (invocation.maxBlankLines.isSome && hasEngine, "--max-blank-lines", "--engine")]

end Invocation

def Request.parse (arguments : List String) : Except UsageFault Request :=
  match Invocation.empty.readAll none arguments with
  | .error (.fault fault) => .error fault
  | .error .help => .ok .help
  | .error .version => .ok .version
  | .ok invocation =>
    match invocation.exclusions.find? (·.1) with
    | some (_, one, other) => .error (.conflict one other)
    | none => .ok (.run invocation)

end FormatHost
