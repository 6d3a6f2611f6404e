import FormatHost.Environment
import FormatHost.Files.FileSystem
import FormatHost.Layout
import FormatHost.Toml.Document

/-! # Settings

Settings come from the environment, then from a file in the user's configuration directory, then
from standard values. A file that is missing or no text says nothing; one that is not well formed,
or gives a setting a value of the wrong kind, is set aside as a whole with a warning.
-/

namespace FormatHost

/-- The natural number of at most 64 bits that a text stands for: decimal digits, after a plus sign
or without one. -/
def parseNatural? (text : String) : Option Nat :=
  let digits :=
    match text.toList with
    | '+' :: rest => rest
    | digits => digits
  if digits.isEmpty || !digits.all Char.isDigit then none
  else
    let n := digits.foldl (fun n d => n * 10 + (d.toNat - 48)) 0
    if n < Nat.pow 2 64 then some n else none

/-- The settings of a file, as far as they are given. -/
structure Settings where
  indentWidth : Option Nat
  maxBlankLines : Option Nat
  extensions : Option (List String)
  noColor : Option Bool
  engine : Option String
  engineStem : Option String
deriving DecidableEq

namespace Settings

def blank : Settings :=
  ⟨none, none, none, none, none, none⟩

/-! ## Files -/

/-- A size: an integer that is not negative. -/
def size? : Toml.Value → Option Nat
  | .integer n => if 0 ≤ n then some n.toNat else none
  | _ => none

def flag? : Toml.Value → Option Bool
  | .boolean b => some b
  | _ => none

def text? : Toml.Value → Option String
  | .string s => some s
  | _ => none

def texts? : Toml.Value → Option (List String)
  | .array items => items.mapM text?
  | _ => none

/-- A setting that may be absent but not of the wrong kind. -/
def read? {α : Type} (members : Toml.Members) (key : String) (kind : Toml.Value → Option α) :
    Option (Option α) :=
  match members.lookup key with
  | none => some none
  | some value => (kind value).map some

/-- The settings of a document. Other keys mean nothing. -/
def ofMembers? (members : Toml.Members) : Option Settings := do
  let indentWidth ← read? members "indent_width" size?
  let maxBlankLines ← read? members "max_blank_lines" size?
  let extensions ← read? members "extensions" texts?
  let noColor ← read? members "no_color" flag?
  let engine ← read? members "engine" text?
  let engineStem ← read? members "engine_prefix" text?
  some ⟨indentWidth, maxBlankLines, extensions, noColor, engine, engineStem⟩

def parse? (text : Text) : Option Settings := do
  ofMembers? (← Toml.parse text)

/-- The path of the user's configuration directory. -/
def directory? (env : Environment) : Option String :=
  ((env.get? "XDG_CONFIG_HOME").filter Path.isAbsolute).or
    (env.properHome?.map (Path.join · ".config"))

def path? (env : Environment) : Option String :=
  (directory? env).map fun directory => Path.join (Path.join directory "fmtb") "config.toml"

/-- What loading the settings came to. -/
structure Loaded where
  settings : Settings
  /-- The file that could not be understood, if there was one. -/
  misread : Option String

def load (files : FileSystem) (env : Environment) : Loaded :=
  let nothing : Loaded := ⟨blank, none⟩
  match path? env with
  | none => nothing
  | some path =>
    match files.readFile path with
    | .error _ => nothing
    | .ok bytes =>
      match Utf8.decode bytes with
      | .error _ => nothing
      | .ok text =>
        match parse? text with
        | some settings => ⟨settings, none⟩
        | none => ⟨blank, some path⟩

/-! ## Values in effect -/

def natural? (env : Environment) (name : String) : Option Nat :=
  (env.get? name).bind parseNatural?

def layout (settings : Settings) (env : Environment) : Layout where
  indentWidth :=
    ((natural? env "FMTB_INDENT_WIDTH").or settings.indentWidth).getD Layout.standard.indentWidth
  maxBlankLines :=
    ((natural? env "FMTB_MAX_BLANK_LINES").or settings.maxBlankLines).getD
      Layout.standard.maxBlankLines

/-- An extension without blanks around it and without dots in front. -/
def cleanExtension (text : Text) : Text :=
  (Text.trim text).dropWhile (· == '.')

/-- The extensions of a list with commas. Those with nothing to them are left out. -/
def parseExtensions (list : String) : List String :=
  (((Text.splitOn ',' list.toList).map cleanExtension).filter (!·.isEmpty)).map String.ofList

/-- The extensions of files that are picked up from directories unless others are set. -/
def standardExtensions : List String := ["rb"]

def extensionsIn (settings : Settings) (env : Environment) : List String :=
  match env.get? "FMTB_EXTENSIONS" with
  | some list => parseExtensions list
  | none => settings.extensions.getD standardExtensions

/-- The library of the engine in effect, unless it is the built-in one. -/
def engineIn (settings : Settings) (env : Environment) : Option String :=
  (env.nonempty? "FMTB_ENGINE").or settings.engine

def engineStemIn (settings : Settings) (env : Environment) : Option String :=
  (env.nonempty? "FMTB_ENGINE_PREFIX").or settings.engineStem

def noColorIn (settings : Settings) (env : Environment) : Bool :=
  env.has "NO_COLOR" || env.has "FMTB_NO_COLOR" || settings.noColor.getD false

/-! ## A first file -/

/-- The lines of the file that new users start from. -/
def starterLines : List String :=
  ["# fmtb configuration",
    "# See: fmtb --help for all options",
    "",
    "# Spaces per indentation level",
    "indent_width = 2",
    "",
    "# Longest run of blank lines kept",
    "max_blank_lines = 1",
    "",
    "# File extensions picked up when walking directories",
    "extensions = [\"rb\"]",
    "",
    "# Disable colored output",
    "no_color = false",
    "",
    "# Shared library providing the engine (empty = built-in engine)",
    "# engine = \"/usr/local/lib/libextfmt.so\"",
    "# engine_prefix = \"extfmt\""]

def starter : String :=
  String.join (starterLines.map (· ++ "\n"))

/-- Writes the file that new users start from, unless there is one. Gives its path, and the files
afterwards. -/
def create (files : FileSystem) (env : Environment) : Except String String × FileSystem :=
  match path? env with
  | none => (.error "Cannot determine config directory", files)
  | some path =>
    if files.pathExists path then (.error ("Config file already exists: " ++ path), files)
    else
      match files.createDirectories (Path.parent path) with
      | (.error fault, files) => (.error ("Failed to create directory: " ++ fault.message), files)
      | (.ok (), files) =>
        match files.writeFile path (Utf8.ofString starter) with
        | .error fault => (.error ("Failed to write config: " ++ fault.message), files)
        | .ok files => (.ok path, files)

end Settings

end FormatHost
