import FormatHost.Environment
import FormatHost.Ignore.Rules

/-! # A user's own ignore rules

Users can keep rules for all their repositories in one file. A line of a configuration says where
that file is: of one that the environment names for the user, of one in the home directory, of one
in the configuration directory, or of one that the environment names for all users. Otherwise the
file has a place of its own in the configuration directory.
-/

namespace FormatHost.Ignore.UserRules

/-! ## The line that names the file -/

def isSpace (b : UInt8) : Bool :=
  b == 0x20 || (0x09 ≤ b && b ≤ 0x0D)

def quote : UInt8 := 0x22

def lineFeed : UInt8 := 0x0A

/-- Whether nothing but white space is left up to the end of a line. -/
def endsLine (s : Bytes) : Bool :=
  let space := s.takeWhile isSpace
  space.contains lineFeed || space.length = s.length

/-- Whether nothing but white space and perhaps a quote is left up to the end of a line. -/
def endsValue (s : Bytes) : Bool :=
  endsLine s ||
    match s.dropWhile isSpace with
    | b :: rest => b == quote && endsLine rest
    | [] => false

/-- The word at the front of some bytes, if it takes up the rest of a line. A quote behind the word
does not belong to it, but a word is never empty. -/
def wordToEnd? (s : Bytes) : Option Bytes :=
  let word := s.takeWhile (!isSpace ·)
  let rest := s.dropWhile (!isSpace ·)
  if word.length ≥ 2 && word.getLast? == some quote && endsLine rest then some word.dropLast
  else if !word.isEmpty && endsValue rest then some word
  else none

/-- The value behind an equals sign. A quote in front is dropped unless it is part of the word. -/
def value? (s : Bytes) : Option Bytes :=
  let s := s.dropWhile isSpace
  let unquoted? :=
    match s with
    | b :: rest => if b == quote then wordToEnd? (rest.dropWhile isSpace) else none
    | [] => none
  unquoted?.or (wordToEnd? s)

def lower (b : UInt8) : UInt8 :=
  if 0x41 ≤ b && b ≤ 0x5A then b + 0x20 else b

def settingName : Bytes := Utf8.ofString "excludesfile"

/-- The value of the setting on the line that some bytes start with. -/
def settingAt? (s : Bytes) : Option Bytes :=
  let s := s.dropWhile isSpace
  if (s.take settingName.length).map lower = settingName then
    match (s.drop settingName.length).dropWhile isSpace with
    | b :: rest => if b == 0x3D then value? rest else none
    | [] => none
  else none

/-- The value of the setting in some bytes: that of the first line that gives it. -/
def setting? (s : Bytes) : Option Bytes :=
  let rec search (atStart : Bool) : Bytes → Option Bytes
    | [] => none
    | b :: rest =>
      (if atStart then settingAt? (b :: rest) else none).or (search (b == lineFeed) rest)
  search true s

/-! ## The file -/

/-- A path with the home directory in place of its tildes. -/
def expandHome (env : Environment) (path : String) : String :=
  match env.home? with
  | some home =>
    String.ofList (path.toList.flatMap fun c => if c = '~' then home.toList else [c])
  | none => path

def configurations? (env : Environment) : Option String :=
  (env.nonempty? "XDG_CONFIG_HOME").or (env.home?.map (Path.join · ".config"))

/-- The path that the configuration in a file gives. -/
def namedIn? (files : FileSystem) (env : Environment) (path : String) : Option String :=
  match files.readFile path with
  | .error _ => none
  | .ok bytes => do some (expandHome env (← Utf8.toString? (← setting? bytes)))

/-- The paths of the configurations that may name the file. The first one that does decides. -/
def configurationPaths (env : Environment) : List String :=
  (env.get? "GIT_CONFIG_GLOBAL").toList ++
    env.home?.toList.map (Path.join · ".gitconfig") ++
    (configurations? env).toList.map (Path.join · "git/config") ++
    (env.get? "GIT_CONFIG_SYSTEM").toList

/-- The path of the file where no configuration names one. -/
def defaultPath? (env : Environment) : Option String :=
  (configurations? env).map (Path.join · "git/ignore")

def path? (files : FileSystem) (env : Environment) : Option String :=
  ((configurationPaths env).findSome? (namedIn? files env)).or (defaultPath? env)

/-- The user's own rules. What is wrong with them is not mentioned. -/
def read (files : FileSystem) (env : Environment) : List Rule :=
  match path? files env with
  | some path => (ofFile path (files.readFile path)).1
  | none => []

end FormatHost.Ignore.UserRules
