import FormatHost.Files.FileSystem
import FormatHost.Files.Lines
import FormatHost.Ignore.Expression

/-! # Ignore rules

A file of ignore rules has a pattern on each line. A pattern with a slash is for paths as seen from
the directory of the file, one without is for names anywhere below it. An exclamation mark turns
a rule around, and a slash at the end restricts it to directories. The last rule that applies
decides. How a path is seen from a directory is a matter of their texts alone.
-/

namespace FormatHost.Ignore

/-- What rules say about a path. -/
inductive Verdict where
  | none
  | ignore
  | allow
deriving DecidableEq

/-- The first verdict, unless it is none. -/
def Verdict.or (first second : Verdict) : Verdict :=
  match first with
  | .none => second
  | decided => decided

structure Rule where
  glob : Glob
  /-- Whether the rule takes paths back in. -/
  allows : Bool
  onlyDirectories : Bool

/-- What is wrong with an ignore file. -/
inductive Trouble where
  /-- A line is no rule because its pattern cannot be read. -/
  | badLine (number : Nat) (text : Text) (fault : Glob.Fault)
  /-- The file cannot be read from a line on. -/
  | unreadableFrom (number : Nat) (cause : IoFault)
  /-- The file cannot be read. -/
  | unreadable (cause : IoFault)
  /-- The patterns cannot be used together. -/
  | badSet (fault : Glob.SetFault)

def Trouble.message : Trouble → String
  | .badLine number text fault =>
    "line " ++ toString number ++ ": error parsing glob '" ++ String.ofList text ++ "': " ++
      fault.message
  | .unreadableFrom number cause => "line " ++ toString number ++ ": " ++ cause.message
  | .unreadable cause => cause.message
  | .badSet fault => fault.message

/-- Something that is wrong with an ignore file, and the path of the file. What is wrong with all
patterns of a file is said without its path. -/
structure Complaint where
  path : String
  trouble : Trouble

namespace Complaint

def message (complaint : Complaint) : String :=
  match complaint.trouble with
  | .badSet fault => fault.message
  | trouble => complaint.path ++ ": " ++ trouble.message

/-- The words for a complaint that is the only one. -/
def loneMessage (complaint : Complaint) : String :=
  match complaint.trouble with
  | .badLine _ _ _ | .badSet _ => complaint.message
  | .unreadableFrom _ cause | .unreadable cause => cause.message

end Complaint

/-- The pattern of a line without its marks, and the marks: whether it allows, whether it is bound
to the directory of the file, and whether it is for directories only. -/
structure Pattern where
  text : Text
  allows : Bool
  anchored : Bool
  onlyDirectories : Bool

namespace Pattern

/-- The pattern without the slash at its end. A backslash before that slash goes with it. -/
def dropLastSlash (pattern : Pattern) : Pattern :=
  if pattern.text.getLast? == some '/' then
    let rest := pattern.text.dropLast
    { pattern with
      text := if rest.getLast? == some '\\' then rest.dropLast else rest
      onlyDirectories := true }
  else pattern

/-- The marks at the front of a line. A backslash keeps a first character from being one. -/
def ofLine (line : Text) : Pattern :=
  let marked : Pattern :=
    match line with
    | '\\' :: '!' :: rest => ⟨'!' :: rest, false, false, false⟩
    | '\\' :: '#' :: rest => ⟨'#' :: rest, false, false, false⟩
    | '!' :: '/' :: rest => ⟨rest, true, true, false⟩
    | '!' :: rest => ⟨rest, true, false, false⟩
    | '/' :: rest => ⟨rest, false, true, false⟩
    | rest => ⟨rest, false, false, false⟩
  marked.dropLastSlash

/-- The glob of a pattern: bound to no directory, it may be below any; two stars at the end stand
for what is in a directory and not for the directory. -/
def globText (pattern : Pattern) : Text :=
  let floating :=
    if !pattern.anchored && !pattern.text.contains '/' && pattern.text != ['*', '*'] then
      ['*', '*', '/'] ++ pattern.text
    else pattern.text
  if ['/', '*', '*'].isSuffixOf floating then floating ++ ['/', '*'] else floating

end Pattern

/-- A line without the blanks at its end, unless the last of them is escaped. -/
def trimLine (line : Text) : Text :=
  if ['\\', ' '].isSuffixOf line then line else Text.trimEnd line

/-- The rule of a line, if there is one on it. -/
def ofLine? (number : Nat) (line : Text) : Option (Except Trouble Rule) :=
  if line.head? == some '#' then Option.none
  else
    match trimLine line with
    | [] => Option.none
    | text =>
      let pattern := Pattern.ofLine text
      match Glob.parse pattern.globText with
      | .ok glob => some (.ok ⟨glob, pattern.allows, pattern.onlyDirectories⟩)
      | .error fault => some (.error (.badLine number text fault))

/-! ## Files of rules -/

/-- A text without the byte order marks in front. -/
def dropMarks (text : Text) : Text :=
  text.dropWhile (· == '\uFEFF')

/-- The rules of lines, the first of which has the given number, and what is wrong with them. Byte
order marks mean nothing at the front of the first line of a file. -/
def ofLines (number : Nat) : List Bytes → List Rule × List Trouble
  | [] => ([], [])
  | line :: rest =>
    match Lines.decode line with
    | .error cause => ([], [.unreadableFrom number cause])
    | .ok text =>
      let (rules, troubles) := ofLines (number + 1) rest
      match ofLine? number (if number = 1 then dropMarks text else text) with
      | Option.none => (rules, troubles)
      | some (.ok rule) => (rule :: rules, troubles)
      | some (.error trouble) => (rules, trouble :: troubles)

/-- What is worth mentioning: that a file cannot be read to its end is not, if nothing else is wrong
with it. -/
def worthMentioning : List Trouble → List Trouble
  | [.unreadableFrom _ _] => []
  | troubles => troubles

/-- The rules in what was read from the file of a path, and the complaints about it. A file that is
missing or cannot be read has none, and so has one whose patterns cannot be used together. -/
def ofFile (path : String) : Except IoFault Bytes → List Rule × List Complaint
  | .error _ => ([], [])
  | .ok bytes =>
    let (rules, troubles) := ofLines 1 (Lines.ofBytes bytes)
    let complaints := (worthMentioning troubles).map (Complaint.mk path)
    match Glob.setFault? (rules.map Rule.glob) with
    | Option.none => (rules, complaints)
    | some fault => ([], complaints ++ [⟨"", .badSet fault⟩])

/-! ## Paths seen from a directory -/

def dropFront (front text : Text) : Text :=
  (front.isPrefixOf? text).getD text

/-- A path without one `./` in front. -/
def dropDot (path : String) : String :=
  String.ofList (dropFront ['.', '/'] path.toList)

/-- A path as seen from a directory whose path it starts with. -/
def below (directory path : String) : String :=
  match directory.toList.isPrefixOf? path.toList with
  | some rest => String.ofList (dropFront ['/'] rest)
  | Option.none => path

/-- A path as the rules of a directory see it. A lone name, and any path in the directory `.`, is
taken as it is. -/
def seenFrom (directory path : String) : String :=
  let root := dropDot directory
  let path := dropDot path
  if Path.isHere root || !path.toList.contains '/' then path else below root path

/-- What the rules of a directory say about a path: the last one that applies decides. -/
def verdict (rules : List Rule) (directory path : String) (isDirectory : Bool) : Verdict :=
  if rules.isEmpty then .none
  else
    let seen := Utf8.ofString (seenFrom directory path)
    match rules.reverse.find? fun rule =>
      (!rule.onlyDirectories || isDirectory) && rule.glob.accepts seen with
    | Option.none => .none
    | some rule => if rule.allows then .allow else .ignore

end FormatHost.Ignore
