import FormatHost.Fault
import FormatHost.Files.Path
import FormatHost.Text.Utf8

/-! # File systems as values

A file system maps places to entries: files with their mode, symbolic links and directories.
Paths are followed the way the operating system does it, so that the reasons for refusing a path
are the system's too.
-/

namespace FormatHost

/-- The place of an entry: the names from the root down. -/
abbrev Location := List String

/-- What can be at a place. -/
inductive Entry where
  | file (data : Bytes) (mode : Nat)
  | link (target : String)
  | directory
deriving DecidableEq

/-- The entries of a file system, and the place that relative paths start from. -/
structure FileSystem where
  entries : List (Location × Entry)
  workingDirectory : Location

/-- Where a path leads. -/
inductive Spot where
  | entry (place : Location) (entry : Entry)
  /-- Nothing is there, but the directory it would be in exists. -/
  | vacant (directory : Location) (name : String)
deriving DecidableEq

def Location.path (place : Location) : String :=
  "/" ++ Path.ofPieces place

namespace FileSystem

def standardMode : Nat := 0o644

/-- Whether a program with this mode runs with the rights of its owner (bit 11), or with those of
its group (bit 10, where bit 3 lets the group run it). -/
def lendsRights (mode : Nat) : Bool :=
  mode.testBit 11 || mode.testBit 10 && mode.testBit 3

/-- A mode without the bits by which it lends rights. -/
def strippedMode (mode : Nat) : Nat :=
  mode ^^^ (mode &&& (if mode.testBit 3 then 0o6000 else 0o4000))

/-- The entry at a place. The root is a directory. -/
def get? (fs : FileSystem) (place : Location) : Option Entry :=
  match place with
  | [] => some .directory
  | _ => fs.entries.lookup place

/-- Puts an entry at a place, instead of the one that was there. -/
def put (fs : FileSystem) (place : Location) (entry : Entry) : FileSystem :=
  if (fs.get? place).isSome then
    { fs with entries := fs.entries.map fun e => if e.1 = place then (place, entry) else e }
  else { fs with entries := fs.entries ++ [(place, entry)] }

def erase (fs : FileSystem) (place : Location) : FileSystem :=
  { fs with entries := fs.entries.filter fun e => e.1 != place }

/-- Removes the entry at a place and everything below it. -/
def eraseTree (fs : FileSystem) (place : Location) : FileSystem :=
  { fs with entries := fs.entries.filter fun e => !place.isPrefixOf e.1 }

/-- Puts directories at a place and above it where nothing is yet. -/
def makeDirectories (fs : FileSystem) (place : Location) : FileSystem :=
  (List.range (place.length + 1)).foldl (fun fs n =>
    if (fs.get? (place.take n)).isSome then fs else fs.put (place.take n) .directory) fs

/-- Puts an entry at a place, in directories that are made if needed. -/
def add (fs : FileSystem) (place : Location) (entry : Entry) : FileSystem :=
  (fs.makeDirectories place.dropLast).put place entry

/-- The name of a place that is directly in a directory. -/
def nameIn? : Location → Location → Option String
  | [], [name] => some name
  | outer :: directory, first :: place => if outer = first then nameIn? directory place else none
  | _, _ => none

def children (fs : FileSystem) (directory : Location) : List (String × Entry) :=
  fs.entries.filterMap fun (place, entry) => (nameIn? directory place).map (·, entry)

def longestName : Nat := 255

def longestPath : Nat := 4095

/-- How many links are followed on the way of one path. -/
def mostLinks : Nat := 40

/-- Follows the names from a directory on up to a link, where `jump` takes over. A link at the very
end is followed if `follow` is set. -/
def walkWith (fs : FileSystem) (follow : Bool) (jump : Location → List String → Except IoFault Spot)
    (here : Location) : List String → Except IoFault Spot
  | [] => .ok (.entry here .directory)
  | name :: rest =>
    if name = "." then fs.walkWith follow jump here rest
    else if name = ".." then fs.walkWith follow jump here.dropLast rest
    else if longestName < name.utf8ByteSize then .error (.os .nameTooLong)
    else
      match fs.get? (here ++ [name]) with
      | none => if rest.isEmpty then .ok (.vacant here name) else .error (.os .noEntry)
      | some .directory => fs.walkWith follow jump (here ++ [name]) rest
      | some (.file data mode) =>
        if rest.isEmpty then .ok (.entry (here ++ [name]) (.file data mode))
        else .error (.os .notDirectory)
      | some (.link target) =>
        if rest.isEmpty && !follow then .ok (.entry (here ++ [name]) (.link target))
        else jump (if Path.isAbsolute target then [] else here) (Path.steps target ++ rest)

/-- Follows the names from a directory on, and so many links on the way. -/
def walk (fs : FileSystem) (follow : Bool) :
    Nat → Location → List String → Except IoFault Spot
  | 0 => fs.walkWith follow fun _ _ => .error (.os .tooManyLinks)
  | links + 1 => fs.walkWith follow (fs.walk follow links)

def origin (fs : FileSystem) (path : String) : Location :=
  if Path.isAbsolute path then [] else fs.workingDirectory

/-- Checks that a path can be given to the system. -/
def checkPath (path : String) : Except IoFault Unit :=
  if path.toList.contains '\x00' then .error .nulInPath
  else if path.isEmpty then .error (.os .noEntry)
  else if longestPath < path.utf8ByteSize then .error (.os .nameTooLong)
  else .ok ()

def resolve (fs : FileSystem) (follow : Bool) (path : String) : Except IoFault Spot := do
  checkPath path
  fs.walk follow mostLinks (fs.origin path) (Path.steps path)

def occupant : Spot → Except IoFault (Location × Entry)
  | .entry place entry => .ok (place, entry)
  | .vacant _ _ => .error (.os .noEntry)

/-- The entry that a path leads to, and its place. -/
def find (fs : FileSystem) (follow : Bool) (path : String) : Except IoFault (Location × Entry) := do
  occupant (← fs.resolve follow path)

/-- The entry that a path leads to from a directory, and its place, given the whole path too. -/
def findFrom (fs : FileSystem) (directory : Location) (path whole : String) :
    Except IoFault (Location × Entry) := do
  checkPath whole
  occupant (← fs.walk true mostLinks directory (Path.steps path))

def pathExists (fs : FileSystem) (path : String) : Bool :=
  match fs.find true path with
  | .ok _ => true
  | .error _ => false

def isDirectory (fs : FileSystem) (path : String) : Bool :=
  match fs.find true path with
  | .ok (_, .directory) => true
  | _ => false

/-- The place that a path leads to, free of links. The names are looked up one by one, so a path of
any length has one. -/
def canonical? (fs : FileSystem) (path : String) : Option Location :=
  if path.isEmpty || path.toList.contains '\x00' then none
  else
    match fs.walk true mostLinks (fs.origin path) (Path.steps path) with
    | .ok (.entry place _) => some place
    | _ => none

def contents : Entry → Except IoFault Bytes
  | .file data _ => .ok data
  | _ => .error (.os .isDirectory)

def readFile (fs : FileSystem) (path : String) : Except IoFault Bytes := do
  contents (← fs.find true path).2

def mode? (fs : FileSystem) (path : String) : Option Nat :=
  match fs.find true path with
  | .ok (_, .file _ mode) => some mode
  | _ => none

def findDirectory (fs : FileSystem) (path : String) : Except IoFault Location := do
  match ← fs.find true path with
  | (place, .directory) => .ok place
  | _ => .error (.os .notDirectory)

/-- Checks that a path can be given to the system when something is moved there. -/
def checkTarget (path : String) : Except IoFault Unit :=
  match checkPath path with
  | .error .nulInPath => .error (.os .invalidArgument)
  | checked => checked

/-- The directory that the last name of a path is in. -/
def findParent (fs : FileSystem) (path : String) : Except IoFault Location := do
  match ← fs.walk true mostLinks (fs.origin path) ((Path.names path).dropLast ++ ["."]) with
  | .entry directory _ => .ok directory
  | .vacant _ _ => .error (.os .noEntry)

/-- Moves the file with a name in a directory, given by its path, onto a path. That replaces a file
or link there but no directory. -/
def rename (fs : FileSystem) (directory name path : String) : Except IoFault FileSystem := do
  checkTarget path
  let source := (← fs.findDirectory directory) ++ [name]
  match (Path.names path).getLast? with
  | none => .error (.os .noEntry)
  | some target =>
    let parent ← fs.findParent path
    if target = "." || target = ".." then .error (.os .busy)
    else
      match fs.get? source with
      | none => .error (.os .noEntry)
      | some moved =>
        if longestName < target.utf8ByteSize then .error (.os .nameTooLong)
        else if Path.endsWithSlash path then .error (.os .notDirectory)
        else
          match fs.get? (parent ++ [target]) with
          | some .directory => .error (.os .isDirectory)
          | _ => .ok ((fs.erase source).put (parent ++ [target]) moved)

/-- Removes the file with a name in a directory, given by its path, if it is there. -/
def removeFrom (fs : FileSystem) (directory name : String) : FileSystem :=
  match fs.findDirectory directory with
  | .ok place => fs.erase (place ++ [name])
  | .error _ => fs

/-- Writes a file, in place of the one that a path leads to. -/
def writeFile (fs : FileSystem) (path : String) (data : Bytes) : Except IoFault FileSystem := do
  match ← fs.resolve true path with
  | .entry place (.file _ mode) => .ok (fs.put place (.file data mode))
  | .entry _ _ => .error (.os .isDirectory)
  | .vacant directory name => .ok (fs.put (directory ++ [name]) (.file data standardMode))

/-- Why a directory cannot be made at a place where something else is, given where that leads. As
the last of the wanted directories, or after one that had to be made, it is tried by itself. -/
def obstacle (byItself : Bool) : Except IoFault Spot → IoFault
  | .ok (.entry _ _) => .os (if byItself then .fileExists else .notDirectory)
  | .ok (.vacant _ _) | .error (.os .noEntry) => .os .fileExists
  | .error fault => if byItself then .os .fileExists else fault

/-- Makes the directories on the way of some names that are not there yet. `made` says whether one
of them was missing. What has been made stays if another one fails. -/
def createAlong (fs : FileSystem) (made : Bool) (place : Location) :
    List String → Except IoFault Unit × FileSystem
  | [] => (.ok (), fs)
  | name :: rest =>
    match fs.walk true mostLinks place [name] with
    | .ok (.entry found .directory) => fs.createAlong made found rest
    | spot =>
      if (fs.get? (place ++ [name])).isSome then
        (.error (obstacle (made || rest.isEmpty) spot), fs)
      else
        match spot with
        | .error fault => (.error fault, fs)
        | .ok _ =>
          (fs.put (place ++ [name]) .directory).createAlong true (place ++ [name]) rest

/-- Makes the directory of a path and those it is in, unless they are there. -/
def createDirectories (fs : FileSystem) (path : String) : Except IoFault Unit × FileSystem :=
  if longestPath < path.utf8ByteSize then (.error (.os .nameTooLong), fs)
  else fs.createAlong false (fs.origin path) (Path.names path)

end FileSystem

end FormatHost
