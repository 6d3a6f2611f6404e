import FormatHost.Ignore.Layer
import FormatHost.Ignore.UserRules

/-! # Inputs named on the command line

An argument is a path, or a file with a list of paths. Files are taken as they are named.
Directories are walked in the order of names: hidden entries and what ignore rules name is left
out, and of the files only those with a wanted extension are taken. The ignore files above a
directory count as well; those that the next directory has in common are kept for it.
-/

namespace FormatHost

/-- Something that was found for an argument. -/
inductive Found where
  | file (path : String)
  /-- A path that could not be read. -/
  | unreadable (path : String) (cause : IoFault)
  /-- What is wrong with ignore files. -/
  | badRules (complaints : List Ignore.Complaint)

namespace Found

/-- The path that a fault is about; several faults have none in common. -/
def path : Found → String
  | .file path => path
  | .unreadable path _ => path
  | .badRules [complaint] => complaint.path
  | .badRules _ => ""

def message : Found → String
  | .file _ => ""
  | .unreadable path cause => "IO error for operation on " ++ path ++ ": " ++ cause.message
  | .badRules [complaint] => complaint.loneMessage
  | .badRules complaints => "\n".intercalate (complaints.map Ignore.Complaint.message)

end Found

namespace Inputs

/-! ## Lists of paths -/

/-- The paths in a list: its lines without the blanks around them, except those that are empty. -/
def listed (text : Text) : List String :=
  ((text.lines.map Text.trim).filter (!·.isEmpty)).map String.ofList

/-- The paths that an argument stands for. An argument that starts with an at sign names a list. -/
def expand (files : FileSystem) (argument : String) : Except (String × IoFault) (List String) :=
  match argument.toList with
  | '@' :: name =>
    let list := String.ofList name
    match files.readFile list with
    | .error fault => .error (list, fault)
    | .ok bytes =>
      match Utf8.decode bytes with
      | .error _ => .error (list, .notText)
      | .ok text => .ok (listed text)
  | _ => .ok [argument]

/-- The paths that arguments stand for, or the first list that cannot be read. -/
def expandAll (files : FileSystem) (arguments : List String) :
    Except (String × IoFault) (List String) := do
  let paths ← arguments.mapM (expand files)
  .ok paths.flatten

/-! ## Directories above a walk -/

/-- What a walk looks for. -/
structure Wanted where
  extensions : List String
  /-- Whether the rules of repositories are left aside. -/
  includeIgnored : Bool

/-- The ignore files of a directory above a walk. -/
structure Outer where
  place : Location
  layer : Ignore.Layer

namespace Outer

/-- The ignore files of a place above a walk, and the complaints about them. They are taken from
those that are kept, about which everything has been said. -/
def read (files : FileSystem) (wanted : Wanted) (kept : List Outer) (place : Location) :
    Outer × List Ignore.Complaint :=
  match kept.find? (·.place == place) with
  | some outer => (outer, [])
  | none =>
    let (layer, complaints) := Ignore.Layer.read files wanted.includeIgnored ⟨place.path, place⟩
    let isRepository := !wanted.includeIgnored && layer.isRepository
    (⟨place, { layer with isRepository := isRepository }⟩, complaints)

/-- The places above a place, the nearest first. -/
def above (place : Location) : List Location :=
  (List.range place.length).reverse.map place.take

/-- The ignore files above a place, the nearest first, and the complaints about them, in the order
of reading. -/
def readAbove (files : FileSystem) (wanted : Wanted) (kept : List Outer) (place : Location) :
    List Outer × List Ignore.Complaint :=
  let read := (above place).map (read files wanted kept)
  (read.map (·.1), (read.reverse.map (·.2)).flatten)

end Outer

/-! ## Walks -/

/-- What a walk through a directory takes into account. -/
structure Tour where
  files : FileSystem
  wanted : Wanted
  /-- The directory, by the path that it was named by. -/
  root : Ignore.Site
  /-- The ignore files above the directory, the nearest first. -/
  outer : List Outer
  /-- The user's own rules. -/
  userRules : List Ignore.Rule

namespace Tour

/-- A path below the directory as the ignore files above it see it: from where the directory is,
however it was named. -/
def seenAbove (tour : Tour) (path : String) : String :=
  let root := tour.root.path
  let inner := if Path.isHere root then path else Ignore.below (Ignore.dropDot root) path
  Path.join tour.root.place.path inner

/-- What all rules say about an entry, given the layers from its directory up to the one walked
through. The user's own rules come last and count only inside of a repository. -/
def verdict (tour : Tour) (layers : List Ignore.Layer) (path : String) (isDirectory : Bool) :
    Ignore.Verdict :=
  let path := Ignore.dropDot path
  let views := layers.map (Ignore.View.mk · path) ++
    tour.outer.map fun outer => ⟨outer.layer, tour.seenAbove path⟩
  let own :=
    if Ignore.View.inRepository views then
      Ignore.verdict tour.userRules tour.files.workingDirectory.path path isDirectory
    else .none
  (Ignore.View.verdict views isDirectory).or own

/-- Whether an entry is left out. Hidden entries are, unless a rule allows them. -/
def leavesOut (tour : Tour) (layers : List Ignore.Layer) (path name : String) (entry : Entry) :
    Bool :=
  match tour.verdict layers path (entry == .directory) with
  | .ignore => true
  | .allow => false
  | .none => name.toList.head? == some '.'

end Tour

/-- Whether a file has one of the wanted extensions. -/
def isWanted (wanted : Wanted) (name : String) : Bool :=
  match Path.extension? name with
  | some extension => wanted.extensions.contains extension
  | none => false

def sortedChildren (files : FileSystem) (place : Location) : List (String × Entry) :=
  (files.children place).mergeSort fun a b => decide (a.1 ≤ b.1)

/-- What is below a directory, given the layers up to it. No directory is deeper than `levels`. -/
def walk (tour : Tour) : Nat → Ignore.Site → List Ignore.Layer → List Found
  | 0, _, _ => []
  | levels + 1, site, layers =>
    (sortedChildren tour.files site.place).flatMap fun (name, entry) =>
      let child : Ignore.Site := ⟨site.pathOf name, site.place ++ [name]⟩
      if tour.leavesOut layers child.path name entry then []
      else if entry == .directory then
        match FileSystem.checkPath child.path with
        | .error fault => [.unreadable child.path fault]
        | .ok () =>
          let layer := (Ignore.Layer.read tour.files tour.wanted.includeIgnored child).1
          walk tour levels child (layer :: layers)
      else if site.hasFile tour.files name && isWanted tour.wanted name then [.file child.path]
      else []

def deepest (files : FileSystem) : Nat :=
  files.entries.foldl (fun n e => max n e.1.length) 0

/-- The name under which standard input is listed. -/
def standardInput : String := "<stdin>"

/-- What is found for a path, and the ignore files that are kept for the next one. A dash stands for
standard input, which is found unless a directory has its name. -/
def collectPath (files : FileSystem) (wanted : Wanted) (userRules : List Ignore.Rule)
    (kept : List Outer) (path : String) : List Found × List Outer :=
  if Path.isJust "-" path then
    (if files.isDirectory standardInput then [] else [.file standardInput], kept)
  else
    match files.find false path, files.find true path with
    | .error fault, _ => ([.unreadable path fault], [])
    | .ok _, .error fault => ([.unreadable path fault], [])
    | .ok _, .ok (place, .directory) =>
      let (outer, complaints) := Outer.readAbove files wanted kept place
      let root : Ignore.Site := ⟨path, place⟩
      let layer := (Ignore.Layer.read files wanted.includeIgnored root).1
      let below := walk ⟨files, wanted, root, outer, userRules⟩ (deepest files + 1) root [layer]
      ((if complaints.isEmpty then [] else [.badRules complaints]) ++ below, outer)
    | .ok _, .ok _ => ([.file path], [])

def collectAll (files : FileSystem) (wanted : Wanted) (userRules : List Ignore.Rule) :
    List Outer → List String → List Found
  | _, [] => []
  | kept, path :: rest =>
    let (found, kept) := collectPath files wanted userRules kept path
    found ++ collectAll files wanted userRules kept rest

/-- What is found for some paths in an environment, in their order. -/
def collect (files : FileSystem) (env : Environment) (wanted : Wanted) (paths : List String) :
    List Found :=
  collectAll files wanted (Ignore.UserRules.read files env) [] paths

end Inputs

end FormatHost
