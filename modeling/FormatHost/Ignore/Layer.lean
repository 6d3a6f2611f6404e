import FormatHost.Ignore.Rules

/-! # The ignore files of directories

A directory can have rules for this program, rules for every program, and the rules of a repository:
those that all its copies share and those of one copy. The latter are kept by the repository
itself, whose files may be somewhere else; then the directory has a file that says where.
-/

namespace FormatHost.Ignore

/-- The ignore files of a directory. -/
structure Layer where
  /-- The path of the directory. -/
  directory : String
  /-- The rules for this program. -/
  own : List Rule
  /-- The rules for every program. -/
  general : List Rule
  /-- The rules of the repository. -/
  shared : List Rule
  /-- The rules of one copy of the repository. -/
  exclude : List Rule
  /-- Whether the directory is the top of a repository. -/
  isRepository : Bool

/-- A directory by its path and its place. -/
structure Site where
  path : String
  place : Location

namespace Site

/-- The path of something in the directory. -/
def pathOf (site : Site) (name : String) : String :=
  Path.join site.path name

def find (files : FileSystem) (site : Site) (name : String) :
    Except IoFault (Location × Entry) :=
  files.findFrom site.place name (site.pathOf name)

def has (files : FileSystem) (site : Site) (name : String) : Bool :=
  (site.find files name).isOk

def hasFile (files : FileSystem) (site : Site) (name : String) : Bool :=
  match site.find files name with
  | .ok (_, .file _ _) => true
  | _ => false

/-- The rules in the file with a name in the directory, and the complaints about it. -/
def readRules (files : FileSystem) (site : Site) (name : String) : List Rule × List Complaint :=
  ofFile (site.pathOf name) do FileSystem.contents (← site.find files name).2

end Site

namespace Layer

/-- The name of the file with the rules for this program. -/
def ownName : String := ".fmtbignore"

/-- The name of the directory with a repository's files, or of the file that says where they are. -/
def repositoryName : String := ".git"

def hasRepository (files : FileSystem) (site : Site) : Bool :=
  site.has files repositoryName || site.has files ".jj"

/-- The first line of the file of a path. Without a file, or without a line in it, there is nothing
to complain about. -/
def firstLine (files : FileSystem) (path : String) : Except (Option Complaint) String :=
  match files.find true path with
  | .error _ => .error none
  | .ok (_, entry) =>
    match (FileSystem.contents entry).map Lines.first? with
    | .error cause | .ok (some (.error cause)) => .error (some ⟨path, .unreadable cause⟩)
    | .ok none => .error none
    | .ok (some (.ok line)) => .ok (String.ofList line)

/-- The directory that the copies of a repository have in common, given the path of a file that
says where the files of one copy are. -/
def commonDirectory (files : FileSystem) (path : String) : Except (Option Complaint) String := do
  match ("gitdir: ".toList).isPrefixOf? (← firstLine files path).toList with
  | none => .error none
  | some rest =>
    let directory := String.ofList rest
    let line ← firstLine files (Path.join directory "commondir")
    .ok (if line.toList.head? == some '.' then Path.join directory line else line)

/-- The rules of one copy of a repository. -/
def readExclude (files : FileSystem) (site : Site) : List Rule × List Complaint :=
  if site.hasFile files repositoryName then
    match commonDirectory files (site.pathOf repositoryName) with
    | .ok common =>
      let path := Path.join common "info/exclude"
      ofFile path (files.readFile path)
    | .error complaint => ([], complaint.toList)
  else site.readRules files (Path.join repositoryName "info/exclude")

/-- The ignore files of a directory, and the complaints about them. -/
def read (files : FileSystem) (includeIgnored : Bool) (site : Site) : Layer × List Complaint :=
  let own := site.readRules files ownName
  let general := site.readRules files ".ignore"
  let shared := if includeIgnored then ([], []) else site.readRules files ".gitignore"
  let exclude := readExclude files site
  (⟨site.path, own.1, general.1, shared.1, exclude.1, hasRepository files site⟩,
    own.2 ++ general.2 ++ shared.2 ++ exclude.2)

end Layer

/-- A layer of ignore files, and a path as it is put to the rules of the layer. -/
structure View where
  layer : Layer
  path : String

namespace View

/-- The views up to and including the first of the top of a repository. -/
def withinRepository : List View → List View
  | [] => []
  | view :: rest => view :: (if view.layer.isRepository then [] else withinRepository rest)

/-- The first verdict that some views give with rules of one sort. -/
def firstVerdict (views : List View) (rules : Layer → List Rule) (isDirectory : Bool) : Verdict :=
  views.foldr (fun view later =>
    (Ignore.verdict (rules view.layer) view.layer.directory view.path isDirectory).or later) .none

/-- Whether some of the views are of the top of a repository. -/
def inRepository (views : List View) : Bool :=
  views.any (·.layer.isRepository)

/-- What the ignore files of a directory and of those above it, the nearest first, say about an
entry. The rules of repositories count only inside of one. -/
def verdict (views : List View) (isDirectory : Bool) : Verdict :=
  let repository := if inRepository views then withinRepository views else []
  (((firstVerdict views Layer.own isDirectory).or
    (firstVerdict views Layer.general isDirectory)).or
    (firstVerdict repository Layer.shared isDirectory)).or
    (firstVerdict repository Layer.exclude isDirectory)

end View

end FormatHost.Ignore
