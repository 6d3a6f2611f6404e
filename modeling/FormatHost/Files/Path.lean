import FormatHost.Text.Blank

/-! # Paths as text

The lexical rules of paths: names are separated by slashes, empty names mean nothing, and `.`
means the same place. Nothing here looks at the files themselves.
-/

namespace FormatHost.Path

/-- The pieces of a path between its slashes, empty ones included. -/
def pieces (path : String) : List String :=
  (Text.splitOn '/' path.toList).map String.ofList

def ofPieces (pieces : List String) : String :=
  String.intercalate "/" pieces

def isAbsolute (path : String) : Bool :=
  path.toList.head? == some '/'

def endsWithSlash (path : String) : Bool :=
  path.toList.getLast? == some '/'

def names (path : String) : List String :=
  (pieces path).filter (· != "")

/-- The steps from where a path starts to where it leads. A slash at the end asks for a directory,
as the name `.` does. -/
def steps (path : String) : List String :=
  if endsWithSlash path then names path ++ ["."] else names path

/-- Whether a piece means nothing behind another one. -/
def isIdle (piece : String) : Bool :=
  piece == "" || piece == "."

/-- Whether a path is a name and nothing else that means anything. -/
def isJust (name path : String) : Bool :=
  match pieces path with
  | first :: rest => first == name && rest.all isIdle
  | [] => false

/-- Whether a path is the name `.`, perhaps more than once. -/
def isHere (path : String) : Bool :=
  isJust "." path

/-- The last name of a path, if it is the name of something. -/
def fileName? (path : String) : Option String :=
  match ((names path).filter (· != ".")).getLast? with
  | some ".." => none
  | other => other

/-- Pieces without those at the end that mean nothing; the first piece always means something. -/
def dropIdle (pieces : List String) : List String :=
  match pieces with
  | [] => []
  | first :: rest =>
    first :: (rest.reverse.dropWhile isIdle).reverse

/-- The path of the directory that the last name of a path is in; empty for a lone name. -/
def parent (path : String) : String :=
  match dropIdle (dropIdle (pieces path)).dropLast with
  | [""] => "/"
  | rest => ofPieces rest

/-- A path as seen from another one. -/
def join (base path : String) : String :=
  if isAbsolute path || base.isEmpty then path
  else if endsWithSlash base then base ++ path
  else base ++ "/" ++ path

/-- What follows the last dot of a name, unless the name starts with that dot. -/
def extension? (name : String) : Option String :=
  let backwards := name.toList.reverse
  match backwards.dropWhile (· != '.') with
  | [] | [_] => none
  | _ :: _ :: _ => some (String.ofList (backwards.takeWhile (· != '.')).reverse)

end FormatHost.Path
