/-! # Status codes

The numbers by which results cross the process and the library boundary, with the part of the
work that each failure belongs to and its description.
-/

namespace FormatHost

/-- The part of the work that a failure belongs to. -/
inductive Category where
  | start
  | format
  | destination
  | argument
  | check
deriving DecidableEq

/-- The result of an operation as seen from outside. -/
inductive Status where
  | ok
  | startFailed
  | sourceRejected
  | treeRejected
  | engineFailed
  | transferFailed
  | badFileName
  | openFailed
  | badArgument
  | differs
deriving DecidableEq

namespace Status

/-- Every status, in the order of their codes. -/
def all : List Status :=
  [.ok, .startFailed, .sourceRejected, .treeRejected, .engineFailed, .transferFailed, .badFileName,
    .openFailed, .badArgument, .differs]

/-- The number of a status; it is also the exit code. -/
def code : Status → Nat
  | .ok => 0
  | .startFailed => 1
  | .sourceRejected => 2
  | .treeRejected => 3
  | .engineFailed => 4
  | .transferFailed => 5
  | .badFileName => 6
  | .openFailed => 7
  | .badArgument => 8
  | .differs => 9

def ofCode? (raw : Int) : Option Status :=
  all.find? fun status => (status.code : Int) == raw

/-- The part of the work a status blames, if it is a failure. -/
def category : Status → Option Category
  | .ok => none
  | .startFailed => some .start
  | .sourceRejected | .treeRejected | .engineFailed => some .format
  | .transferFailed | .badFileName | .openFailed => some .destination
  | .badArgument => some .argument
  | .differs => some .check

def description : Status → String
  | .ok => "ok"
  | .startFailed => "engine initialization failed"
  | .sourceRejected => "input could not be parsed"
  | .treeRejected => "syntax tree could not be decoded"
  | .engineFailed => "engine failed to format input"
  | .transferFailed => "destination could not be written"
  | .badFileName => "destination path is not valid"
  | .openFailed => "destination could not be opened"
  | .badArgument => "invalid boundary argument"
  | .differs => "formatting would change input"

def display (status : Status) : String :=
  status.description ++ " (code " ++ toString status.code ++ ")"

/-- Numbers and statuses correspond. -/
@[simp] theorem ofCode?_code (status : Status) : ofCode? status.code = some status := by
  cases status <;> rfl

end Status

end FormatHost
