import FormatHost.OsError
import FormatHost.Status
import FormatHost.Text.Quoted

/-! # Faults

What can go wrong, as causes: faults of the operating system, failures of an engine on one input,
and errors of a host operation. Each cause has one status and one message.
-/

namespace FormatHost

/-- Why reading or writing failed. -/
inductive IoFault where
  /-- The operating system refused. -/
  | os (reason : OsError)
  /-- A path holds the character NUL, which no path of the system can. -/
  | nulInPath
  /-- A sink took nothing of what it was given. -/
  | nothingTaken
  /-- Bytes that had to be text were not. -/
  | notText
  /-- A fault known only by its words. -/
  | words (text : String)
  /-- A fault on a path other than the one asked for. -/
  | onPath (cause : IoFault) (path : String)
deriving DecidableEq

def IoFault.message : IoFault → String
  | .os reason => reason.message
  | .nulInPath => "file name contained an unexpected NUL byte"
  | .nothingTaken => "failed to write whole buffer"
  | .notText => "stream did not contain valid UTF-8"
  | .words text => text
  | .onPath cause path => cause.message ++ " at path " ++ Text.quote path

/-- Why an engine did not format an input. -/
inductive FormatFailure where
  | sourceRejected (message : String)
  | treeRejected (message : String)
  | engine (message : String)
  | unsupported (what : String)
  | unknownStatus (code : Int)
deriving DecidableEq

namespace FormatFailure

def status : FormatFailure → Status
  | .sourceRejected _ => .sourceRejected
  | .treeRejected _ => .treeRejected
  | .engine _ | .unsupported _ | .unknownStatus _ => .engineFailed

def message : FormatFailure → String
  | .sourceRejected text => "syntax error: " ++ text
  | .treeRejected text => "invalid syntax tree: " ++ text
  | .engine text => "engine error: " ++ text
  | .unsupported what => "engine does not support " ++ what
  | .unknownStatus code => "engine returned unknown status " ++ toString code

/-- The failure that a status number from another engine stands for. A number that means success
here is as unknown as any other. -/
def ofStatus (raw : Int) : FormatFailure :=
  match Status.ofCode? raw with
  | some .sourceRejected => .sourceRejected "rejected by engine"
  | some .treeRejected => .treeRejected "rejected by engine"
  | some .ok | none => .unknownStatus raw
  | some status => .engine status.description

end FormatFailure

/-- Why an operation of the host failed. -/
inductive HostError where
  | startFailed (message : String)
  | notStarted
  | format (failure : FormatFailure)
  | badFileName (path : String)
  | openFailed (target : String) (cause : IoFault)
  | writeFailed (target : String) (cause : IoFault)
  | readFailed (cause : IoFault)
  | badArgument (what : String)
deriving DecidableEq

namespace HostError

def status : HostError → Status
  | .startFailed _ | .notStarted => .startFailed
  | .format failure => failure.status
  | .badFileName _ => .badFileName
  | .openFailed _ _ => .openFailed
  | .writeFailed _ _ | .readFailed _ => .transferFailed
  | .badArgument _ => .badArgument

def message : HostError → String
  | .startFailed text => "engine initialization failed: " ++ text
  | .notStarted => "engine used before initialization"
  | .format failure => failure.message
  | .badFileName path => "bad destination path: " ++ path
  | .openFailed target cause => "could not open " ++ target ++ ": " ++ cause.message
  | .writeFailed target cause => "could not write " ++ target ++ ": " ++ cause.message
  | .readFailed cause => "could not read input: " ++ cause.message
  | .badArgument what => "invalid argument: " ++ what

/-- Whether an error is about the place the output was meant for. -/
def isDestinationFailure : HostError → Bool
  | .badFileName _ | .openFailed _ _ | .writeFailed _ _ => true
  | _ => false

/-- No error has the status of success. -/
theorem status_ne_ok (e : HostError) : e.status ≠ .ok := by
  cases e with
  | format failure => cases failure <;> simp [status, FormatFailure.status]
  | _ => simp [status]

end HostError

/-- Two steps succeed if the first one does and the second one does on what it gives. -/
theorem bind_eq_ok_iff {ε α β : Type} {x : Except ε α} {f : α → Except ε β} {result : β} :
    x >>= f = .ok result ↔ ∃ a, x = .ok a ∧ f a = .ok result := by
  cases x with
  | error e => simp [bind, Except.bind]
  | ok a => simp [bind, Except.bind]

end FormatHost
