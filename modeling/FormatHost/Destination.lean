import FormatHost.Console
import FormatHost.Files.FileSystem

/-! # Destinations

Output goes to the console or to a file. A file is written beside its target and put in the
target's place only when all of it is there, so that a failure leaves every file as it was; what
has been printed on the console stays there.
-/

namespace FormatHost

/-- Where output goes. -/
inductive Destination where
  | console
  | file (path : String)
deriving DecidableEq

/-- The files and the console that output can go to. -/
structure Machine where
  files : FileSystem
  console : Console

/-- The calls by which a file is written. -/
inductive FileCall where
  | create
  | setMode (mode : Nat)
  /-- Puts bytes behind those that were written before. -/
  | write (before bytes : Bytes)
  | flush
  | sync
  | move
deriving DecidableEq

/-- The medium that files are on, by the calls that it refuses. -/
structure Medium where
  refuses : FileCall → Option IoFault
  /-- Whether a file that is written to may go on lending rights. The system takes that from files
  that anyone without privileges writes to. -/
  privileged : Bool

/-- An unfinished file. -/
structure Draft where
  medium : Medium
  /-- The path of the directory that it is in, by which it is found again in the end. -/
  directory : String
  name : String
  /-- The place where it was made. -/
  place : Location

/-- What a writer writes to. -/
inductive Channel where
  | console
  /-- The unfinished file, and the path that it is moved onto in the end. -/
  | file (draft : Draft) (target : String)

/-- An open destination. -/
structure Writer where
  /-- The name of the destination in messages. -/
  target : String
  channel : Channel
  /-- What has been written through the writer. -/
  written : Bytes

/-- What became of a stream of tokens. -/
structure Emission where
  outcome : Except HostError Unit
  /-- How many tokens were taken from the stream, the one that failed included. -/
  taken : Nat
  writer : Writer
  console : Console

namespace Medium

def sound : Medium :=
  ⟨fun _ => none, true⟩

def attempt (medium : Medium) (call : FileCall) : Except IoFault Unit :=
  match medium.refuses call with
  | some fault => .error fault
  | none => .ok ()

/-- The mode of a file after some bytes were written to it. -/
def modeAfter (medium : Medium) (bytes : Bytes) (mode : Nat) : Nat :=
  if medium.privileged || bytes.isEmpty then mode else FileSystem.strippedMode mode

end Medium

namespace Draft

/-- The mode of an unfinished file, until it gets another one. -/
def privateMode : Nat := 0o600

/-- A number with at least six digits. -/
def sixDigits (n : Nat) : String :=
  let digits := toString n
  String.ofList (List.replicate (6 - digits.length) '0') ++ digits

/-- The name of the unfinished file with a number. -/
def nameOf (n : Nat) : String :=
  ".fmtbridge-" ++ sixDigits n ++ ".tmp"

/-- The first number whose name is free in a directory. -/
def freeNumber (files : FileSystem) (directory : Location) : Nat :=
  ((List.range (files.entries.length + 1)).find? fun n =>
    (files.get? (directory ++ [nameOf n])).isNone).getD 0

def path (files : FileSystem) (directory name : String) : String :=
  Path.join (Path.join files.workingDirectory.path directory) name

/-- Makes an unfinished file in the directory of a path. -/
def make (medium : Medium) (files : FileSystem) (directory : String) :
    Except IoFault (Draft × FileSystem) :=
  let attempt : Except IoFault Location := do
    FileSystem.checkPath (path files directory (nameOf 0))
    let place ← files.findDirectory directory
    medium.attempt .create
    .ok place
  match attempt with
  | .error fault => .error (.onPath fault (path files directory (nameOf 0)))
  | .ok place =>
    let name := nameOf (freeNumber files place)
    .ok (⟨medium, directory, name, place ++ [name]⟩,
      files.put (place ++ [name]) (.file [] privateMode))

/-- Gives an unfinished file in which nothing has been written a mode. -/
def setMode (draft : Draft) (files : FileSystem) (mode : Nat) : Except IoFault FileSystem := do
  draft.medium.attempt (.setMode mode)
  .ok (files.put draft.place (.file [] mode))

/-- Makes sure that an unfinished file is stored and moves it onto a path. -/
def complete (draft : Draft) (files : FileSystem) (target : String) :
    Except IoFault FileSystem := do
  draft.medium.attempt .flush
  draft.medium.attempt .sync
  draft.medium.attempt .move
  files.rename draft.directory draft.name target

/-- Gives an unfinished file up. It disappears, if it is still found by its path. -/
def discard (draft : Draft) (files : FileSystem) : FileSystem :=
  files.removeFrom draft.directory draft.name

end Draft

namespace Destination

/-- The destination of a path; without a path it is the console. -/
def ofPath? : Option String → Destination
  | none => .console
  | some path => .file path

def describe : Destination → String
  | .console => "<stdout>"
  | .file path => path

/-- The path that a file written to `path` ends up at: links to an existing file are followed, any
other path is kept. -/
def finalPath (files : FileSystem) (path : String) : String :=
  match files.canonical? path with
  | some place => place.path
  | none => path

def directoryOf (path : String) : String :=
  if (Path.parent path).isEmpty then "." else Path.parent path

/-- Opens a writer for a file: the unfinished file is made at once and gets the mode of the file
that it will replace. -/
def openFile (medium : Medium) (files : FileSystem) (path : String) :
    Except HostError Writer × FileSystem :=
  if (Path.fileName? path).isNone then (.error (.badFileName path), files)
  else if files.isDirectory path then
    (.error (.openFailed path (.words "destination is a directory")), files)
  else
    let final := finalPath files path
    let mode := (files.mode? final).getD FileSystem.standardMode
    match Draft.make medium files (directoryOf final) with
    | .error fault => (.error (.openFailed path fault), files)
    | .ok (draft, made) =>
      match draft.setMode made mode with
      | .error fault => (.error (.openFailed path fault), draft.discard made)
      | .ok ready => (.ok ⟨path, .file draft final, []⟩, ready)

def startOn (medium : Medium) (destination : Destination) (files : FileSystem) :
    Except HostError Writer × FileSystem :=
  match destination with
  | .console => (.ok ⟨describe .console, .console, []⟩, files)
  | .file path => openFile medium files path

def start (destination : Destination) (files : FileSystem) :
    Except HostError (Writer × FileSystem) :=
  match destination.startOn .sound files with
  | (.error e, _) => .error e
  | (.ok writer, files) => .ok (writer, files)

end Destination

namespace Writer

def write (w : Writer) (console : Console) (bytes : Bytes) : Except HostError (Writer × Console) :=
  match w.channel with
  | .file draft _ =>
    match draft.medium.attempt (.write w.written bytes) with
    | .ok () => .ok ({ w with written := w.written ++ bytes }, console)
    | .error fault => .error (.writeFailed w.target fault)
  | .console =>
    match console.print bytes with
    | .ok console => .ok ({ w with written := w.written ++ bytes }, console)
    | .error fault => .error (.writeFailed w.target fault)

/-- Writes tokens in order until one of them, or writing it, fails. -/
def writeTokens (w : Writer) (console : Console) :
    List (Except FormatFailure Bytes) → Emission
  | [] => ⟨.ok (), 0, w, console⟩
  | .error failure :: _ => ⟨.error (.format failure), 1, w, console⟩
  | .ok token :: rest =>
    match w.write console token with
    | .error e => ⟨.error e, 1, w, console⟩
    | .ok (w, console) =>
      let emission := w.writeTokens console rest
      { emission with taken := emission.taken + 1 }

/-- Gives a writer up, and with it an unfinished file. -/
def discard (w : Writer) (files : FileSystem) : FileSystem :=
  match w.channel with
  | .console => files
  | .file draft _ => draft.discard files

/-- The files after what was written has gone into the unfinished file. -/
def settle (w : Writer) (files : FileSystem) (draft : Draft) : FileSystem :=
  match files.get? draft.place with
  | some (.file _ mode) =>
    files.put draft.place (.file w.written (draft.medium.modeAfter w.written mode))
  | _ => files

/-- Ends the writing: a file takes the place of its target. Gives the number of bytes written. -/
def finish (w : Writer) (machine : Machine) : Except HostError Nat × Machine :=
  match w.channel with
  | .console =>
    match machine.console.flush with
    | .ok () => (.ok w.written.length, machine)
    | .error fault => (.error (.writeFailed w.target fault), machine)
  | .file draft target =>
    let settled := w.settle machine.files draft
    match draft.complete settled target with
    | .ok files => (.ok w.written.length, { machine with files := files })
    | .error fault =>
      (.error (.writeFailed w.target fault), { machine with files := w.discard settled })

end Writer

namespace Destination

/-- Lets a stream of tokens be emitted to a destination. Gives the number of bytes written, the
number of tokens taken from the stream, and what the machine is like afterwards. -/
def fill (destination : Destination) (machine : Machine) (emit : Writer → Console → Emission)
    (medium : Medium := .sound) : Except HostError Nat × Nat × Machine :=
  match destination.startOn medium machine.files with
  | (.error e, files) => (.error e, 0, { machine with files := files })
  | (.ok writer, files) =>
    let emission := emit writer machine.console
    match emission.outcome with
    | .error e => (.error e, emission.taken, ⟨emission.writer.discard files, emission.console⟩)
    | .ok () =>
      let (outcome, machine) := emission.writer.finish ⟨files, emission.console⟩
      (outcome, emission.taken, machine)

/-- Streams tokens to a destination. Gives the number of bytes written. -/
def stream (destination : Destination) (machine : Machine)
    (tokens : List (Except FormatFailure Bytes)) (medium : Medium := .sound) :
    Except HostError Nat × Machine :=
  let (outcome, _, machine) :=
    destination.fill machine (fun writer console => writer.writeTokens console tokens) medium
  (outcome, machine)

end Destination

end FormatHost
