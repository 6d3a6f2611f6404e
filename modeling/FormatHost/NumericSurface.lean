import FormatHost.Gate
import FormatHost.Engine.Foreign

/-! # The numeric surface

Hosts that know nothing but buffers and numbers call through here. Every guarded call reports a
status and leaves the words of its failure, or nothing, as the last error.
-/

namespace FormatHost

/-- What the callers of the numeric surface share. -/
structure NumericSurface (σ : Type) where
  gate : Gate σ
  machine : Machine
  lastError : Option String

/-- What a host's callback hands over when it is asked for the next token. -/
structure Pull where
  code : Int
  token : Buffer
deriving DecidableEq

namespace Pull

/-- The failure of a stream that its host broke off. -/
def aborted (code : Int) : FormatFailure :=
  .engine ("token source aborted with " ++ toString code)

def token? (pull : Pull) : Except FormatFailure (Option Bytes) :=
  if pull.code = 1 then
    match pull.token.read with
    | .ok bytes => .ok (some bytes)
    | .error e => .error (.engine e.message)
  else if pull.code = 0 then .ok none
  else .error (aborted pull.code)

/-- Writes what a callback hands over until it ends the stream or something fails. Each token is
written before the next is asked for; a callback with nothing more to say ends the stream. -/
def writeAll (writer : Writer) (console : Console) : List Pull → Emission
  | [] => ⟨.ok (), 1, writer, console⟩
  | pull :: rest =>
    match pull.token? with
    | .error failure => ⟨.error (.format failure), 1, writer, console⟩
    | .ok none => ⟨.ok (), 1, writer, console⟩
    | .ok (some token) =>
      match writer.write console token with
      | .error e => ⟨.error e, 1, writer, console⟩
      | .ok (writer, console) =>
        let emission := writeAll writer console rest
        { emission with taken := emission.taken + 1 }

end Pull

namespace NumericSurface

variable {σ : Type}

/-- A text as far as it can be handed out with a NUL behind it: none if there is one in it. -/
def terminated? (text : String) : Option String :=
  if text.toList.contains '\x00' then none else some text

/-- The words of an error as the surface keeps them, with a space for every NUL. -/
def keptText (text : String) : String :=
  (terminated? (String.ofList (text.toList.map fun c => if c = '\x00' then ' ' else c))).getD ""

/-- Ends a guarded call: the status of its outcome, and its error as the last one. -/
def close {α : Type} (surface : NumericSurface σ) (outcome : Except HostError α) :
    Int × NumericSurface σ :=
  match outcome with
  | .ok _ => (Status.ok.code, { surface with lastError := none })
  | .error e => (e.status.code, { surface with lastError := some (keptText e.message) })

/-- Starts the engine. Gives 0 for success and 1 for failure. -/
def start (surface : NumericSurface σ) : Int × NumericSurface σ :=
  let (_, gate) := surface.gate.start
  let (status, surface) := { surface with gate := gate }.close gate.barrier
  (if status = Status.ok.code then 0 else 1, surface)

/-- Formats a whole text. Gives the status, and the result unless the status is a failure. -/
def format (surface : NumericSurface σ) (source : Buffer) :
    (Int × Option Result) × NumericSurface σ :=
  let (outcome, gate) := surface.gate.format source
  let (status, surface) := { surface with gate := gate }.close outcome
  ((status, outcome.toOption), surface)

def formatTree (surface : NumericSurface σ) (destination : Destination) (source tree : Buffer) :
    Int × NumericSurface σ :=
  let (outcome, gate, machine) :=
    surface.gate.formatTree surface.machine destination source tree
  { surface with gate := gate, machine := machine }.close outcome

/-- The path in a buffer. Null is no path; any other must be text, and not empty. -/
def decodePath (path : Buffer) : Except HostError (Option String) :=
  if path.isNull then .ok none
  else do
    let bytes ← path.read
    match Utf8.toString? bytes with
    | none => .error (.badFileName (String.ofList (Utf8.decodeLossy bytes)))
    | some text => if text.isEmpty then .error (.badFileName "") else .ok (some text)

def formatToFile (surface : NumericSurface σ) (path source tree : Buffer) :
    Int × NumericSurface σ :=
  match decodePath path with
  | .error e => surface.close (.error e : Except HostError Unit)
  | .ok none => surface.close (.error (.badFileName "") : Except HostError Unit)
  | .ok (some path) => surface.formatTree (.file path) source tree

/-- Streams the tokens of a callback to the file of a path, or to the console without one. Gives
the status and the number of times the callback was called. -/
def writeTokens (surface : NumericSurface σ) (path : Buffer) (callback : Option (List Pull))
    (medium : Medium := .sound) : (Int × Nat) × NumericSurface σ :=
  match callback, decodePath path with
  | none, _ =>
    let (status, surface) :=
      surface.close (.error (.badArgument "missing token callback") : Except HostError Unit)
    ((status, 0), surface)
  | some _, .error e =>
    let (status, surface) := surface.close (.error e : Except HostError Unit)
    ((status, 0), surface)
  | some pulls, .ok path =>
    let (outcome, calls, machine) :=
      (Destination.ofPath? path).fill surface.machine
        (fun writer console => Pull.writeAll writer console pulls) medium
    let (status, surface) := { surface with machine := machine }.close outcome
    ((status, calls), surface)

/-- The surface over the built-in engine with the standard layout. -/
def fresh (machine : Machine) : NumericSurface Unit :=
  ⟨.fresh (.builtin Unit .standard) (), machine, none⟩

/-- The functions that the surface exports to other hosts. -/
def entryPoints : EntryPoints (NumericSurface σ) where
  init surface := surface.start
  formatBuffer surface source :=
    let ((status, result), surface) := surface.format source
    (⟨status, result.map fun result => .ofBytes result.bytes⟩, surface)

def library : Library (NumericSurface σ) where
  exports name := (Library.functionNames.map (Library.symbol Engine.standardStem)).contains name
  entryPoints _ := entryPoints

end NumericSurface

end FormatHost
