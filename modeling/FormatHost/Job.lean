import FormatHost.Gate
import FormatHost.Diff.Unified
import FormatHost.Inputs
import FormatHost.Intake
import FormatHost.Notice

/-! # Jobs

A job formats standard input, or a list of files one after another. What goes wrong with one file
does not keep the others from being formatted, unless the job is to end there; its status is that
of the first failure. A difference that cannot be shown ends the program at once; the words that the
language's runtime has for that are left out.
-/

namespace FormatHost

/-- An engine behind its gate and the machine it works on. -/
structure Session (σ : Type) where
  gate : Gate σ
  machine : Machine

/-- The media that files are on, by their paths. -/
abbrev Media := String → Medium

def Media.sound : Media := fun _ => .sound

/-- How inputs are to be treated. -/
structure Job where
  mode : Mode
  policy : HeaderPolicy
  /-- Whether the first file that fails ends the job. -/
  failFast : Bool
deriving DecidableEq

/-- What a job came to. -/
structure Ending (σ : Type) where
  status : Status
  notices : List Notice
  session : Session σ

namespace Session

variable {σ : Type}

def write (session : Session σ) (destination : Destination) (bytes : Bytes)
    (medium : Medium := .sound) : Except HostError Unit × Session σ :=
  let (outcome, machine) := destination.stream session.machine [.ok bytes] medium
  (outcome.map fun _ => (), { session with machine := machine })

def format (session : Session σ) (source : Bytes) : Except HostError Bytes × Session σ :=
  let (outcome, gate) := session.gate.format (.ofBytes source)
  (outcome.map Result.bytes, { session with gate := gate })

def formatTree (session : Session σ) (destination : Destination) (source : Bytes)
    (path : String) : Except HostError Unit × Session σ :=
  match session.machine.files.readFile path with
  | .error fault => (.error (.readFailed fault), session)
  | .ok tree =>
    let (outcome, gate, machine) :=
      session.gate.formatTree session.machine destination (.ofBytes source) (.ofBytes tree)
    (outcome.map fun _ => (), ⟨gate, machine⟩)

def display (session : Session σ) (text : String) : Session σ :=
  { session with machine :=
      { session.machine with console := session.machine.console.display text } }

/-- Whether a text that had to be shown got lost between two sessions. -/
def loses (before after : Session σ) : Bool :=
  !before.machine.console.lost && after.machine.console.lost

end Session

/-- The exit code of the program after a job. -/
def Ending.exitCode {σ : Type} (ending : Ending σ) : Nat :=
  if ending.session.machine.console.lost then Console.lostCode else ending.status.code

namespace Job

variable {σ : Type}

/-! ## Standard input -/

/-- Formats a source from standard input to a destination. Says whether the two were found to
differ, which only checking finds out. -/
def formatInput (job : Job) (session : Session σ) (destination : Destination) (source : Bytes) :
    Except HostError Bool × Session σ :=
  let finish (written : Except HostError Unit × Session σ) : Except HostError Bool × Session σ :=
    (written.1.map fun _ => false, written.2)
  if !job.policy.allows source then
    if job.mode = .check then (.ok false, session) else finish (session.write destination source)
  else
    match session.format source with
    | (.error e, session) => (.error e, session)
    | (.ok out, session) =>
      if job.mode = .check then
        if out = source then (.ok false, session)
        else (.ok true, session.display (Diff.unified "stdin" source out))
      else finish (session.write destination out)

/-- Formats what a feed delivers, with the tree in a file if there is one. -/
def runFeed (job : Job) (session : Session σ) (destination : Destination) (tree : Option String)
    (feed : Feed IoFault) : Ending σ :=
  match (feed.readAll Input.standardCapacity).outcome with
  | .error fault => ⟨(HostError.readFailed fault).status, [.inputUnreadable fault], session⟩
  | .ok input =>
    let (outcome, session) :=
      match tree with
      | none => job.formatInput session destination input.bytes
      | some path =>
        let (outcome, session) := session.formatTree destination input.bytes path
        (outcome.map fun _ => false, session)
    match outcome with
    | .error e => ⟨e.status, [.failed e], session⟩
    | .ok true => ⟨.differs, [], session⟩
    | .ok false => ⟨.ok, [], session⟩

/-- Formats what standard input delivers, with the tree in a file if there is one. -/
def runInput (job : Job) (session : Session σ) (destination : Destination) (tree : Option String)
    (script : List (Delivery IoFault)) : Ending σ :=
  job.runFeed session destination tree (Delivery.feed script)

/-! ## Files -/

/-- Formats a file. Says whether formatting changes it. -/
def formatFile (job : Job) (session : Session σ) (path : String) (media : Media := .sound) :
    Except HostError Bool × Session σ :=
  match session.machine.files.readFile path with
  | .error fault => (.error (.readFailed fault), session)
  | .ok source =>
    if !job.policy.allows source then
      match job.mode with
      | .print =>
        let (outcome, session) := session.write .console source
        (outcome.map fun _ => false, session)
      | .check | .replace => (.ok false, session)
    else
      match session.format source with
      | (.error e, session) => (.error e, session)
      | (.ok out, session) =>
        let changed := out != source
        match job.mode with
        | .check =>
          (.ok changed,
            if changed then session.display (Diff.unified path source out) else session)
        | .replace =>
          if changed then
            let (outcome, session) := session.write (.file path) out (media path)
            (outcome.map fun _ => true, session)
          else (.ok false, session)
        | .print =>
          let (outcome, session) := session.write .console out
          (outcome.map fun _ => changed, session)

/-- Treats something that was found: a file is formatted, all else is a failure. -/
def visit (job : Job) (session : Session σ) (found : Found) (media : Media := .sound) :
    Except HostError Bool × Session σ :=
  match found with
  | .file path => job.formatFile session path media
  | found => (.error (.readFailed (.words found.message)), session)

end Job

/-- What became of something that was found. -/
structure Visit where
  found : Found
  outcome : Except HostError Bool

namespace Visit

def failure? (visit : Visit) : Option HostError :=
  match visit.outcome with
  | .error e => some e
  | .ok _ => none

def changed (visit : Visit) : Bool :=
  match visit.outcome with
  | .ok changed => changed
  | .error _ => false

end Visit

namespace Job

variable {σ : Type}

/-- Visits what was found in order, up to the first failure if that ends the job, and not beyond a
difference that cannot be shown. -/
def visitAll (job : Job) (session : Session σ) (all : List Found) (media : Media := .sound) :
    List Visit × Session σ :=
  match all with
  | [] => ([], session)
  | found :: rest =>
    let (outcome, next) := job.visit session found media
    let visit : Visit := ⟨found, outcome⟩
    if session.loses next || job.failFast && visit.failure?.isSome then ([visit], next)
    else
      let (visits, last) := job.visitAll next rest media
      (visit :: visits, last)

def verdict (job : Job) (visits : List Visit) : Status :=
  match visits.findSome? Visit.failure? with
  | some e => e.status
  | none => if job.mode = .check && visits.any Visit.changed then .differs else .ok

/-- What there is to say about a visit. -/
def remark? (job : Job) (visit : Visit) : Option Notice :=
  visit.failure?.map fun e =>
    if job.failFast then .failedAt visit.found.path e else .skipped visit.found.path e

/-- What there is to say after some visits. -/
def remarks (job : Job) (visits : List Visit) : List Notice :=
  visits.filterMap job.remark? ++
    if job.verdict visits = .differs then [.wouldChange (visits.countP Visit.changed)] else []

def runFound (job : Job) (session : Session σ) (found : List Found)
    (media : Media := .sound) : Ending σ :=
  let (visits, last) := job.visitAll session found media
  let notices :=
    if session.loses last then visits.filterMap job.remark? else job.remarks visits
  ⟨job.verdict visits, notices, last⟩

def runPaths (job : Job) (session : Session σ) (env : Environment) (wanted : Inputs.Wanted)
    (paths : List String) : Ending σ :=
  match Inputs.expandAll session.machine.files paths with
  | .error (list, fault) =>
    ⟨(HostError.readFailed fault).status, [.listUnreadable list fault], session⟩
  | .ok paths => job.runFound session (Inputs.collect session.machine.files env wanted paths)

end Job

end FormatHost
