import FormatHost.NumericSurface

/-! # The typed surface

Hosts with a language of their own call through here. They pass texts and get values or faults,
each fault with the status that the numeric surface would report.
-/

namespace FormatHost

/-- What a fault of the typed surface is about. -/
inductive FaultKind where
  | start
  | format
  | destination
  | argument
deriving DecidableEq

/-- A fault as hosts see it. -/
structure HostFault where
  kind : FaultKind
  code : Nat
  message : String
deriving DecidableEq

namespace HostFault

/-- The kind of fault for a part of the work. -/
def kindOf : Option Category → FaultKind
  | some .start => .start
  | some .destination => .destination
  | some .argument => .argument
  | some .format | some .check | none => .format

def ofError (e : HostError) : HostFault :=
  ⟨kindOf e.status.category, e.status.code, e.message⟩

end HostFault

/-- How far a gate has come, as hosts see it. -/
def Readiness.describeForHost : Readiness → String
  | .unstarted => "Uninitialized"
  | .ready => "Ready"
  | .failed message => "Failed \x7b message: " ++ Text.quote message ++ " \x7d"

namespace Bindings

variable {σ : Type}

def start (gate : Gate σ) : Except HostFault Unit × Gate σ :=
  match gate.start with
  | (true, gate) => (.ok (), gate)
  | (false, gate) =>
    let message :=
      match gate.readiness with
      | .failed message => message
      | _ => Status.startFailed.description
    (.error ⟨.start, Status.startFailed.code, message⟩, gate)

def format (gate : Gate σ) (source : String) : Except HostFault String × Gate σ :=
  match gate.format (.ofBytes (Utf8.ofString source)) with
  | (.error e, gate) => (.error (.ofError e), gate)
  | (.ok result, gate) =>
    match Utf8.decode result.bytes with
    | .ok text => (.ok (String.ofList text), gate)
    | .error fault =>
      (.error ⟨.format, Status.engineFailed.code,
        "engine produced invalid UTF-8: " ++ fault.message⟩, gate)

/-- Formats a tree to a destination. Gives the number of bytes written. -/
def formatTree (gate : Gate σ) (machine : Machine) (destination : Destination)
    (source tree : String) : Except HostFault Nat × Gate σ × Machine :=
  let (outcome, gate, machine) :=
    gate.formatTree machine destination (.ofBytes (Utf8.ofString source))
      (.ofBytes (Utf8.ofString tree))
  (outcome.mapError .ofError, gate, machine)

end Bindings

end FormatHost
