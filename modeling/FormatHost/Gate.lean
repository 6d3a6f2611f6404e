import FormatHost.Destination
import FormatHost.Engine

/-! # Gates

A gate is an engine behind a barrier: nothing reaches the engine before it was started with
success, and it is started at most once. The outcome of the start is kept for good.
-/

namespace FormatHost

/-- An engine, its state and the outcome of its start, as far as there was one. -/
structure Gate (σ : Type) where
  engine : Engine σ
  state : σ
  outcome : Option (Except String Unit)

/-- How far a gate has come. -/
inductive Readiness where
  | unstarted
  | ready
  | failed (message : String)
deriving DecidableEq

namespace Readiness

def describe : Readiness → String
  | .unstarted => "Uninitialized"
  | .ready => "Ready"
  | .failed message => "Failed(" ++ Text.quote message ++ ")"

end Readiness

namespace Gate

variable {σ : Type}

/-- A gate whose engine has not been started. -/
def fresh (engine : Engine σ) (state : σ) : Gate σ :=
  ⟨engine, state, none⟩

def readiness (gate : Gate σ) : Readiness :=
  match gate.outcome with
  | none => .unstarted
  | some (.ok ()) => .ready
  | some (.error message) => .failed message

def describe (gate : Gate σ) : String :=
  "Bridge \x7b handle: EngineHandle \x7b engine: " ++ Text.quote gate.engine.name ++ ", state: " ++
    gate.readiness.describe ++ " \x7d \x7d"

/-- Starts the engine, unless that was done before. Says whether the one start succeeded. -/
def start (gate : Gate σ) : Bool × Gate σ :=
  match gate.outcome with
  | some (.ok ()) => (true, gate)
  | some (.error _) => (false, gate)
  | none =>
    match gate.engine.start gate.state with
    | (.ok (), state) => (true, { gate with state := state, outcome := some (.ok ()) })
    | (.error e, state) =>
      (false, { gate with state := state, outcome := some (.error e.message) })

/-- The error of every operation that needs the engine while it cannot be used. -/
def barrier (gate : Gate σ) : Except HostError Unit :=
  match gate.outcome with
  | some (.ok ()) => .ok ()
  | some (.error message) => .error (.startFailed message)
  | none => .error .notStarted

def format (gate : Gate σ) (source : Buffer) : Except HostError Result × Gate σ :=
  match gate.barrier, source.read with
  | .error e, _ => (.error e, gate)
  | .ok (), .error e => (.error e, gate)
  | .ok (), .ok bytes =>
    let (outcome, state) := gate.engine.format gate.state bytes
    (outcome.mapError .format, { gate with state := state })

def render (gate : Gate σ) (source tree : Buffer) :
    Except HostError (List Bytes) × Gate σ :=
  match gate.barrier, source.read, tree.read with
  | .error e, _, _ => (.error e, gate)
  | .ok (), .error e, _ => (.error e, gate)
  | .ok (), .ok _, .error e => (.error e, gate)
  | .ok (), .ok bytes, .ok nodes =>
    let (outcome, state) := gate.engine.render gate.state bytes nodes
    (outcome.mapError .format, { gate with state := state })

/-- Formats a tree to a destination, which is opened only once the tree has turned out well. Gives
the number of bytes written. -/
def formatTree (gate : Gate σ) (machine : Machine) (destination : Destination)
    (source tree : Buffer) : Except HostError Nat × Gate σ × Machine :=
  match gate.render source tree with
  | (.error e, gate) => (.error e, gate, machine)
  | (.ok tokens, gate) =>
    let (outcome, machine) := destination.stream machine (tokens.map .ok)
    (outcome, gate, machine)

end Gate

end FormatHost
