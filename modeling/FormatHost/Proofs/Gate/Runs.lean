import FormatHost.Job

/-! # Operations on a gate and the calls behind it

Whatever a host asks of a gate, one operation does one of four things: it leaves the gate alone,
starts an engine that was not started, or lets a started engine format or render. An engine that
keeps a log of its calls shows which one it was and behaves like the engine itself otherwise.
-/

namespace FormatHost

/-- What a host can ask of an engine behind its gate. -/
inductive Operation where
  | start
  | readiness
  | format (source : Buffer)
  | formatTree (destination : Destination) (source tree : Buffer)
  | formatToConsole (source tree : Buffer)
  | formatToFile (path : String) (source tree : Buffer)
deriving DecidableEq

/-- What a host gets back. -/
inductive Answer where
  | started (succeeded : Bool)
  | readiness (readiness : Readiness)
  | formatted (outcome : Except HostError Result)
  | written (outcome : Except HostError Nat)

/-- What an engine was asked to do, and how its start turned out. -/
inductive Call where
  | start (outcome : Except HostError Unit)
  | format (source : Bytes)
  | render (source tree : Bytes)

/-- Whether an operation formats something. -/
def Operation.formats : Operation → Bool
  | .start | .readiness => false
  | _ => true

/-- Why an operation has failed to format something. -/
def Answer.fault? : Answer → Option HostError
  | .formatted (.error e) | .written (.error e) => some e
  | _ => none

def Call.isStart : Call → Bool
  | .start _ => true
  | _ => false

variable {σ : Type}

namespace Session

def formatTo (session : Session σ) (destination : Destination) (source tree : Buffer) :
    Answer × Session σ :=
  let (outcome, gate, machine) := session.gate.formatTree session.machine destination source tree
  (.written outcome, ⟨gate, machine⟩)

def perform (session : Session σ) : Operation → Answer × Session σ
  | .start =>
    let (succeeded, gate) := session.gate.start
    (.started succeeded, { session with gate := gate })
  | .readiness => (.readiness session.gate.readiness, session)
  | .format source =>
    let (outcome, gate) := session.gate.format source
    (.formatted outcome, { session with gate := gate })
  | .formatTree destination source tree => session.formatTo destination source tree
  | .formatToConsole source tree => session.formatTo .console source tree
  | .formatToFile path source tree => session.formatTo (.file path) source tree

def run (session : Session σ) : List Operation → List Answer × Session σ
  | [] => ([], session)
  | operation :: rest =>
    let (answer, next) := session.perform operation
    let (answers, last) := next.run rest
    (answer :: answers, last)

end Session

/-! ## Engines that keep a log -/

/-- The engine with a log of its calls. -/
def Engine.logged (engine : Engine σ) : Engine (σ × List Call) where
  name := engine.name
  start s :=
    let (outcome, state) := engine.start s.1
    (outcome, state, s.2 ++ [.start outcome])
  format s source :=
    let (outcome, state) := engine.format s.1 source
    (outcome, state, s.2 ++ [.format source])
  render s source tree :=
    let (outcome, state) := engine.render s.1 source tree
    (outcome, state, s.2 ++ [.render source tree])

def Gate.logged (gate : Gate σ) (calls : List Call) : Gate (σ × List Call) :=
  ⟨gate.engine.logged, (gate.state, calls), gate.outcome⟩

def Session.logged (session : Session σ) (calls : List Call) : Session (σ × List Call) :=
  ⟨session.gate.logged calls, session.machine⟩

/-! ## One operation -/

namespace Gate

/-- What one operation can do to a gate, and the calls of the engine that it takes. -/
inductive Step (gate : Gate σ) : List Call → Gate σ → Prop
  | rest : Step gate [] gate
  | start {outcome : Except HostError Unit} {state : σ} (unstarted : gate.outcome = none)
      (started : gate.engine.start gate.state = (outcome, state)) :
      Step gate [.start outcome]
        { gate with state := state, outcome := some (outcome.mapError HostError.message) }
  | format (ready : gate.outcome = some (.ok ())) (source : Bytes) :
      Step gate [.format source] { gate with state := (gate.engine.format gate.state source).2 }
  | render (ready : gate.outcome = some (.ok ())) (source tree : Bytes) :
      Step gate [.render source tree]
        { gate with state := (gate.engine.render gate.state source tree).2 }

theorem barrier_eq_ok_iff {gate : Gate σ} :
    gate.barrier = .ok () ↔ gate.outcome = some (.ok ()) := by
  unfold barrier
  split <;> simp_all

theorem start_of_unstarted {gate : Gate σ} {outcome : Except HostError Unit} {state : σ}
    (unstarted : gate.outcome = none)
    (started : gate.engine.start gate.state = (outcome, state)) :
    gate.start = (outcome.isOk,
      { gate with state := state, outcome := some (outcome.mapError HostError.message) }) := by
  rw [start, unstarted, started]
  cases outcome with
  | error e => rfl
  | ok => rfl

theorem start_of_started {gate : Gate σ} {outcome : Except String Unit}
    (recorded : gate.outcome = some outcome) : gate.start = (outcome.isOk, gate) := by
  rw [start, recorded]
  cases outcome with
  | error e => rfl
  | ok => rfl

private theorem start_step (gate : Gate σ) :
    ∃ calls, gate.Step calls gate.start.2 ∧
      ∀ before, (gate.logged before).start =
        (gate.start.1, gate.start.2.logged (before ++ calls)) := by
  cases recorded : gate.outcome with
  | none =>
    rcases started : gate.engine.start gate.state with ⟨outcome, state⟩
    rw [start_of_unstarted recorded started]
    refine ⟨_, .start recorded started, fun before => ?_⟩
    have logged : (gate.logged before).engine.start (gate.logged before).state =
        (outcome, state, before ++ [.start outcome]) := by
      simp only [Gate.logged, Engine.logged, started]
    exact start_of_unstarted recorded logged
  | some outcome =>
    rw [start_of_started recorded]
    refine ⟨[], .rest, fun before => ?_⟩
    rw [List.append_nil]
    exact start_of_started recorded

private theorem format_step (gate : Gate σ) (source : Buffer) :
    ∃ calls, gate.Step calls (gate.format source).2 ∧
      ∀ before, (gate.logged before).format source =
        ((gate.format source).1, (gate.format source).2.logged (before ++ calls)) := by
  have same : ∀ before, (gate.logged before).barrier = gate.barrier := fun _ => rfl
  unfold format
  simp only [same]
  cases barrier : gate.barrier with
  | error e => exact ⟨[], .rest, fun before => by simp⟩
  | ok =>
    have ready := barrier_eq_ok_iff.mp barrier
    cases source.read with
    | error e => exact ⟨[], .rest, fun before => by simp⟩
    | ok bytes => exact ⟨_, .format ready bytes, fun before => rfl⟩

private theorem render_step (gate : Gate σ) (source tree : Buffer) :
    ∃ calls, gate.Step calls (gate.render source tree).2 ∧
      ∀ before, (gate.logged before).render source tree =
        ((gate.render source tree).1, (gate.render source tree).2.logged (before ++ calls)) := by
  have same : ∀ before, (gate.logged before).barrier = gate.barrier := fun _ => rfl
  unfold render
  simp only [same]
  cases barrier : gate.barrier with
  | error e => exact ⟨[], .rest, fun before => by simp⟩
  | ok =>
    have ready := barrier_eq_ok_iff.mp barrier
    cases source.read with
    | error e => exact ⟨[], .rest, fun before => by simp⟩
    | ok bytes =>
      cases tree.read with
      | error e => exact ⟨[], .rest, fun before => by simp⟩
      | ok nodes => exact ⟨_, .render ready bytes nodes, fun before => rfl⟩

end Gate

namespace Session

theorem formatTo_gate (session : Session σ) (destination : Destination) (source tree : Buffer) :
    (session.formatTo destination source tree).2.gate = (session.gate.render source tree).2 := by
  unfold formatTo Gate.formatTree
  rcases session.gate.render source tree with ⟨⟨e⟩ | ⟨tokens⟩, gate⟩
  · rfl
  · rfl

theorem formatTo_step (session : Session σ) (destination : Destination) (source tree : Buffer) :
    ∃ calls, session.gate.Step calls (session.formatTo destination source tree).2.gate ∧
      ∀ before, (session.logged before).formatTo destination source tree =
        ((session.formatTo destination source tree).1,
          (session.formatTo destination source tree).2.logged (before ++ calls)) := by
  obtain ⟨calls, step, logged⟩ := session.gate.render_step source tree
  rw [formatTo_gate]
  refine ⟨calls, step, fun before => ?_⟩
  unfold formatTo Gate.formatTree
  simp only [Session.logged, logged]
  rcases session.gate.render source tree with ⟨⟨e⟩ | ⟨tokens⟩, gate⟩
  · rfl
  · rfl

/-- Every operation is one step of the gate, and the logged engine writes down just its calls. -/
theorem perform_step (session : Session σ) (operation : Operation) :
    ∃ calls, session.gate.Step calls (session.perform operation).2.gate ∧
      ∀ before, (session.logged before).perform operation =
        ((session.perform operation).1,
          (session.perform operation).2.logged (before ++ calls)) := by
  cases operation with
  | start =>
    obtain ⟨calls, step, logged⟩ := session.gate.start_step
    refine ⟨calls, step, fun before => ?_⟩
    simp only [perform, Session.logged, logged]
  | readiness =>
    refine ⟨[], .rest, fun before => ?_⟩
    rw [List.append_nil]
    rfl
  | format source =>
    obtain ⟨calls, step, logged⟩ := session.gate.format_step source
    refine ⟨calls, step, fun before => ?_⟩
    simp only [perform, Session.logged, logged]
  | formatTree destination source tree => exact session.formatTo_step destination source tree
  | formatToConsole source tree => exact session.formatTo_step .console source tree
  | formatToFile path source tree => exact session.formatTo_step (.file path) source tree

end Session

end FormatHost
