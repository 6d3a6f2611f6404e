import FormatHost.Proofs.Gate.Runs

/-! # Nothing passes a gate that is not open

Over any run of operations the engine is started at most once and used only after a start that
succeeded. How the start turned out is kept for good: it decides every later answer to a start, and
until it is a success every operation that formats is refused for that reason before anything else
is looked at. The invariant says which calls an engine can have seen at each outcome.
-/

namespace FormatHost

variable {σ : Type}

/-- How ready a gate is after some calls of its engine. -/
def Readiness.after : List Call → Readiness
  | .start (.ok ()) :: _ => .ready
  | .start (.error e) :: _ => .failed e.message
  | _ => .unstarted

namespace Gate

variable {gate next : Gate σ} {calls before : List Call}

/-- The calls that the engine has seen, given how its start turned out. -/
def HasSeen (gate : Gate σ) (calls : List Call) : Prop :=
  match gate.outcome with
  | none => calls = []
  | some (.ok ()) => ∃ uses, calls = .start (.ok ()) :: uses ∧ ∀ use ∈ uses, use.isStart = false
  | some (.error message) => ∃ e, calls = [.start (.error e)] ∧ message = e.message

private theorem hasSeen_fresh (engine : Engine σ) (state : σ) :
    (fresh engine state).HasSeen [] := rfl

theorem HasSeen.use (seen : gate.HasSeen before) (ready : gate.outcome = some (.ok ())) {use : Call}
    (noStart : use.isStart = false) (state : σ) :
    HasSeen { gate with state := state } (before ++ [use]) := by
  rw [HasSeen, ready] at seen
  obtain ⟨uses, rfl, noStarts⟩ := seen
  rw [HasSeen, ready]
  refine ⟨uses ++ [use], rfl, fun other member => ?_⟩
  obtain member | member := List.mem_append.mp member
  · exact noStarts other member
  · rw [List.mem_singleton.mp member, noStart]

/-- One step keeps to the calls that are possible. -/
theorem Step.hasSeen (step : gate.Step calls next) (seen : gate.HasSeen before) :
    next.HasSeen (before ++ calls) := by
  cases step with
  | rest => rwa [List.append_nil]
  | @start outcome state unstarted started =>
    rw [HasSeen, unstarted] at seen
    subst seen
    cases outcome with
    | ok => exact ⟨[], rfl, nofun⟩
    | error e => exact ⟨e, rfl, rfl⟩
  | format ready source => exact seen.use ready rfl _
  | render ready source tree => exact seen.use ready rfl _

/-- One step changes how ready a gate is only if its engine was not started. -/
theorem Step.readiness (step : gate.Step calls next) (started : gate.readiness ≠ .unstarted) :
    next.readiness = gate.readiness := by
  cases step with
  | rest => rfl
  | start unstarted => exact absurd (by rw [Gate.readiness, unstarted]) started
  | format ready source => rfl
  | render ready source tree => rfl

private theorem readiness_of_hasSeen (seen : gate.HasSeen calls) :
    gate.readiness = .after calls := by
  match outcome : gate.outcome with
  | none =>
    rw [HasSeen, outcome] at seen
    obtain rfl : calls = [] := seen
    rw [readiness, outcome]
    decide
  | some (.ok ()) =>
    rw [HasSeen, outcome] at seen
    obtain ⟨uses, rfl, -⟩ := seen
    rw [readiness, outcome, Readiness.after]
  | some (.error message) =>
    rw [HasSeen, outcome] at seen
    obtain ⟨e, rfl, rfl⟩ := seen
    rw [readiness, outcome, Readiness.after]

theorem start_readiness (gate : Gate σ) :
    gate.start.2.readiness ≠ .unstarted ∧
      gate.start.1 = decide (gate.start.2.readiness = .ready) := by
  cases recorded : gate.outcome with
  | none =>
    rcases started : gate.engine.start gate.state with ⟨outcome, state⟩
    rw [start_of_unstarted recorded started]
    cases outcome with
    | ok => exact ⟨nofun, rfl⟩
    | error e => exact ⟨nofun, rfl⟩
  | some outcome =>
    rw [start_of_started recorded, readiness, recorded]
    cases outcome with
    | ok => exact ⟨nofun, rfl⟩
    | error e => exact ⟨nofun, rfl⟩

private theorem barrier_of_readiness (gate : Gate σ) :
    (gate.readiness = .unstarted → gate.barrier = .error .notStarted) ∧
      ∀ message, gate.readiness = .failed message →
        gate.barrier = .error (.startFailed message) := by
  unfold readiness barrier
  split <;> simp_all

end Gate

/-- Whether an engine was started at most once, and used only after a start that succeeded. -/
structure Orderly (calls : List Call) : Prop where
  once : calls.countP Call.isStart ≤ 1
  opened : ∀ before call after, calls = before ++ call :: after → call.isStart = false →
    Call.start (.ok ()) ∈ before

theorem Gate.HasSeen.orderly {gate : Gate σ} {calls : List Call} (seen : gate.HasSeen calls) :
    Orderly calls := by
  unfold Gate.HasSeen at seen
  split at seen
  · subst seen
    exact ⟨by decide, by simp⟩
  · obtain ⟨uses, rfl, noStarts⟩ := seen
    have none : uses.countP Call.isStart = 0 := by
      rw [List.countP_eq_zero]
      intro use member start
      rw [noStarts use member] at start
      contradiction
    constructor
    · rw [List.countP_cons, none]
      split <;> omega
    · intro before call after shape noStart
      obtain ⟨rfl, same⟩ | ⟨first, rfl, -⟩ := List.append_eq_cons_iff.mp shape.symm
      · obtain ⟨rfl, -⟩ := List.cons.inj same
        contradiction
      · exact List.mem_cons_self ..
  · obtain ⟨e, rfl, -⟩ := seen
    refine ⟨List.countP_le_length, ?_⟩
    intro before call after shape noStart
    have member : call ∈ [Call.start (.error e)] := by
      rw [shape]
      simp
    rw [List.mem_singleton.mp member] at noStart
    contradiction

namespace Session

/-- What a run has done, and what the engine has seen of it. -/
theorem run_logged {session : Session σ} {before : List Call} (seen : session.gate.HasSeen before)
    (operations : List Operation) :
    ∃ calls, (session.run operations).2.gate.HasSeen (before ++ calls) ∧
      (session.logged before).run operations =
        ((session.run operations).1, (session.run operations).2.logged (before ++ calls)) := by
  induction operations generalizing session before with
  | nil =>
    refine ⟨[], ?_, ?_⟩
    · rw [List.append_nil]
      exact seen
    · rw [List.append_nil]
      rfl
  | cons operation rest ih =>
    obtain ⟨first, step, logged⟩ := session.perform_step operation
    obtain ⟨more, sees, remaining⟩ := ih (step.hasSeen seen)
    rw [List.append_assoc] at sees remaining
    refine ⟨first ++ more, sees, ?_⟩
    simp only [run, logged]
    rw [remaining]

/-- Once the engine was started, a run does not change how ready the gate is. -/
theorem run_readiness {session : Session σ} (started : session.gate.readiness ≠ .unstarted)
    (operations : List Operation) :
    (session.run operations).2.gate.readiness = session.gate.readiness := by
  induction operations generalizing session with
  | nil => rfl
  | cons operation rest ih =>
    obtain ⟨calls, step, -⟩ := session.perform_step operation
    have kept := step.readiness started
    rw [← kept] at started ⊢
    exact ih started

/-- The answer to a start says how ready the gate is from then on. -/
theorem perform_started {session : Session σ} {operation : Operation} {succeeded : Bool}
    (answer : (session.perform operation).1 = .started succeeded) :
    (session.perform operation).2.gate.readiness ≠ .unstarted ∧
      succeeded = decide ((session.perform operation).2.gate.readiness = .ready) := by
  cases operation with
  | start =>
    obtain rfl : session.gate.start.1 = succeeded := Answer.started.inj answer
    exact session.gate.start_readiness
  | readiness => cases answer
  | format => cases answer
  | formatTree => cases answer
  | formatToConsole => cases answer
  | formatToFile => cases answer

/-- Every start of a run is answered by how ready the gate is in the end. -/
theorem run_started {session : Session σ} {operations : List Operation} {succeeded : Bool}
    (answer : .started succeeded ∈ (session.run operations).1) :
    succeeded = decide ((session.run operations).2.gate.readiness = .ready) := by
  induction operations generalizing session with
  | nil => cases answer
  | cons operation rest ih =>
    obtain now | later := List.mem_cons.mp answer
    · obtain ⟨started, same⟩ := perform_started now.symm
      rw [same]
      have kept := run_readiness started rest
      rw [← kept]
      rfl
    · exact ih later

/-- What formats something is refused at a gate that is not open, and nothing else happens. -/
theorem perform_of_barrier {session : Session σ} {e : HostError}
    (closed : session.gate.barrier = .error e) {operation : Operation}
    (formats : operation.formats = true) :
    (session.perform operation).1.fault? = some e ∧ (session.perform operation).2 = session := by
  have formatTo : ∀ destination source tree,
      session.formatTo destination source tree = (.written (.error e), session) := by
    intro destination source tree
    rw [Session.formatTo, Gate.formatTree, Gate.render, closed]
  cases operation with
  | start => cases formats
  | readiness => cases formats
  | format source =>
    rw [perform, Gate.format, closed]
    exact ⟨rfl, rfl⟩
  | formatTree destination source tree =>
    rw [perform, formatTo]
    exact ⟨rfl, rfl⟩
  | formatToConsole source tree =>
    rw [perform, formatTo]
    exact ⟨rfl, rfl⟩
  | formatToFile path source tree =>
    rw [perform, formatTo]
    exact ⟨rfl, rfl⟩

/-- Whatever the engine does and whatever is asked of it, in whatever order: it is started at most
once and used only after a start that succeeded, the gate is as ready as that start has made it and
stays so, every start is answered alike, and until the gate is ready all formatting is refused with
the reason for that and without a trace. -/
theorem run_keeps_barrier (engine : Engine σ) (state : σ) (machine : Machine)
    (operations : List Operation) :
    let initial : Session σ := ⟨.fresh engine state, machine⟩
    let final := (initial.run operations).2
    (∃ calls,
      (initial.logged []).run operations = ((initial.run operations).1, final.logged calls) ∧
      Orderly calls ∧ final.gate.readiness = .after calls) ∧
    (∀ more, final.gate.readiness ≠ .unstarted →
      (final.run more).2.gate.readiness = final.gate.readiness) ∧
    (final.perform .start).2.gate.readiness ≠ .unstarted ∧
    (∃ status, ∀ succeeded, .started succeeded ∈ (initial.run operations).1 →
      succeeded = status) ∧
    ∀ operation : Operation, operation.formats →
      (final.gate.readiness = .unstarted →
        (final.perform operation).1.fault? = some .notStarted ∧
          (final.perform operation).2 = final) ∧
      ∀ message, final.gate.readiness = .failed message →
        (final.perform operation).1.fault? = some (.startFailed message) ∧
          (final.perform operation).2 = final := by
  intro initial final
  have fresh : initial.gate.HasSeen [] := Gate.hasSeen_fresh engine state
  obtain ⟨calls, seen, logged⟩ := run_logged fresh operations
  refine ⟨⟨calls, logged, seen.orderly, Gate.readiness_of_hasSeen seen⟩, ?_, ?_, ?_, ?_⟩
  · intro more started
    exact run_readiness started more
  · exact final.gate.start_readiness.1
  · exact ⟨_, fun succeeded answer => run_started answer⟩
  · intro operation formats
    obtain ⟨unstarted, failed⟩ := final.gate.barrier_of_readiness
    constructor
    · intro closed
      exact perform_of_barrier (unstarted closed) formats
    · intro message closed
      exact perform_of_barrier (failed message closed) formats

end Session

end FormatHost
