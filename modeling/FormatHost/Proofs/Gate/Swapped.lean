import FormatHost.Proofs.Gate.Runs

/-! # Engines that cannot be told apart

An engine is used only after it was started with success. Another one that starts in the same way
and, if that can succeed, formats and renders in the same way gives the same answers in every run.
-/

namespace FormatHost

variable {σ : Type}

/-- Engines that do the same, as far as anything behind a gate can see: they start alike, and are
alike in everything if a start of theirs can succeed. -/
structure Engine.Alike (engine other : Engine σ) : Prop where
  start : other.start = engine.start
  used : (∃ state, (engine.start state).1 = .ok ()) →
    other.format = engine.format ∧ other.render = engine.render

namespace Gate

def swapped (gate : Gate σ) (other : Engine σ) : Gate σ :=
  { gate with engine := other }

/-- A gate that is open only if its engine can have opened it. -/
def Earned (gate : Gate σ) : Prop :=
  gate.outcome = some (.ok ()) → ∃ state, (gate.engine.start state).1 = .ok ()

variable {gate next : Gate σ} {other : Engine σ}

theorem readiness_eq_ready_iff : gate.readiness = .ready ↔ gate.outcome = some (.ok ()) := by
  unfold readiness
  split <;> simp_all

theorem Step.engine {calls : List Call} (step : gate.Step calls next) :
    next.engine = gate.engine := by
  cases step with
  | rest => rfl
  | start unstarted started => rfl
  | format ready source => rfl
  | render ready source tree => rfl

/-- One step opens a gate only with a start that succeeded. -/
theorem Step.earned {calls : List Call} (step : gate.Step calls next) (earned : gate.Earned) :
    next.Earned := by
  cases step with
  | rest => exact earned
  | @start outcome state unstarted started =>
    intro opened
    refine ⟨gate.state, ?_⟩
    rw [started]
    cases outcome with
    | ok => rfl
    | error e => cases opened
  | format ready source => exact fun _ => earned ready
  | render ready source tree => exact fun _ => earned ready

private theorem start_swapped (alike : gate.engine.Alike other) :
    (gate.swapped other).start = (gate.start.1, gate.start.2.swapped other) := by
  cases recorded : gate.outcome with
  | none =>
    rcases started : gate.engine.start gate.state with ⟨outcome, state⟩
    have same :
        (gate.swapped other).engine.start (gate.swapped other).state = (outcome, state) := by
      change other.start gate.state = _
      rw [alike.start, started]
    rw [start_of_unstarted recorded started]
    exact start_of_unstarted recorded same
  | some outcome =>
    rw [start_of_started recorded]
    exact start_of_started recorded

private theorem format_swapped (alike : gate.engine.Alike other) (earned : gate.Earned)
    (source : Buffer) :
    (gate.swapped other).format source =
      ((gate.format source).1, (gate.format source).2.swapped other) := by
  have same : (gate.swapped other).barrier = gate.barrier := rfl
  unfold format
  rw [same]
  cases barrier : gate.barrier with
  | error e => rfl
  | ok =>
    obtain ⟨formats, -⟩ := alike.used (earned (barrier_eq_ok_iff.mp barrier))
    cases source.read with
    | error e => rfl
    | ok bytes => simp only [swapped, formats]

private theorem render_swapped (alike : gate.engine.Alike other) (earned : gate.Earned)
    (source tree : Buffer) : (gate.swapped other).render source tree =
      ((gate.render source tree).1, (gate.render source tree).2.swapped other) := by
  have same : (gate.swapped other).barrier = gate.barrier := rfl
  unfold render
  rw [same]
  cases barrier : gate.barrier with
  | error e => rfl
  | ok =>
    obtain ⟨-, renders⟩ := alike.used (earned (barrier_eq_ok_iff.mp barrier))
    cases source.read with
    | error e => rfl
    | ok bytes =>
      cases tree.read with
      | error e => rfl
      | ok nodes => simp only [swapped, renders]

end Gate

namespace Session

def swapped (session : Session σ) (other : Engine σ) : Session σ :=
  { session with gate := session.gate.swapped other }

variable {session : Session σ} {other : Engine σ}

theorem formatTo_swapped (alike : session.gate.engine.Alike other) (earned : session.gate.Earned)
    (destination : Destination) (source tree : Buffer) :
    (session.swapped other).formatTo destination source tree =
      ((session.formatTo destination source tree).1,
        (session.formatTo destination source tree).2.swapped other) := by
  simp only [formatTo, Gate.formatTree, swapped, Gate.render_swapped alike earned]
  rcases session.gate.render source tree with ⟨⟨e⟩ | ⟨tokens⟩, gate⟩
  · rfl
  · rfl

/-- Every operation is answered alike and leaves things alike. -/
theorem perform_swapped (alike : session.gate.engine.Alike other) (earned : session.gate.Earned)
    (operation : Operation) : (session.swapped other).perform operation =
      ((session.perform operation).1, (session.perform operation).2.swapped other) := by
  cases operation with
  | start => simp only [perform, swapped, Gate.start_swapped alike]
  | readiness => rfl
  | format source => simp only [perform, swapped, Gate.format_swapped alike earned]
  | formatTree destination source tree =>
    exact formatTo_swapped alike earned destination source tree
  | formatToConsole source tree => exact formatTo_swapped alike earned .console source tree
  | formatToFile path source tree => exact formatTo_swapped alike earned (.file path) source tree

/-- Every run is answered alike and leaves things alike. -/
theorem run_swapped (alike : session.gate.engine.Alike other) (earned : session.gate.Earned)
    (operations : List Operation) : (session.swapped other).run operations =
      ((session.run operations).1, (session.run operations).2.swapped other) := by
  induction operations generalizing session with
  | nil => rfl
  | cons operation rest ih =>
    obtain ⟨calls, step, -⟩ := session.perform_step operation
    have remaining := ih (step.engine.symm ▸ alike) (step.earned earned)
    simp only [run, perform_swapped alike earned operation, remaining]

/-- A run keeps the engine, and the gate open only if the engine can have opened it. -/
theorem run_earned (earned : session.gate.Earned) (operations : List Operation) :
    (session.run operations).2.gate.engine = session.gate.engine ∧
      (session.run operations).2.gate.Earned := by
  induction operations generalizing session with
  | nil => exact ⟨rfl, earned⟩
  | cons operation rest ih =>
    obtain ⟨calls, step, -⟩ := session.perform_step operation
    obtain ⟨same, kept⟩ := ih (step.earned earned)
    exact ⟨same.trans step.engine, kept⟩

end Session

end FormatHost
