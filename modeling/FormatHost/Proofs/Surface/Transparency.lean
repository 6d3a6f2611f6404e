import FormatHost.Proofs.Gate.Runs
import FormatHost.Proofs.Surface.Agreement

/-! # An engine behind two boundaries

The numeric surface can be loaded as the library of a foreign engine. What is formatted there has
gone through a second gate as bytes, numbers and results that are handed over, and comes out as it
would from the built-in engine itself. The two gates are followed step by step: they are open
together, and behind an open foreign gate the gate inside the library is open as well.
-/

namespace FormatHost

/-! ## Across the boundary -/

/-- A failure comes back from its number with the same status. -/
theorem FormatFailure.status_ofStatus (failure : FormatFailure) :
    (ofStatus failure.status.code).status = failure.status := by
  cases failure with
  | sourceRejected message => rfl
  | treeRejected message => rfl
  | engine message => rfl
  | unsupported what => rfl
  | unknownStatus code => rfl

/-- Bytes come back from a result that was handed over. -/
theorem Engine.resultBytes_ofBytes (bytes : Bytes) : resultBytes (.ofBytes bytes) = bytes := by
  simp [resultBytes, Buffer.ofBytes]

/-- What can be seen of an outcome from outside: its bytes, or the status of its failure. -/
def seen (outcome : Except HostError Result) : Except Status Bytes :=
  (outcome.map Result.bytes).mapError HostError.status

namespace NumericSurface

/-- A surface over the built-in engine with the standard layout whose start has not failed. -/
structure Usable (surface : NumericSurface Unit) : Prop where
  engine : surface.gate.engine = .builtin Unit .standard
  unfailed : ∀ message, surface.gate.outcome ≠ some (.error message)

private theorem usable_fresh (machine : Machine) : (fresh machine).Usable :=
  ⟨rfl, nofun⟩

theorem Usable.of_open {surface : NumericSurface Unit}
    (engine : surface.gate.engine = .builtin Unit .standard)
    (opened : surface.gate.outcome = some (.ok ())) : surface.Usable where
  engine := engine
  unfailed _ failed := nomatch opened.symm.trans failed

/-- The start of a usable surface succeeds and opens its gate. -/
theorem start_of_usable {surface : NumericSurface Unit} (usable : surface.Usable) :
    ∃ after, surface.start = (0, after) ∧ after.Usable ∧ after.gate.outcome = some (.ok ()) := by
  obtain ⟨⟨engine, state, outcome⟩, machine, lastError⟩ := surface
  obtain rfl : engine = .builtin Unit .standard := usable.engine
  match outcome with
  | none => exact ⟨_, rfl, .of_open rfl rfl, rfl⟩
  | some (.ok ()) => exact ⟨_, rfl, .of_open rfl rfl, rfl⟩
  | some (.error message) => exact absurd rfl (usable.unfailed message)

/-- An open surface formats as the built-in engine does, and stays open. -/
theorem formatBuffer_of_open {surface : NumericSurface Unit} (usable : surface.Usable)
    (opened : surface.gate.outcome = some (.ok ())) (source : Bytes) :
    ∃ reply after, entryPoints.formatBuffer surface (.ofBytes source) = (reply, after) ∧
      after.Usable ∧ after.gate.outcome = some (.ok ()) ∧
      seen ((Engine.ofReply reply).mapError .format) =
        seen (((Layout.standard.formatBytes source).map Result.owned).mapError .format) := by
  obtain ⟨⟨engine, state, outcome⟩, machine, lastError⟩ := surface
  obtain rfl : engine = .builtin Unit .standard := usable.engine
  obtain rfl : outcome = some (.ok ()) := opened
  have formatted : Gate.format ⟨.builtin Unit .standard, state, some (.ok ())⟩ (.ofBytes source) =
      (((Layout.standard.formatBytes source).map Result.owned).mapError .format,
        ⟨.builtin Unit .standard, state, some (.ok ())⟩) := by
    simp only [Gate.format, Gate.barrier, Buffer.read_ofBytes, Engine.builtin]
  simp only [entryPoints, NumericSurface.format, formatted]
  cases Layout.standard.formatBytes source with
  | error failure =>
    refine ⟨_, _, rfl, .of_open rfl rfl, rfl, ?_⟩
    exact congrArg Except.error failure.status_ofStatus
  | ok bytes =>
    refine ⟨_, _, rfl, .of_open rfl rfl, rfl, ?_⟩
    exact congrArg Except.ok (Engine.resultBytes_ofBytes bytes)

end NumericSurface

/-! ## The two gates -/

/-- The library of the surface has all functions that are looked up. -/
theorem load_library {σ : Type} {loader : Loader (NumericSurface σ)} {path : String}
    (found : loader path = .ok NumericSurface.library) :
    Engine.load loader path Engine.standardStem = .ok NumericSurface.entryPoints := by
  have complete : Library.functionNames.find? (fun name =>
      !(NumericSurface.library (σ := σ)).exports (Library.symbol Engine.standardStem name)) =
        none := by
    simp only [NumericSurface.library, List.find?_eq_none, Bool.not_eq_true', Bool.not_eq_false,
      List.contains_iff_mem]
    exact fun name => List.mem_map_of_mem
  rw [Engine.load, found]
  simp only [Library.link, complete]
  rfl

/-- A gate over the loaded surface and one over the built-in engine that are open or unstarted
together, the gate of the surface being open if they are. -/
structure Mirrors (loader : Loader (NumericSurface Unit)) (path : String)
    (foreign : Gate (NumericSurface Unit)) (builtin : Gate Unit) : Prop where
  loads : foreign.engine = .foreign loader path none
  builds : builtin.engine = .builtin Unit .standard
  usable : foreign.state.Usable
  together : foreign.outcome = none ∧ builtin.outcome = none ∨
    foreign.outcome = some (.ok ()) ∧ builtin.outcome = some (.ok ()) ∧
      foreign.state.gate.outcome = some (.ok ())

namespace Mirrors

variable {loader : Loader (NumericSurface Unit)} {path : String}
  {foreign : Gate (NumericSurface Unit)} {builtin : Gate Unit}

theorem readiness (mirrors : Mirrors loader path foreign builtin) :
    foreign.readiness = builtin.readiness := by
  obtain ⟨unstarted, other⟩ | ⟨opened, other, -⟩ := mirrors.together
  · rw [Gate.readiness, Gate.readiness, unstarted, other]
  · rw [Gate.readiness, Gate.readiness, opened, other]

/-- Both gates start, and mirror each other afterwards. -/
theorem start (found : loader path = .ok NumericSurface.library)
    (mirrors : Mirrors loader path foreign builtin) :
    foreign.start.1 = true ∧ builtin.start.1 = true ∧
      Mirrors loader path foreign.start.2 builtin.start.2 := by
  obtain ⟨unstarted, other⟩ | ⟨opened, other, -⟩ := mirrors.together
  · obtain ⟨after, started, usable, inner⟩ := NumericSurface.start_of_usable mirrors.usable
    have loaded : foreign.engine.start foreign.state = (.ok (), after) := by
      rw [mirrors.loads]
      simp only [Engine.foreign, Option.getD_none, load_library found, NumericSurface.entryPoints,
        started, if_true]
    have built : builtin.engine.start builtin.state = (.ok (), builtin.state) := by
      rw [mirrors.builds]
      rfl
    rw [Gate.start_of_unstarted unstarted loaded, Gate.start_of_unstarted other built]
    exact ⟨rfl, rfl, mirrors.loads, mirrors.builds, usable, .inr ⟨rfl, rfl, inner⟩⟩
  · rw [Gate.start_of_started opened, Gate.start_of_started other]
    exact ⟨rfl, rfl, mirrors⟩

/-- Both gates make the same of a source, as far as can be seen, and mirror each other
afterwards. -/
theorem format (found : loader path = .ok NumericSurface.library)
    (mirrors : Mirrors loader path foreign builtin) (source : Buffer) :
    seen (foreign.format source).1 = seen (builtin.format source).1 ∧
      Mirrors loader path (foreign.format source).2 (builtin.format source).2 := by
  obtain ⟨unstarted, other⟩ | ⟨opened, other, inner⟩ := mirrors.together
  · simp only [Gate.format, Gate.barrier, unstarted, other]
    exact ⟨trivial, mirrors⟩
  · simp only [Gate.format, Gate.barrier, opened, other]
    cases source.read with
    | error e => exact ⟨rfl, mirrors⟩
    | ok bytes =>
      obtain ⟨reply, after, replied, usable, still, same⟩ :=
        NumericSurface.formatBuffer_of_open mirrors.usable inner bytes
      have loaded : foreign.engine.format foreign.state bytes = (Engine.ofReply reply, after) := by
        rw [mirrors.loads]
        simp only [Engine.foreign, Option.getD_none, load_library found, replied]
      have built : builtin.engine.format builtin.state bytes =
          ((Layout.standard.formatBytes bytes).map Result.owned, builtin.state) := by
        rw [mirrors.builds]
        rfl
      simp only [loaded, built]
      exact ⟨same, mirrors.loads, mirrors.builds, usable, .inr ⟨rfl, rfl, still⟩⟩

/-- Trees change nothing about either gate. -/
theorem render (mirrors : Mirrors loader path foreign builtin) (source tree : Buffer) :
    (foreign.render source tree).2 = foreign ∧ (builtin.render source tree).2 = builtin := by
  constructor
  · apply Gate.render_traceless
    intro bytes nodes
    rw [mirrors.loads, Engine.foreign]
  · apply Gate.render_traceless
    intro bytes nodes
    rw [mirrors.builds, Engine.builtin]

end Mirrors

/-! ## Whole runs -/

/-- What can be seen of a source that was formatted. -/
def Answer.seen? : Answer → Option (Except Status Bytes)
  | .formatted outcome => some (seen outcome)
  | _ => none

/-- Answers that look the same: starts that succeeded, the same readiness, and sources of which the
same was made. What becomes of trees is left open, as foreign engines take none. -/
def Answer.Alike : Answer → Answer → Prop
  | .started foreign, .started builtin => foreign = true ∧ builtin = true
  | .readiness foreign, .readiness builtin => foreign = builtin
  | .formatted foreign, .formatted builtin => seen foreign = seen builtin
  | .written _, .written _ => True
  | _, _ => False

namespace Session

variable {loader : Loader (NumericSurface Unit)} {path : String}
  {foreign : Session (NumericSurface Unit)} {builtin : Session Unit}

theorem formatTo_mirrored (mirrors : Mirrors loader path foreign.gate builtin.gate)
    (destination : Destination) (source tree : Buffer) :
    (foreign.formatTo destination source tree).1.Alike
        (builtin.formatTo destination source tree).1 ∧
      Mirrors loader path (foreign.formatTo destination source tree).2.gate
        (builtin.formatTo destination source tree).2.gate := by
  obtain ⟨same, other⟩ := mirrors.render source tree
  rw [formatTo_gate, formatTo_gate, same, other]
  exact ⟨trivial, mirrors⟩

/-- Every operation is answered alike at gates that mirror each other. -/
theorem perform_mirrored (found : loader path = .ok NumericSurface.library)
    (mirrors : Mirrors loader path foreign.gate builtin.gate) (operation : Operation) :
    (foreign.perform operation).1.Alike (builtin.perform operation).1 ∧
      Mirrors loader path (foreign.perform operation).2.gate
        (builtin.perform operation).2.gate := by
  cases operation with
  | start =>
    obtain ⟨succeeded, other, next⟩ := mirrors.start found
    exact ⟨⟨succeeded, other⟩, next⟩
  | readiness => exact ⟨mirrors.readiness, mirrors⟩
  | format source => exact mirrors.format found source
  | formatTree destination source tree => exact formatTo_mirrored mirrors destination source tree
  | formatToConsole source tree => exact formatTo_mirrored mirrors .console source tree
  | formatToFile path source tree => exact formatTo_mirrored mirrors (.file path) source tree

/-- The surface, loaded as a library into a foreign engine, cannot be told from the built-in engine
by what it makes of sources: in every run from before the start, both start, are as ready as each
other, and format the same sources to the same bytes or refuse them with the same status. -/
theorem run_transparent (found : loader path = .ok NumericSurface.library)
    {surface : NumericSurface Unit} (usable : surface.Usable) (machine other : Machine)
    (operations : List Operation) :
    List.Forall₂ Answer.Alike
      ((⟨.fresh (.foreign loader path none) surface, machine⟩ :
        Session (NumericSurface Unit)).run operations).1
      ((⟨.fresh (.builtin Unit .standard) (), other⟩ : Session Unit).run operations).1 := by
  have whole {foreign : Session (NumericSurface Unit)} {builtin : Session Unit}
      (mirrors : Mirrors loader path foreign.gate builtin.gate) (operations : List Operation) :
      List.Forall₂ Answer.Alike (foreign.run operations).1 (builtin.run operations).1 := by
    induction operations generalizing foreign builtin with
    | nil => exact .nil
    | cons operation rest ih =>
      obtain ⟨alike, next⟩ := perform_mirrored found mirrors operation
      exact .cons alike (ih next)
  exact whole ⟨rfl, rfl, usable, .inl ⟨rfl, rfl⟩⟩ operations

/-- A run that formats a text, no text and bytes that are no text, before and after the start. -/
theorem run_transparent_call :
    let loader : Loader (NumericSurface Unit) := fun _ => .ok NumericSurface.library
    let machine : Machine := ⟨⟨[], []⟩, .clear⟩
    let operations : List Operation := [.format (.ofBytes [120]), .start, .readiness,
      .format (.ofBytes [9, 120, 32]), .format (.ofBytes []), .format (.ofBytes [255]),
      .format ⟨none, 1⟩]
    let answers := ((⟨.fresh (.foreign loader "" none) (.fresh machine), machine⟩ :
      Session (NumericSurface Unit)).run operations).1
    List.Forall₂ Answer.Alike answers
        ((⟨.fresh (.builtin Unit .standard) (), machine⟩ : Session Unit).run operations).1 ∧
      answers.filterMap Answer.seen? = [.error .startFailed, .ok [32, 32, 120, 10], .ok [],
        .error .sourceRejected, .error .badArgument] := by
  intro loader machine operations answers
  refine ⟨run_transparent rfl (NumericSurface.usable_fresh machine) machine machine operations, ?_⟩
  decide +kernel

end Session

end FormatHost
