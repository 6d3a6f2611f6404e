import FormatHost.Job
import FormatHost.Proofs.Destination.Reliable

/-! # What a failure leaves behind

Beside a session in which everything is tried stands another one in which only what succeeds is. A
visit that fails leaves nothing behind by which the two could be told apart, and one that succeeds
can be repeated with the same outcome. All that a failure can leave is another state of the engine.
Where something is printed this takes a console that works, since one that does not may keep a part
of what it refuses, and a difference that cannot be shown ends the program.
-/

namespace FormatHost

variable {σ α β : Type}

/-- Whether what an engine makes of a text depends on nothing but the text. -/
def Engine.Steady (engine : Engine σ) : Prop :=
  ∀ state other source, (engine.format state source).1 = (engine.format other source).1

theorem Engine.steady_builtin (layout : Layout) : (builtin σ layout).Steady :=
  fun _ _ _ => rfl

namespace Console

variable {console after : Console} {bytes : Bytes}

theorem Working.showing (working : console.Working) (bytes : Bytes) :
    (console.showing bytes).Working :=
  ⟨working.room, working.nothingHeld⟩

/-- Whether a console is as full as another one, and no text was lost in between. -/
structure Keeps (before after : Console) : Prop where
  full : after.full = before.full
  lost : after.lost = before.lost

theorem Keeps.refl (console : Console) : console.Keeps console :=
  ⟨rfl, rfl⟩

theorem Keeps.trans {first second third : Console} (front : first.Keeps second)
    (back : second.Keeps third) : first.Keeps third :=
  ⟨back.full.trans front.full, back.lost.trans front.lost⟩

theorem keeps_of_print (printed : console.print bytes = .ok after) : console.Keeps after := by
  unfold print at printed
  split at printed
  · cases printed
    exact ⟨rfl, rfl⟩
  · split at printed
    · cases printed
      exact ⟨rfl, rfl⟩
    · cases printed

theorem display_of_room (room : console.full = false) (text : String) :
    console.display text = console.showing (Utf8.ofString text) := by
  rw [display, print_of_not_full room]
  rfl

end Console

/-- Bytes for the console are printed, and then have to appear. -/
theorem Destination.stream_console (machine : Machine) (bytes : Bytes) (medium : Medium) :
    Destination.console.stream machine [.ok bytes] medium =
      match machine.console.print bytes with
      | .error fault => (.error (.writeFailed (describe .console) fault), machine)
      | .ok shown =>
        match shown.flush with
        | .error fault => (.error (.writeFailed (describe .console) fault), ⟨machine.files, shown⟩)
        | .ok () => (.ok bytes.length, ⟨machine.files, shown⟩) := by
  rcases printed : machine.console.print bytes with fault | shown
  · simp only [stream, fill, startOn, Writer.writeTokens, Writer.write, printed, Writer.discard]
  · simp only [stream, fill, startOn, Writer.writeTokens, Writer.write, printed, Writer.finish]
    cases shown.flush with
    | error fault => rfl
    | ok => rfl

namespace Session

/-- Sessions in which the same texts are read and formatted in the same way. -/
structure Alike (tried kept : Session σ) : Prop where
  steady : tried.gate.engine.Steady
  engine : kept.gate.engine = tried.gate.engine
  outcome : kept.gate.outcome = tried.gate.outcome
  files : kept.machine.files = tried.machine.files

def withState (session : Session σ) (state : σ) : Session σ :=
  { session with gate := { session.gate with state := state } }

/-- A session in which everything was tried, and one in which only what succeeds was. The console
works where the mode has something shown on it. -/
structure Covers (mode : Mode) (tried kept : Session σ) : Prop extends Alike tried kept where
  console : kept.machine.console = tried.machine.console
  working : mode ≠ .replace → tried.machine.console.Working

/-- What is left of a step in the session in which only what succeeds is tried: a step that fails is
skipped, and one that succeeds is repeated with the same result. -/
inductive Followed (mode : Mode) (kept : Session σ) (again : Except HostError α × Session σ) :
    Except HostError α × Session σ → Prop
  | skipped {e : HostError} {tried : Session σ} (covers : Covers mode tried kept) :
      Followed mode kept again (.error e, tried)
  | repeated {result : α} {tried next : Session σ} (same : again = (.ok result, next))
      (covers : Covers mode tried next) : Followed mode kept again (.ok result, tried)

variable {mode : Mode} {tried kept : Session σ}

theorem Followed.map (f : α → β) {first again : Except HostError α × Session σ}
    (followed : Followed mode kept again first) :
    Followed mode kept (again.1.map f, again.2) (first.1.map f, first.2) := by
  cases followed with
  | skipped covers => exact .skipped covers
  | repeated same covers =>
    subst same
    exact .repeated rfl covers

theorem Alike.refl {session : Session σ} (steady : session.gate.engine.Steady) :
    Alike session session :=
  ⟨steady, rfl, rfl, rfl⟩

theorem Covers.refl {session : Session σ} (steady : session.gate.engine.Steady)
    (working : mode ≠ .replace → session.machine.console.Working) : Covers mode session session :=
  ⟨.refl steady, rfl, working⟩

/-! ## Steps of a session -/

theorem Covers.machine (covers : Covers mode tried kept) : kept.machine = tried.machine := by
  obtain ⟨gate, files, console⟩ := tried
  obtain ⟨keptGate, keptFiles, keptConsole⟩ := kept
  obtain rfl : keptFiles = files := covers.files
  obtain rfl : keptConsole = console := covers.console
  rfl

/-- Behind an open barrier a text is formatted by the engine, and nothing but its state changes. -/
theorem format_spec (session : Session σ) (source : Bytes) :
    ∃ state, session.format source =
      (session.gate.barrier.bind fun _ =>
          ((session.gate.engine.format session.gate.state source).1.mapError .format).map
            Result.bytes,
        session.withState state) := by
  cases barrier : session.gate.barrier with
  | error e =>
    refine ⟨session.gate.state, ?_⟩
    simp only [Session.format, Gate.format, barrier]
    rfl
  | ok =>
    refine ⟨(session.gate.engine.format session.gate.state source).2, ?_⟩
    simp only [Session.format, Gate.format, barrier, Buffer.read_ofBytes]
    rfl

/-- Sessions in which the engine is the same and was started with the same outcome. -/
structure SameEngine (session other : Session σ) : Prop where
  engine : other.gate.engine = session.gate.engine
  outcome : other.gate.outcome = session.gate.outcome

theorem SameEngine.refl (session : Session σ) : SameEngine session session :=
  ⟨rfl, rfl⟩

theorem SameEngine.trans {first second third : Session σ} (front : SameEngine first second)
    (back : SameEngine second third) : SameEngine first third :=
  ⟨back.engine.trans front.engine, back.outcome.trans front.outcome⟩

/-- Formatting has the same outcome in both sessions. -/
theorem SameEngine.format_cases {session other : Session σ} (same : SameEngine session other)
    (steady : session.gate.engine.Steady) (source : Bytes) :
    ∃ outcome state state', session.format source = (outcome, session.withState state) ∧
      other.format source = (outcome, other.withState state') := by
  obtain ⟨state, formatted⟩ := session.format_spec source
  obtain ⟨state', again⟩ := other.format_spec source
  have barrier : other.gate.barrier = session.gate.barrier := by
    rw [Gate.barrier, Gate.barrier, same.outcome]
  have result := steady other.gate.state session.gate.state source
  rw [barrier, same.engine, result] at again
  exact ⟨_, state, state', formatted, again⟩

theorem format_cases (alike : Alike tried kept) (source : Bytes) :
    ∃ outcome state other, tried.format source = (outcome, tried.withState state) ∧
      kept.format source = (outcome, kept.withState other) :=
  SameEngine.format_cases ⟨alike.engine, alike.outcome⟩ alike.steady source

private theorem Covers.withState_left (covers : Covers mode tried kept) (state : σ) :
    Covers mode (tried.withState state) kept :=
  ⟨⟨covers.steady, covers.engine, covers.outcome, covers.files⟩, covers.console, covers.working⟩

private theorem Covers.withState_right (covers : Covers mode tried kept) (state : σ) :
    Covers mode tried (kept.withState state) :=
  ⟨⟨covers.steady, covers.engine, covers.outcome, covers.files⟩, covers.console, covers.working⟩

/-- It does not matter in which state the engine was left when a step is skipped. -/
theorem Followed.of_withState {state : σ} {first again : Except HostError α × Session σ}
    (followed : Followed mode (kept.withState state) again first) :
    Followed mode kept again first := by
  cases followed with
  | skipped covers =>
    exact .skipped
      ⟨⟨covers.steady, covers.engine, covers.outcome, covers.files⟩, covers.console, covers.working⟩
  | repeated same covers => exact .repeated same covers

theorem write_console_of_working {session : Session σ} (working : session.machine.console.Working)
    (bytes : Bytes) :
    session.write .console bytes = (.ok (), { session with machine :=
      { session.machine with console := session.machine.console.showing bytes } }) := by
  have appears : (session.machine.console.showing bytes).flush = .ok () :=
    if_pos working.nothingHeld
  rw [Console.showing] at appears
  rw [write, Destination.stream_console, Console.print_of_not_full working.room]
  simp only [appears]
  rfl

/-- On a console that works all is printed. -/
theorem write_console_followed (covers : Covers mode tried kept) (shows : mode ≠ .replace)
    (bytes : Bytes) :
    Followed mode kept (kept.write .console bytes) (tried.write .console bytes) := by
  have working := covers.working shows
  have again : kept.machine.console.Working := by
    rw [covers.console]
    exact working
  rw [write_console_of_working working, write_console_of_working again]
  refine .repeated rfl ⟨⟨covers.steady, covers.engine, covers.outcome, covers.files⟩, ?_, ?_⟩
  · rw [covers.console]
  · exact fun _ => working.showing bytes

/-- A file that is not written leaves no trace. -/
theorem write_file_followed (covers : Covers mode tried kept) (path : String) (bytes : Bytes)
    (medium : Medium) :
    Followed mode kept (kept.write (.file path) bytes medium)
      (tried.write (.file path) bytes medium) := by
  rw [write, write, covers.machine]
  rcases Destination.stream_file_cases medium tried.machine path [.ok bytes] with
    ⟨e, failed⟩ | ⟨written, parent, name, after, -, -, succeeded, -, -⟩
  · rw [failed]
    exact .skipped covers
  · rw [succeeded]
    exact .repeated rfl
      ⟨⟨covers.steady, covers.engine, covers.outcome, rfl⟩, rfl, covers.working⟩

theorem Covers.display (covers : Covers mode tried kept) (shows : mode ≠ .replace)
    (text : String) : Covers mode (tried.display text) (kept.display text) := by
  have working := covers.working shows
  refine ⟨⟨covers.steady, covers.engine, covers.outcome, covers.files⟩, ?_, fun _ => ?_⟩
  · rw [Session.display, Session.display, covers.machine]
  · rw [Session.display, Console.display_of_room working.room]
    exact working.showing _

/-! ## What is lost -/

theorem write_keeps (session : Session σ) (destination : Destination) (bytes : Bytes)
    (medium : Medium) :
    session.machine.console.Keeps
      (session.write destination bytes medium).2.machine.console := by
  have unchanged := Console.Keeps.refl session.machine.console
  rw [write]
  cases destination with
  | file path =>
    rcases Destination.stream_file_cases medium session.machine path [.ok bytes] with
      ⟨e, failed⟩ | ⟨written, parent, name, after, -, -, succeeded, -, -⟩
    · rw [failed]
      exact unchanged
    · rw [succeeded]
      exact unchanged
  | console =>
    rw [Destination.stream_console]
    cases printed : session.machine.console.print bytes with
    | error fault => exact unchanged
    | ok shown =>
      dsimp only
      cases shown.flush with
      | error fault => exact Console.keeps_of_print printed
      | ok => exact Console.keeps_of_print printed

theorem loses_eq_false_of_keeps {before after : Session σ}
    (keeps : before.machine.console.Keeps after.machine.console) :
    before.loses after = false := by
  rw [loses, keeps.lost]
  exact Bool.not_and_self _

end Session

namespace Job

open Session

variable {tried kept : Session σ}

/-- Whether there is room on the console for what a job has to show. -/
def Roomy (job : Job) (session : Session σ) : Prop :=
  job.mode = .check → session.machine.console.full = false

private theorem formatFile_keeps {job : Job} {session : Session σ} (roomy : job.Roomy session)
    (path : String) (media : Media) :
    session.machine.console.Keeps (job.formatFile session path media).2.machine.console := by
  obtain ⟨mode, policy, failFast⟩ := job
  have unchanged := Console.Keeps.refl session.machine.console
  rw [formatFile]
  cases session.machine.files.readFile path with
  | error fault => exact unchanged
  | ok source =>
    dsimp only
    split
    · cases mode with
      | print => exact session.write_keeps .console source .sound
      | check => exact unchanged
      | replace => exact unchanged
    · obtain ⟨state, formatted⟩ := session.format_spec source
      rw [formatted]
      generalize session.gate.barrier.bind _ = outcome
      cases outcome with
      | error e => exact unchanged
      | ok out =>
        cases mode with
        | print => exact (session.withState state).write_keeps .console out .sound
        | check =>
          dsimp only
          split
          · have room : (session.withState state).machine.console.full = false := roomy rfl
            rw [Session.display, Console.display_of_room room]
            exact ⟨rfl, rfl⟩
          · exact unchanged
        | replace =>
          dsimp only
          split
          · exact (session.withState state).write_keeps (.file path) out (media path)
          · exact unchanged

/-- A visit shows what it has to if there is room for it, and leaves the room. -/
theorem visit_keeps {job : Job} {session : Session σ} (roomy : job.Roomy session) (found : Found)
    (media : Media) :
    session.machine.console.Keeps (job.visit session found media).2.machine.console := by
  cases found with
  | file path => exact formatFile_keeps roomy path media
  | unreadable path cause => exact .refl _
  | badRules complaints => exact .refl _

theorem Roomy.visit {job : Job} {session : Session σ} (roomy : job.Roomy session) (found : Found)
    (media : Media) : job.Roomy (job.visit session found media).2 := by
  intro check
  rw [(visit_keeps roomy found media).full]
  exact roomy check

/-- A job whose console has room goes on to the next entry, unless it is to end with a failure. -/
theorem visitAll_cons {job : Job} {session : Session σ} (roomy : job.Roomy session)
    (found : Found) (rest : List Found) (media : Media) :
    job.visitAll session (found :: rest) media =
      let (outcome, next) := job.visit session found media
      let visit : Visit := ⟨found, outcome⟩
      if job.failFast && visit.failure?.isSome then ([visit], next)
      else (visit :: (job.visitAll next rest media).1, (job.visitAll next rest media).2) := by
  have shows := loses_eq_false_of_keeps (visit_keeps roomy found media)
  rw [visitAll]
  simp only [shows, Bool.false_or]

/-- Nothing is lost by a job whose console has room. -/
theorem visitAll_keeps {job : Job} {session : Session σ} (roomy : job.Roomy session)
    (all : List Found) (media : Media) :
    session.machine.console.Keeps (job.visitAll session all media).2.machine.console := by
  induction all generalizing session with
  | nil => exact .refl _
  | cons found rest ih =>
    have here := visit_keeps roomy found media
    have onward := ih (roomy.visit found media)
    rw [visitAll_cons roomy]
    dsimp only
    split
    · exact here
    · exact here.trans onward

/-! ## What is followed -/

theorem Roomy.of_covers {job : Job} (covers : Covers job.mode tried kept) :
    job.Roomy tried ∧ job.Roomy kept := by
  have room : job.Roomy tried := fun check => (covers.working (by rw [check]; decide)).room
  refine ⟨room, fun check => ?_⟩
  rw [covers.console]
  exact room check

private theorem formatFile_followed (job : Job) (covers : Covers job.mode tried kept)
    (path : String) (media : Media) :
    Followed job.mode kept (job.formatFile kept path media) (job.formatFile tried path media) := by
  obtain ⟨mode, policy, failFast⟩ := job
  dsimp only at covers
  simp only [formatFile, covers.files]
  cases tried.machine.files.readFile path with
  | error fault => exact .skipped covers
  | ok source =>
    dsimp only
    split
    · cases mode with
      | print => exact (write_console_followed covers (by decide) source).map _
      | check => exact .repeated rfl covers
      | replace => exact .repeated rfl covers
    · obtain ⟨outcome, state, other, formatted, again⟩ := format_cases covers.toAlike source
      rw [formatted, again]
      have left := covers.withState_left state
      have both := left.withState_right other
      cases outcome with
      | error e => exact .skipped left
      | ok out =>
        cases mode with
        | print => exact ((write_console_followed both (by decide) out).map _).of_withState
        | check =>
          refine .repeated rfl ?_
          split
          · exact both.display (by decide) _
          · exact both
        | replace =>
          dsimp only
          split
          · exact ((write_file_followed both path out (media path)).map _).of_withState
          · exact .repeated rfl both

/-- What fails is skipped, and what succeeds is repeated. -/
theorem visit_followed (job : Job) (covers : Covers job.mode tried kept) (found : Found)
    (media : Media) :
    Followed job.mode kept (job.visit kept found media) (job.visit tried found media) := by
  cases found with
  | file path => exact job.formatFile_followed covers path media
  | unreadable path cause => exact .skipped covers
  | badRules complaints => exact .skipped covers

end Job

end FormatHost
