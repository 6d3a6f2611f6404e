import FormatHost.Proofs.Diff.Unified
import FormatHost.Proofs.Files.Replacing
import FormatHost.Proofs.Intake
import FormatHost.Proofs.Job.Following

/-! # Standard input and files are treated alike

Standard input is read in a loop, formatted and reported on by one driver; files are found, read
and counted by another. For a text that comes both ways they agree: the job ends with the same
status, prints the same bytes, and a check shows how the text would change either both times or not
at all. Only the name above the change differs. Nothing is said here about jobs that replace files
or about trees, which only one of the two drivers knows.
-/

namespace FormatHost

variable {σ ε : Type}

/-! ## Texts from standard input -/

namespace Feed

/-- Whether a feed delivers some bytes and nothing else before its end, whatever room it is offered:
it hands out pieces of them of any length, may be interrupted in between, and does not fail. -/
def Delivers : Feed ε → Bytes → Prop
  | ⟨answer, _, next⟩, content => ∀ room, 0 < room →
    (∀ fault, answer room ≠ .failed fault) ∧
      ∃ rest, content = (answer room).data ++ rest ∧
        ((answer room).goesOn = false → rest = []) ∧ ∀ more, (next room more).Delivers rest

/-- What a feed delivers is read onto the bytes that are there. -/
theorem readOnto_of_delivers {feed : Feed ε} {content : Bytes} (delivers : feed.Delivers content)
    (input : Input) :
    ∃ after, (feed.readOnto input).outcome = .ok after ∧ after.bytes = input.bytes ++ content := by
  induction feed generalizing input content with
  | mk answer fits next ih =>
    obtain ⟨sound, rest, rfl, last, onward⟩ := delivers input.room input.room_pos
    rw [readOnto]
    split
    · next shape =>
      refine ⟨input, rfl, ?_⟩
      rw [last (by rw [shape]; rfl), shape]
      simp
    · next b data shape =>
      obtain ⟨after, read, bytes⟩ := ih input.room _ (onward _) (input.add (b :: data) _)
      refine ⟨after, read, ?_⟩
      rw [bytes, Input.bytes_add, shape, Delivery.data_bytes, List.append_assoc]
    · next shape =>
      obtain ⟨after, read, bytes⟩ := ih input.room _ (onward _) input
      refine ⟨after, read, ?_⟩
      rw [bytes, shape, Delivery.data_interrupted, List.nil_append]
    · next fault shape => exact absurd shape (sound fault)

theorem readAll_of_delivers {feed : Feed ε} {content : Bytes} (delivers : feed.Delivers content)
    (capacity : Nat) :
    ∃ input, (feed.readAll capacity).outcome = .ok input ∧ input.bytes = content := by
  obtain ⟨input, read, bytes⟩ := readOnto_of_delivers delivers (.empty capacity)
  exact ⟨input, read, by rw [bytes]; rfl⟩

end Feed

/-- A script in which nothing fails and no delivery is empty delivers all of its bytes. -/
theorem Delivery.delivers_feed (script : List (Delivery ε))
    (goOn : ∀ delivery ∈ script, delivery.goesOn = true) :
    (feed script).Delivers (script.flatMap Delivery.data) := by
  fun_induction feed script with
  | case1 => exact fun room _ => ⟨nofun, [], rfl, fun _ => rfl, nofun⟩
  | case2 rest ih =>
    intro room _
    have onward := ih fun delivery member => goOn delivery (List.mem_cons_of_mem _ member)
    exact ⟨nofun, _, rfl, nofun, fun _ => onward⟩
  | case3 fault rest => cases goOn _ (List.mem_cons_self ..)
  | case4 data rest ih ih' =>
    obtain ⟨here, others⟩ := List.forall_mem_cons.mp goOn
    intro room positive
    refine ⟨nofun, data.drop room ++ rest.flatMap Delivery.data, ?_, ?_, ?_⟩
    · rw [List.flatMap_cons, data_bytes, data_bytes, ← List.append_assoc, List.take_append_drop]
    · intro stops
      simp only [goesOn, Bool.not_eq_false', List.isEmpty_iff, List.take_eq_nil_iff] at stops
      simp only [goesOn, Bool.not_eq_true', List.isEmpty_eq_false_iff] at here
      rcases stops with none | none
      · omega
      · contradiction
    · intro more
      -- what had no room is still in front of the rest
      dsimp only
      split
      · next left =>
        rw [left]
        exact ih others
      · next c later left =>
        rw [left]
        exact ih' room more c later left (List.forall_mem_cons.mpr ⟨rfl, others⟩)

/-! ## Texts from files -/

/-- A path that leads to something leads to something when a link at its end is not followed. -/
theorem FileSystem.Leads.exists_unfollowed {fs : FileSystem} {links : Nat} {here place : Location}
    {names : List String} {entry : Entry}
    (leads : Leads fs true links here names (.entry place entry)) :
    ∃ there found, Leads fs false links here names (.entry there found) := by
  generalize target : Spot.entry place entry = spot at leads
  induction leads with
  | arrive => exact ⟨_, _, .arrive⟩
  | stay _ ih =>
    obtain ⟨there, found, leads⟩ := ih target
    exact ⟨there, found, .stay leads⟩
  | climb _ ih =>
    obtain ⟨there, found, leads⟩ := ih target
    exact ⟨there, found, .climb leads⟩
  | enter proper directory _ ih =>
    obtain ⟨there, found, leads⟩ := ih target
    exact ⟨there, found, .enter proper directory leads⟩
  | file proper there => exact ⟨_, _, .file proper there⟩
  | miss => cases target
  | keep _ _ still => cases still
  | @follow _ _ _ _ rest _ proper link _ _ ih =>
    by_cases last : rest = []
    · subst last
      exact ⟨_, _, .keep proper link rfl⟩
    · obtain ⟨there, found, leads⟩ := ih target
      exact ⟨there, found, .follow proper link (.inl last) leads⟩

namespace Inputs

/-- Whether some arguments stand for this and nothing else. -/
def Finds (files : FileSystem) (env : Environment) (wanted : Wanted) (arguments : List String)
    (all : List Found) : Prop :=
  ∃ paths, expandAll files arguments = .ok paths ∧ collect files env wanted paths = all

/-- A file is found by its path, unless that is the name of a list or stands for standard input. -/
theorem finds_of_readFile {files : FileSystem} {path : String} {content : Bytes}
    (read : files.readFile path = .ok content) (noList : path.toList.head? ≠ some '@')
    (noDash : Path.isJust "-" path = false) (env : Environment) (wanted : Wanted) :
    Finds files env wanted [path] [.file path] := by
  obtain ⟨place, mode, resolved⟩ := FileSystem.readFile_eq_ok_iff.mp read
  obtain ⟨checked, leads⟩ := FileSystem.resolve_eq_ok_iff.mp resolved
  obtain ⟨there, entry, unfollowed⟩ := leads.exists_unfollowed
  have followed := FileSystem.find_eq_ok_iff.mpr resolved
  have named := FileSystem.find_eq_ok_iff.mpr
    (FileSystem.resolve_eq_ok_iff.mpr ⟨checked, unfollowed⟩)
  refine ⟨[path], ?_, ?_⟩
  · have expanded : expand files path = .ok [path] := by
      rw [expand]
      split
      · next name shape =>
        rw [shape] at noList
        exact absurd rfl noList
      · rfl
    simp [expandAll, expanded, bind, Except.bind, pure, Except.pure]
  · simp [collect, collectAll, collectPath, noDash, named, followed]

end Inputs

/-! ## Changes that are shown -/

/-- The diffs of two texts under two names are both empty or both have lines. -/
theorem Diff.unified_alike (name other : String) (before after : Bytes) :
    Utf8.ofString (unified name before after) = Utf8.ofString (unified other before after) ∨
      0x0A ∈ Utf8.ofString (unified name before after) ∧
        0x0A ∈ Utf8.ofString (unified other before after) := by
  have text (name : String) : Utf8.ofString (unified name before after) =
      Utf8.encode (unifiedText name (Utf8.decodeLossy before) (Utf8.decodeLossy after)) := by
    rw [Utf8.ofString, unified, String.toList_ofList]
  have feed : 0x0A ∈ String.utf8EncodeChar '\n' := by decide
  rw [text, text]
  by_cases same : Utf8.decodeLossy before = Utf8.decodeLossy after
  · left
    rw [(unifiedText_eq_nil_iff name _ _).mpr same, (unifiedText_eq_nil_iff other _ _).mpr same]
  · exact .inr ⟨List.mem_flatMap.mpr ⟨_, newline_mem_unifiedText same, feed⟩,
      List.mem_flatMap.mpr ⟨_, newline_mem_unifiedText same, feed⟩⟩

namespace Console

/-- A text with lines is lost exactly where there is no room. -/
theorem lost_display {console : Console} {text : String} (lines : 0x0A ∈ Utf8.ofString text) :
    (console.display text).lost = (console.lost || console.full) := by
  rw [display, print]
  cases full : console.full with
  | false => simp
  | true =>
    have tooLong : console.canHold (Utf8.ofString text) = false := by
      simp [canHold, lines]
    simp [tooLong]

/-- The change of a text is lost under one name exactly if it is under another. -/
theorem lost_display_unified (console : Console) (name other : String) (before after : Bytes) :
    (console.display (Diff.unified name before after)).lost =
      (console.display (Diff.unified other before after)).lost := by
  obtain same | ⟨lines, lines'⟩ := Diff.unified_alike name other before after
  · rw [display, display, same]
  · rw [lost_display lines, lost_display lines']

end Console

/-! ## One text from both -/

/-- No error has the status of a text that differs. -/
theorem HostError.status_ne_differs (e : HostError) : e.status ≠ .differs := by
  cases e with
  | format failure => cases failure <;> simp [status, FormatFailure.status]
  | _ => simp [status]

namespace Session

/-- What is printed, and whether it can be, depends on the console only. -/
theorem write_console_congr {session other : Session σ}
    (same : other.machine.console = session.machine.console) (bytes : Bytes) :
    (other.write .console bytes).1 = (session.write .console bytes).1 ∧
      (other.write .console bytes).2.machine.console =
        (session.write .console bytes).2.machine.console := by
  rw [write, write, Destination.stream_console, Destination.stream_console, same]
  cases session.machine.console.print bytes with
  | error fault => exact ⟨rfl, same⟩
  | ok shown =>
    dsimp only
    cases shown.flush with
    | error fault => exact ⟨rfl, rfl⟩
    | ok => exact ⟨rfl, rfl⟩

end Session

namespace Job

open Session

/-- How the drivers agree about a text: nothing is shown and they come to the same, or the same is
printed, or the same change is shown. Whether the text changes is not told when it is printed. -/
inductive Agree (mode : Mode) (console : Console) (path : String) (source : Bytes) :
    Except HostError Bool × Session σ → Except HostError Bool × Session σ → Prop
  | silent {outcome : Except HostError Bool} {piped named : Session σ}
      (unchanged : outcome ≠ .ok true) (kept : piped.machine.console = console)
      (kept' : named.machine.console = console) :
      Agree mode console path source (outcome, piped) (outcome, named)
  | printed {outcome : Except HostError Unit} {changed : Bool} {piped named : Session σ}
      (print : mode = .print) (same : named.machine.console = piped.machine.console) :
      Agree mode console path source (outcome.map fun _ => false, piped)
        (outcome.map fun _ => changed, named)
  | shown {out : Bytes} {piped named : Session σ} (check : mode = .check) (changes : out ≠ source)
      (shown : piped.machine.console = console.display (Diff.unified "stdin" source out))
      (shown' : named.machine.console = console.display (Diff.unified path source out)) :
      Agree mode console path source (.ok true, piped) (.ok true, named)

variable {job : Job} {piped named : Session σ} {path : String} {source : Bytes}

/-- If a text is lost it is lost by both drivers. -/
theorem Agree.lost {mode : Mode} {console : Console}
    {first second : Except HostError Bool × Session σ}
    (agree : Agree mode console path source first second) :
    second.2.machine.console.lost = first.2.machine.console.lost := by
  cases agree with
  | silent _ kept kept' => rw [kept, kept']
  | printed _ same => rw [same]
  | shown _ _ shown shown' =>
    rw [shown, shown']
    exact console.lost_display_unified ..

theorem agree_of_write (console : named.machine.console = piped.machine.console) (bytes : Bytes)
    (changed : Bool) (before : Console) :
    Agree .print before path source
      ((piped.write .console bytes).1.map fun _ => false, (piped.write .console bytes).2)
      ((named.write .console bytes).1.map fun _ => changed, (named.write .console bytes).2) := by
  obtain ⟨outcome, shown⟩ := write_console_congr console bytes
  rw [outcome]
  exact .printed rfl shown

/-- A text is treated alike by both drivers, whatever they do about it. -/
theorem formatInput_agrees (keeps : job.mode ≠ .replace) (same : SameEngine piped named)
    (steady : piped.gate.engine.Steady)
    (console : named.machine.console = piped.machine.console)
    (read : named.machine.files.readFile path = .ok source) :
    Agree job.mode piped.machine.console path source (job.formatInput piped .console source)
      (job.formatFile named path) := by
  obtain ⟨mode, policy, failFast⟩ := job
  obtain ⟨outcome, state, state', formatted, formatted'⟩ := same.format_cases steady source
  simp only [formatInput, formatFile, read, formatted, formatted']
  cases allowed : policy.allows source with
  | false =>
    cases mode with
    | replace => contradiction
    | check => exact .silent (by simp) rfl console
    | print => exact agree_of_write console source false _
  | true =>
    cases outcome with
    | error e => exact .silent (by simp) rfl console
    | ok out =>
      cases mode with
      | replace => contradiction
      | print =>
        have console' : (named.withState state').machine.console =
          (piped.withState state).machine.console := console
        exact agree_of_write console' out (out != source) _
      | check =>
        by_cases changes : out = source
        · subst changes
          simp only [bne_self_eq_false]
          exact .silent (by simp) rfl console
        · have differs : (out != source) = true := by simpa using changes
          simp only [differs, changes]
          exact .shown rfl changes rfl (by rw [← console]; rfl)

/-- What a job comes to that has one file to visit. -/
theorem runPaths_of_finds {env : Environment} {wanted : Inputs.Wanted} {arguments : List String}
    (found : Inputs.Finds named.machine.files env wanted arguments [.file path]) :
    (job.runPaths named env wanted arguments).status =
        job.verdict [⟨.file path, (job.formatFile named path).1⟩] ∧
      (job.runPaths named env wanted arguments).session = (job.formatFile named path).2 := by
  obtain ⟨paths, expanded, collected⟩ := found
  have visited : job.visitAll named [.file path] =
      ([⟨.file path, (job.formatFile named path).1⟩], (job.formatFile named path).2) := by
    simp only [visitAll, visit]
    exact ite_self _
  rw [runPaths, expanded]
  dsimp only
  rw [collected, runFound, visited]
  exact ⟨rfl, rfl⟩

/-- The status of a job that reads one text from standard input, by what became of the text. -/
def inputStatus : Except HostError Bool → Status
  | .error e => e.status
  | .ok changed => if changed then .differs else .ok

/-- What a job comes to that reads one text from standard input. -/
theorem runFeed_of_gathered (job : Job) (piped : Session σ) {feed : Feed IoFault} {input : Input}
    (gathered : (feed.readAll Input.standardCapacity).outcome = .ok input) :
    (job.runFeed piped .console none feed).status =
        inputStatus (job.formatInput piped .console input.bytes).1 ∧
      (job.runFeed piped .console none feed).session =
        (job.formatInput piped .console input.bytes).2 := by
  simp only [runFeed, gathered]
  rcases job.formatInput piped .console input.bytes with ⟨e | ⟨_ | _⟩, after⟩
  · exact ⟨rfl, rfl⟩
  · exact ⟨rfl, rfl⟩
  · exact ⟨rfl, rfl⟩

theorem Agree.status {console : Console} {first second : Except HostError Bool × Session σ}
    (agree : Agree job.mode console path source first second) :
    job.verdict [⟨.file path, second.1⟩] = inputStatus first.1 := by
  cases agree with
  | @silent outcome _ _ unchanged =>
    rcases outcome with e | ⟨_ | _⟩
    · rfl
    · simp [verdict, inputStatus, Visit.failure?, Visit.changed]
    · contradiction
  | @printed outcome changed _ _ print =>
    cases outcome with
    | error e => rfl
    | ok => simp [verdict, inputStatus, Visit.failure?, print, Except.map]
  | shown check => simp [verdict, inputStatus, Visit.failure?, Visit.changed, check]

/-- A text that standard input delivers, in whatever pieces and with whatever interruptions, and
that one file holds is treated alike by a job that replaces no files, if the engine gives the same
for it each time. The status is the same, and so is the exit code, also where a change cannot be
shown. When texts are printed the same appears; a check shows the same change both times, under the
name of each source, if the text differs, and otherwise nothing either time. -/
theorem runFeed_agrees_with_runPaths (job : Job) (keeps : job.mode ≠ .replace)
    {piped named : Session σ} (same : SameEngine piped named)
    (steady : piped.gate.engine.Steady) (console : named.machine.console = piped.machine.console)
    {feed : Feed IoFault} {content : Bytes} (delivers : feed.Delivers content) {env : Environment}
    {wanted : Inputs.Wanted} {arguments : List String} {path : String}
    (found : Inputs.Finds named.machine.files env wanted arguments [.file path])
    (read : named.machine.files.readFile path = .ok content) :
    let fromInput := job.runFeed piped .console none feed
    let fromFile := job.runPaths named env wanted arguments
    fromFile.status = fromInput.status ∧ fromFile.exitCode = fromInput.exitCode ∧
      (job.mode = .print →
        fromFile.session.machine.console = fromInput.session.machine.console) ∧
      (job.mode = .check → fromInput.status ≠ .differs →
        fromInput.session.machine.console = piped.machine.console ∧
          fromFile.session.machine.console = named.machine.console) ∧
      (job.mode = .check → fromInput.status = .differs → ∃ out, out ≠ content ∧
        fromInput.session.machine.console =
          piped.machine.console.display (Diff.unified "stdin" content out) ∧
        fromFile.session.machine.console =
          named.machine.console.display (Diff.unified path content out)) := by
  intro fromInput fromFile
  obtain ⟨input, gathered, rfl⟩ := feed.readAll_of_delivers delivers Input.standardCapacity
  have agree := formatInput_agrees keeps same steady console read
  obtain ⟨ofFile, session⟩ := job.runPaths_of_finds found
  obtain ⟨ofInput, session'⟩ := job.runFeed_of_gathered piped gathered
  have status : fromFile.status = fromInput.status := by
    rw [ofFile, ofInput, agree.status]
  have exit : fromFile.exitCode = fromInput.exitCode := by
    rw [Ending.exitCode, Ending.exitCode, status, session, session', agree.lost]
  refine ⟨status, exit, ?_⟩
  simp only [fromInput, fromFile, session, session', ofInput]
  generalize job.formatInput piped .console input.bytes = first at agree
  generalize job.formatFile named path = second at agree
  cases agree with
  | @silent outcome _ _ unchanged kept kept' =>
    rw [← console] at kept'
    refine ⟨fun _ => by rw [kept, kept', console], fun _ _ => ⟨kept, kept'⟩, fun _ differs => ?_⟩
    rcases outcome with e | ⟨_ | _⟩
    · exact absurd differs e.status_ne_differs
    · cases differs
    · contradiction
  | printed print shown =>
    have quiet : job.mode ≠ .check := by
      rw [print]
      decide
    exact ⟨fun _ => shown, fun check => absurd check quiet, fun check => absurd check quiet⟩
  | @shown out _ _ check changes shown shown' =>
    rw [← console] at shown'
    refine ⟨fun print => ?_, fun _ same => absurd rfl same, fun _ _ => ?_⟩
    · rw [check] at print
      cases print
    · exact ⟨out, changes, shown, shown'⟩

/-- A text of a word with blanks behind it, in two pieces with an interruption between them, and in
a file. A check shows the same change for both, and ends with the same status. -/
theorem runFeed_agrees_with_runPaths_pieces :
    let job : Job := ⟨.check, ⟨false, false⟩, false⟩
    let content := Utf8.ofString "x  \n"
    let script : List (Delivery IoFault) :=
      [.bytes [0x78], .interrupted, .bytes [0x20, 0x20, 0x0A]]
    let feed := Delivery.feed script
    let files : FileSystem := ⟨[(["w"], .directory), (["w", "a"], .file content 0o600)], ["w"]⟩
    let gate : Gate Unit := ⟨.builtin Unit .standard, (), some (.ok ())⟩
    let piped : Session Unit := ⟨gate, ⟨⟨[], []⟩, .clear⟩⟩
    let named : Session Unit := ⟨gate, ⟨files, .clear⟩⟩
    let env : Environment := ⟨[], none⟩
    let wanted : Inputs.Wanted := ⟨["rb"], false⟩
    let fromInput := job.runFeed piped .console none feed
    let fromFile := job.runPaths named env wanted ["a"]
    feed.Delivers content ∧ Inputs.Finds files env wanted ["a"] [.file "a"] ∧
      files.readFile "a" = .ok content ∧ fromFile.status = .differs ∧ fromInput.status = .differs ∧
      ∃ out, out ≠ content ∧
        fromInput.session.machine.console =
          Console.clear.display (Diff.unified "stdin" content out) ∧
        fromFile.session.machine.console =
          Console.clear.display (Diff.unified "a" content out) := by
  intro job content script feed files gate piped named env wanted fromInput fromFile
  have delivers : feed.Delivers content := Delivery.delivers_feed script (by decide)
  have read : files.readFile "a" = .ok content := by decide +kernel
  have found : Inputs.Finds files env wanted ["a"] [.file "a"] :=
    Inputs.finds_of_readFile read (by decide) (by decide) _ _
  have differs : fromFile.status = .differs := by decide +kernel
  have same : SameEngine piped named := ⟨rfl, rfl⟩
  obtain ⟨status, -, -, -, shown⟩ := job.runFeed_agrees_with_runPaths (by decide) same
    (Engine.steady_builtin .standard) rfl delivers found read
  have differs' : fromInput.status = .differs := status.symm.trans differs
  exact ⟨delivers, found, read, differs, differs', shown rfl differs'⟩

end Job

end FormatHost
