import FormatHost.Engine.Foreign
import FormatHost.Proofs.Destination.Reliable
import FormatHost.Proofs.Diff.Unified
import FormatHost.Proofs.Job.Convergence
import FormatHost.Proofs.Job.Sources
import FormatHost.Proofs.Text.Decoding

/-! # What a check shows and what it counts

A check counts a text as changed if its bytes are, and shows the change of the text that is read
from these bytes, in which everything that cannot be read has become the same character. So nothing
is shown of a change that does not change how the text reads, although it is counted; any other
change is both shown and counted. Texts that can be read, as those that the built-in engine takes
and gives, read differently if they are.

All this takes room on the console. A diff for which there is none ends the program, and neither it
nor the entries behind it are reported.
-/

namespace FormatHost

variable {σ : Type}

/-! ## Findings -/

private theorem Utf8.encode_eq_nil_iff (s : Text) : encode s = [] ↔ s = [] := by
  cases s with
  | nil => exact ⟨fun _ => rfl, fun _ => rfl⟩
  | cons c rest =>
    have some : String.utf8EncodeChar c ≠ [] := by
      rw [String.utf8EncodeChar]
      split_ifs <;> exact List.cons_ne_nil _ _
    simp [some]

/-- A diff of two sources is empty exactly if they read the same. -/
theorem Diff.ofString_unified_eq_nil_iff (name : String) (before after : Bytes) :
    Utf8.ofString (Diff.unified name before after) = [] ↔
      Utf8.decodeLossy before = Utf8.decodeLossy after := by
  rw [Utf8.ofString, unified, String.toList_ofList, Utf8.encode_eq_nil_iff, unifiedText_eq_nil_iff]

/-- What a check finds out about a text. -/
structure Finding where
  /-- Whether the text counts as changed. -/
  counted : Bool
  /-- What appears on the console. -/
  shown : Bytes

namespace Finding

/-- What is found where nothing changes. -/
def nothing : Finding :=
  ⟨false, []⟩

/-- What is found of a text that has been formatted. -/
def between (name : String) (source out : Bytes) : Finding :=
  if out = source then nothing else ⟨true, Utf8.ofString (Diff.unified name source out)⟩

/-- Whether something is shown exactly if it is counted. -/
def Candid (finding : Finding) : Prop :=
  finding.shown ≠ [] ↔ finding.counted = true

theorem candid_nothing : nothing.Candid :=
  ⟨fun shown => absurd rfl shown, nofun⟩

private theorem candid_between_iff (name : String) (source out : Bytes) :
    (between name source out).Candid ↔
      (Utf8.decodeLossy out = Utf8.decodeLossy source → out = source) := by
  rw [between]
  split
  · next same => exact ⟨fun _ _ => same, fun _ => candid_nothing⟩
  · next differs =>
    simp only [Candid, iff_true, ne_eq, Diff.ofString_unified_eq_nil_iff]
    exact ⟨fun reads same => absurd same.symm reads, fun reads same => differs (reads same.symm)⟩

end Finding

namespace Job

open Session

/-- What a check finds out about a text in a session. -/
def finding (job : Job) (session : Session σ) (name : String) (source : Bytes) : Finding :=
  if job.policy.allows source then
    match (session.format source).1 with
    | .error _ => .nothing
    | .ok out => .between name source out
  else .nothing

/-- Whether formatting changes the bytes of a text but not how they read. -/
def Blurs (job : Job) (session : Session σ) (source : Bytes) : Prop :=
  job.policy.allows source = true ∧ ∃ out, (session.format source).1 = .ok out ∧ out ≠ source ∧
    Utf8.decodeLossy out = Utf8.decodeLossy source

theorem candid_finding_iff (job : Job) (session : Session σ) (name : String) (source : Bytes) :
    (job.finding session name source).Candid ↔ ¬job.Blurs session source := by
  rw [finding, Blurs]
  split
  · next allowed =>
    cases formatted : (session.format source).1 with
    | error e => simp [Finding.candid_nothing]
    | ok out =>
      rw [Finding.candid_between_iff]
      constructor
      · rintro same ⟨-, _, ⟨rfl⟩, differs, reads⟩
        exact differs (same reads)
      · intro plain reads
        by_contra differs
        exact plain ⟨allowed, out, rfl, differs, reads⟩
  · next refused => simp [Finding.candid_nothing, refused]

/-- What the built-in engine takes and gives can be read, so that it reads differently if it is. -/
theorem not_blurs_builtin (job : Job) {session : Session σ} {layout : Layout}
    (builtin : session.gate.engine = .builtin σ layout) (source : Bytes) :
    ¬job.Blurs session source := by
  rintro ⟨-, out, formatted, differs, reads⟩
  obtain ⟨-, result, given, rfl⟩ := format_eq_ok_iff.mp formatted
  rw [builtin] at given
  cases outcome : layout.formatBytes source with
  | error failure =>
    simp only [Engine.builtin, outcome] at given
    cases given
  | ok bytes =>
    simp only [Engine.builtin, outcome] at given
    obtain rfl := Except.ok.inj given
    obtain ⟨text, read, normal⟩ := bind_eq_ok_iff.mp outcome
    obtain rfl := Except.ok.inj normal
    have decoded : Utf8.decode source = .ok text := by
      rw [Layout.decodeSource] at read
      split at read
      · next text' decoded => rw [decoded, Except.ok.inj read]
      · cases read
    have same : layout.normalize text = text := by
      calc
        layout.normalize text = Utf8.decodeLossy (Utf8.encode (layout.normalize text)) :=
          (Utf8.decodeLossy_of_decode (Utf8.decode_encode _)).symm
        _ = Utf8.decodeLossy source := reads
        _ = text := Utf8.decodeLossy_of_decode decoded
    refine differs ?_
    change Utf8.encode (layout.normalize text) = source
    rw [same, Utf8.encode_of_decode decoded]

/-! ## One text -/

/-- Whether a step does what a check is to do about a finding: it shows what there is to show, and
says whether the text is counted. -/
structure Reports (before : Session σ) (finding : Finding)
    (step : Except HostError Bool × Session σ) : Prop where
  shows : step.2.machine.console = before.machine.console.showing finding.shown
  counts : step.1 = .ok true ↔ finding.counted = true

theorem reports_nothing {before after : Session σ} {outcome : Except HostError Bool}
    (same : after.machine.console = before.machine.console) (silent : outcome ≠ .ok true) :
    Reports before .nothing (outcome, after) := by
  refine ⟨?_, fun counted => absurd counted silent, nofun⟩
  rw [same, Console.showing, Finding.nothing, List.append_nil]

theorem reports_error {before after : Session σ}
    (same : after.machine.console = before.machine.console) (e : HostError) :
    Reports before .nothing (.error e, after) :=
  reports_nothing same nofun

/-- What a check does about a text under a name. -/
def checkText (job : Job) (session : Session σ) (name : String) (source : Bytes) :
    Except HostError Bool × Session σ :=
  if job.policy.allows source then
    match session.format source with
    | (.error e, session) => (.error e, session)
    | (.ok out, session) =>
      if out = source then (.ok false, session)
      else (.ok true, session.display (Diff.unified name source out))
  else (.ok false, session)

theorem checkText_reports (job : Job) {session : Session σ}
    (room : session.machine.console.full = false) (name : String) (source : Bytes) :
    Reports session (job.finding session name source) (job.checkText session name source) := by
  obtain ⟨state, formatted⟩ := session.format_spec source
  rw [checkText, finding, formatted]
  cases job.policy.allows source with
  | false => exact reports_nothing rfl nofun
  | true =>
    cases session.gate.barrier.bind _ with
    | error e => exact reports_nothing rfl nofun
    | ok out =>
      simp only [if_true, Finding.between]
      split
      · exact reports_nothing rfl nofun
      · have room' : (session.withState state).machine.console.full = false := room
        exact ⟨Console.display_of_room room' _, fun _ => rfl, fun _ => rfl⟩

variable {job : Job}

private theorem formatInput_eq_checkText (check : job.mode = .check) (session : Session σ)
    (destination : Destination) (source : Bytes) :
    job.formatInput session destination source = job.checkText session "stdin" source := by
  rw [formatInput, checkText, check]
  cases job.policy.allows source with
  | false => rfl
  | true => rfl

private theorem formatFile_eq_checkText (check : job.mode = .check) {session : Session σ}
    {path : String} {source : Bytes} (read : session.machine.files.readFile path = .ok source)
    (media : Media) :
    job.formatFile session path media = job.checkText session path source := by
  rw [formatFile, checkText, read, check]
  dsimp only
  cases job.policy.allows source with
  | false => rfl
  | true =>
    rcases session.format source with ⟨e | out, after⟩
    · rfl
    · by_cases same : out = source
      · simp [same]
      · simp [same]

def findingAt (job : Job) (session : Session σ) : Found → Finding
  | .file path =>
    match session.machine.files.readFile path with
    | .error _ => .nothing
    | .ok source => job.finding session path source
  | .unreadable _ _ | .badRules _ => .nothing

private theorem visit_reports (check : job.mode = .check) {session : Session σ}
    (room : session.machine.console.full = false) (found : Found) (media : Media) :
    Reports session (job.findingAt session found) (job.visit session found media) := by
  cases found with
  | unreadable path cause => exact reports_error rfl _
  | badRules complaints => exact reports_error rfl _
  | file path =>
    rw [visit, findingAt]
    cases read : session.machine.files.readFile path with
    | error fault =>
      rw [formatFile, read]
      exact reports_error rfl _
    | ok source =>
      rw [formatFile_eq_checkText check read]
      exact job.checkText_reports room path source

/-! ## All entries -/

/-- What a check finds at some entries that are visited one after another. -/
def findings (job : Job) (session : Session σ) (media : Media) : List Found → List Finding
  | [] => []
  | found :: rest =>
    job.findingAt session found :: job.findings (job.visit session found media).2 media rest

private theorem changed_of_reports {before after : Session σ} {finding : Finding}
    {outcome : Except HostError Bool} (reports : Reports before finding (outcome, after))
    (found : Found) :
    Visit.changed ⟨found, outcome⟩ = finding.counted := by
  rw [Bool.eq_iff_iff, Visit.changed_iff]
  exact reports.counts

private theorem visitAll_reports (check : job.mode = .check) {session : Session σ}
    (room : session.machine.console.full = false) (all : List Found) (media : Media) :
    let visits := (job.visitAll session all media).1
    let findings := job.findings session media (visits.map Visit.found)
    (job.visitAll session all media).2.machine.console =
        session.machine.console.showing (findings.map Finding.shown).flatten ∧
      visits.map Visit.changed = findings.map Finding.counted := by
  induction all generalizing session with
  | nil => exact ⟨by simp [visitAll, findings, Console.showing], rfl⟩
  | cons found rest ih =>
    have reports := visit_reports check room found media
    have roomy : job.Roomy session := fun _ => room
    rw [visitAll_cons roomy]
    rcases visited : job.visit session found media with ⟨outcome, next⟩
    rw [visited] at reports
    have shown := reports.shows
    have counted := changed_of_reports reports found
    dsimp only at shown ⊢
    split
    · simp [findings, shown, counted]
    · have room' : next.machine.console.full = false := by
        rw [shown]
        exact room
      obtain ⟨shows, counts⟩ := ih room'
      simp only [List.map_cons, findings, visited, List.flatten_cons, counts, counted, shows, shown,
        Console.showing, List.append_assoc]
      exact ⟨trivial, trivial⟩

/-! ## The whole job -/

/-- What a check finds in what a feed delivers. -/
def findingIn (job : Job) (session : Session σ) (feed : Feed IoFault) : Finding :=
  match (feed.readAll Input.standardCapacity).outcome with
  | .error _ => .nothing
  | .ok input => job.finding session "stdin" input.bytes

private theorem candid_findingIn_iff (job : Job) (session : Session σ) (feed : Feed IoFault) :
    (job.findingIn session feed).Candid ↔
      ∀ input, (feed.readAll Input.standardCapacity).outcome = .ok input →
        ¬job.Blurs session input.bytes := by
  rw [findingIn]
  cases (feed.readAll Input.standardCapacity).outcome with
  | error fault => simp [Finding.candid_nothing]
  | ok input => simp [candid_finding_iff]

private theorem candid_findingAt_iff (job : Job) (session : Session σ) (found : Found) :
    (job.findingAt session found).Candid ↔
      ∀ path source, found = .file path → session.machine.files.readFile path = .ok source →
        ¬job.Blurs session source := by
  cases found with
  | unreadable path cause => simp [findingAt, Finding.candid_nothing]
  | badRules complaints => simp [findingAt, Finding.candid_nothing]
  | file path =>
    rw [findingAt]
    cases read : session.machine.files.readFile path with
    | error fault =>
      refine ⟨?_, fun _ => Finding.candid_nothing⟩
      rintro - _ source ⟨rfl⟩ again
      cases read.symm.trans again
    | ok source =>
      dsimp only
      rw [candid_finding_iff]
      constructor
      · rintro plain _ _ ⟨rfl⟩ again
        obtain rfl := Except.ok.inj (read.symm.trans again)
        exact plain
      · intro plain
        exact plain path source rfl read

theorem runFeed_reports (check : job.mode = .check) {session : Session σ}
    (room : session.machine.console.full = false) (destination : Destination)
    (feed : Feed IoFault) :
    let ending := job.runFeed session destination none feed
    let finding := job.findingIn session feed
    ending.session.machine.console = session.machine.console.showing finding.shown ∧
      (ending.status = .differs ↔ finding.counted = true) := by
  intro ending finding
  simp only [ending, finding, runFeed, findingIn]
  cases (feed.readAll Input.standardCapacity).outcome with
  | error fault =>
    have silent : Reports session .nothing (.ok false, session) := reports_nothing rfl nofun
    have undecided := (HostError.readFailed fault).status_ne_differs
    exact ⟨silent.shows, fun differs => absurd differs undecided, nofun⟩
  | ok input =>
    obtain ⟨shows, counts⟩ := job.checkText_reports room "stdin" input.bytes
    simp only [formatInput_eq_checkText check, ← counts]
    generalize job.checkText session "stdin" input.bytes = step at shows
    rcases step with ⟨e | ⟨_ | _⟩, after⟩
    · exact ⟨shows, fun differs => absurd differs e.status_ne_differs, nofun⟩
    · exact ⟨shows, nofun, nofun⟩
    · exact ⟨shows, fun _ => rfl, fun _ => rfl⟩

private theorem verdict_eq_differs_iff (check : job.mode = .check) (visits : List Visit) :
    job.verdict visits = .differs ↔
      (∀ visit ∈ visits, visit.succeeded = true) ∧ visits.any Visit.changed = true := by
  rw [verdict]
  cases failure : visits.findSome? Visit.failure? with
  | some e =>
    refine ⟨fun differs => absurd differs e.status_ne_differs, ?_⟩
    rintro ⟨succeeded, -⟩
    rw [findSome?_failure?_eq_none succeeded] at failure
    cases failure
  | none =>
    have succeeded : ∀ visit ∈ visits, visit.succeeded = true := by
      intro visit member
      exact Option.isNone_iff_eq_none.mpr (List.findSome?_eq_none_iff.mp failure visit member)
    simpa [check] using fun _ _ _ => succeeded

theorem runFound_reports (check : job.mode = .check) {session : Session σ}
    (room : session.machine.console.full = false) (all : List Found) (media : Media) :
    let visits := (job.visitAll session all media).1
    let findings := job.findings session media (visits.map Visit.found)
    let ending := job.runFound session all media
    ending.session.machine.console =
        session.machine.console.showing (findings.map Finding.shown).flatten ∧
      visits.map Visit.changed = findings.map Finding.counted ∧
      (ending.status = .differs ↔
        (∀ visit ∈ visits, visit.succeeded = true) ∧
          ∃ finding ∈ findings, finding.counted = true) := by
  intro visits findings ending
  obtain ⟨shows, counts⟩ := visitAll_reports check room all media
  have counted : (visits.map Visit.changed).any id = (findings.map Finding.counted).any id := by
    rw [counts]
  rw [List.any_map, List.any_map, Function.id_comp, Function.id_comp] at counted
  refine ⟨shows, counts, ?_⟩
  change job.verdict visits = .differs ↔ _
  rw [verdict_eq_differs_iff check, counted, List.any_eq_true]

/-- A check of standard input or of files shows what there is to show of each text and counts the
texts that formatting changes. It ends with a difference if a text counts and nothing failed.
Something is shown of a text exactly if the text counts, unless formatting changes its bytes but not
how they read, which the built-in engine never does. -/
theorem check_is_candid_iff (job : Job) (check : job.mode = .check) (session : Session σ)
    (room : session.machine.console.full = false) :
    (∀ destination feed,
      let ending := job.runFeed session destination none feed
      let finding := job.findingIn session feed
      ending.session.machine.console.written =
          session.machine.console.written ++ finding.shown ∧
        (ending.status = .differs ↔ finding.counted = true) ∧
        (finding.Candid ↔ ∀ input, (feed.readAll Input.standardCapacity).outcome = .ok input →
          ¬job.Blurs session input.bytes)) ∧
    (∀ all media,
      let visits := (job.visitAll session all media).1
      let findings := job.findings session media (visits.map Visit.found)
      let ending := job.runFound session all media
      ending.session.machine.console.written =
          session.machine.console.written ++ (findings.map Finding.shown).flatten ∧
        visits.map Visit.changed = findings.map Finding.counted ∧
        (ending.status = .differs ↔
          (∀ visit ∈ visits, visit.succeeded = true) ∧
            ∃ finding ∈ findings, finding.counted = true)) ∧
    (∀ (here : Session σ) found, (job.findingAt here found).Candid ↔
      ∀ path source, found = .file path → here.machine.files.readFile path = .ok source →
        ¬job.Blurs here source) ∧
    ∀ (here : Session σ) layout, here.gate.engine = .builtin σ layout →
      ∀ source, ¬job.Blurs here source := by
  refine ⟨?_, ?_, job.candid_findingAt_iff, fun here layout => job.not_blurs_builtin⟩
  · intro destination feed ending finding
    obtain ⟨shows, counts⟩ := runFeed_reports check room destination feed
    exact ⟨congrArg Console.written shows, counts, job.candid_findingIn_iff session feed⟩
  · intro all media visits findings ending
    obtain ⟨shows, counts⟩ := runFound_reports check room all media
    exact ⟨congrArg Console.written shows, counts⟩

/-- A check of a file with a byte that cannot be read and of one with a word, with an engine that
writes what it can read and puts a line feed behind it where there is none. Both files count; only
the line feed is shown, so one finding is candid and the other is not. -/
theorem check_is_candid_mended :
    let job : Job := ⟨.check, ⟨false, false⟩, false⟩
    let mend (source : Bytes) : Bytes :=
      let text := Utf8.encode (Utf8.decodeLossy source)
      if text.getLast? = some 0x0A then text else text ++ [0x0A]
    let engine : Engine Unit :=
      ⟨"mender", fun s => (.ok (), s), fun s source => (.ok (.owned (mend source)), s),
        fun s _ _ => (.error Engine.noTrees, s)⟩
    let files : FileSystem :=
      ⟨[(["w"], .directory), (["w", "a"], .file [0xFF, 0x0A] 0o644),
        (["w", "b"], .file [0x78] 0o644)], ["w"]⟩
    let session : Session Unit := ⟨⟨engine, (), some (.ok ())⟩, ⟨files, .clear⟩⟩
    let ending := job.runFound session [.file "a", .file "b"]
    let findings := job.findings session .sound [.file "a", .file "b"]
    job.mode = .check ∧ session.machine.console.full = false ∧
      findings.map Finding.counted = [true, true] ∧ ending.status = .differs ∧
      ending.session.machine.console.written = (findings.map Finding.shown).flatten ∧
      ¬(job.findingAt session (.file "a")).Candid ∧ (job.findingAt session (.file "b")).Candid := by
  intro job mend engine files session ending findings
  obtain ⟨-, ofFiles, candid, -⟩ := job.check_is_candid_iff rfl session rfl
  obtain ⟨shown, counted, differs⟩ := ofFiles [.file "a", .file "b"] .sound
  have roomy : job.Roomy session := fun _ => rfl
  have visited : (job.visitAll session [.file "a", .file "b"]).1.map Visit.found =
      [.file "a", .file "b"] := map_found_visitAll roomy _ _
  rw [visited] at shown counted differs
  have count : findings.map Finding.counted = [true, true] := by
    rw [← counted]
    decide +kernel
  have blurred : job.Blurs session [0xFF, 0x0A] :=
    ⟨rfl, mend [0xFF, 0x0A], rfl, by decide, by decide⟩
  have plain : ¬job.Blurs session [0x78] := by
    rintro ⟨-, _, ⟨rfl⟩, -, reads⟩
    revert reads
    decide
  refine ⟨rfl, rfl, count, by decide +kernel, shown.trans (List.nil_append _), ?_, ?_⟩
  · rw [candid]
    exact fun never => never "a" [0xFF, 0x0A] rfl (by decide +kernel) blurred
  · rw [candid]
    rintro _ source ⟨rfl⟩ read
    have content : session.machine.files.readFile "b" = .ok [0x78] := by decide +kernel
    obtain rfl := Except.ok.inj (content.symm.trans read)
    exact plain

/-- A library that mends a byte that cannot be read. Standard input, and a file, with this byte
counts as changed, and nothing is shown. -/
theorem check_hides_mended :
    let loader : Loader Unit := fun _ => .ok ⟨fun _ => true, fun _ =>
      ⟨fun s => (0, s), fun s _ => (⟨0, some (.ofBytes [0xEF, 0xBF, 0xBD, 0x0A])⟩, s)⟩⟩
    let job : Job := ⟨.check, ⟨false, false⟩, false⟩
    let files : FileSystem :=
      ⟨[(["w"], .directory), (["w", "a"], .file [0xFF, 0x0A] 0o644)], ["w"]⟩
    let session : Session Unit :=
      ⟨⟨.foreign loader "l" none, (), some (.ok ())⟩, ⟨files, .clear⟩⟩
    let script : List (Delivery IoFault) := [.bytes [0xFF, 0x0A]]
    let fromInput := job.runInput session .console none script
    let fromFile := job.runFound session [.file "a"]
    fromInput.status = .differs ∧ fromInput.session.machine.console.written = [] ∧
      fromFile.status = .differs ∧ fromFile.notices = [.wouldChange 1] ∧
      fromFile.session.machine.console.written = [] := by
  intro loader job files session script fromInput fromFile
  have blank (name : String) : (job.finding session name [0xFF, 0x0A]).shown = [] := by
    change Utf8.ofString (Diff.unified name [0xFF, 0x0A] [0xEF, 0xBF, 0xBD, 0x0A]) = []
    rw [Diff.ofString_unified_eq_nil_iff]
    decide
  have counts (name : String) : (job.finding session name [0xFF, 0x0A]).counted = true := rfl
  have piped : job.findingIn session (Delivery.feed script) =
      job.finding session "stdin" [0xFF, 0x0A] := by
    have delivers := Delivery.delivers_feed script (by decide)
    obtain ⟨input, gathered, bytes⟩ := Feed.readAll_of_delivers delivers Input.standardCapacity
    rw [findingIn, gathered]
    dsimp only
    rw [bytes]
    rfl
  have named : job.findings session .sound [.file "a"] =
      [job.finding session "a" [0xFF, 0x0A]] := by
    have content : session.machine.files.readFile "a" = .ok [0xFF, 0x0A] := by decide +kernel
    rw [findings, findingAt, content]
    rfl
  have roomy : job.Roomy session := fun _ => rfl
  have visited : (job.visitAll session [.file "a"]).1.map Visit.found = [.file "a"] :=
    map_found_visitAll roomy _ _
  have check : job.mode = .check := rfl
  have room : session.machine.console.full = false := rfl
  obtain ⟨shownInput, status⟩ := runFeed_reports check room .console (Delivery.feed script)
  obtain ⟨shownFile, -, -⟩ := runFound_reports check room [.file "a"] .sound
  rw [piped] at shownInput status
  rw [visited, named] at shownFile
  refine ⟨status.mpr (counts _), ?_, by decide +kernel, by decide +kernel, ?_⟩
  · calc
      _ = [] ++ (job.finding session "stdin" [0xFF, 0x0A]).shown :=
        congrArg Console.written shownInput
      _ = [] := by rw [blank, List.append_nil]
  · calc
      _ = [] ++ ([job.finding session "a" [0xFF, 0x0A]].map Finding.shown).flatten :=
        congrArg Console.written shownFile
      _ = [] := by simp [blank]

end Job

end FormatHost
