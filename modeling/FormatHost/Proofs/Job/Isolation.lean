import FormatHost.Proofs.Job.Following

/-! # Files that fail do not affect the others

A job that goes on after a failure ends as if the files that fail had not been there, and one that
ends with the first failure as if nothing had come after the files before it. The status is that of
the first failure; without one it tells whether a check has found something to change, which can be
said of the files as they were when the job began.
-/

namespace FormatHost

variable {σ : Type}

def Visit.succeeded (visit : Visit) : Bool :=
  visit.failure?.isNone

theorem Visit.changed_iff (visit : Visit) : visit.changed = true ↔ visit.outcome = .ok true := by
  obtain ⟨found, outcome⟩ := visit
  cases outcome with
  | error e => exact ⟨nofun, nofun⟩
  | ok changed =>
    constructor
    · rintro rfl
      rfl
    · intro same
      exact Except.ok.inj same

namespace Job

open Session

variable {tried kept : Session σ}

/-! ## All visits -/

/-- The job that goes on after a failure. -/
def patient (job : Job) : Job :=
  { job with failFast := false }

/-- The job that ends with the first failure. -/
def hasty (job : Job) : Job :=
  { job with failFast := true }

theorem visitAll_patient_cons {job : Job} {session : Session σ} (roomy : job.Roomy session)
    (found : Found) (rest : List Found) (media : Media) :
    job.patient.visitAll session (found :: rest) media =
      (⟨found, (job.visit session found media).1⟩ ::
        (job.patient.visitAll (job.visit session found media).2 rest media).1,
       (job.patient.visitAll (job.visit session found media).2 rest media).2) := by
  have room : job.patient.Roomy session := roomy
  exact visitAll_cons room found rest media

private theorem visitAll_hasty_cons {job : Job} {session : Session σ} (roomy : job.Roomy session)
    (found : Found) (rest : List Found) (media : Media) :
    job.hasty.visitAll session (found :: rest) media =
      match job.visit session found media with
      | (.error e, next) => ([⟨found, .error e⟩], next)
      | (.ok changed, next) =>
        (⟨found, .ok changed⟩ :: (job.hasty.visitAll next rest media).1,
          (job.hasty.visitAll next rest media).2) := by
  have room : job.hasty.Roomy session := roomy
  have same : job.hasty.visit session found media = job.visit session found media := rfl
  rw [visitAll_cons room, same]
  rcases job.visit session found media with ⟨e | changed, next⟩
  · rfl
  · rfl

/-- Every entry gets its visit. -/
theorem map_found_visitAll {job : Job} {session : Session σ} (roomy : job.Roomy session)
    (all : List Found) (media : Media) :
    (job.patient.visitAll session all media).1.map Visit.found = all := by
  induction all generalizing session with
  | nil => rfl
  | cons found rest ih =>
    rw [visitAll_patient_cons roomy, List.map_cons, ih (roomy.visit found media)]

/-- What succeeds is repeated by the job on the entries that succeed, and nothing else is. -/
theorem visitAll_followed (job : Job) (covers : Covers job.mode tried kept) (all : List Found)
    (media : Media) :
    ∃ next,
      job.patient.visitAll kept
          (((job.patient.visitAll tried all media).1.filter Visit.succeeded).map Visit.found)
          media =
        ((job.patient.visitAll tried all media).1.filter Visit.succeeded, next) ∧
      Covers job.mode (job.patient.visitAll tried all media).2 next := by
  induction all generalizing tried kept with
  | nil => exact ⟨kept, rfl, covers⟩
  | cons found rest ih =>
    have followed := job.visit_followed covers found media
    obtain ⟨roomy, roomy'⟩ := Roomy.of_covers covers
    rw [visitAll_patient_cons roomy]
    generalize job.visit tried found media = first at followed
    cases followed with
    | skipped covers => exact ih covers
    | @repeated changed tried next same covers =>
      obtain ⟨final, again, covers⟩ := ih covers
      refine ⟨final, ?_, covers⟩
      rw [List.filter_cons_of_pos rfl, List.map_cons, visitAll_patient_cons roomy', same]
      dsimp only
      rw [again]

/-- A job that ends with the first failure does what the other one does if there is none, and
otherwise has done what that one does on the entries before it. -/
theorem visitAll_hasty (job : Job) (covers : Covers job.mode tried kept) (all : List Found)
    (media : Media) :
    ((∀ visit ∈ (job.patient.visitAll tried all media).1, visit.succeeded = true) ∧
      job.hasty.visitAll tried all media = job.patient.visitAll tried all media) ∨
    ∃ before failed after e, (job.patient.visitAll tried all media).1 = before ++ failed :: after ∧
      (∀ visit ∈ before, visit.succeeded = true) ∧ failed.failure? = some e ∧
      (job.hasty.visitAll tried all media).1 = before ++ [failed] ∧
      Covers job.mode (job.hasty.visitAll tried all media).2
        (job.patient.visitAll kept (before.map Visit.found) media).2 := by
  induction all generalizing tried kept with
  | nil => exact .inl ⟨nofun, rfl⟩
  | cons found rest ih =>
    have followed := job.visit_followed covers found media
    obtain ⟨roomy, roomy'⟩ := Roomy.of_covers covers
    rw [visitAll_patient_cons roomy, visitAll_hasty_cons roomy]
    generalize job.visit tried found media = first at followed
    cases followed with
    | @skipped e tried covers =>
      exact .inr ⟨[], ⟨found, .error e⟩, _, e, rfl, nofun, rfl, rfl, covers⟩
    | @repeated changed tried next same covers =>
      rcases ih covers with
        ⟨succeeded, alike⟩ | ⟨before, failed, after, e, split, succeeded, failure, visited, covers⟩
      · left
        dsimp only
        rw [alike]
        exact ⟨List.forall_mem_cons.mpr ⟨rfl, succeeded⟩, rfl⟩
      · right
        dsimp only
        rw [split, visited]
        refine ⟨⟨found, .ok changed⟩ :: before, failed, after, e, rfl, ?_, failure, rfl, ?_⟩
        · exact List.forall_mem_cons.mpr ⟨rfl, succeeded⟩
        · rw [List.map_cons, visitAll_patient_cons roomy', same]
          exact covers

/-! ## Checking -/

/-- Whether formatting changes what was found: a file that can be read, that the header comments
allow to be formatted, and that is formatted to something else. -/
def Changes (job : Job) (session : Session σ) (found : Found) : Prop :=
  ∃ path source out, found = .file path ∧ session.machine.files.readFile path = .ok source ∧
    job.policy.allows source = true ∧ (session.format source).1 = .ok out ∧ out ≠ source

private theorem changes_congr (job : Job) (alike : Alike tried kept) (found : Found) :
    job.Changes tried found ↔ job.Changes kept found := by
  have same : ∀ source, (tried.format source).1 = (kept.format source).1 := by
    intro source
    obtain ⟨outcome, state, other, formatted, again⟩ := format_cases alike source
    rw [formatted, again]
  simp only [Changes, same, alike.files]

private theorem not_changes_of_error {job : Job} {session : Session σ} {path : String}
    {fault : IoFault} (unread : session.machine.files.readFile path = .error fault) :
    ¬job.Changes session (.file path) := by
  rintro ⟨_, source, out, ⟨rfl⟩, read, -⟩
  cases unread.symm.trans read

private theorem changes_file_iff {job : Job} {session : Session σ} {path : String} {source : Bytes}
    (read : session.machine.files.readFile path = .ok source) :
    job.Changes session (.file path) ↔
      job.policy.allows source = true ∧
        ∃ out, (session.format source).1 = .ok out ∧ out ≠ source := by
  constructor
  · rintro ⟨_, text, out, ⟨rfl⟩, again, allowed, formatted, different⟩
    obtain rfl := Except.ok.inj (again.symm.trans read)
    exact ⟨allowed, out, formatted, different⟩
  · rintro ⟨allowed, out, formatted, different⟩
    exact ⟨path, source, out, rfl, read, allowed, formatted, different⟩

/-- A file that is checked is left as it is, and found to change if formatting changes it. -/
theorem formatFile_check {job : Job} (check : job.mode = .check) {session : Session σ}
    (steady : session.gate.engine.Steady) (path : String) (media : Media) :
    Alike (job.formatFile session path media).2 session ∧
      ((job.formatFile session path media).1 = .ok true ↔ job.Changes session (.file path)) := by
  have alike := Alike.refl steady
  rw [formatFile]
  cases read : session.machine.files.readFile path with
  | error fault => exact ⟨alike, by simp [not_changes_of_error read]⟩
  | ok source =>
    obtain ⟨outcome, state, -, formatted, -⟩ := format_cases alike source
    have left : Alike (session.withState state) session := ⟨steady, rfl, rfl, rfl⟩
    simp only [changes_file_iff read, formatted, check]
    cases allowed : job.policy.allows source with
    | false => exact ⟨alike, by simp⟩
    | true =>
      cases outcome with
      | error e => exact ⟨left, by simp⟩
      | ok out =>
        by_cases same : out = source
        · subst same
          simp [left]
        · have shown : Alike ((session.withState state).display (Diff.unified path source out))
              session := ⟨steady, rfl, rfl, rfl⟩
          simp [same, shown]

/-- A visit of a job that checks changes no file. -/
theorem visit_check {job : Job} (check : job.mode = .check) {session : Session σ}
    (steady : session.gate.engine.Steady) (found : Found) (media : Media) :
    Alike (job.visit session found media).2 session ∧
      ((job.visit session found media).1 = .ok true ↔ job.Changes session found) := by
  have never : ∀ other : Found, (∀ path, other ≠ .file path) → ¬job.Changes session other := by
    rintro other noFile ⟨path, -, -, rfl, -⟩
    exact noFile path rfl
  cases found with
  | file path => exact formatFile_check check steady path media
  | unreadable path cause =>
    exact ⟨.refl steady, nofun, fun changes => absurd changes (never _ nofun)⟩
  | badRules complaints =>
    exact ⟨.refl steady, nofun, fun changes => absurd changes (never _ nofun)⟩

/-- Since no file changes, what a job finds when it comes to an entry is what it would have found
before it began. -/
theorem any_changed_iff {job : Job} (check : job.mode = .check) {session : Session σ}
    (steady : session.gate.engine.Steady) (roomy : job.Roomy session) (all : List Found)
    (media : Media) :
    (job.patient.visitAll session all media).1.any Visit.changed = true ↔
      ∃ found ∈ all, job.Changes session found := by
  induction all generalizing session with
  | nil => exact ⟨nofun, nofun⟩
  | cons found rest ih =>
    obtain ⟨alike, changed⟩ := visit_check check steady found media
    rw [visitAll_patient_cons roomy, List.any_cons, Bool.or_eq_true,
      ih alike.steady (roomy.visit found media), Visit.changed_iff, changed]
    simp only [List.mem_cons, exists_eq_or_imp, job.changes_congr alike]

/-! ## The status -/

theorem findSome?_failure?_eq_none {visits : List Visit}
    (succeeded : ∀ visit ∈ visits, visit.succeeded = true) :
    visits.findSome? Visit.failure? = none := by
  rw [List.findSome?_eq_none_iff]
  intro visit member
  exact Option.isNone_iff_eq_none.mp (succeeded visit member)

theorem verdict_of_failure (job : Job) {before : List Visit} {failed : Visit} {e : HostError}
    (succeeded : ∀ visit ∈ before, visit.succeeded = true) (failure : failed.failure? = some e)
    (after : List Visit) : job.verdict (before ++ failed :: after) = e.status := by
  rw [verdict, List.findSome?_append, findSome?_failure?_eq_none succeeded, Option.none_or,
    List.findSome?_cons, failure]

private theorem verdict_of_success (job : Job) {visits : List Visit}
    (succeeded : ∀ visit ∈ visits, visit.succeeded = true) :
    job.verdict visits =
      if job.mode = .check && visits.any Visit.changed then .differs else .ok := by
  rw [verdict, findSome?_failure?_eq_none succeeded]

/-- If nothing fails the status tells whether a check has found what formatting changes. -/
theorem status_of_success (job : Job) {session : Session σ} {all : List Found} {media : Media}
    (steady : session.gate.engine.Steady) (roomy : job.Roomy session)
    (succeeded : ∀ visit ∈ (job.patient.visitAll session all media).1, visit.succeeded = true) :
    (job.mode = .check ∧ (∃ found ∈ all, job.Changes session found) →
      (job.patient.runFound session all media).status = .differs) ∧
    (¬(job.mode = .check ∧ ∃ found ∈ all, job.Changes session found) →
      (job.patient.runFound session all media).status = .ok) := by
  have status : (job.patient.runFound session all media).status = _ :=
    job.patient.verdict_of_success succeeded
  rw [status]
  constructor
  · rintro ⟨check, changes⟩
    have found := (any_changed_iff check steady roomy all media).mpr changes
    rw [found]
    simp [patient, check]
  · intro unchanged
    rw [if_neg]
    intro both
    obtain ⟨check, found⟩ := Bool.and_eq_true_iff.mp both
    have check : job.mode = .check := of_decide_eq_true check
    exact unchanged ⟨check, (any_changed_iff check steady roomy all media).mp found⟩

/-- Whatever was found, in whatever files and on whatever media: a job that goes on after a failure
visits everything, loses nothing of what it shows on a console that works, and ends with the files
and the console with which it ends on what succeeds alone, where everything has the same outcome
again. If nothing fails its status tells whether a check has found something that formatting
changes, and a job that ends with the first failure does just the same. Otherwise both have the
status of the first failure, and the one that ends there has done what is done for the entries
before it. -/
theorem runFound_isolates_failures (job : Job) (session : Session σ) (all : List Found)
    (media : Media) (steady : session.gate.engine.Steady)
    (working : job.mode ≠ .replace → session.machine.console.Working) :
    let visits := (job.patient.visitAll session all media).1
    let successes := visits.filter Visit.succeeded
    let whole := job.patient.runFound session all media
    let brief := job.hasty.runFound session all media
    visits.map Visit.found = all ∧
    (job.patient.visitAll session (successes.map Visit.found) media).1 = successes ∧
    whole.session.machine =
      (job.patient.runFound session (successes.map Visit.found) media).session.machine ∧
    session.loses whole.session = false ∧ session.loses brief.session = false ∧
    ((∀ visit ∈ visits, visit.succeeded = true) ∧
        (job.mode = .check ∧ (∃ found ∈ all, job.Changes session found) →
          whole.status = .differs) ∧
        (¬(job.mode = .check ∧ ∃ found ∈ all, job.Changes session found) → whole.status = .ok) ∧
        brief.status = whole.status ∧ brief.session.machine = whole.session.machine ∨
      ∃ before failed after e, visits = before ++ failed :: after ∧
        (∀ visit ∈ before, visit.succeeded = true) ∧ failed.failure? = some e ∧
        whole.status = e.status ∧ brief.status = e.status ∧
        brief.session.machine =
          (job.patient.runFound session (before.map Visit.found) media).session.machine) := by
  intro visits successes whole brief
  have covers := Covers.refl steady working
  obtain ⟨roomy, -⟩ := Roomy.of_covers covers
  have patiently : job.patient.Roomy session := roomy
  have hastily : job.hasty.Roomy session := roomy
  obtain ⟨next, again, agrees⟩ := job.visitAll_followed covers all media
  refine ⟨map_found_visitAll roomy all media, congrArg Prod.fst again, ?_,
    loses_eq_false_of_keeps (visitAll_keeps patiently all media),
    loses_eq_false_of_keeps (visitAll_keeps hastily all media), ?_⟩
  · have same : (job.patient.runFound session (successes.map Visit.found) media).session = next :=
      congrArg Prod.snd again
    rw [same]
    exact agrees.machine.symm
  · rcases job.visitAll_hasty covers all media with
      ⟨succeeded, alike⟩ | ⟨before, failed, after, e, split, succeeded, failure, visited, stopped⟩
    · left
      obtain ⟨differs, same⟩ := job.status_of_success steady roomy succeeded
      refine ⟨succeeded, differs, same, ?_, ?_⟩
      · exact congrArg (fun run : List Visit × Session σ => job.verdict run.1) alike
      · exact congrArg (fun run : List Visit × Session σ => run.2.machine) alike
    · right
      refine ⟨before, failed, after, e, split, succeeded, failure, ?_, ?_, stopped.machine.symm⟩
      · calc
          whole.status = job.patient.verdict (before ++ failed :: after) :=
            congrArg job.patient.verdict split
          _ = e.status := job.patient.verdict_of_failure succeeded failure after
      · calc
          brief.status = job.hasty.verdict (before ++ [failed]) :=
            congrArg job.hasty.verdict visited
          _ = e.status := job.hasty.verdict_of_failure succeeded failure []

/-- A file, a link to it, a file that the engine refuses and something that cannot be read: the file
is formatted twice, once through the link, as if the others had not been there, and the status is
that of the refusal. A job that ends there has formatted it once. -/
theorem runFound_isolates_refusal :
    let engine : Engine Nat :=
      ⟨"plus", fun state => (.ok (), state),
        fun state source =>
          (if source.head? = some 0x3F then .error (.sourceRejected "refused")
            else .ok (.owned (0x2B :: source)), state + 1),
        fun state _ _ => (.error Engine.noTrees, state)⟩
    let session : Session Nat :=
      ⟨⟨engine, 0, some (.ok ())⟩,
        ⟨⟨[(["w"], .directory), (["w", "a"], .file [0x78] 0o600), (["w", "l"], .link "a"),
          (["w", "q"], .file [0x3F] 0o644)], ["w"]⟩, .clear⟩⟩
    let job : Job := ⟨.replace, ⟨false, false⟩, false⟩
    let all : List Found := [.file "a", .file "q", .unreadable "gone" .notText, .file "l"]
    let visits := (job.patient.visitAll session all).1
    let whole := job.patient.runFound session all
    let brief := job.hasty.runFound session all
    session.gate.engine.Steady ∧ session.machine.console.Working ∧
      visits.map Visit.succeeded = [true, false, false, true] ∧
      whole.session.machine = (job.patient.runFound session
        ((visits.filter Visit.succeeded).map Visit.found)).session.machine ∧
      whole.session.machine.files.get? ["w", "a"] = some (.file [0x2B, 0x2B, 0x78] 0o600) ∧
      whole.status = .sourceRejected ∧
      brief.session.machine.files.get? ["w", "a"] = some (.file [0x2B, 0x78] 0o600) ∧
      brief.status = .sourceRejected := by
  intro engine session job all visits whole brief
  have steady : session.gate.engine.Steady := fun _ _ _ => rfl
  have working : session.machine.console.Working := ⟨rfl, rfl⟩
  have outcomes : visits.map Visit.succeeded = [true, false, false, true] := by decide +kernel
  have twice : whole.session.machine.files.get? ["w", "a"] =
      some (.file [0x2B, 0x2B, 0x78] 0o600) := by decide +kernel
  have status : whole.status = .sourceRejected := by decide +kernel
  have once : brief.session.machine.files.get? ["w", "a"] =
      some (.file [0x2B, 0x78] 0o600) := by decide +kernel
  have status' : brief.status = .sourceRejected := by decide +kernel
  -- from here on only what was computed is used
  clear_value session job all
  obtain ⟨-, -, agrees, -⟩ :=
    runFound_isolates_failures job session all .sound steady fun _ => working
  exact ⟨steady, working, outcomes, agrees, twice, status, once, status'⟩

end Job

end FormatHost
