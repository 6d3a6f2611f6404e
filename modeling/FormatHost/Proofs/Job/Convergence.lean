import FormatHost.Proofs.Files.Replacing
import FormatHost.Proofs.Job.Isolation
import FormatHost.Proofs.NormalForm
import FormatHost.Proofs.Text.Utf8

/-! # Replacing files converges at once

A file is settled if the header comments keep it from being formatted or formatting leaves it as it
is. When a file has been visited with success it is settled, however formatting may have moved its
header comment, and it stays settled: a later visit writes only to the place of a file that is not,
so not through another path to this one. After a run without failures everything that was found is
settled, and neither a check nor another run finds anything to do.
-/

namespace FormatHost

variable {σ : Type}

/-- Whether what an engine gives for a text is what it gives for that again. -/
def Engine.Idempotent (engine : Engine σ) : Prop :=
  ∀ state source result, (engine.format state source).1 = .ok result →
    ∃ again, (engine.format state result.bytes).1 = .ok again ∧ again.bytes = result.bytes

private theorem Layout.formatBytes_idempotent (layout : Layout) {source out : Bytes}
    (formatted : layout.formatBytes source = .ok out) : layout.formatBytes out = .ok out := by
  obtain ⟨text, -, given⟩ := bind_eq_ok_iff.mp formatted
  obtain rfl := Except.ok.inj given
  have normal := normalize_of_isNormal (layout.isNormal_normalize text)
  simp only [formatBytes, decodeSource, Utf8.decode_encode, bind, Except.bind, normal]

private theorem Engine.idempotent_builtin (layout : Layout) : (builtin σ layout).Idempotent := by
  intro state source result formatted
  cases outcome : layout.formatBytes source with
  | error failure =>
    simp only [builtin, outcome] at formatted
    cases formatted
  | ok out =>
    simp only [builtin, outcome] at formatted
    obtain rfl := Except.ok.inj formatted
    refine ⟨.owned out, ?_, rfl⟩
    simp only [builtin]
    rw [show (Result.owned out).bytes = out from rfl, layout.formatBytes_idempotent outcome]
    rfl

namespace Session

/-- A text is formatted if the barrier is open and the engine has a result for it. -/
theorem format_eq_ok_iff {session : Session σ} {source out : Bytes} :
    (session.format source).1 = .ok out ↔
      session.gate.barrier = .ok () ∧ ∃ result,
        (session.gate.engine.format session.gate.state source).1 = .ok result ∧
          result.bytes = out := by
  obtain ⟨state, spec⟩ := session.format_spec source
  rw [spec]
  cases session.gate.barrier with
  | error e => simp [Except.bind]
  | ok =>
    cases (session.gate.engine.format session.gate.state source).1 with
    | error failure => simp [Except.bind, Except.mapError, Except.map]
    | ok result => simp [Except.bind, Except.mapError, Except.map]

/-- In a session with such an engine, formatting what formatting gave changes nothing. -/
theorem format_again {session : Session σ} (idempotent : session.gate.engine.Idempotent)
    {source out : Bytes} (formatted : (session.format source).1 = .ok out) :
    (session.format out).1 = .ok out := by
  obtain ⟨opened, result, given, rfl⟩ := format_eq_ok_iff.mp formatted
  obtain ⟨again, same, bytes⟩ := idempotent _ _ _ given
  exact format_eq_ok_iff.mpr ⟨opened, again, same, bytes⟩

/-- An engine that depends on nothing but the text gives the same in both sessions. -/
theorem SameEngine.format {session other : Session σ} (same : SameEngine session other)
    (steady : session.gate.engine.Steady) (source : Bytes) :
    (other.format source).1 = (session.format source).1 := by
  obtain ⟨outcome, state, state', formatted, again⟩ := same.format_cases steady source
  rw [formatted, again]

end Session

namespace Job

open Session

variable {job : Job} {session later : Session σ} {path other : String} {media : Media}

/-- Whether formatting the file of a path is over: it is not to be formatted, or left as it is. -/
def Settled (job : Job) (session : Session σ) (path : String) : Prop :=
  ∃ source, session.machine.files.readFile path = .ok source ∧
    (job.policy.allows source = true → (session.format source).1 = .ok source)

/-- Only the files and the engine decide what is settled. -/
theorem Settled.of_files (settled : job.Settled session path)
    (steady : session.gate.engine.Steady) (same : SameEngine session later)
    (files : later.machine.files = session.machine.files) : job.Settled later path := by
  obtain ⟨source, read, unchanged⟩ := settled
  refine ⟨source, by rw [files, read], fun allowed => ?_⟩
  rw [same.format steady]
  exact unchanged allowed

/-! ## One visit that replaces a file -/

private theorem write_replaces {place : Location} {source out : Bytes} {rights : Nat}
    {medium : Medium}
    (rooted : session.machine.files.Rooted session.machine.files.workingDirectory)
    (found : session.machine.files.resolve true path = .ok (.entry place (.file source rights)))
    {done : Unit} (written : session.write (.file path) out medium = (.ok done, later)) :
    SameEngine session later ∧
      ∃ mode, session.machine.files.Replaces place out mode later.machine.files := by
  rcases streamed : (Destination.file path).stream session.machine [.ok out] medium with
    ⟨outcome, machine⟩
  rw [write, streamed] at written
  obtain ⟨succeeded, rfl⟩ := Prod.mk.inj written
  cases outcome with
  | error e => cases succeeded
  | ok count =>
    obtain ⟨-, replaces⟩ := Destination.stream_file_replaces rooted found streamed
    exact ⟨⟨rfl, rfl⟩, replaces⟩

/-- What a visit that succeeds has done to the files: the file is settled and nothing has changed,
or a file that is not has been replaced by what formatting it gives. -/
inductive Rewriting (job : Job) (session : Session σ) (path : String) (files : FileSystem) : Prop
  | kept (settled : job.Settled session path) (same : files = session.machine.files)
  | replaced {place : Location} {source out : Bytes} {rights mode : Nat}
      (found : session.machine.files.resolve true path = .ok (.entry place (.file source rights)))
      (allowed : job.policy.allows source = true) (formatted : (session.format source).1 = .ok out)
      (different : out ≠ source) (replaces : session.machine.files.Replaces place out mode files)

private theorem formatFile_replace (replace : job.mode = .replace)
    (rooted : session.machine.files.Rooted session.machine.files.workingDirectory)
    {changed : Bool} (visited : job.formatFile session path media = (.ok changed, later)) :
    SameEngine session later ∧ Rewriting job session path later.machine.files := by
  rw [formatFile] at visited
  cases read : session.machine.files.readFile path with
  | error fault =>
    rw [read] at visited
    cases visited
  | ok source =>
    simp only [read, replace] at visited
    cases allowed : job.policy.allows source with
    | false =>
      simp only [allowed] at visited
      obtain ⟨-, rfl⟩ := Prod.mk.inj visited
      exact ⟨.refl _, .kept ⟨source, read, by simp [allowed]⟩ rfl⟩
    | true =>
      obtain ⟨state, spec⟩ := session.format_spec source
      have step : session.format source = ((session.format source).1, session.withState state) := by
        rw [spec]
      rw [step] at visited
      cases formatted : (session.format source).1 with
      | error e =>
        rw [formatted] at visited
        simp [allowed] at visited
      | ok out =>
        simp only [formatted, allowed, Bool.not_true, Bool.false_eq_true, if_false] at visited
        by_cases same : out = source
        · subst same
          simp only [bne_self_eq_false, Bool.false_eq_true, if_false] at visited
          obtain ⟨-, rfl⟩ := Prod.mk.inj visited
          exact ⟨⟨rfl, rfl⟩, .kept ⟨out, read, fun _ => formatted⟩ rfl⟩
        · have differs : (out != source) = true := by simpa using same
          simp only [differs, if_true] at visited
          rcases written : (session.withState state).write (.file path) out (media path) with
            ⟨outcome, next⟩
          rw [written] at visited
          obtain ⟨succeeded, rfl⟩ := Prod.mk.inj visited
          cases outcome with
          | error e => cases succeeded
          | ok =>
            obtain ⟨place, rights, found⟩ := FileSystem.readFile_eq_ok_iff.mp read
            obtain ⟨alike, mode, replaces⟩ :=
              write_replaces (by exact rooted) (by exact found) written
            exact ⟨⟨alike.engine, alike.outcome⟩, .replaced found allowed formatted same replaces⟩

/-- Replacing a file settles it, and it leaves settled what was settled. -/
theorem Rewriting.settles (rewriting : Rewriting job session path later.machine.files)
    (steady : session.gate.engine.Steady) (idempotent : session.gate.engine.Idempotent)
    (alike : SameEngine session later) :
    job.Settled later path ∧ ∀ other, job.Settled session other → job.Settled later other := by
  cases rewriting with
  | kept settled same =>
    exact ⟨settled.of_files steady alike same, fun _ before => before.of_files steady alike same⟩
  | @replaced place source out rights mode found allowed formatted different replaces =>
    constructor
    · have found' := replaces.resolve found
      rw [if_pos rfl] at found'
      refine ⟨out, FileSystem.readFile_eq_ok_iff.mpr ⟨place, mode, found'⟩, fun _ => ?_⟩
      rw [alike.format steady]
      exact format_again idempotent formatted
    · rintro other ⟨text, read, unchanged⟩
      obtain ⟨there, mode', found'⟩ := FileSystem.readFile_eq_ok_iff.mp read
      -- a settled file is not the one that was replaced, since formatting changed that one
      have elsewhere : there ≠ place := by
        rintro rfl
        have same := (FileSystem.get?_of_resolve found').symm.trans
          (FileSystem.get?_of_resolve found)
        obtain ⟨rfl, -⟩ := Entry.file.inj (Option.some.inj same)
        have again := Except.ok.inj (formatted.symm.trans (unchanged allowed))
        exact different again
      have kept := replaces.resolve found'
      rw [if_neg elsewhere] at kept
      refine ⟨text, FileSystem.readFile_eq_ok_iff.mpr ⟨there, mode', kept⟩, fun allowed => ?_⟩
      rw [alike.format steady]
      exact unchanged allowed

theorem Rewriting.rooted {files : FileSystem} (rewriting : Rewriting job session path files)
    (rooted : session.machine.files.Rooted session.machine.files.workingDirectory) :
    files.Rooted files.workingDirectory := by
  cases rewriting with
  | kept _ same =>
    rw [same]
    exact rooted
  | replaced _ _ _ _ replaces => exact replaces.rooted rooted

/-! ## All visits -/

/-- A visit that fails leaves a failure among the visits. -/
theorem exists_failure_of_error {found : Found} {e : HostError}
    (visited : job.visit session found media = (.error e, later)) (rest : List Found) :
    ∃ visit ∈ (job.visitAll session (found :: rest) media).1, visit.failure? = some e := by
  rw [visitAll, visited]
  dsimp only
  split
  · exact ⟨_, List.mem_singleton_self _, rfl⟩
  · exact ⟨_, List.mem_cons_self .., rfl⟩

/-- After a visit that succeeds and shows what it has to the others follow. -/
theorem visitAll_cons_of_ok {found : Found} {rest : List Found} {changed : Bool}
    (visited : job.visit session found media = (.ok changed, later))
    (shows : session.loses later = false) :
    job.visitAll session (found :: rest) media =
      (⟨found, .ok changed⟩ :: (job.visitAll later rest media).1,
        (job.visitAll later rest media).2) := by
  rw [visitAll, visited]
  simp [Visit.failure?, shows]

/-- A job whose status is that of success had no failures. -/
theorem no_failure_of_status {visits : List Visit} (status : job.verdict visits = .ok) :
    ∀ visit ∈ visits, visit.failure? = none := by
  rw [verdict] at status
  split at status
  · next e _ => exact absurd status e.status_ne_ok
  · next none => exact List.findSome?_eq_none_iff.mp none

/-- When files are replaced without a failure, everything that was found is settled in the end, and
so is all that was settled before. -/
theorem settled_of_visitAll (replace : job.mode = .replace)
    (rooted : session.machine.files.Rooted session.machine.files.workingDirectory)
    (steady : session.gate.engine.Steady) (idempotent : session.gate.engine.Idempotent)
    {all : List Found}
    (succeeded : ∀ visit ∈ (job.visitAll session all media).1, visit.failure? = none) :
    SameEngine session (job.visitAll session all media).2 ∧
      (∀ path, job.Settled session path → job.Settled (job.visitAll session all media).2 path) ∧
      ∀ found ∈ all, ∃ path, found = .file path ∧
        job.Settled (job.visitAll session all media).2 path := by
  induction all generalizing session with
  | nil => exact ⟨.refl _, fun _ settled => settled, nofun⟩
  | cons found rest ih =>
    rcases visited : job.visit session found media with ⟨e | changed, next⟩
    · obtain ⟨visit, member, failed⟩ := exists_failure_of_error visited rest
      rw [succeeded visit member] at failed
      cases failed
    · have roomy : job.Roomy session := by
        intro check
        cases check.symm.trans replace
      have keeps := visit_keeps roomy found media
      rw [visited] at keeps
      rw [visitAll_cons_of_ok visited (loses_eq_false_of_keeps keeps)] at succeeded ⊢
      cases found with
      | file path =>
        obtain ⟨alike, rewriting⟩ := formatFile_replace replace rooted visited
        obtain ⟨own, kept⟩ := rewriting.settles steady idempotent alike
        obtain ⟨alike', kept', others⟩ := ih (rewriting.rooted rooted)
          (alike.engine ▸ steady) (alike.engine ▸ idempotent)
          fun visit member => succeeded visit (List.mem_cons_of_mem _ member)
        refine ⟨alike.trans alike', fun path settled => kept' path (kept path settled), ?_⟩
        exact List.forall_mem_cons.mpr ⟨⟨path, rfl, kept' path own⟩, others⟩
      | unreadable path cause => cases visited
      | badRules complaints => cases visited

/-- Nothing is done about a settled file, unless it is printed. -/
theorem visit_settled (settled : job.Settled session path) (quiet : job.mode ≠ .print)
    (media : Media) :
    ∃ state, job.visit session (.file path) media = (.ok false, session.withState state) := by
  obtain ⟨source, read, unchanged⟩ := settled
  obtain ⟨mode, policy, failFast⟩ := job
  simp only [visit, formatFile, read]
  cases allowed : policy.allows source with
  | false =>
    refine ⟨session.gate.state, ?_⟩
    cases mode with
    | print => contradiction
    | check => rfl
    | replace => rfl
  | true =>
    obtain ⟨state, spec⟩ := session.format_spec source
    have step : session.format source = (.ok source, session.withState state) := by
      rw [← unchanged allowed, spec]
    refine ⟨state, ?_⟩
    simp only [step, bne_self_eq_false]
    cases mode with
    | print => contradiction
    | check => rfl
    | replace => rfl

/-- When all that was found is settled, the visits change nothing. -/
theorem visitAll_settled (quiet : job.mode ≠ .print) (steady : session.gate.engine.Steady)
    {all : List Found} (settled : ∀ found ∈ all, ∃ path, found = .file path ∧
      job.Settled session path) (media : Media) :
    (job.visitAll session all media).2.machine = session.machine ∧
      ∀ visit ∈ (job.visitAll session all media).1, visit.outcome = .ok false := by
  induction all generalizing session with
  | nil => exact ⟨rfl, nofun⟩
  | cons found rest ih =>
    obtain ⟨path, rfl, here⟩ := settled found (List.mem_cons_self ..)
    obtain ⟨state, visited⟩ := visit_settled here quiet media
    have later : ∀ found ∈ rest, ∃ path, found = .file path ∧
        job.Settled (session.withState state) path := by
      intro found member
      obtain ⟨path, rfl, there⟩ := settled found (List.mem_cons_of_mem _ member)
      exact ⟨path, rfl, there.of_files steady ⟨rfl, rfl⟩ rfl⟩
    obtain ⟨machine, outcomes⟩ := ih (by exact steady) later
    rw [visitAll_cons_of_ok visited (loses_eq_false_of_keeps ⟨rfl, rfl⟩)]
    exact ⟨machine, List.forall_mem_cons.mpr ⟨rfl, outcomes⟩⟩

/-- So the job succeeds and has nothing to say. -/
theorem runFound_settled (quiet : job.mode ≠ .print) (steady : session.gate.engine.Steady)
    {all : List Found} (settled : ∀ found ∈ all, ∃ path, found = .file path ∧
      job.Settled session path) (media : Media) :
    (job.runFound session all media).status = .ok ∧
      (job.runFound session all media).notices = [] ∧
      (job.runFound session all media).session.machine = session.machine := by
  obtain ⟨machine, outcomes⟩ := visitAll_settled quiet steady settled media
  have noFailure : ∀ visit ∈ (job.visitAll session all media).1, visit.failure? = none := by
    intro visit member
    rw [Visit.failure?, outcomes visit member]
  have unchanged : (job.visitAll session all media).1.any Visit.changed = false := by
    rw [List.any_eq_false]
    intro visit member
    simp [Visit.changed, outcomes visit member]
  have status : job.verdict (job.visitAll session all media).1 = .ok := by
    rw [verdict, List.findSome?_eq_none_iff.mpr noFailure]
    simp [unchanged]
  refine ⟨status, ?_, machine⟩
  have silent : (job.visitAll session all media).1.filterMap job.remark? = [] := by
    rw [List.filterMap_eq_nil_iff]
    intro visit member
    rw [remark?, noFailure visit member]
    rfl
  have shows : session.loses (job.visitAll session all media).2 = false := by
    rw [loses, machine]
    exact Bool.not_and_self _
  simp only [runFound, shows, Bool.false_eq_true, if_false]
  rw [remarks, silent, status]
  rfl

def inMode (job : Job) (mode : Mode) : Job :=
  { job with mode := mode }

@[simp] theorem mode_inMode (job : Job) (mode : Mode) : (job.inMode mode).mode = mode := rfl

/-- Whatever the layout, the header comments that are obeyed, the files and what was found, files
and links to them any number of times among it: when the built-in engine has replaced files without
a failure, a check of the same on the files as they are then finds nothing to report and shows
nothing, and replacing files again writes to none of them, since it succeeds even on media that
refuse every call. -/
theorem runFound_converges (job : Job) (layout : Layout) (session : Session σ) (all : List Found)
    (media : Media) (builtin : session.gate.engine = .builtin σ layout)
    (rooted : session.machine.files.Rooted session.machine.files.workingDirectory)
    (succeeded : ((job.inMode .replace).runFound session all media).status = .ok)
    (state : σ) (console : Console) :
    let files := ((job.inMode .replace).runFound session all media).session.machine.files
    let later : Session σ := ⟨⟨session.gate.engine, state, session.gate.outcome⟩, ⟨files, console⟩⟩
    let checked := (job.inMode .check).runFound later all
    (checked.status = .ok ∧ checked.notices = [] ∧ checked.session.machine = later.machine) ∧
      ∀ media, let again := (job.inMode .replace).runFound later all media
        again.status = .ok ∧ again.notices = [] ∧ again.session.machine = later.machine := by
  intro files later checked
  have steady : session.gate.engine.Steady := builtin ▸ Engine.steady_builtin layout
  have idempotent : session.gate.engine.Idempotent := builtin ▸ Engine.idempotent_builtin layout
  obtain ⟨alike, -, settled⟩ := settled_of_visitAll (job.mode_inMode .replace) rooted steady
    idempotent (no_failure_of_status succeeded)
  have same : SameEngine ((job.inMode .replace).visitAll session all media).2 later :=
    ⟨alike.engine.symm, alike.outcome.symm⟩
  -- what is settled does not depend on the mode
  have settledLater : ∀ mode, ∀ found ∈ all, ∃ path, found = .file path ∧
      (job.inMode mode).Settled later path := by
    intro mode found member
    obtain ⟨path, rfl, there⟩ := settled found member
    exact ⟨path, rfl, there.of_files (alike.engine ▸ steady) same rfl⟩
  have steadyLater : later.gate.engine.Steady := steady
  constructor
  · exact runFound_settled (by simp) steadyLater (settledLater .check) .sound
  · exact fun media => runFound_settled (by simp) steadyLater (settledLater .replace) media

/-- A text whose header comment stands too far down to count, as long as the blanks are there. -/
def hiddenHeader : Bytes :=
  0x78 :: List.replicate 500 0x20 ++ Utf8.ofString "\n# fmtb: false\n"

/-- The same text without the blanks. -/
def shownHeader : Bytes :=
  Utf8.ofString "x\n# fmtb: false\n"

/-- A session with such a file, and with a link to it. -/
def linkedHeader : Session Unit :=
  ⟨⟨.builtin Unit .standard, (), some (.ok ())⟩,
    ⟨⟨[(["w"], .directory), (["w", "a"], .file hiddenHeader 0o600), (["w", "l"], .link "a")],
      ["w"]⟩, .clear⟩⟩

/-- A comment that keeps a file from being formatted stands behind blanks that hide it. Replacing
the file, which is found twice and once through a link, drops the blanks, and from then on the
comment is obeyed; a check and another run find nothing to do all the same. -/
theorem runFound_converges_hidden_header :
    let job : Job := ⟨.replace, ⟨false, true⟩, false⟩
    let all : List Found := [.file "a", .file "l", .file "a"]
    let files := linkedHeader.machine.files
    let run := (job.inMode .replace).runFound linkedHeader all
    let later : Session Unit :=
      ⟨⟨linkedHeader.gate.engine, (), linkedHeader.gate.outcome⟩,
        ⟨run.session.machine.files, .clear⟩⟩
    files.Rooted files.workingDirectory ∧ run.status = .ok ∧
      job.policy.allows hiddenHeader = true ∧
      run.session.machine.files.get? ["w", "a"] = some (.file shownHeader 0o600) ∧
      job.policy.allows shownHeader = false ∧
      ((job.inMode .check).runFound later all).status = .ok ∧
      ((job.inMode .replace).runFound later all).session.machine = later.machine := by
  intro job all files
  have rooted : files.Rooted files.workingDirectory :=
    (FileSystem.rooted_root files).child (by decide : Path.IsName "w") (by decide +kernel)
  have succeeded : ((job.inMode .replace).runFound linkedHeader all).status = .ok := by
    decide +kernel
  obtain ⟨⟨status, -, -⟩, again⟩ :=
    runFound_converges job .standard linkedHeader all .sound rfl rooted succeeded () .clear
  obtain ⟨-, -, unchanged⟩ := again .sound
  -- the later session is left as it stands there: comparing two names for it would run the job
  refine ⟨rooted, succeeded, ?_, ?_, ?_, status, unchanged⟩
  all_goals decide +kernel

end Job

end FormatHost
