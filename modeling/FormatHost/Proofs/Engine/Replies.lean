import FormatHost.Engine.Foreign
import FormatHost.Proofs.Job.Following

/-! # What the replies of a foreign engine are taken for

A reply vouches for some bytes if it reports success and its result can be read as them. The engine
of a library asks for less: any result that is not null is taken, whatever the status beside it, and
one that cannot be read is taken for no bytes. What an engine gives is all that a job ever puts in
the place of a file, so files are safe from a library only as far as its replies are coherent.
-/

namespace FormatHost

variable {σ : Type}

/-- Whether a reply reports success and has a result that can be read as some bytes. -/
def Reply.Vouches (reply : Reply) (bytes : Bytes) : Prop :=
  reply.status = 0 ∧ ∃ buffer, reply.result = some buffer ∧ buffer.read = .ok bytes

/-- Whether a reply has either no result or one that it vouches for. -/
def Reply.Coherent (reply : Reply) : Prop :=
  reply.result = none ∨ ∃ bytes, reply.Vouches bytes

def EntryPoints.reply (entryPoints : EntryPoints σ) (state : σ) (source : Bytes) : Reply :=
  (entryPoints.formatBuffer state (.ofBytes source)).1

/-- Whether files differ from those before only in files whose bytes have a property. -/
def FileSystem.Rewrites (property : Bytes → Prop) (before after : FileSystem) : Prop :=
  ∀ place, after.get? place = before.get? place ∨
    ∃ bytes mode, after.get? place = some (.file bytes mode) ∧ property bytes

/-- Whether the engine gives some bytes for the file of a path. -/
def Session.Gives (session : Session σ) (path : String) (bytes : Bytes) : Prop :=
  ∃ source result, session.machine.files.readFile path = .ok source ∧
    (session.gate.engine.format session.gate.state source).1 = .ok result ∧ result.bytes = bytes

/-- Whether a library replies in a certain way for the file of a path. -/
def EntryPoints.Answers (entryPoints : EntryPoints σ) (session : Session σ) (path : String)
    (reply : Reply) : Prop :=
  ∃ source, session.machine.files.readFile path = .ok source ∧
    entryPoints.reply session.gate.state source = reply

/-! ## One call -/

private theorem Buffer.bytes_of_read {buffer : Buffer} {bytes : Bytes}
    (read : buffer.read = .ok bytes) :
    buffer.bytes = bytes := by
  rw [Buffer.bytes, read]

/-- A result has the bytes that can be read, or none if it cannot be read. -/
theorem Engine.resultBytes_eq (buffer : Buffer) : resultBytes buffer = buffer.bytes := by
  obtain ⟨data, length⟩ := buffer
  by_cases negative : length < 0
  · have nothing : length.toNat = 0 := by omega
    simp [resultBytes, Buffer.bytes, Buffer.read, negative, nothing]
  · cases data with
    | some bytes => simp [resultBytes, Buffer.bytes, Buffer.read, negative]
    | none =>
      by_cases zero : length = 0
      · simp [resultBytes, Buffer.bytes, Buffer.read, zero]
      · simp [resultBytes, Buffer.bytes, Buffer.read, negative, zero]

/-- What is taken from a reply is vouched for exactly if the reply is coherent. -/
theorem Reply.vouches_iff_coherent {reply : Reply} {buffer : Buffer}
    (given : reply.result = some buffer) : reply.Vouches buffer.bytes ↔ reply.Coherent := by
  constructor
  · intro vouched
    exact .inr ⟨_, vouched⟩
  · rintro (missing | ⟨bytes, success, other, found, read⟩)
    · cases given.symm.trans missing
    · obtain rfl := Option.some.inj (given.symm.trans found)
      rw [Buffer.bytes_of_read read]
      exact ⟨success, buffer, given, read⟩

namespace Engine

variable {loader : Loader σ} {path : String} {stem : Option String} {entryPoints : EntryPoints σ}

/-- With its library an engine gives what the result holds, or fails if there is none. -/
theorem format_foreign (loaded : load loader path (stem.getD standardStem) = .ok entryPoints)
    (state : σ) (source : Bytes) :
    ((foreign loader path stem).format state source).1 =
      match (entryPoints.reply state source).result with
      | some buffer => .ok ⟨buffer.bytes, true⟩
      | none => .error (.ofStatus (entryPoints.reply state source).status) := by
  have taken : ((foreign loader path stem).format state source).1 =
      ofReply (entryPoints.reply state source) := by
    simp only [foreign, loaded, EntryPoints.reply]
  rw [taken]
  cases given : (entryPoints.reply state source).result with
  | none => simp only [ofReply, given]
  | some buffer => simp only [ofReply, given, resultBytes_eq]

private theorem answers_of_gives
    (loaded : load loader path (stem.getD standardStem) = .ok entryPoints)
    {session : Session σ} (engine : session.gate.engine = foreign loader path stem)
    {file : String} {bytes : Bytes} (gives : session.Gives file bytes) :
    ∃ reply buffer, entryPoints.Answers session file reply ∧ reply.result = some buffer ∧
      bytes = buffer.bytes := by
  obtain ⟨source, result, read, formatted, rfl⟩ := gives
  rw [engine, format_foreign loaded] at formatted
  cases given : (entryPoints.reply session.gate.state source).result with
  | none =>
    rw [given] at formatted
    cases formatted
  | some buffer =>
    rw [given] at formatted
    obtain rfl := Except.ok.inj formatted
    exact ⟨_, buffer, ⟨source, read, rfl⟩, given, rfl⟩

private theorem format_foreign_unloaded {reason : String}
    (missing : load loader path (stem.getD standardStem) = .error reason) (state : σ)
    (source : Bytes) :
    ((foreign loader path stem).format state source).1 =
      .error (.engine "foreign engine not loaded") := by
  simp only [foreign, missing]

end Engine

/-! ## Files that are put in place -/

namespace FileSystem.Rewrites

variable {property other : Bytes → Prop} {before middle after : FileSystem}

theorem refl (property : Bytes → Prop) (files : FileSystem) : files.Rewrites property files :=
  fun _ => .inl rfl

theorem trans (first : before.Rewrites property middle) (second : middle.Rewrites property after) :
    before.Rewrites property after := by
  intro place
  rcases second place with same | rewritten
  · rw [same]
    exact first place
  · exact .inr rewritten

theorem mono (rewrites : before.Rewrites property after)
    (weaker : ∀ bytes, property bytes → other bytes) : before.Rewrites other after := by
  intro place
  rcases rewrites place with same | ⟨bytes, mode, there, holds⟩
  · exact .inl same
  · exact .inr ⟨bytes, mode, there, weaker bytes holds⟩

end FileSystem.Rewrites

namespace Session

/-- What a step can do: the engine stays, and files change to bytes with a property. -/
structure Puts (property : Bytes → Prop) (before after : Session σ) : Prop where
  engine : after.gate.engine = before.gate.engine
  files : before.machine.files.Rewrites property after.machine.files

variable {property other : Bytes → Prop}

theorem Puts.refl (property : Bytes → Prop) (session : Session σ) : Puts property session session :=
  ⟨rfl, .refl _ _⟩

theorem Puts.trans {before middle after : Session σ} (first : Puts property before middle)
    (second : Puts property middle after) : Puts property before after :=
  ⟨second.engine.trans first.engine, first.files.trans second.files⟩

theorem Puts.mono {before after : Session σ} (puts : Puts property before after)
    (weaker : ∀ bytes, property bytes → other bytes) : Puts other before after :=
  ⟨puts.engine, puts.files.mono weaker⟩

/-- What formatting gives the engine has given. -/
theorem gives_of_format {session : Session σ} {path : String} {source out : Bytes}
    (read : session.machine.files.readFile path = .ok source)
    (formatted : (session.format source).1 = .ok out) : session.Gives path out := by
  obtain ⟨state, spec⟩ := session.format_spec source
  rw [spec] at formatted
  obtain ⟨-, -, given⟩ := bind_eq_ok_iff.mp formatted
  cases outcome : (session.gate.engine.format session.gate.state source).1 with
  | error failure =>
    rw [outcome] at given
    cases given
  | ok result =>
    rw [outcome] at given
    exact ⟨source, result, read, outcome, Except.ok.inj given⟩

private theorem format_puts (property : Bytes → Prop) (session : Session σ) (source : Bytes) :
    Puts property session (session.format source).2 := by
  obtain ⟨state, spec⟩ := session.format_spec source
  rw [spec]
  exact ⟨rfl, .refl _ _⟩

theorem write_console_puts (property : Bytes → Prop) (session : Session σ) (bytes : Bytes) :
    Puts property session (session.write .console bytes).2 := by
  have untouched : (session.write .console bytes).2.machine.files = session.machine.files := by
    simp only [write, Destination.stream_console]
    rcases session.machine.console.print bytes with fault | shown
    · rfl
    · dsimp only
      rcases shown.flush with fault | ⟨⟩
      · rfl
      · rfl
  refine ⟨rfl, ?_⟩
  rw [untouched]
  exact .refl _ _

private theorem write_file_puts (session : Session σ) (path : String) {bytes : Bytes}
    (medium : Medium) (holds : property bytes) :
    Puts property session (session.write (.file path) bytes medium).2 := by
  refine ⟨rfl, ?_⟩
  rw [write]
  rcases Destination.stream_file_cases medium session.machine path [.ok bytes] with
    ⟨e, failed⟩ | ⟨parts, parent, name, after, whole, -, succeeded, -, frame⟩
  · rw [failed]
    exact .refl _ _
  · have ok_injective : Function.Injective (Except.ok : Bytes → Except FormatFailure Bytes) :=
      fun _ _ => Except.ok.inj
    obtain rfl : [bytes] = parts := List.map_injective_iff.mpr ok_injective whole
    rw [succeeded]
    intro place
    dsimp only
    rw [frame]
    split
    · exact .inr ⟨_, _, rfl, by simpa using holds⟩
    · exact .inl rfl

end Session

namespace Job

open Session

private theorem formatFile_puts (job : Job) (session : Session σ) (path : String) (media : Media) :
    Puts (session.Gives path) session (job.formatFile session path media).2 := by
  rw [formatFile]
  cases read : session.machine.files.readFile path with
  | error fault => exact .refl _ session
  | ok source =>
    dsimp only
    split
    · cases job.mode with
      | print => exact session.write_console_puts _ source
      | check => exact .refl _ session
      | replace => exact .refl _ session
    · have formatted := session.format_puts (session.Gives path) source
      rcases result : session.format source with ⟨e | out, next⟩
      · rw [result] at formatted
        exact formatted
      · rw [result] at formatted
        have gives : session.Gives path out := gives_of_format read (congrArg Prod.fst result)
        cases job.mode with
        | print => exact formatted.trans (write_console_puts _ next out)
        | check =>
          dsimp only
          split
          · exact ⟨formatted.engine, formatted.files⟩
          · exact formatted
        | replace =>
          dsimp only
          split
          · exact formatted.trans (write_file_puts next path (media path) gives)
          · exact formatted

/-- A visit puts nothing in the place of a file but what the engine gives for what was found. -/
theorem visit_puts (job : Job) (session : Session σ) (found : Found) (media : Media) :
    Puts (fun bytes => ∃ path, found = .file path ∧ session.Gives path bytes) session
      (job.visit session found media).2 := by
  cases found with
  | file path =>
    exact (job.formatFile_puts session path media).mono fun bytes gives => ⟨path, rfl, gives⟩
  | unreadable path cause => exact .refl _ session
  | badRules complaints => exact .refl _ session

/-- All visits put nothing in the place of files but what the engine gives for the file of an entry
when it is its turn. -/
theorem visitAll_puts (job : Job) (session : Session σ) (all : List Found) (media : Media) :
    Puts (fun bytes => ∃ earlier path rest, all = earlier ++ .file path :: rest ∧
        (job.visitAll session earlier media).2.Gives path bytes)
      session (job.visitAll session all media).2 := by
  induction all generalizing session with
  | nil => exact .refl _ session
  | cons found rest ih =>
    have first : Puts (fun bytes => ∃ earlier path after,
        found :: rest = earlier ++ .file path :: after ∧
          (job.visitAll session earlier media).2.Gives path bytes)
        session (job.visit session found media).2 := by
      refine (job.visit_puts session found media).mono ?_
      rintro bytes ⟨path, rfl, gives⟩
      exact ⟨[], path, rest, rfl, gives⟩
    rw [visitAll]
    dsimp only
    split
    · exact first
    · next onward =>
      refine first.trans ((ih _).mono ?_)
      rintro bytes ⟨earlier, path, after, rfl, gives⟩
      refine ⟨found :: earlier, path, after, rfl, ?_⟩
      rw [visitAll]
      dsimp only
      rw [if_neg onward]
      exact gives

end Job

namespace Engine

/-- Whatever a library does: without it every call fails. With it a call gives the bytes that can be
read of its result, whatever the status is, and fails only if the result is null; what it gives is
vouched for by the reply exactly if the reply is coherent. A job puts nothing in the place of files
but what is taken from the reply for one of its entries, so a file is rewritten with bytes that
nothing vouches for exactly if that reply is not coherent. -/
theorem foreign_trusts_any_result (loader : Loader σ) (path : String) (stem : Option String) :
    match load loader path (stem.getD standardStem) with
    | .error _ => ∀ state source, ∃ failure,
        ((foreign loader path stem).format state source).1 = .error failure
    | .ok entryPoints =>
      (∀ state source, match ((foreign loader path stem).format state source).1 with
        | .error failure => (entryPoints.reply state source).result = none ∧
            failure = .ofStatus (entryPoints.reply state source).status
        | .ok result =>
            (∃ buffer, (entryPoints.reply state source).result = some buffer ∧
              result.bytes = buffer.bytes) ∧
            ((entryPoints.reply state source).Vouches result.bytes ↔
              (entryPoints.reply state source).Coherent)) ∧
      ∀ (job : Job) state outcome machine all media,
        let session : Session σ := ⟨⟨foreign loader path stem, state, outcome⟩, machine⟩
        machine.files.Rewrites
          (fun bytes => ∃ earlier file rest reply buffer, all = earlier ++ .file file :: rest ∧
            entryPoints.Answers (job.visitAll session earlier media).2 file reply ∧
            reply.result = some buffer ∧ bytes = buffer.bytes ∧
            (reply.Vouches bytes ↔ reply.Coherent))
          (job.runFound session all media).session.machine.files := by
  cases loaded : load loader path (stem.getD standardStem) with
  | error reason =>
    intro state source
    exact ⟨_, format_foreign_unloaded loaded state source⟩
  | ok entryPoints =>
    dsimp only
    constructor
    · intro state source
      rw [format_foreign loaded]
      cases given : (entryPoints.reply state source).result with
      | none => exact ⟨rfl, rfl⟩
      | some buffer => exact ⟨⟨buffer, rfl, rfl⟩, Reply.vouches_iff_coherent given⟩
    · intro job state outcome machine all media
      have puts := job.visitAll_puts ⟨⟨foreign loader path stem, state, outcome⟩, machine⟩
      refine (puts all media).files.mono ?_
      rintro bytes ⟨earlier, file, rest, split, gives⟩
      obtain ⟨reply, buffer, answers, given, rfl⟩ :=
        answers_of_gives loaded (puts earlier media).engine gives
      exact ⟨earlier, file, rest, reply, buffer, split, answers, given, rfl,
        Reply.vouches_iff_coherent given⟩

/-- A result beside the status of a failure, one with a negative length and a null pointer with a
length are all taken, although nothing vouches for them, and a job in place ends with success after
it has rewritten or emptied a file with them. -/
theorem foreign_takes_unvouched_results :
    let answering (reply : Reply) : Loader Unit :=
      fun _ => .ok ⟨fun _ => true, fun _ => ⟨fun s => (0, s), fun s _ => (reply, s)⟩⟩
    let refusal : Reply := ⟨2, some (.ofBytes [0x58])⟩
    let negative : Reply := ⟨0, some ⟨some [0x58], -5⟩⟩
    let missing : Reply := ⟨0, some ⟨none, 1⟩⟩
    let outcome (reply : Reply) := ((foreign (answering reply) "l" none).format () [0x78]).1
    let ending (reply : Reply) : Ending Unit :=
      (⟨.replace, ⟨false, false⟩, false⟩ : Job).runFound
        ⟨⟨foreign (answering reply) "l" none, (), some (.ok ())⟩,
          ⟨⟨[(["w"], .directory), (["w", "a"], .file [0x78] 0o644)], ["w"]⟩, .clear⟩⟩
        [.file "a"]
    let content (reply : Reply) := (ending reply).session.machine.files.get? ["w", "a"]
    (∀ reply ∈ [refusal, negative, missing], ∀ bytes, ¬reply.Vouches bytes) ∧
      outcome refusal = .ok ⟨[0x58], true⟩ ∧ outcome negative = .ok ⟨[], true⟩ ∧
      outcome missing = .ok ⟨[], true⟩ ∧
      (∀ reply ∈ [refusal, negative, missing], (ending reply).status = .ok) ∧
      content refusal = some (.file [0x58] 0o644) ∧ content negative = some (.file [] 0o644) ∧
      content missing = some (.file [] 0o644) := by
  intro answering refusal negative missing outcome ending content
  refine ⟨?_, rfl, rfl, rfl, ?_, ?_, ?_, ?_⟩
  · intro reply member bytes vouches
    obtain ⟨success, buffer, given, read⟩ := vouches
    simp only [List.mem_cons, List.not_mem_nil, or_false] at member
    rcases member with rfl | rfl | rfl
    · cases success
    · obtain rfl := Option.some.inj given
      simp [Buffer.read] at read
    · obtain rfl := Option.some.inj given
      simp [Buffer.read] at read
  all_goals decide +kernel

end Engine

end FormatHost
