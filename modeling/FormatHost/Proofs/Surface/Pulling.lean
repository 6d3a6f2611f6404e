import FormatHost.NumericSurface
import FormatHost.Proofs.Destination.Reliable

/-! # Streams that a host hands over

A callback is called until one call hands over no token: it returns something other than one, or one
with a buffer that cannot be read. Every token before that call has been written, in order, and the
call itself says whether the stream has come to a good end. Before the destination is open there is
no call at all.
-/

namespace FormatHost

namespace Pull

variable {pull : Pull} {bytes : Bytes}

/-- The token that a call hands over, if it does. -/
def bytes? (pull : Pull) : Option Bytes :=
  if pull.code = 1 then pull.token.read.toOption else none

/-- The tokens that are handed over before the first call that hands over none. -/
def given : List Pull → List Bytes
  | [] => []
  | pull :: rest =>
    match pull.bytes? with
    | some bytes => bytes :: given rest
    | none => []

/-- The first call that hands over no token. A callback with nothing more to say returns zero. -/
def last : List Pull → Pull
  | [] => ⟨0, .null⟩
  | pull :: rest => if pull.bytes?.isSome then last rest else pull

def verdict (pull : Pull) : Except HostError Unit :=
  (pull.token?.map fun _ => ()).mapError .format

private theorem bytes?_last (pulls : List Pull) : (last pulls).bytes? = none := by
  induction pulls with
  | nil => rfl
  | cons pull rest ih =>
    unfold last
    split
    · exact ih
    · next nothing => exact Option.not_isSome_iff_eq_none.mp nothing

private theorem token?_of_bytes? (handed : pull.bytes? = some bytes) :
    pull.token? = .ok (some bytes) := by
  unfold bytes? at handed
  split at handed
  · next one =>
    cases read : pull.token.read with
    | error e =>
      rw [read] at handed
      cases handed
    | ok data =>
      rw [read] at handed
      obtain rfl := Option.some.inj handed
      simp only [token?, one, read, if_true]
  · cases handed

/-- A call without a token ends the stream well by returning zero, and with an engine's failure in
any other way. -/
theorem token?_of_nothing (nothing : pull.bytes? = none) :
    pull.code = 0 ∧ pull.token? = .ok none ∨
      pull.code ≠ 0 ∧ ∃ message, pull.token? = .error (.engine message) := by
  unfold bytes? at nothing
  unfold token?
  split
  · next one =>
    rw [if_pos one] at nothing
    right
    refine ⟨by omega, ?_⟩
    cases read : pull.token.read with
    | error e => exact ⟨_, rfl⟩
    | ok data =>
      rw [read] at nothing
      cases nothing
  · split
    · next zero => exact .inl ⟨zero, rfl⟩
    · next other => exact .inr ⟨other, _, rfl⟩

private theorem verdict_of_zero (nothing : pull.bytes? = none) (zero : pull.code = 0) :
    pull.verdict = .ok () := by
  obtain ⟨-, token⟩ | ⟨other, -⟩ := token?_of_nothing nothing
  · rw [verdict, token]
    rfl
  · contradiction

private theorem verdict_of_other (nothing : pull.bytes? = none) (other : pull.code ≠ 0) :
    ∃ message, pull.verdict = .error (.format (.engine message)) := by
  obtain ⟨zero, -⟩ | ⟨-, message, token⟩ := token?_of_nothing nothing
  · contradiction
  · refine ⟨message, ?_⟩
    rw [verdict, token]
    rfl

/-- If writing refuses nothing, the callback is called up to the first call without a token, and
what was handed over before is written. -/
theorem writeAll_of_reliable {w : Writer} {console : Console} (reliable : w.Reliable console)
    (pulls : List Pull) :
    writeAll w console pulls = ⟨(last pulls).verdict, (given pulls).length + 1,
      w.add (given pulls).flatten, w.shown console (given pulls).flatten⟩ := by
  induction pulls generalizing w console with
  | nil => simp [writeAll, given, last, verdict, token?, Except.map, Except.mapError]
  | cons pull rest ih =>
    cases handed : pull.bytes? with
    | some bytes =>
      simp only [writeAll, token?_of_bytes? handed, Writer.write_of_reliable reliable,
        ih (reliable.add bytes), given, last, handed, Option.isSome_some, if_true,
        List.length_cons, List.flatten_cons, Writer.add_add, Writer.shown_shown]
    | none =>
      simp only [given, last, handed, Option.isSome_none, Bool.false_eq_true, if_false,
        List.length_nil, List.flatten_nil, Writer.add_nil, Writer.shown_nil]
      obtain ⟨-, token⟩ | ⟨-, message, token⟩ := token?_of_nothing handed
      · simp only [writeAll, verdict, token]
        rfl
      · simp only [writeAll, verdict, token]
        rfl

end Pull

namespace NumericSurface

variable {σ : Type}

/-- The destination of a path, if the path is accepted and the destination can be opened. -/
def destination? (surface : NumericSurface σ) (path : Buffer) (medium : Medium := .sound) :
    Except HostError Destination := do
  let destination := Destination.ofPath? (← decodePath path)
  let _ ← (destination.startOn medium surface.machine.files).1
  return destination

/-- Whatever the path, the files, the callback and the calls other than writes that the medium
refuses: without an open destination the callback is not called, and nothing has changed. Otherwise
it is called up to the first call that hands over no token. If that call returns zero, the
destination receives exactly the tokens, or it cannot be finished, which is an error of its own and
leaves everything as it was. If it returns anything else, the engine has failed; files are as they
were, and a console keeps the tokens before. -/
theorem writeTokens_follows_callback (surface : NumericSurface σ) (path : Buffer)
    (pulls : List Pull) (medium : Medium)
    (rooted : surface.machine.files.Rooted surface.machine.files.workingDirectory)
    (writable : medium.Writable) (working : surface.machine.console.Working) :
    ∃ status calls after,
      surface.writeTokens path (some pulls) medium = ((status, calls), after) ∧
      after.gate = surface.gate ∧
      match surface.destination? path medium with
      | .error e => calls = 0 ∧ status = e.status.code ∧ after.machine = surface.machine
      | .ok destination =>
        calls = (Pull.given pulls).length + 1 ∧
        if (Pull.last pulls).code = 0 then
          (destination.Finishable surface.machine.files medium ∧ status = 0 ∧
            destination.Receives surface.machine medium (Pull.given pulls).flatten
              after.machine) ∨
          (¬destination.Finishable surface.machine.files medium ∧ status = 5 ∧
            after.machine = surface.machine)
        else
          status = 4 ∧
            destination.Retains surface.machine (Pull.given pulls).flatten after.machine := by
  unfold writeTokens destination?
  cases decoded : decodePath path with
  | error e => exact ⟨_, _, _, rfl, rfl, rfl, rfl, rfl⟩
  | ok path =>
    simp only [bind, Except.bind]
    cases started : ((Destination.ofPath? path).startOn medium surface.machine.files).1 with
    | error e =>
      simp only [Destination.fill_of_unopened started]
      exact ⟨_, _, _, rfl, rfl, rfl, rfl, rfl⟩
    | ok opened =>
      have nothing := Pull.bytes?_last pulls
      by_cases zero : (Pull.last pulls).code = 0
      · have emits (w : Writer) (console : Console) (reliable : w.Reliable console) :=
          Pull.writeAll_of_reliable reliable pulls
        rw [Pull.verdict_of_zero nothing zero] at emits
        obtain ⟨finishable, machine, finished, received⟩ | ⟨refused, fault, failed⟩ :=
          Destination.fill_of_success started rooted writable working emits
        · simp only [finished]
          refine ⟨_, _, _, rfl, rfl, rfl, ?_⟩
          rw [if_pos zero]
          exact .inl ⟨finishable, rfl, received⟩
        · simp only [failed]
          refine ⟨_, _, _, rfl, rfl, rfl, ?_⟩
          rw [if_pos zero]
          exact .inr ⟨refused, rfl, rfl⟩
      · obtain ⟨message, broken⟩ := Pull.verdict_of_other nothing zero
        have emits (w : Writer) (console : Console) (reliable : w.Reliable console) :=
          Pull.writeAll_of_reliable reliable pulls
        rw [broken] at emits
        obtain ⟨machine, failed, retained⟩ :=
          Destination.fill_of_failure started writable working emits
        simp only [failed]
        refine ⟨_, _, _, rfl, rfl, rfl, ?_⟩
        rw [if_neg zero]
        exact ⟨rfl, retained⟩

/-- A callback that hands over a null buffer of some length after the first token: it is called
twice, the file that was to be replaced is as it was, and the console keeps the first token. One
that ends the stream well, to a file that cannot be synchronized: the file is as it was, too. -/
theorem writeTokens_follows_broken_callback :
    let machine : Machine :=
      ⟨⟨[(["w"], .directory), (["w", "old"], .file [1] 0o600)], ["w"]⟩, .clear⟩
    let surface := fresh machine
    let path := Buffer.ofBytes (Utf8.ofString "old")
    let pulls : List Pull := [⟨1, .ofBytes [7]⟩, ⟨1, ⟨none, 3⟩⟩, ⟨0, .null⟩]
    let unsynced : Medium := ⟨fun call => if call = .sync then some (.os .noSpace) else none, true⟩
    machine.files.Rooted machine.files.workingDirectory ∧ machine.console.Working ∧
      unsynced.Writable ∧
      (∃ after, surface.writeTokens path (some pulls) = ((4, 2), after) ∧
        after.machine = machine) ∧
      (∃ after, surface.writeTokens .null (some pulls) = ((4, 2), after) ∧
        after.machine = ⟨machine.files, machine.console.showing [7]⟩) ∧
      ∃ after, surface.writeTokens path (some [⟨1, .ofBytes [7]⟩]) unsynced = ((5, 2), after) ∧
        after.machine = machine := by
  intro machine surface path pulls unsynced
  have rooted : machine.files.Rooted machine.files.workingDirectory :=
    (FileSystem.rooted_root machine.files).child (by decide : Path.IsName "w") (by decide)
  have working : machine.console.Working := ⟨rfl, rfl⟩
  have writable : unsynced.Writable := fun _ _ => rfl
  have file : (surface.destination? path).toOption = some (.file "old") := by
    decide +kernel
  have filed : (surface.destination? path unsynced).toOption = some (.file "old") := by
    decide +kernel
  have console : surface.destination? .null = .ok .console := rfl
  have given : Pull.given pulls = [[7]] := rfl
  have broken : ¬(Pull.last pulls).code = 0 := by
    decide
  have ended : (Pull.last [⟨1, .ofBytes [7]⟩]).code = 0 := rfl
  have refuses : unsynced.refuses .sync = some (.os .noSpace) := rfl
  have same : surface.machine = machine := rfl
  -- from here on only what was computed is used
  clear_value pulls surface machine unsynced path
  subst same
  refine ⟨rooted, working, writable, ?_, ?_, ?_⟩
  · obtain ⟨status, calls, after, streamed, -, rest⟩ :=
      writeTokens_follows_callback surface path pulls .sound rooted Medium.writable_sound working
    cases opens : surface.destination? path with
    | error e =>
      rw [opens] at file
      cases file
    | ok destination =>
      rw [opens] at file rest
      obtain rfl := Option.some.inj file
      simp only [given, if_neg broken] at rest
      obtain ⟨rfl, rfl, retained⟩ := rest
      exact ⟨after, streamed, retained⟩
  · obtain ⟨status, calls, after, streamed, -, rest⟩ :=
      writeTokens_follows_callback surface .null pulls .sound rooted Medium.writable_sound working
    simp only [console, given, if_neg broken] at rest
    obtain ⟨rfl, rfl, retained⟩ := rest
    exact ⟨after, streamed, retained⟩
  · obtain ⟨status, calls, after, streamed, -, rest⟩ :=
      writeTokens_follows_callback surface path [⟨1, .ofBytes [7]⟩] unsynced rooted writable working
    cases opens : surface.destination? path unsynced with
    | error e =>
      rw [opens] at filed
      cases filed
    | ok destination =>
      rw [opens] at filed rest
      obtain rfl := Option.some.inj filed
      obtain ⟨rfl, finished⟩ := rest
      rw [if_pos ended] at finished
      obtain ⟨⟨finishes, -⟩, -⟩ | ⟨-, rfl, untouched⟩ := finished
      · cases refuses.symm.trans finishes.sync
      · exact ⟨after, streamed, untouched⟩

end NumericSurface

end FormatHost
