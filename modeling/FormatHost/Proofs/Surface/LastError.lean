import FormatHost.Client
import FormatHost.Proofs.Surface.Agreement

/-! # What the last error is about

Every guarded call stands for an operation that succeeds or fails for one reason. After any calls of
a client the last error is about the most recent guarded one: nothing if that has succeeded, and its
words otherwise. The other calls leave the surface as it is, so they can come at any time.
-/

namespace FormatHost

variable {σ : Type}

/-- Whether a call goes through the guard that keeps the last error. -/
def HostCall.isGuarded : HostCall → Bool
  | .start | .format .. | .formatToConsole .. | .formatToFile .. | .writeTokens .. => true
  | .resultPointer _ | .resultLength _ | .release _ | .lastError | .version => false

/-- The status that an answer carries, if it carries one. -/
def HostAnswer.code? : HostAnswer → Option Int
  | .status code | .streamed code _ => some code
  | .formatted stored _ => stored
  | .pointer _ | .length _ | .released | .text _ => none

namespace NumericSurface

/-- How the operation behind a call turns out, if the call is guarded. -/
def outcome? (surface : NumericSurface σ) : HostCall → Option (Except HostError Unit)
  | .start => some surface.gate.start.2.barrier
  | .format source _ => some ((surface.gate.format source).1.map fun _ => ())
  | .formatToConsole source tree =>
    some ((surface.gate.formatTree surface.machine .console source tree).1.map fun _ => ())
  | .formatToFile path source tree =>
    some (match decodePath path with
      | .error e => .error e
      | .ok none => .error (.badFileName "")
      | .ok (some path) =>
        (surface.gate.formatTree surface.machine (.file path) source tree).1.map fun _ => ())
  | .writeTokens path callback =>
    some (match callback, decodePath path with
      | none, _ => .error (.badArgument "missing token callback")
      | some _, .error e => .error e
      | some pulls, .ok path =>
        ((Destination.ofPath? path).fill surface.machine fun writer console =>
          Pull.writeAll writer console pulls).1.map fun _ => ())
  | .resultPointer _ | .resultLength _ | .release _ | .lastError | .version => none

/-- The words that are kept of an outcome: those of its error. -/
def reported {α : Type} : Except HostError α → Option String
  | .ok _ => none
  | .error e => some (keptText e.message)

/-- In the words that are kept a space stands for every NUL, and nothing else has changed. -/
theorem toList_keptText (text : String) :
    (keptText text).toList = text.toList.map fun c => if c = '\x00' then ' ' else c := by
  have clean : (String.ofList
      (text.toList.map fun c => if c = '\x00' then ' ' else c)).toList.contains '\x00' = false := by
    rw [String.toList_ofList, List.contains_eq_any_beq, List.any_eq_false]
    intro c member
    obtain ⟨old, -, rfl⟩ := List.mem_map.mp member
    split
    · decide
    · next other => simpa using Ne.symm other
  rw [keptText, terminated?, clean]
  exact String.toList_ofList

private theorem keptText_eq_empty_iff (text : String) : keptText text = "" ↔ text = "" := by
  rw [← String.toList_inj, ← String.toList_inj, toList_keptText]
  simp

/-! ## One call -/

theorem close_map {α : Type} (surface : NumericSurface σ) (outcome : Except HostError α) :
    surface.close (outcome.map fun _ => ()) = surface.close outcome := by
  cases outcome with
  | ok => rfl
  | error e => rfl

private theorem close_lastError (surface : NumericSurface σ) (outcome : Except HostError Unit) :
    (surface.close outcome).2.lastError = reported outcome := by
  cases outcome with
  | ok => rfl
  | error e => rfl

/-- A guarded call gives the number for success exactly if its operation succeeds. -/
theorem close_eq_zero_iff (surface : NumericSurface σ) (outcome : Except HostError Unit) :
    (surface.close outcome).1 = 0 ↔ outcome = .ok () := by
  cases outcome with
  | ok => exact ⟨fun _ => rfl, fun _ => rfl⟩
  | error e =>
    constructor
    · intro success
      exact absurd (Int.ofNat.inj success) (code_ofError_ne_zero e)
    · intro success
      cases success

/-- The start gives zero if the guard does. -/
theorem start_eq_zero_iff (surface : NumericSurface σ) :
    surface.start.1 = 0 ↔
      ({ surface with gate := surface.gate.start.2 }.close surface.gate.start.2.barrier).1 = 0 := by
  rcases started : surface.gate.start with ⟨succeeded, gate⟩
  simp only [start, started]
  split
  · next success => exact ⟨fun _ => success, fun _ => rfl⟩
  · next failure =>
    constructor
    · intro zero
      cases zero
    · intro success
      exact absurd success failure

/-- A format call has a result exactly if it gives zero. -/
theorem format_isSome_iff (surface : NumericSurface σ) (source : Buffer) :
    (surface.format source).1.2.isSome ↔ (surface.format source).1.1 = 0 := by
  rcases formatted : surface.gate.format source with ⟨outcome, gate⟩
  simp only [format, formatted, ← close_map _ outcome, close_eq_zero_iff]
  cases outcome with
  | error e => exact ⟨nofun, nofun⟩
  | ok result => exact ⟨fun _ => rfl, fun _ => rfl⟩

end NumericSurface

namespace Client

open NumericSurface

variable {client : Client σ} {call : HostCall} {outcome : Except HostError Unit}

private theorem isSome_outcome? (surface : NumericSurface σ) (call : HostCall) :
    (surface.outcome? call).isSome = call.isGuarded := by
  cases call <;> rfl

theorem zero_iff_of_some {status code : Int} (answer : some status = some code) :
    code = 0 ↔ status = 0 := by
  obtain rfl := Option.some.inj answer
  rfl

/-- A guarded call closes with the outcome of its operation, and gives zero if the guard does. -/
theorem call_closes (turned : client.surface.outcome? call = some outcome) :
    ∃ surface : NumericSurface σ, (client.call call).2.surface = (surface.close outcome).2 ∧
      ∀ code, (client.call call).1.code? = some code →
        (code = 0 ↔ (surface.close outcome).1 = 0) := by
  cases call with
  | start =>
    obtain rfl := Option.some.inj turned
    refine ⟨{ client.surface with gate := client.surface.gate.start.2 }, rfl, ?_⟩
    intro code answer
    have status : some client.surface.start.1 = some code := answer
    rw [zero_iff_of_some status]
    exact start_eq_zero_iff client.surface
  | format source stores =>
    obtain rfl := Option.some.inj turned
    simp only [close_map]
    refine ⟨_, rfl, ?_⟩
    intro code answer
    cases stores with
    | false => cases answer
    | true => exact zero_iff_of_some answer
  | formatToConsole source tree =>
    obtain rfl := Option.some.inj turned
    simp only [close_map]
    exact ⟨_, rfl, fun _ => zero_iff_of_some⟩
  | formatToFile path source tree =>
    obtain rfl := Option.some.inj turned
    simp only [Client.call, formatToFile]
    rcases decodePath path with e | _ | path
    · exact ⟨_, rfl, fun _ => zero_iff_of_some⟩
    · exact ⟨_, rfl, fun _ => zero_iff_of_some⟩
    · simp only [close_map]
      exact ⟨_, rfl, fun _ => zero_iff_of_some⟩
  | writeTokens path callback =>
    obtain rfl := Option.some.inj turned
    simp only [Client.call, writeTokens]
    cases callback with
    | none => exact ⟨_, rfl, fun _ => zero_iff_of_some⟩
    | some pulls =>
      rcases decodePath path with e | path
      · exact ⟨_, rfl, fun _ => zero_iff_of_some⟩
      · simp only [close_map]
        exact ⟨_, rfl, fun _ => zero_iff_of_some⟩
  | resultPointer number => cases turned
  | resultLength number => cases turned
  | release number => cases turned
  | lastError => cases turned
  | version => cases turned

/-- What a guarded call leaves as the last error, and whether its status is that of success, is
decided by how its operation turns out. -/
theorem call_of_outcome (turned : client.surface.outcome? call = some outcome) :
    (client.call call).2.surface.lastError = reported outcome ∧
      ∀ code, (client.call call).1.code? = some code → (code = 0 ↔ outcome = .ok ()) := by
  obtain ⟨surface, closed, zero⟩ := call_closes turned
  rw [closed, close_lastError]
  refine ⟨rfl, ?_⟩
  intro code answer
  rw [zero code answer, close_eq_zero_iff]

/-- Calls that are not guarded leave the surface alone. -/
theorem call_of_unguarded (unguarded : call.isGuarded = false) :
    (client.call call).2.surface = client.surface := by
  cases call with
  | release number =>
    cases number with
    | none => rfl
    | some number => rfl
  | resultPointer number => rfl
  | resultLength number => rfl
  | lastError => rfl
  | version => rfl
  | start | format | formatToConsole | formatToFile | writeTokens => cases unguarded

/-- A result is handed out exactly if the stored status is that of success. -/
theorem call_format (client : Client σ) (source : Buffer) :
    ∃ status result, (client.call (.format source true)).1 = .formatted (some status) result ∧
      (result.isSome ↔ status = 0) := by
  refine ⟨(client.surface.format source).1.1,
    (client.surface.format source).1.2.map fun _ => client.nextNumber, rfl, ?_⟩
  rw [Option.isSome_map]
  exact format_isSome_iff client.surface source

/-! ## Any calls -/

private theorem run_append (client : Client σ) (calls : List HostCall) (call : HostCall) :
    (client.run (calls ++ [call])).2 = ((client.run calls).2.call call).2 := by
  induction calls generalizing client with
  | nil => rfl
  | cons first rest ih => exact ih (client.call first).2

theorem forall_unguarded_append {calls : List HostCall}
    (unguarded : ∀ call ∈ calls, call.isGuarded = false) (last : call.isGuarded = false) :
    ∀ later ∈ calls ++ [call], later.isGuarded = false := by
  intro later member
  rcases List.mem_append.mp member with earlier | new
  · exact unguarded later earlier
  · rw [List.mem_singleton.mp new]
    exact last

/-- After any calls of a client without a last error: it still has none and no call was guarded, or
the last error is what the most recent guarded call has reported. -/
theorem run_lastError (clear : client.surface.lastError = none) (calls : List HostCall) :
    ((∀ call ∈ calls, call.isGuarded = false) ∧
      (client.run calls).2.surface.lastError = none) ∨
    ∃ before call after outcome, calls = before ++ call :: after ∧
      (∀ later ∈ after, later.isGuarded = false) ∧
      (client.run before).2.surface.outcome? call = some outcome ∧
      (client.run calls).2.surface.lastError = reported outcome := by
  -- The calls grow at their end: a guarded call replaces what was known, another one keeps it.
  induction calls using List.reverseRecOn with
  | nil => exact .inl ⟨nofun, clear⟩
  | append_singleton calls call ih =>
    rw [run_append]
    cases guarded : call.isGuarded with
    | true =>
      obtain ⟨outcome, turned⟩ := Option.isSome_iff_exists.mp
        ((isSome_outcome? (client.run calls).2.surface call).trans guarded)
      exact .inr ⟨calls, call, [], outcome, rfl, nofun, turned, (call_of_outcome turned).1⟩
    | false =>
      rw [call_of_unguarded guarded]
      rcases ih with ⟨unguarded, none⟩ | ⟨before, most, after, outcome, rfl, unguarded, found⟩
      · exact .inl ⟨forall_unguarded_append unguarded guarded, none⟩
      · refine .inr ⟨before, most, after ++ [call], outcome, ?_, ?_, found⟩
        · rw [List.append_assoc, List.cons_append]
        · exact forall_unguarded_append unguarded guarded

/-- Whatever a client calls, in whatever order: as long as no guarded call was made there is no last
error. From then on it is about the most recent guarded call: there is none if its operation has
succeeded, which is when the call gave the status of success, and otherwise it is the text of its
error with a space for every NUL, so that it is empty only if that text is. No other call
changes it, and a result is handed out with the status of success and with no other. -/
theorem run_keeps_last_error (gate : Gate σ) (machine : Machine) (calls : List HostCall) :
    let first := fresh gate machine
    let final := (first.run calls).2
    ((∀ call ∈ calls, call.isGuarded = false) ∧ (final.call .lastError).1 = .text none ∨
      ∃ before call after outcome, calls = before ++ call :: after ∧
        (∀ later ∈ after, later.isGuarded = false) ∧
        (first.run before).2.surface.outcome? call = some outcome ∧
        (∀ code, ((first.run before).2.call call).1.code? = some code →
          (code = 0 ↔ outcome = .ok ())) ∧
        match outcome with
        | .ok () => (final.call .lastError).1 = .text none
        | .error e => ∃ words, (final.call .lastError).1 = .text (some words) ∧
          words.toList = e.message.toList.map (fun c => if c = '\x00' then ' ' else c) ∧
          (words = "" ↔ e.message = "")) ∧
    (∀ call : HostCall, call.isGuarded = false →
      (final.call call).2.surface.lastError = final.surface.lastError) ∧
    ∀ source, ∃ status result,
      (final.call (.format source true)).1 = .formatted (some status) result ∧
        (result.isSome ↔ status = 0) := by
  intro first final
  have clear : first.surface.lastError = none := rfl
  refine ⟨?_, ?_, call_format final⟩
  · rcases run_lastError clear calls with
      ⟨unguarded, clear⟩ | ⟨before, call, after, outcome, split, unguarded, turned, kept⟩
    · exact .inl ⟨unguarded, congrArg HostAnswer.text clear⟩
    · refine .inr ⟨before, call, after, outcome, split, unguarded, turned, ?_, ?_⟩
      · exact (call_of_outcome turned).2
      · cases outcome with
        | ok => exact congrArg HostAnswer.text kept
        | error e =>
          exact ⟨keptText e.message, congrArg HostAnswer.text kept, toList_keptText e.message,
            keptText_eq_empty_iff e.message⟩
  · intro call unguarded
    rw [call_of_unguarded unguarded]

end Client

end FormatHost
