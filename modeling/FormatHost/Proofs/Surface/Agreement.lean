import FormatHost.Bindings
import FormatHost.Proofs.Destination.AllOrNothing
import FormatHost.Proofs.Text.Utf8

/-! # When the two surfaces agree

The typed surface passes every call on to the gate. The numeric one does so too, except that it
looks at a path before the gate has said whether the engine may be used and before the tree is read.
The two give the same bytes, files and numbers, unless the path is empty and something else is wrong
as well: then one reports the path and the other what else is wrong.
-/

namespace FormatHost

variable {σ : Type}

/-! ## Failures leave the files alone -/

/-- Tokens for the console do not turn a writer to anything else. -/
theorem Writer.writeTokens_console {w : Writer} (channel : w.channel = .console) (console : Console)
    (tokens : List (Except FormatFailure Bytes)) :
    (w.writeTokens console tokens).writer.channel = .console := by
  induction tokens generalizing w console with
  | nil => exact channel
  | cons token rest ih =>
    cases token with
    | error failure => exact channel
    | ok token =>
      rw [writeTokens, write, channel]
      dsimp only
      cases console.print token with
      | error fault => exact channel
      | ok console => exact ih (w := ⟨w.target, .console, w.written ++ token⟩) rfl console

namespace Destination

private theorem stream_console_files (machine : Machine)
    (tokens : List (Except FormatFailure Bytes)) :
    (Destination.console.stream machine tokens).2.files = machine.files := by
  have started : Destination.console.startOn .sound machine.files =
      (.ok ⟨describe .console, .console, []⟩, machine.files) := rfl
  have channel := Writer.writeTokens_console (w := ⟨describe .console, .console, []⟩) rfl
    machine.console tokens
  rw [stream_of_startOn started]
  generalize Writer.writeTokens _ machine.console tokens = emission at channel
  obtain ⟨outcome, taken, w, console⟩ := emission
  cases outcome with
  | error e =>
    simp only [Writer.discard]
    rw [channel]
  | ok =>
    simp only [Writer.finish]
    rw [channel]
    dsimp only
    cases console.flush with
    | error fault => rfl
    | ok => rfl

/-- Whatever the destination, a stream that fails leaves the files as they were. -/
theorem stream_error_files {destination : Destination} {machine after : Machine} {e : HostError}
    {tokens : List (Except FormatFailure Bytes)}
    (failed : destination.stream machine tokens = (.error e, after)) :
    after.files = machine.files := by
  cases destination with
  | console =>
    have kept := stream_console_files machine tokens
    rwa [failed] at kept
  | file path =>
    obtain ⟨e, same⟩ | ⟨bytes, parent, name, files, -, -, done, -⟩ :=
      stream_file_cases .sound machine path tokens
    · rw [same] at failed
      rw [← (Prod.mk.inj failed).2]
    · rw [done] at failed
      cases failed

private theorem stream_empty_path (machine : Machine) (tokens : List (Except FormatFailure Bytes)) :
    (Destination.file "").stream machine tokens = (.error (.badFileName ""), machine) := rfl

end Destination

/-! ## What a gate reports -/

theorem Buffer.status_of_read {buffer : Buffer} {e : HostError} (failed : buffer.read = .error e) :
    e.status = .badArgument := by
  unfold read at failed
  split at failed
  · obtain rfl := Except.error.inj failed
    rfl
  · split at failed
    · cases failed
    · split at failed
      · cases failed
      · obtain rfl := Except.error.inj failed
        rfl

namespace Gate

variable {gate after : Gate σ} {source tree : Buffer} {e : HostError}

private theorem status_of_barrier (closed : gate.barrier = .error e) : e.status = .startFailed := by
  unfold barrier at closed
  split at closed
  · cases closed
  · obtain rfl := Except.error.inj closed
    rfl
  · obtain rfl := Except.error.inj closed
    rfl

/-- Whatever is wrong with a call before there are tokens, it is not the path. -/
theorem status_of_render (failed : gate.render source tree = (.error e, after)) :
    e.status ≠ .badFileName := by
  unfold render at failed
  split at failed
  · next closed =>
    obtain ⟨rfl⟩ := (Prod.mk.inj failed).1
    rw [status_of_barrier closed]
    decide
  · next unread =>
    obtain ⟨rfl⟩ := (Prod.mk.inj failed).1
    rw [Buffer.status_of_read unread]
    decide
  · next unread =>
    obtain ⟨rfl⟩ := (Prod.mk.inj failed).1
    rw [Buffer.status_of_read unread]
    decide
  · next bytes nodes _ _ _ =>
    have outcome := (Prod.mk.inj failed).1
    cases rendered : (gate.engine.render gate.state bytes nodes).1 with
    | ok tokens =>
      rw [rendered] at outcome
      cases outcome
    | error failure =>
      rw [rendered] at outcome
      obtain rfl := Except.error.inj outcome
      cases failure <;> simp [HostError.status, FormatFailure.status]

/-- An engine that renders without a trace leaves its gate as it was. -/
theorem render_traceless
    (traceless : ∀ bytes nodes, (gate.engine.render gate.state bytes nodes).2 = gate.state)
    (source tree : Buffer) : (gate.render source tree).2 = gate := by
  unfold render
  split
  · rfl
  · rfl
  · rfl
  · simp only [traceless]

/-- What the built-in engine makes of a source is text. -/
theorem format_builtin {state : σ} {layout : Layout} {outcome : Option (Except String Unit)}
    {source : Buffer} {result : Result} {after : Gate σ}
    (formatted : format ⟨.builtin σ layout, state, outcome⟩ source = (.ok result, after)) :
    ∃ text, result.bytes = Utf8.encode text := by
  unfold format at formatted
  split at formatted
  · cases formatted
  · cases formatted
  · next bytes _ _ =>
    have succeeded := (Prod.mk.inj formatted).1
    simp only [Engine.builtin, Layout.formatBytes] at succeeded
    cases decoded : Layout.decodeSource bytes with
    | error failure =>
      rw [decoded] at succeeded
      cases succeeded
    | ok text =>
      rw [decoded] at succeeded
      obtain rfl := Except.ok.inj succeeded
      exact ⟨_, rfl⟩

end Gate

private theorem NumericSurface.decodePath_ofString (path : String) :
    decodePath (.ofBytes (Utf8.ofString path)) =
      if path = "" then .error (.badFileName "") else .ok (some path) := by
  have text : Utf8.toString? (Utf8.ofString path) = some path := by
    rw [Utf8.toString?, Utf8.ofString, Utf8.decode_encode]
    exact congrArg some (String.ofList_toList)
  have there : (Buffer.ofBytes (Utf8.ofString path)).isNull = false := rfl
  simp only [decodePath, there, Buffer.read_ofBytes, text, bind, Except.bind, Bool.false_eq_true,
    if_false, String.isEmpty_iff]

/-! ## The two surfaces -/

/-- What the two surfaces made of a source: the same bytes, or the same number for a failure, and
nothing else has changed. -/
def FormatsAlike (machine : Machine) (typed : Except HostFault String × Gate σ)
    (numeric : (Int × Option Result) × NumericSurface σ) : Prop :=
  numeric.2.gate = typed.2 ∧ numeric.2.machine = machine ∧
    match typed.1 with
    | .ok text => numeric.1.1 = 0 ∧ numeric.1.2.map Result.bytes = some (Utf8.ofString text)
    | .error fault => numeric.1.1 = fault.code ∧ fault.code ≠ 0 ∧ numeric.1.2 = none

/-- What the two surfaces made of a tree: the same output and files and the number for success, or
the same number for a failure and the files as they were. -/
def WritesAlike (before : Machine) (typed : Except HostFault ℕ × Gate σ × Machine)
    (numeric : Int × NumericSurface σ) : Prop :=
  numeric.2.gate = typed.2.1 ∧ numeric.2.machine = typed.2.2 ∧
    match typed.1 with
    | .ok _ => numeric.1 = 0
    | .error fault => numeric.1 = fault.code ∧ fault.code ≠ 0 ∧ typed.2.2.files = before.files

theorem Status.code_injective : Function.Injective Status.code := by
  intro a b same
  have found := ofCode?_code a
  rw [same, ofCode?_code] at found
  exact (Option.some.inj found).symm

theorem code_ofError_ne_zero (e : HostError) : (HostFault.ofError e).code ≠ 0 :=
  fun success => e.status_ne_ok (@Status.code_injective e.status .ok success)

/-- Trees for any destination are treated alike, whatever the engine. -/
theorem formatTree_alike (surface : NumericSurface σ) (destination : Destination)
    (source tree : String) :
    WritesAlike surface.machine
      (Bindings.formatTree surface.gate surface.machine destination source tree)
      (surface.formatTree destination (.ofBytes (Utf8.ofString source))
        (.ofBytes (Utf8.ofString tree))) := by
  unfold Bindings.formatTree NumericSurface.formatTree Gate.formatTree
  rcases surface.gate.render (.ofBytes (Utf8.ofString source)) (.ofBytes (Utf8.ofString tree)) with
    ⟨⟨e⟩ | ⟨tokens⟩, gate⟩
  · exact ⟨rfl, rfl, rfl, code_ofError_ne_zero e, rfl⟩
  · dsimp only
    cases streamed : destination.stream surface.machine (tokens.map .ok) with
    | mk outcome machine =>
      cases outcome with
      | error e =>
        exact ⟨rfl, rfl, rfl, code_ofError_ne_zero e, Destination.stream_error_files streamed⟩
      | ok count => exact ⟨rfl, rfl, rfl⟩

section Builtin

variable (state : σ) (layout : Layout) (outcome : Option (Except String Unit)) (machine : Machine)
  (lastError : Option String)

/-- Whole texts are treated alike by the built-in engine, as all that it gives is text. -/
theorem format_alike (source : String) :
    FormatsAlike machine (Bindings.format ⟨.builtin σ layout, state, outcome⟩ source)
      (NumericSurface.format ⟨⟨.builtin σ layout, state, outcome⟩, machine, lastError⟩
        (.ofBytes (Utf8.ofString source))) := by
  unfold Bindings.format NumericSurface.format
  cases formatted : Gate.format (σ := σ) ⟨.builtin σ layout, state, outcome⟩
      (.ofBytes (Utf8.ofString source)) with
  | mk result gate =>
    cases result with
    | error e => exact ⟨rfl, rfl, rfl, code_ofError_ne_zero e, rfl⟩
    | ok result =>
      obtain ⟨text, bytes⟩ := Gate.format_builtin formatted
      simp only [bytes, Utf8.decode_encode]
      refine ⟨rfl, rfl, rfl, ?_⟩
      change some result.bytes = _
      rw [bytes, Utf8.ofString, String.toList_ofList]

/-- An empty path is treated alike if nothing else is wrong with the call. -/
theorem formatToFile_alike_iff (path source tree : String) :
    WritesAlike machine
        (Bindings.formatTree ⟨.builtin σ layout, state, outcome⟩ machine (.file path) source tree)
        (NumericSurface.formatToFile ⟨⟨.builtin σ layout, state, outcome⟩, machine, lastError⟩
          (.ofBytes (Utf8.ofString path)) (.ofBytes (Utf8.ofString source))
          (.ofBytes (Utf8.ofString tree))) ↔
      path ≠ "" ∨ ∃ tokens, (Gate.render ⟨.builtin σ layout, state, outcome⟩
        (.ofBytes (Utf8.ofString source)) (.ofBytes (Utf8.ofString tree))).1 = .ok tokens := by
  rw [NumericSurface.formatToFile, NumericSurface.decodePath_ofString]
  by_cases empty : path = ""
  · subst empty
    have same : (Gate.render ⟨.builtin σ layout, state, outcome⟩ (.ofBytes (Utf8.ofString source))
        (.ofBytes (Utf8.ofString tree))).2 = _ := Gate.render_traceless (fun _ _ => rfl) _ _
    simp only [if_true, ne_eq, not_true_eq_false, false_or, Bindings.formatTree, Gate.formatTree]
    cases rendered : Gate.render (σ := σ) ⟨.builtin σ layout, state, outcome⟩
        (.ofBytes (Utf8.ofString source)) (.ofBytes (Utf8.ofString tree)) with
    | mk result gate =>
      rw [rendered] at same
      obtain rfl : gate = _ := same
      cases result with
      | error e =>
        have other := Gate.status_of_render rendered
        constructor
        · rintro ⟨-, -, code, -⟩
          exact absurd (Status.code_injective (Int.ofNat.inj code)).symm other
        · rintro ⟨tokens, succeeded⟩
          cases succeeded
      | ok tokens =>
        simp only [Destination.stream_empty_path]
        exact ⟨fun _ => ⟨tokens, rfl⟩, fun _ => ⟨rfl, rfl, rfl, code_ofError_ne_zero _, rfl⟩⟩
  · rw [if_neg empty]
    exact ⟨fun _ => .inl empty, fun _ => formatTree_alike _ (.file path) source tree⟩

/-- Over the built-in engine in any state, and whatever the files and the texts: the surfaces agree
on whole texts and on trees for the console, and on trees for a file just when the path is not
empty or the call has got as far as looking at it. -/
theorem surfaces_agree_iff (path source tree : String) :
    let gate : Gate σ := ⟨.builtin σ layout, state, outcome⟩
    let surface : NumericSurface σ := ⟨gate, machine, lastError⟩
    let buffer (text : String) : Buffer := .ofBytes (Utf8.ofString text)
    FormatsAlike machine (Bindings.format gate source) (surface.format (buffer source)) ∧
    WritesAlike machine (Bindings.formatTree gate machine .console source tree)
      (surface.formatTree .console (buffer source) (buffer tree)) ∧
    (WritesAlike machine (Bindings.formatTree gate machine (.file path) source tree)
        (surface.formatToFile (buffer path) (buffer source) (buffer tree)) ↔
      path ≠ "" ∨ ∃ tokens, (gate.render (buffer source) (buffer tree)).1 = .ok tokens) := by
  intro gate surface buffer
  refine ⟨format_alike state layout outcome machine lastError source, ?_, ?_⟩
  · exact formatTree_alike surface .console source tree
  · exact formatToFile_alike_iff state layout outcome machine lastError path source tree

end Builtin

/-- For an empty path the numeric surface reports the path where the typed one reports an engine
that was not started, or a tree that is not valid. -/
theorem surfaces_disagree_on_empty_path :
    let machine : Machine := ⟨⟨[], []⟩, .clear⟩
    let unstarted := NumericSurface.fresh machine
    let started := unstarted.start.2
    let empty : Buffer := .ofBytes (Utf8.ofString "")
    (Bindings.formatTree unstarted.gate machine (.file "") "" "").1 =
        .error ⟨.start, 1, "engine used before initialization"⟩ ∧
      (unstarted.formatToFile empty empty empty).1 = 6 ∧
      (Bindings.formatTree started.gate machine (.file "") "" "").1.mapError HostFault.code =
        .error 3 ∧
      (started.formatToFile empty empty empty).1 = 6 := by
  decide +kernel

end FormatHost
