import FormatHost.TokenWriter
import Mathlib.Algebra.Ring.Nat
import Mathlib.Data.List.Forall2

/-! # What reaches a sink through a writer

Beside a sink stands the same sink with a record of all that it has taken, in the order in which it
has. A writer cannot tell the two apart, and the record shows what its calls have achieved: a call
that succeeds brings all of its bytes into the sink, and one that fails a front part of them, with
nothing before, between or behind them. The counts are about the calls that succeed only.

A sink may take any part of an offer, fail at any time and interrupt as often as it likes, as long
as it does so only finitely often in a row: a write that is interrupted for ever does not return.
-/

namespace FormatHost

variable {σ : Type}

/-- The bytes of an offer that a sink takes with a response. -/
def Response.taken : Response → Bytes → Bytes
  | .took count, offer => offer.take count
  | .interrupted, _ | .failed _, _ => []

/-! ## One write -/

namespace Sink

/-- The sink with a record of what it has taken. -/
def recording (sink : Sink σ) : Sink (σ × Bytes) where
  respond s offer :=
    let (response, after) := sink.respond s.1 offer
    (response, after, s.2 ++ response.taken offer)
  patience s := sink.patience s.1
  patience_lt := by
    intro s offer after interrupted
    simp only [Prod.ext_iff] at interrupted
    exact sink.patience_lt s.1 offer after.1 (Prod.ext interrupted.1 interrupted.2.1)

/-- What a write with some outcome brings into a sink: all of its bytes, or a front part. -/
inductive Reaches (data : Bytes) : Except IoFault Unit → Bytes → Prop
  | whole : Reaches data (.ok ()) data
  | part {front : Bytes} (le : front <+: data) (fault : IoFault) :
      Reaches data (.error fault) front

/-- What a write of the bytes behind a part brings into a sink comes behind that part. -/
theorem Reaches.behind {data : Bytes} {count : ℕ} {outcome : Except IoFault Unit} {part : Bytes}
    (reaches : Reaches (data.drop count) outcome part) :
    Reaches data outcome (data.take count ++ part) := by
  cases reaches with
  | whole =>
    rw [List.take_append_drop]
    exact .whole
  | part le fault =>
    obtain ⟨rest, whole⟩ := le
    refine .part ⟨rest, ?_⟩ fault
    rw [List.append_assoc, whole, List.take_append_drop]

/-- A write by the response to its first offer. -/
theorem writeAll_cons (sink : Sink σ) (s : σ) (b : UInt8) (rest : Bytes) :
    sink.writeAll s (b :: rest) =
      match sink.respond s (b :: rest) with
      | (.failed fault, after) => (.error fault, after)
      | (.took 0, after) => (.error .nothingTaken, after)
      | (.took (count + 1), after) => sink.writeAll after ((b :: rest).drop (count + 1))
      | (.interrupted, after) => sink.writeAll after (b :: rest) := by
  rw [writeAll]
  split <;> simp [*]

theorem respond_recording {sink : Sink σ} {s after : σ} {offer : Bytes} {response : Response}
    (responded : sink.respond s offer = (response, after)) (received : Bytes) :
    sink.recording.respond (s, received) offer =
      (response, after, received ++ response.taken offer) := by
  simp only [recording, responded]

/-- With a record a write goes as without, and the record grows by what reaches the sink. -/
theorem writeAll_recording (sink : Sink σ) (s : σ) (received bytes : Bytes) :
    ∃ part, sink.recording.writeAll (s, received) bytes =
        ((sink.writeAll s bytes).1, (sink.writeAll s bytes).2, received ++ part) ∧
      Reaches bytes (sink.writeAll s bytes).1 part := by
  fun_induction sink.writeAll s bytes generalizing received with
  | case1 s =>
    refine ⟨[], ?_, .whole⟩
    rw [writeAll, List.append_nil]
  | case2 s b rest fault after responded =>
    refine ⟨[], ?_, .part List.nil_prefix fault⟩
    rw [writeAll_cons, respond_recording responded]
    rfl
  | case3 s b rest after responded =>
    refine ⟨[], ?_, .part List.nil_prefix _⟩
    rw [writeAll_cons, respond_recording responded]
    rfl
  | case4 s b rest count after responded ih =>
    obtain ⟨part, written, reaches⟩ := ih (received ++ (b :: rest).take (count + 1))
    refine ⟨(b :: rest).take (count + 1) ++ part, ?_, reaches.behind⟩
    rw [writeAll_cons, respond_recording responded, ← List.append_assoc]
    exact written
  | case5 s b rest after responded ih =>
    obtain ⟨part, written, reaches⟩ := ih received
    refine ⟨part, ?_, reaches⟩
    rw [writeAll_cons, respond_recording responded, Response.taken, List.append_nil]
    exact written

end Sink

/-! ## Calls -/

/-- A call of a writer. -/
inductive WriterCall where
  | write (data : Bytes)
  | writeToken (data : Bytes)

namespace WriterCall

def data : WriterCall → Bytes
  | .write data | .writeToken data => data

def isToken : WriterCall → Bool
  | .write _ => false
  | .writeToken _ => true

end WriterCall

/-- A call that was made, with its outcome. -/
structure WriterEvent where
  call : WriterCall
  outcome : Except IoFault Unit

namespace WriterEvent

def succeeded (event : WriterEvent) : Bool :=
  event.outcome.isOk

@[simp] theorem succeeded_ok (call : WriterCall) : succeeded ⟨call, .ok ()⟩ = true := rfl

end WriterEvent

namespace TokenWriter

def call (sink : Sink σ) (w : TokenWriter σ) : WriterCall → Except IoFault Unit × TokenWriter σ
  | .write data => w.write sink data
  | .writeToken data => w.writeToken sink data

/-- Makes calls one after another, whether or not those before have succeeded. -/
def run (sink : Sink σ) (w : TokenWriter σ) : List WriterCall → List WriterEvent × TokenWriter σ
  | [] => ([], w)
  | call :: rest =>
    let (outcome, w) := w.call sink call
    let (events, w) := w.run sink rest
    (⟨call, outcome⟩ :: events, w)

/-- The writer over the sink with a record of what it has taken. -/
def recording (w : TokenWriter σ) (received : Bytes) : TokenWriter (σ × Bytes) :=
  ⟨(w.state, received), w.bytes, w.tokens⟩

/-- Both kinds of call offer their bytes to the sink, and only a call that succeeds is counted. -/
theorem call_eq (sink : Sink σ) (w : TokenWriter σ) (call : WriterCall) :
    w.call sink call =
      match sink.writeAll w.state call.data with
      | (.ok (), after) =>
        (.ok (), ⟨after, w.bytes + call.data.length, w.tokens + if call.isToken then 1 else 0⟩)
      | (.error fault, after) => (.error fault, ⟨after, w.bytes, w.tokens⟩) := by
  cases call with
  | write data =>
    simp only [TokenWriter.call, write, WriterCall.data, WriterCall.isToken]
    rcases sink.writeAll w.state data with ⟨fault | ⟨⟩, after⟩
    · rfl
    · rfl
  | writeToken data =>
    simp only [TokenWriter.call, writeToken, write, WriterCall.data, WriterCall.isToken]
    rcases sink.writeAll w.state data with ⟨fault | ⟨⟩, after⟩
    · rfl
    · rfl

private theorem call_recording (sink : Sink σ) (w : TokenWriter σ) (received : Bytes)
    (call : WriterCall) :
    ∃ part, (w.recording received).call sink.recording call =
        ((w.call sink call).1, (w.call sink call).2.recording (received ++ part)) ∧
      Sink.Reaches call.data (w.call sink call).1 part := by
  obtain ⟨part, written, reaches⟩ := sink.writeAll_recording w.state received call.data
  refine ⟨part, ?_⟩
  rw [call_eq, call_eq, recording, written]
  rcases outcome : sink.writeAll w.state call.data with ⟨fault | ⟨⟩, after⟩
  · rw [outcome] at reaches
    exact ⟨rfl, reaches⟩
  · rw [outcome] at reaches
    exact ⟨rfl, reaches⟩

/-- A call that fails is not counted. -/
theorem counts_of_failure {sink : Sink σ} {w after : TokenWriter σ} {call : WriterCall}
    {fault : IoFault} (failed : w.call sink call = (.error fault, after)) :
    after.bytes = w.bytes ∧ after.tokens = w.tokens := by
  rw [call_eq] at failed
  split at failed
  · cases failed
  · cases failed
    exact ⟨rfl, rfl⟩

/-! ## Runs -/

theorem run_cons (sink : Sink σ) (w : TokenWriter σ) (call : WriterCall) (rest : List WriterCall) :
    w.run sink (call :: rest) =
      (⟨call, (w.call sink call).1⟩ :: ((w.call sink call).2.run sink rest).1,
        ((w.call sink call).2.run sink rest).2) :=
  rfl

private theorem map_call_run (sink : Sink σ) (w : TokenWriter σ) (calls : List WriterCall) :
    (w.run sink calls).1.map WriterEvent.call = calls := by
  induction calls generalizing w with
  | nil => rfl
  | cons call rest ih => rw [run_cons, List.map_cons, ih]

/-- With a record a run goes as without, and the record grows by what each call brings into the
sink, in the order of the calls. -/
theorem run_recording (sink : Sink σ) (w : TokenWriter σ) (received : Bytes)
    (calls : List WriterCall) :
    ∃ parts, (w.recording received).run sink.recording calls =
        ((w.run sink calls).1, (w.run sink calls).2.recording (received ++ parts.flatten)) ∧
      List.Forall₂ (fun event part => Sink.Reaches event.call.data event.outcome part)
        (w.run sink calls).1 parts := by
  induction calls generalizing w received with
  | nil =>
    refine ⟨[], ?_, .nil⟩
    rw [List.flatten_nil, List.append_nil]
    rfl
  | cons call rest ih =>
    obtain ⟨part, called, reaches⟩ := w.call_recording sink received call
    obtain ⟨parts, ran, others⟩ := ih (w.call sink call).2 (received ++ part)
    refine ⟨part :: parts, ?_, .cons reaches others⟩
    rw [run_cons, called, ran, run_cons, List.flatten_cons, List.append_assoc]

/-- The counts grow by what the calls that succeed have written. -/
theorem run_counts (sink : Sink σ) (w : TokenWriter σ) (calls : List WriterCall) :
    let (events, after) := w.run sink calls
    after.bytes = w.bytes +
        ((events.filter WriterEvent.succeeded).map fun event => event.call.data.length).sum ∧
      after.tokens = w.tokens +
        events.countP fun event => event.succeeded && event.call.isToken := by
  induction calls generalizing w with
  | nil => exact ⟨rfl, rfl⟩
  | cons call rest ih =>
    obtain ⟨bytes, tokens⟩ := ih (w.call sink call).2
    rw [run_cons]
    dsimp only
    rw [bytes, tokens, call_eq]
    rcases sink.writeAll w.state call.data with ⟨fault | ⟨⟩, after⟩
    · rw [List.filter_cons_of_neg Bool.false_ne_true, List.countP_cons_of_neg Bool.false_ne_true]
      exact ⟨rfl, rfl⟩
    · rw [List.filter_cons_of_pos rfl, List.map_cons, List.sum_cons, List.countP_cons]
      simp only [WriterEvent.succeeded_ok, Bool.true_and]
      omega

/-- Whatever a sink does with the offers it gets, and whatever is written through a new writer: the
sink has received, in the order of the calls, all bytes of each call that has succeeded and a front
part of the bytes of each that has failed, and nothing else. The writer has counted the bytes of the
calls that have succeeded, and the tokens among these calls. A call that fails leaves both counts as
they were. -/
theorem run_accounts (sink : Sink σ) (s : σ) (calls : List WriterCall) :
    let (events, writer) := (start s).run sink calls
    events.map WriterEvent.call = calls ∧
    (∃ parts, (start (s, [])).run sink.recording calls =
        (events, writer.recording parts.flatten) ∧
      List.Forall₂ (fun event part => Sink.Reaches event.call.data event.outcome part)
        events parts) ∧
    writer.bytes =
      ((events.filter WriterEvent.succeeded).map fun event => event.call.data.length).sum ∧
    writer.tokens = events.countP (fun event => event.succeeded && event.call.isToken) ∧
    ∀ call fault after, writer.call sink call = (.error fault, after) →
      after.bytes = writer.bytes ∧ after.tokens = writer.tokens := by
  obtain ⟨parts, recorded, reaches⟩ := (start s).run_recording sink [] calls
  obtain ⟨bytes, tokens⟩ := (start s).run_counts sink calls
  rw [List.nil_append] at recorded
  refine ⟨map_call_run sink _ calls, ⟨parts, recorded, reaches⟩, ?_, ?_, ?_⟩
  · rw [bytes, start, Nat.zero_add]
  · rw [tokens, start, Nat.zero_add]
  · intro call fault after failed
    exact counts_of_failure failed

end TokenWriter

end FormatHost
