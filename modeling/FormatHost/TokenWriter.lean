import FormatHost.Buffer

/-! # Writing tokens and counting them

A sink may take only part of what it is offered, ask to be tried again, or fail. A writer offers
it the rest until all is taken, and counts the bytes and tokens of the writes that succeeded.
-/

namespace FormatHost

/-- What a sink does with the bytes it is offered. -/
inductive Response where
  /-- It takes that many of them, from the front. -/
  | took (count : Nat)
  | interrupted
  | failed (fault : IoFault)

/-- Something that bytes can be written to. -/
structure Sink (σ : Type) where
  /-- The response to an offer, and the state after it. -/
  respond : σ → Bytes → Response × σ
  /-- How often the sink may still interrupt in a row. -/
  patience : σ → Nat
  patience_lt : ∀ s b s', respond s b = (.interrupted, s') → patience s' < patience s

namespace Sink

/-- Offers bytes until the sink has taken all of them. Nothing is offered when there are none. -/
def writeAll {σ : Type} (sink : Sink σ) (s : σ) (bytes : Bytes) : Except IoFault Unit × σ :=
  match bytes with
  | [] => (.ok (), s)
  | b :: rest =>
    match h : sink.respond s (b :: rest) with
    | (.failed fault, s') => (.error fault, s')
    | (.took 0, s') => (.error .nothingTaken, s')
    | (.took (count + 1), s') => sink.writeAll s' ((b :: rest).drop (count + 1))
    | (.interrupted, s') => sink.writeAll s' (b :: rest)
termination_by (bytes.length, sink.patience s)
decreasing_by
  · simp only [List.drop_succ_cons, List.length_cons, List.length_drop]
    exact Prod.Lex.left _ _ (by omega)
  · exact Prod.Lex.right _ (sink.patience_lt _ _ _ h)

end Sink

/-- A sink in some state, with the counts of what was written to it. The source counts in 64 bits,
which is the same as long as less than `2 ^ 64` bytes and tokens are written. -/
structure TokenWriter (σ : Type) where
  state : σ
  bytes : Nat
  tokens : Nat

namespace TokenWriter

def start {σ : Type} (state : σ) : TokenWriter σ :=
  ⟨state, 0, 0⟩

/-- Writes bytes. They count only if all of them were taken. -/
def write {σ : Type} (sink : Sink σ) (w : TokenWriter σ) (data : Bytes) :
    Except IoFault Unit × TokenWriter σ :=
  match sink.writeAll w.state data with
  | (.ok (), s) => (.ok (), { w with state := s, bytes := w.bytes + data.length })
  | (.error fault, s) => (.error fault, { w with state := s })

def writeToken {σ : Type} (sink : Sink σ) (w : TokenWriter σ) (token : Bytes) :
    Except IoFault Unit × TokenWriter σ :=
  match w.write sink token with
  | (.ok (), w) => (.ok (), { w with tokens := w.tokens + 1 })
  | (.error fault, w) => (.error fault, w)

end TokenWriter

end FormatHost
