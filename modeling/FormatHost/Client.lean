import FormatHost.NumericSurface

/-! # Clients of the numeric surface

All that a host can call. The guarded calls go to the engine or to a destination and end with a
status. The others look at results and release them, ask for the last error or for the version.
Results are handed out by number; the null result, a number that was never handed out and one that
was released have nothing behind them.
-/

namespace FormatHost

/-- A call of a host. A result is given by its number, or is null. -/
inductive HostCall where
  | start
  /-- The status is stored if there is a place for it. -/
  | format (source : Buffer) (storesStatus : Bool)
  | formatToConsole (source tree : Buffer)
  | formatToFile (path source tree : Buffer)
  | writeTokens (path : Buffer) (callback : Option (List Pull))
  | resultPointer (result : Option Nat)
  | resultLength (result : Option Nat)
  | release (result : Option Nat)
  | lastError
  | version
deriving DecidableEq

/-- What a host gets back from a call. -/
inductive HostAnswer where
  | status (code : Int)
  /-- The status, if it was stored, and the result. -/
  | formatted (stored : Option Int) (result : Option Nat)
  /-- The status, and how often the callback was called. -/
  | streamed (code : Int) (calls : Nat)
  /-- The bytes that a pointer leads to, unless it is null. -/
  | pointer (bytes : Option Bytes)
  | length (count : Nat)
  | released
  | text (words : Option String)
deriving DecidableEq

/-- The surface as one thread of a host uses it, with the results that it has handed out. -/
structure Client (σ : Type) where
  surface : NumericSurface σ
  /-- What each format call has handed out, and nothing in place of what was released. -/
  results : List (Option Result)

namespace Client

variable {σ : Type}

/-- A client that has made no call yet. Others may have used the engine before. -/
def fresh (gate : Gate σ) (machine : Machine) : Client σ :=
  ⟨⟨gate, machine, none⟩, []⟩

def result? (client : Client σ) (number : Option Nat) : Option Result :=
  number.bind fun number => client.results.getD number none

/-- The number of the next result that is handed out. -/
def nextNumber (client : Client σ) : Nat :=
  client.results.length

def call (client : Client σ) : HostCall → HostAnswer × Client σ
  | .start =>
    let (code, surface) := client.surface.start
    (.status code, { client with surface := surface })
  | .format source storesStatus =>
    let ((code, result), surface) := client.surface.format source
    (.formatted (if storesStatus then some code else none) (result.map fun _ => client.nextNumber),
      ⟨surface, client.results ++ [result]⟩)
  | .formatToConsole source tree =>
    let (code, surface) := client.surface.formatTree .console source tree
    (.status code, { client with surface := surface })
  | .formatToFile path source tree =>
    let (code, surface) := client.surface.formatToFile path source tree
    (.status code, { client with surface := surface })
  | .writeTokens path callback =>
    let ((code, calls), surface) := client.surface.writeTokens path callback
    (.streamed code calls, { client with surface := surface })
  | .resultPointer number => (.pointer ((client.result? number).map Result.bytes), client)
  | .resultLength number =>
    (.length ((client.result? number).elim 0 fun result => result.bytes.length), client)
  | .release number =>
    (.released,
      match number with
      | none => client
      | some number => { client with results := client.results.set number none })
  | .lastError => (.text client.surface.lastError, client)
  | .version => (.text (some FormatHost.version), client)

def run (client : Client σ) : List HostCall → List HostAnswer × Client σ
  | [] => ([], client)
  | call :: rest =>
    let (answer, next) := client.call call
    let (answers, last) := next.run rest
    (answer :: answers, last)

end Client

end FormatHost
