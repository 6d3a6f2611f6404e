import FormatHost.Text.Utf8

/-! # Reading an input of unknown length

A feed is asked for bytes again and again, each time with the room that is left for them. It
delivers as many of them as it likes, is interrupted, or fails, until it delivers nothing. Reading
gathers what comes before the first empty delivery in a buffer that doubles each time it is full;
interruptions are tried again.
-/

namespace FormatHost

/-- What a feed does when it is asked. -/
inductive Delivery (ε : Type) where
  /-- It hands out these bytes. There are none at the end of the input. -/
  | bytes (data : Bytes)
  | interrupted
  | failed (fault : ε)

namespace Delivery

variable {ε : Type}

def data : Delivery ε → Bytes
  | .bytes data => data
  | .interrupted | .failed _ => []

/-- Whether there is more to ask for. An empty delivery and a failure are the last. -/
def goesOn : Delivery ε → Bool
  | .bytes data => !data.isEmpty
  | .interrupted => true
  | .failed _ => false

@[simp] theorem data_bytes (data : Bytes) : (bytes data : Delivery ε).data = data := rfl

@[simp] theorem data_interrupted : (interrupted : Delivery ε).data = [] := rfl

end Delivery

/-- A feed that comes to an end: what it does when it is asked with some room, where it hands out no
more than fits, and the feed that it is after that. All of it may depend on the room. -/
inductive Feed (ε : Type) where
  | mk (answer : Nat → Delivery ε) (fits : ∀ room, (answer room).data.length ≤ room)
      (next : (room : Nat) → (answer room).goesOn = true → Feed ε)

/-- The bytes read so far, in a buffer that has room for more. -/
structure Input where
  bytes : Bytes
  capacity : Nat
  /-- How often the buffer was doubled. -/
  growths : Nat
  hasRoom : bytes.length < capacity

namespace Input

def standardCapacity : Nat := 1024

/-- An input without bytes. A buffer has room for one byte at least. -/
def empty (capacity : Nat) : Input :=
  ⟨[], max capacity 1, 0, by simp only [List.length_nil]; omega⟩

/-- How many bytes fit before the buffer is full. -/
def room (input : Input) : Nat :=
  input.capacity - input.bytes.length

/-- The input after some more bytes. A buffer that they fill is doubled. -/
def add (input : Input) (data : Bytes) (fits : data.length ≤ input.room) : Input :=
  if roomLeft : (input.bytes ++ data).length < input.capacity then
    { input with bytes := input.bytes ++ data, hasRoom := roomLeft }
  else
    { bytes := input.bytes ++ data
      capacity := input.capacity * 2
      growths := input.growths + 1
      hasRoom := by
        have := input.hasRoom
        simp only [room] at fits
        simp only [List.length_append]
        omega }

end Input

/-- What reading came to, with the room that was offered at each call. -/
structure Intake (ε : Type) where
  asked : List Nat
  outcome : Except ε Input

/-- An intake with one more call in front. -/
def Intake.after {ε : Type} (room : Nat) (later : Intake ε) : Intake ε :=
  { later with asked := room :: later.asked }

namespace Feed

variable {ε : Type}

def readOnto : Feed ε → Input → Intake ε
  | ⟨answer, fits, next⟩, input =>
    match shape : answer input.room with
    | .bytes [] => ⟨[input.room], .ok input⟩
    | .bytes (b :: data) =>
      have fit : (b :: data).length ≤ input.room := by
        have fit := fits input.room
        rwa [shape, Delivery.data_bytes] at fit
      ((next input.room (by rw [shape]; rfl)).readOnto (input.add (b :: data) fit)).after input.room
    | .interrupted => ((next input.room (by rw [shape]; rfl)).readOnto input).after input.room
    | .failed fault => ⟨[input.room], .error fault⟩

/-- Reads everything that comes before the first empty delivery. -/
def readAll (feed : Feed ε) (capacity : Nat) : Intake ε :=
  feed.readOnto (.empty capacity)

end Feed

namespace Delivery

variable {ε : Type}

/-- How many calls a script of deliveries can last. -/
def weight : List (Delivery ε) → Nat
  | [] => 0
  | .bytes data :: rest => data.length + 1 + weight rest
  | .interrupted :: rest => 1 + weight rest
  | .failed _ :: rest => 1 + weight rest

/-- The feed that makes some deliveries in order. Bytes for which there is no room are handed out
when it is asked again. A script that is at its end delivers nothing. -/
def feed (script : List (Delivery ε)) : Feed ε :=
  match script with
  | [] => ⟨fun _ => .bytes [], fun _ => Nat.zero_le _, nofun⟩
  | .interrupted :: rest => ⟨fun _ => .interrupted, fun _ => Nat.zero_le _, fun _ _ => feed rest⟩
  | .failed fault :: _ => ⟨fun _ => .failed fault, fun _ => Nat.zero_le _, nofun⟩
  | .bytes data :: rest =>
    .mk (fun room => .bytes (data.take room)) (fun room => List.length_take_le room data)
      fun room _more =>
        match _left : data.drop room with
        | [] => feed rest
        | c :: later => feed (.bytes (c :: later) :: rest)
termination_by weight script
decreasing_by
  · simp only [weight]; omega
  · simp only [weight]; omega
  · have shorter := congrArg List.length _left
    simp only [goesOn, Bool.not_eq_true', List.isEmpty_eq_false_iff, ne_eq,
      List.take_eq_nil_iff] at _more
    simp only [List.length_drop, List.length_cons] at shorter
    simp only [weight, List.length_cons]
    omega

def readAll (capacity : Nat) (script : List (Delivery ε)) : Intake ε :=
  (feed script).readAll capacity

end Delivery

end FormatHost
