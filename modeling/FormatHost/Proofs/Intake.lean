import FormatHost.Intake
import Mathlib.Algebra.Group.Nat.Defs
import Mathlib.Order.Bounds.Basic

/-! # Reading gathers everything

Reading asks a feed, always with room to fill, until its first empty delivery or its first failure,
and no further. What it has gathered then is what was delivered, in order, and the buffer has been
doubled no more often than that takes: how the feed cut its bytes into deliveries leaves no trace.
-/

namespace FormatHost

namespace Input

/-- An input whose buffer started with some capacity and was doubled only when it was full. -/
structure GrownFrom (first : ℕ) (input : Input) : Prop where
  capacity : input.capacity = first * 2 ^ input.growths
  outgrown : ∀ g < input.growths, first * 2 ^ g ≤ input.bytes.length

theorem room_pos (input : Input) : 0 < input.room := by
  have := input.hasRoom
  unfold room
  omega

theorem grownFrom_empty (capacity : ℕ) : (empty capacity).GrownFrom (max capacity 1) where
  capacity := by simp [empty]
  outgrown := by simp [empty]

@[simp] theorem bytes_add (input : Input) (data : Bytes) (fits : data.length ≤ input.room) :
    (input.add data fits).bytes = input.bytes ++ data := by
  unfold add
  split <;> rfl

/-- More bytes double the buffer when they fill it and only then. -/
theorem GrownFrom.add {first : ℕ} {input : Input} (grown : input.GrownFrom first) {data : Bytes}
    (fits : data.length ≤ input.room) : (input.add data fits).GrownFrom first := by
  unfold Input.add
  split
  · refine ⟨grown.capacity, fun g less => ?_⟩
    have before := grown.outgrown g less
    simp only [List.length_append]
    omega
  · next full =>
    refine ⟨by simp only [grown.capacity, Nat.pow_succ, Nat.mul_assoc], fun g less => ?_⟩
    have doublings : 2 ^ g ≤ 2 ^ input.growths :=
      Nat.pow_le_pow_right (by decide) (Nat.le_of_lt_succ less)
    calc first * 2 ^ g
      _ ≤ first * 2 ^ input.growths := Nat.mul_le_mul_left first doublings
      _ = input.capacity := grown.capacity.symm
      _ ≤ (input.bytes ++ data).length := Nat.le_of_not_lt full

/-- The buffer was doubled as often as the bytes need to fit in with room to spare. -/
theorem GrownFrom.isLeast {first : ℕ} {input : Input} (grown : input.GrownFrom first) :
    IsLeast {g | input.bytes.length < first * 2 ^ g} input.growths := by
  constructor
  · have room := input.hasRoom
    rw [grown.capacity] at room
    exact room
  · intro g enough
    by_contra fewer
    have outgrown := grown.outgrown g (Nat.lt_of_not_le fewer)
    exact absurd enough (Nat.not_lt.mpr outgrown)

/-- The bytes and the first capacity decide everything else. -/
theorem GrownFrom.eq_of_bytes {first : ℕ} {a b : Input} (grown : a.GrownFrom first)
    (grown' : b.GrownFrom first) (same : a.bytes = b.bytes) : a = b := by
  have least := grown.isLeast
  rw [same] at least
  have growths : a.growths = b.growths := least.unique grown'.isLeast
  have capacity : a.capacity = b.capacity := by
    rw [grown.capacity, grown'.capacity, growths]
  obtain ⟨bytes, _, _, _⟩ := a
  obtain ⟨_, _, _, _⟩ := b
  simp only at same growths capacity
  subst same growths capacity
  rfl

end Input

namespace Feed

variable {ε : Type}

/-- What a feed answers when it is asked with each of some rooms in order. After its last delivery
there is no answer. -/
def answers : Feed ε → List ℕ → List (Delivery ε)
  | _, [] => []
  | ⟨answer, _, next⟩, room :: rooms =>
    answer room :: if more : (answer room).goesOn = true then (next room more).answers rooms else []

/-- How reading on into an input comes out after some deliveries and a last one. -/
inductive Concluded (input : Input) (earlier : List (Delivery ε)) :
    Delivery ε → Except ε Input → Prop
  | ended {after : Input} (bytes : after.bytes = input.bytes ++ earlier.flatMap Delivery.data)
      (grown : ∀ first, input.GrownFrom first → after.GrownFrom first) :
      Concluded input earlier (.bytes []) (.ok after)
  | failed {fault : ε} : Concluded input earlier (.failed fault) (.error fault)

/-- A delivery that was taken in may be counted among those that follow. -/
theorem Concluded.cons {input later : Input} {earlier : List (Delivery ε)} {first last : Delivery ε}
    {outcome : Except ε Input} (concluded : Concluded later earlier last outcome)
    (bytes : later.bytes = input.bytes ++ first.data)
    (grown : ∀ first, input.GrownFrom first → later.GrownFrom first) :
    Concluded input (first :: earlier) last outcome := by
  cases concluded with
  | ended bytes' grown' =>
    refine .ended ?_ fun first start => grown' first (grown first start)
    rw [bytes', bytes, List.flatMap_cons, List.append_assoc]
  | failed => exact .failed

/-- A feed that was read: it was asked with room only, it answered every call, it went on after
every answer but the last, and the outcome is what those answers come to. -/
structure Exchange (feed : Feed ε) (input : Input) (intake : Intake ε)
    (earlier : List (Delivery ε)) (last : Delivery ε) : Prop where
  room : ∀ room ∈ intake.asked, 0 < room
  answered : feed.answers intake.asked = earlier ++ [last]
  calls : intake.asked.length = earlier.length + 1
  wentOn : ∀ delivery ∈ earlier, delivery.goesOn = true
  concluded : Concluded input earlier last intake.outcome

theorem exchange_last {answer : ℕ → Delivery ε} (fits : ∀ room, (answer room).data.length ≤ room)
    (next : (room : ℕ) → (answer room).goesOn = true → Feed ε) {input : Input}
    {outcome : Except ε Input} (stops : (answer input.room).goesOn = false)
    (concluded : Concluded input [] (answer input.room) outcome) :
    Exchange ⟨answer, fits, next⟩ input ⟨[input.room], outcome⟩ [] (answer input.room) where
  room room member := by
    rw [List.mem_singleton.mp member]
    exact input.room_pos
  answered := by simp [answers, stops]
  calls := rfl
  wentOn := by simp
  concluded := concluded

theorem Exchange.after {answer : ℕ → Delivery ε} (fits : ∀ room, (answer room).data.length ≤ room)
    (next : (room : ℕ) → (answer room).goesOn = true → Feed ε) {input later : Input}
    (more : (answer input.room).goesOn = true) {intake : Intake ε} {earlier : List (Delivery ε)}
    {last : Delivery ε} (exchange : Exchange (next input.room more) later intake earlier last)
    (bytes : later.bytes = input.bytes ++ (answer input.room).data)
    (grown : ∀ first, input.GrownFrom first → later.GrownFrom first) :
    Exchange ⟨answer, fits, next⟩ input (intake.after input.room) (answer input.room :: earlier)
      last where
  room room member := by
    obtain rfl | member := List.mem_cons.mp member
    · exact input.room_pos
    · exact exchange.room room member
  answered := by simp [Intake.after, answers, more, exchange.answered]
  calls := by simp [Intake.after, exchange.calls]
  wentOn := by
    intro delivery member
    obtain rfl | member := List.mem_cons.mp member
    · exact more
    · exact exchange.wentOn delivery member
  concluded := exchange.concluded.cons bytes grown

/-- Reading on into an input is such an exchange. -/
theorem exists_exchange (feed : Feed ε) (input : Input) :
    ∃ earlier last, Exchange feed input (feed.readOnto input) earlier last := by
  induction feed generalizing input with
  | mk answer fits next ih =>
    rw [readOnto]
    split
    · next shape =>
      refine ⟨[], _, exchange_last fits next (by rw [shape]; rfl) ?_⟩
      rw [shape]
      exact .ended (by simp) fun _ start => start
    · next b data shape =>
      obtain ⟨earlier, last, exchange⟩ := ih input.room _ (input.add (b :: data) _)
      refine ⟨_, last, exchange.after fits next _ ?_ fun _ start => start.add _⟩
      rw [Input.bytes_add, shape, Delivery.data_bytes]
    · next shape =>
      obtain ⟨earlier, last, exchange⟩ := ih input.room _ input
      refine ⟨_, last, exchange.after fits next _ ?_ fun _ start => start⟩
      rw [shape, Delivery.data_interrupted, List.append_nil]
    · next fault shape =>
      refine ⟨[], _, exchange_last fits next (by rw [shape]; rfl) ?_⟩
      rw [shape]
      exact .failed

/-- An input that was read holds what was delivered, in a buffer grown from the first capacity. -/
theorem gathered_of_readAll {feed : Feed ε} {capacity : ℕ} {input : Input}
    (read : (feed.readAll capacity).outcome = .ok input) :
    input.bytes = (feed.answers (feed.readAll capacity).asked).flatMap Delivery.data ∧
      input.GrownFrom (max capacity 1) := by
  obtain ⟨earlier, last, exchange⟩ := exists_exchange feed (.empty capacity)
  have concluded := exchange.concluded
  rw [readAll] at read ⊢
  rw [read] at concluded
  rw [exchange.answered]
  cases concluded with
  | ended bytes grown =>
    refine ⟨?_, grown _ (Input.grownFrom_empty capacity)⟩
    rw [bytes]
    simp [Input.empty]

/-- However a feed delivers, and whatever capacity reading starts with: every call has room to fill,
and reading ends with the first failure, which it reports, or with the first empty delivery. Then
the input is what was delivered before, the buffer was doubled just as often as that needs, and any
other feed that delivered the same bytes is read to the same input. -/
theorem readAll_gathers (feed : Feed ε) (capacity : ℕ) :
    let intake := feed.readAll capacity
    (∀ room ∈ intake.asked, 0 < room) ∧
    (∃ earlier last, feed.answers intake.asked = earlier ++ [last] ∧
      intake.asked.length = earlier.length + 1 ∧
      (∀ delivery ∈ earlier, delivery.goesOn = true) ∧
      ((∃ fault, last = .failed fault ∧ intake.outcome = .error fault) ∨
        last = .bytes [] ∧ ∃ input : Input, intake.outcome = .ok input ∧
          input.bytes = earlier.flatMap Delivery.data ∧
          IsLeast {g | input.bytes.length < max capacity 1 * 2 ^ g} input.growths ∧
          input.capacity = max capacity 1 * 2 ^ input.growths)) ∧
    ∀ (other : Feed ε) (mine theirs : Input), intake.outcome = .ok mine →
      (other.readAll capacity).outcome = .ok theirs →
      (feed.answers intake.asked).flatMap Delivery.data =
        (other.answers (other.readAll capacity).asked).flatMap Delivery.data →
      mine = theirs := by
  intro intake
  obtain ⟨earlier, last, exchange⟩ := exists_exchange feed (.empty capacity)
  refine ⟨exchange.room,
    ⟨earlier, last, exchange.answered, exchange.calls, exchange.wentOn, ?_⟩, ?_⟩
  · have concluded := exchange.concluded
    generalize read : (feed.readOnto (.empty capacity)).outcome = outcome at concluded
    cases concluded with
    | ended bytes grown =>
      have grown := grown _ (Input.grownFrom_empty capacity)
      exact .inr ⟨rfl, _, read, bytes, grown.isLeast, grown.capacity⟩
    | failed => exact .inl ⟨_, rfl, read⟩
  · intro other mine theirs read read' same
    obtain ⟨bytes, grown⟩ := gathered_of_readAll read
    obtain ⟨bytes', grown'⟩ := gathered_of_readAll read'
    exact grown.eq_of_bytes grown' (by rw [bytes, bytes', same])

end Feed

end FormatHost
