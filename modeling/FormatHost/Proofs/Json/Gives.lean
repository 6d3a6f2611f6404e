import FormatHost.Fault
import FormatHost.Json.Record
import Mathlib.Data.Nat.Notation
import Mathlib.Tactic.SplitIfs

/-! # What readers give

A reader gives values of a kind if each value that it reads is of that kind, whatever the input. A
loop gives what its last step gives in the states that the steps before it lead to, so lists hold
what the reader of their elements gives, and records are what can be made of their fields.
-/

namespace FormatHost.Json

/-- A reader whose values have a property. -/
def Gives {α : Type} (reader : Reader α) (P : α → Prop) : Prop :=
  ∀ s value rest, reader s = .ok (value, rest) → P value

@[simp] theorem here_ne_ok {α : Type} {problem : Problem} {rest : Bytes} {result : α} :
    here problem rest ≠ .ok result := by
  simp [here]

@[simp] theorem peeked_ne_ok {α : Type} {problem : Problem} {rest : Bytes} {result : α} :
    peeked problem rest ≠ .ok result := by
  simp [peeked]

/-- What is unexpected is never read. -/
@[simp] theorem unexpected_ne_ok {α : Type} {expected : String} {s : Bytes} {result : α} :
    unexpected expected s ≠ .ok result := by
  intro read
  cases s with
  | nil => exact peeked_ne_ok read
  | cons b rest =>
    simp only [unexpected] at read
    split_ifs at read
    all_goals simp [bind_eq_ok_iff] at read

/-! ## Loops and lists -/

section Loops

variable {σ α : Type} {step : σ → Bytes → Except Fault (Next σ α × Bytes)} {I : σ → Prop}
  {P : α → Prop}

/-- A loop gives what its last step gives, if every step keeps an invariant. -/
theorem gives_loop
    (again : ∀ state s state' rest, I state → step state s = .ok (.again state', rest) → I state')
    (done : ∀ state s value rest, I state → step state s = .ok (.done value, rest) → P value)
    {state : σ} (holds : I state) : Gives (loop step state) P := by
  have within (bound state s value rest) (holds : I state)
      (read : loopWithin step bound state s = .ok (value, rest)) : P value := by
    fun_induction loopWithin step bound state s with
    | case1 => contradiction
    | case2 bound state s result rest' stepped =>
      obtain ⟨rfl, rfl⟩ := Prod.mk.inj (Except.ok.inj read)
      exact done state s _ _ holds stepped
    | case3 => exact absurd read here_ne_ok
    | case4 state s state' rest' stepped _ bound ih =>
      exact ih (again state s state' rest' holds stepped) read
  intro s value rest read
  exact within s state s value rest holds read

/-- One element more is read by the reader of the elements. -/
theorem elementStep_again {item : Reader α} {state state' : Bool × List α} {s rest : Bytes}
    (stepped : elementStep item state s = .ok (.again state', rest)) :
    ∃ s' value, item s' = .ok (value, rest) ∧ state' = (false, value :: state.2) := by
  obtain ⟨next, _, stepped⟩ := bind_eq_ok_iff.mp stepped
  cases next with
  | none =>
    obtain ⟨_, _, closed⟩ := bind_eq_ok_iff.mp stepped
    simp at closed
  | some s' =>
    obtain ⟨⟨value, rest'⟩, read, stepped⟩ := bind_eq_ok_iff.mp stepped
    simp only [Except.ok.injEq, Prod.mk.injEq, Next.again.injEq] at stepped
    obtain ⟨rfl, rfl⟩ := stepped
    exact ⟨s', value, read, rfl⟩

/-- At the end of a list, its elements are those read. -/
theorem elementStep_done {item : Reader α} {state : Bool × List α} {values : List α}
    {s rest : Bytes} (stepped : elementStep item state s = .ok (.done values, rest)) :
    values = state.2.reverse := by
  obtain ⟨next, _, stepped⟩ := bind_eq_ok_iff.mp stepped
  cases next with
  | none =>
    obtain ⟨_, _, closed⟩ := bind_eq_ok_iff.mp stepped
    simp only [Except.ok.injEq, Prod.mk.injEq, Next.done.injEq] at closed
    exact closed.1.symm
  | some s' =>
    obtain ⟨⟨value, rest'⟩, _, stepped⟩ := bind_eq_ok_iff.mp stepped
    simp at stepped

/-- A list holds what the reader of its elements gives. -/
theorem gives_readList {item : Reader α} (each : Gives item P) (room : Bool) :
    Gives (readList room item) fun values => ∀ value ∈ values, P value := by
  intro s values rest read
  rw [readList] at read
  cases skipped : skipSpace s with
  | nil => simp [skipped] at read
  | cons b behind =>
    rw [skipped] at read
    simp only at read
    split_ifs at read with opens room
    · refine gives_loop (I := fun state => ∀ value ∈ state.2, P value)
        (P := fun values => ∀ value ∈ values, P value) ?_ ?_ (by simp) _ _ _ read
      · intro state s state' rest' holds stepped
        obtain ⟨s', value, read, rfl⟩ := elementStep_again stepped
        simpa using ⟨each s' value rest' read, holds⟩
      · intro state s values rest' holds stepped
        rw [elementStep_done stepped]
        simpa using holds
    · exact absurd read peeked_ne_ok
    · exact absurd read unexpected_ne_ok

end Loops

/-! ## Records -/

section Records

variable {σ α : Type} {I : σ → Prop} {P : α → Prop}

/-- Slots that keep a property of drafts. -/
def Keep (slots : List (Slot σ)) (I : σ → Prop) : Prop :=
  ∀ slot ∈ slots, ∀ draft, I draft → Gives (slot.read draft) I

/-- What a member of an object can be: its end, something unknown, or a field that is read. -/
theorem memberStep_cases {slots : List (Slot σ)} {state : Bool × σ} {s rest : Bytes}
    {next : Next (Bool × σ) σ} (stepped : memberStep slots state s = .ok (next, rest)) :
    next = .done state.2 ∨ next = .again (false, state.2) ∨
      ∃ slot ∈ slots, ∃ s' draft, slot.read state.2 s' = .ok (draft, rest) ∧
        next = .again (false, draft) := by
  obtain ⟨⟨more, behind⟩, _, stepped⟩ := bind_eq_ok_iff.mp stepped
  cases more with
  | false =>
    obtain ⟨rfl, rfl⟩ := Prod.mk.inj (Except.ok.inj stepped)
    exact .inl rfl
  | true =>
    obtain ⟨⟨key, behind⟩, _, stepped⟩ := bind_eq_ok_iff.mp stepped
    cases found : slots.find? (·.name == key) with
    | none =>
      simp only [found, bind_eq_ok_iff] at stepped
      obtain ⟨_, _, _, _, stepped⟩ := stepped
      obtain ⟨rfl, rfl⟩ := Prod.mk.inj (Except.ok.inj stepped)
      exact .inr (.inl rfl)
    | some slot =>
      simp only [found] at stepped
      split_ifs at stepped with filled
      · exact absurd stepped here_ne_ok
      · simp only [bind_eq_ok_iff] at stepped
        obtain ⟨s', _, ⟨draft, behind⟩, read, stepped⟩ := stepped
        obtain ⟨rfl, rfl⟩ := Prod.mk.inj (Except.ok.inj stepped)
        exact .inr (.inr ⟨slot, List.mem_of_find?_eq_some found, s', draft, read, rfl⟩)

/-- Members that are read keep what the slots keep. -/
theorem gives_members {slots : List (Slot σ)} (keep : Keep slots I) {draft : σ} (holds : I draft) :
    Gives (loop (memberStep slots) (true, draft)) I := by
  refine gives_loop (I := fun state => I state.2) ?_ ?_ holds
  · intro state s state' rest holds stepped
    obtain ended | unknown | ⟨slot, member, s', draft, read, field⟩ := memberStep_cases stepped
    · contradiction
    · obtain rfl := Next.again.inj unknown
      exact holds
    · obtain rfl := Next.again.inj field
      exact keep slot member state.2 holds s' draft rest read
  · intro state s value rest holds stepped
    obtain ended | unknown | ⟨_, _, _, _, _, field⟩ := memberStep_cases stepped
    · obtain rfl := Next.done.inj ended
      exact holds
    · contradiction
    · contradiction

/-- Fields that are read in order keep what the slots keep. -/
theorem gives_readInOrder {slots : List (Slot σ)} (keep : Keep slots I) (first : Bool) (count : ℕ)
    {draft : σ} (holds : I draft) :
    Gives (readInOrder slots first count draft) fun result => I result.1 := by
  induction slots generalizing first count draft with
  | nil =>
    intro s result rest read
    obtain ⟨rfl, rfl⟩ := Prod.mk.inj (Except.ok.inj read)
    exact holds
  | cons slot slots ih =>
    intro s result rest read
    obtain ⟨next, _, read⟩ := bind_eq_ok_iff.mp read
    cases next with
    | none =>
      obtain ⟨rfl, rfl⟩ := Prod.mk.inj (Except.ok.inj read)
      exact holds
    | some s' =>
      obtain ⟨⟨draft', s''⟩, field, later⟩ := bind_eq_ok_iff.mp read
      have holds' := keep slot (List.mem_cons_self ..) draft holds s' draft' s'' field
      exact ih (fun other member => keep other (List.mem_cons_of_mem _ member)) _ _ holds' _ _ _
        later

/-- A record is what can be made of its fields. -/
theorem gives_record {record : Record σ α} (keep : Keep record.slots I) (blank : I record.blank)
    (complete : ∀ draft value, I draft → record.complete draft = .ok value → P value)
    (room : Bool) : Gives (record.read room) P := by
  intro s value rest read
  rw [Record.read] at read
  cases skipped : skipSpace s with
  | nil => simp [skipped] at read
  | cons b behind =>
    rw [skipped] at read
    simp only at read
    split_ifs at read with object room' fields room'
    · obtain ⟨⟨draft, rest'⟩, members, read⟩ := bind_eq_ok_iff.mp read
      have holds := gives_members keep blank _ _ _ members
      cases made : record.complete draft with
      | error field => simp [made] at read
      | ok result =>
        simp only [made, Except.ok.injEq, Prod.mk.injEq] at read
        exact complete draft value holds (read.1 ▸ made)
    · exact absurd read peeked_ne_ok
    · obtain ⟨⟨⟨draft, count⟩, rest'⟩, members, read⟩ := bind_eq_ok_iff.mp read
      have holds := gives_readInOrder keep true 0 blank _ _ _ members
      simp only at read
      split_ifs at read with short
      · exact absurd read here_ne_ok
      · cases made : record.complete draft with
        | error field => simp [made] at read
        | ok result =>
          simp only [made, bind_eq_ok_iff, Except.ok.injEq, Prod.mk.injEq] at read
          obtain ⟨_, _, rfl, _⟩ := read
          exact complete draft _ holds made
    · exact absurd read peeked_ne_ok
    · exact absurd read unexpected_ne_ok

/-- Without room for a bracket nothing is read. -/
theorem gives_record_false (record : Record σ α) : Gives (record.read false) fun _ => False := by
  intro s value rest read
  rw [Record.read] at read
  cases skipped : skipSpace s with
  | nil => simp [skipped] at read
  | cons b behind =>
    rw [skipped] at read
    simp only [Bool.false_eq_true, ↓reduceIte] at read
    split_ifs at read
    all_goals simp at read

end Records

/-- A whole text is what its reader gives. -/
theorem readWhole_gives {α : Type} {reader : Reader α} {P : α → Prop} (gives : Gives reader P)
    {text : Bytes} {value : α} (read : readWhole reader text = .ok value) : P value := by
  obtain ⟨⟨value', rest⟩, first, read⟩ := bind_eq_ok_iff.mp read
  simp only at read
  split at read
  · obtain rfl := Except.ok.inj read
    exact gives text value' rest first
  · exact absurd read peeked_ne_ok

end FormatHost.Json
