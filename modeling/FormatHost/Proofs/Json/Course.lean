import FormatHost.Fault
import FormatHost.Json.Record
import FormatHost.Proofs.Json.Grammar
import Mathlib.Data.List.Forall2

/-! # How loops run over written lists

A loop whose steps read something ends where its steps lead, so its result can be followed step by
step. Lists of items, whatever they stand for, are read by such loops: each item has an effect on
what was gathered before it, or fails, and the first failure is that of the whole list.
-/

namespace FormatHost.Json

variable {σ α : Type}

/-! ## Space -/

theorem isSpace_eq_true_iff {b : UInt8} :
    isSpace b = true ↔ b = byte ' ' ∨ b = byte '\n' ∨ b = byte '\t' ∨ b = byte '\r' := by
  simp [isSpace, or_assoc]

theorem isSpacing_nil : IsSpacing [] := by
  intro b member
  contradiction

theorem skipSpace_append {space : Bytes} (blank : IsSpacing space) (s : Bytes) :
    skipSpace (space ++ s) = skipSpace s :=
  List.dropWhile_append_of_pos fun b member => isSpace_eq_true_iff.mpr (blank b member)

theorem skipSpace_cons {b : UInt8} (visible : isSpace b = false) (s : Bytes) :
    skipSpace (b :: s) = b :: s := by
  simp [skipSpace, visible]

/-- Space in front of something visible is skipped. -/
theorem skipSpace_append_cons {space : Bytes} (blank : IsSpacing space) {b : UInt8}
    (visible : isSpace b = false) (s : Bytes) : skipSpace (space ++ b :: s) = b :: s := by
  rw [skipSpace_append blank, skipSpace_cons visible]

theorem skipSpace_spacing {space : Bytes} (blank : IsSpacing space) : skipSpace space = [] := by
  have skipped := skipSpace_append blank []
  rwa [List.append_nil] at skipped

theorem follows_nil : Follows [] := by
  intro b first
  contradiction

theorem follows_cons {b : UInt8} {rest : Bytes}
    (ends : b = byte ',' ∨ b = byte ']' ∨ b = byte '\x7d') : Follows (b :: rest) := by
  intro first same
  obtain rfl := Option.some.inj same
  exact .inr ends

/-- Space may stand between a value and what follows it. -/
theorem Follows.spaced {rest : Bytes} (follows : Follows rest) {space : Bytes}
    (blank : IsSpacing space) : Follows (space ++ rest) := by
  cases space with
  | nil => exact follows
  | cons b space =>
    intro first same
    obtain rfl := Option.some.inj same
    refine .inl fun other member => ?_
    obtain rfl := List.mem_singleton.mp member
    exact blank other (List.mem_cons_self ..)

/-! ## Results -/

/-- An outcome that is a value and the rest of the input, or a fault when there is no value. -/
def Yields (outcome : Except Fault (α × Bytes)) (value : Option α) (rest : Bytes) : Prop :=
  match value with
  | some value => outcome = .ok (value, rest)
  | none => ∃ fault, outcome = .error fault

theorem Yields.bind {β : Type} {outcome : Except Fault (α × Bytes)} {value : Option α}
    {rest : Bytes} (first : Yields outcome value rest) {next : α × Bytes → Except Fault (β × Bytes)}
    {result : α → Option β} {behind : Bytes}
    (second : ∀ a, value = some a → Yields (next (a, rest)) (result a) behind) :
    Yields (outcome >>= next) (value.bind result) behind := by
  cases value with
  | none =>
    obtain ⟨fault, failed⟩ := first
    exact ⟨fault, by rw [failed]; rfl⟩
  | some a =>
    obtain rfl : outcome = .ok (a, rest) := first
    exact second a rfl

/-- A reader that makes a value of a text, or fails on it, wherever the text may stand. -/
def Reads (reader : Reader α) (text : Bytes) (value : Option α) : Prop :=
  ∀ space rest, IsSpacing space → Follows rest →
    Yields (reader (space ++ (text ++ rest))) value rest

theorem Reads.map {β : Type} {reader : Reader α} {text : Bytes} {value : Option α}
    (reads : Reads reader text value) (f : α → β) :
    Reads (fun s => do
      let (a, rest) ← reader s
      .ok (f a, rest)) text (value.map f) := by
  intro space rest blank follows
  rw [Option.map_eq_bind]
  exact (reads space rest blank follows).bind fun _ _ => rfl

/-! ## Loops -/

/-- The course of a loop to its result. Every step but the last leaves less of the input. -/
inductive Course (step : σ → Bytes → Except Fault (Next σ α × Bytes)) :
    σ → Bytes → Except Fault (α × Bytes) → Prop
  | fail {state : σ} {s : Bytes} {fault : Fault} (stepped : step state s = .error fault) :
      Course step state s (.error fault)
  | done {state : σ} {s rest : Bytes} {value : α}
      (stepped : step state s = .ok (.done value, rest)) : Course step state s (.ok (value, rest))
  | again {state next : σ} {s rest : Bytes} {result : Except Fault (α × Bytes)}
      (stepped : step state s = .ok (.again next, rest)) (shorter : rest.length < s.length)
      (later : Course step next rest result) : Course step state s result

section Loops

variable {step : σ → Bytes → Except Fault (Next σ α × Bytes)} {state : σ} {s : Bytes}
  {result : Except Fault (α × Bytes)}

/-- A loop gives what its course leads to. -/
theorem Course.loop_eq (course : Course step state s result) : loop step state s = result := by
  have within : ∀ bound : Bytes, s.length ≤ bound.length →
      loopWithin step bound state s = result := by
    induction course with
    | fail stepped =>
      intro bound enough
      rw [loopWithin, stepped]
    | done stepped =>
      intro bound enough
      rw [loopWithin, stepped]
    | again stepped shorter later ih =>
      intro bound enough
      cases bound with
      | nil =>
        rw [List.length_nil] at enough
        omega
      | cons b bound =>
        rw [loopWithin, stepped]
        apply ih
        rw [List.length_cons] at enough
        omega
  exact within s (Nat.le_refl _)

/-- Two states that take the same step have the same course. -/
theorem Course.of_step_eq {other : σ} {t : Bytes} (course : Course step other t result)
    (same : step state s = step other t) (longer : t.length ≤ s.length) :
    Course step state s result := by
  cases course with
  | fail stepped => exact .fail (same.trans stepped)
  | done stepped => exact .done (same.trans stepped)
  | again stepped shorter later => exact .again (same.trans stepped) (by omega) later

end Loops

/-! ## Lists of items -/

/-- What stands before an item: nothing before the first one, a comma before the others. -/
inductive LeadIn : Bool → Bytes → Prop
  | first : LeadIn true []
  | later {space : Bytes} (blank : IsSpacing space) : LeadIn false (space ++ [byte ','])

/-- The items of a list that are still to come, and the text they are in. -/
inductive Remaining : Bool → List Bytes → Bytes → Prop
  | none {first : Bool} {space : Bytes} (blank : IsSpacing space) : Remaining first [] space
  | item {first : Bool} {lead space item tail : Bytes} {items : List Bytes}
      (before : LeadIn first lead) (blank : IsSpacing space) (others : Remaining false items tail) :
      Remaining first (item :: items) (lead ++ (space ++ (item ++ tail)))

/-- Behind a comma, what was a whole list is the rest of one. -/
theorem Remaining.behind {item content back : Bytes} {items : List Bytes}
    (remaining : Remaining true (item :: items) content) (after : IsSpacing back) :
    Remaining false (item :: items) (back ++ byte ',' :: content) := by
  cases remaining with
  | @item _ _ space _ tail _ before blank others =>
    cases before with
    | first =>
      have shape : back ++ byte ',' :: ([] ++ (space ++ (item ++ tail))) =
          back ++ [byte ','] ++ (space ++ (item ++ tail)) := by
        simp
      rw [shape]
      exact .item (.later after) blank others

/-- A list is its items, taken from the front. -/
theorem Listed.remaining {items : List Bytes} {content : Bytes} (listed : Listed items content) :
    Remaining true items content := by
  induction listed with
  | none blank => exact .none blank
  | one before after => exact .item .first before (.none after)
  | more before after _ ih => exact .item .first before (ih.behind after)

/-- What is left of a list after an item may follow a value. -/
theorem Remaining.follows {items : List Bytes} {tail rest : Bytes} {close : UInt8}
    (remaining : Remaining false items tail)
    (ends : close = byte ',' ∨ close = byte ']' ∨ close = byte '\x7d') :
    Follows (tail ++ close :: rest) := by
  cases remaining with
  | none blank => exact (follows_cons ends).spaced blank
  | item before blank others =>
    cases before with
    | later after =>
      simp only [List.append_assoc, List.cons_append]
      exact (follows_cons (.inl rfl)).spaced after

/-- A step that takes an item in: it does to what was gathered what the item says, or fails. -/
structure Takes (step : Bool × σ → Bytes → Except Fault (Next (Bool × σ) α × Bytes)) (item : Bytes)
    (effect : σ → Option σ) : Prop where
  nonempty : item ≠ []
  takes : ∀ {first : Bool} {lead : Bytes} (gathered : σ) (space rest : Bytes), LeadIn first lead →
    IsSpacing space → Follows rest →
    Yields (step (first, gathered) (lead ++ (space ++ (item ++ rest))))
      ((effect gathered).map fun next => .again (false, next)) rest

def runAll (effects : List (σ → Option σ)) (gathered : σ) : Option σ :=
  effects.foldlM (fun gathered effect => effect gathered) gathered

@[simp] theorem runAll_nil (gathered : σ) : runAll [] gathered = some gathered := rfl

@[simp] theorem runAll_cons (effect : σ → Option σ) (effects : List (σ → Option σ)) (gathered : σ) :
    runAll (effect :: effects) gathered = (effect gathered).bind (runAll effects) := rfl

/-- The order of items does not matter if it does not for any two of them. -/
theorem runAll_perm {ι : Type} {effect : ι → σ → Option σ}
    (comm : ∀ a b gathered,
      (effect a gathered).bind (effect b) = (effect b gathered).bind (effect a))
    {items others : List ι} (order : items.Perm others) (gathered : σ) :
    runAll (items.map effect) gathered = runAll (others.map effect) gathered := by
  induction order generalizing gathered with
  | nil => rfl
  | cons a _ ih => exact Option.bind_congr fun next _ => ih next
  | swap a b items =>
    have two (a b : ι) : runAll ((a :: b :: items).map effect) gathered =
        ((effect a gathered).bind (effect b)).bind (runAll (items.map effect)) :=
      (Option.bind_assoc ..).symm
    rw [two, two, comm]
  | trans _ _ first second => exact (first gathered).trans (second gathered)

section Lists

variable {step : Bool × σ → Bytes → Except Fault (Next (Bool × σ) α × Bytes)} {finish : σ → α}
  {close : UInt8}

/-- One item of a list: the course goes on behind it, or has ended in a fault. -/
theorem Takes.course {item : Bytes} {effect : σ → Option σ} (taken : Takes step item effect)
    {first : Bool} {lead space rest : Bytes} (before : LeadIn first lead) (blank : IsSpacing space)
    (follows : Follows rest) (gathered : σ) {more : σ → Option α} {behind : Bytes}
    (later : ∀ next, ∃ result, Course step (false, next) rest result ∧
      Yields result (more next) behind) :
    ∃ result, Course step (first, gathered) (lead ++ (space ++ (item ++ rest))) result ∧
      Yields result ((effect gathered).bind more) behind := by
  have stepped := taken.takes gathered space rest before blank follows
  cases outcome : effect gathered with
  | none =>
    rw [outcome] at stepped
    obtain ⟨fault, failed⟩ := stepped
    exact ⟨_, .fail failed, fault, rfl⟩
  | some next =>
    rw [outcome] at stepped
    obtain ⟨result, course, yields⟩ := later next
    refine ⟨result, .again stepped ?_ course, yields⟩
    have something := List.length_pos_iff.mpr taken.nonempty
    simp only [List.length_append]
    omega

/-- A loop over a list that was written with its closing byte does what its items say. -/
theorem loop_of_listed (ends : close = byte ',' ∨ close = byte ']' ∨ close = byte '\x7d')
    (closes : ∀ first gathered space rest, IsSpacing space →
      step (first, gathered) (space ++ close :: rest) = .ok (.done (finish gathered), rest))
    {items : List Bytes} {content : Bytes} (listed : Listed items content)
    {effects : List (σ → Option σ)} (taken : List.Forall₂ (Takes step) items effects)
    (gathered : σ) (rest : Bytes) :
    Yields (loop step (true, gathered) (content ++ close :: rest))
      ((runAll effects gathered).map finish) rest := by
  have course {first : Bool} {items : List Bytes} {content : Bytes}
      (remaining : Remaining first items content) {effects : List (σ → Option σ)}
      (taken : List.Forall₂ (Takes step) items effects) (gathered : σ) :
      ∃ result, Course step (first, gathered) (content ++ close :: rest) result ∧
        Yields result ((runAll effects gathered).map finish) rest := by
    induction remaining generalizing effects gathered with
    | none blank =>
      obtain rfl := List.forall₂_nil_left_iff.mp taken
      exact ⟨_, .done (closes _ gathered _ rest blank), rfl⟩
    | item before blank others ih =>
      obtain ⟨effect, effects, took, takes, rfl⟩ := List.forall₂_cons_left_iff.mp taken
      have item := took.course before blank (others.follows ends) gathered (ih takes)
      simpa only [runAll_cons, List.append_assoc, Option.map_bind, Function.comp_def] using item
  obtain ⟨result, course, yields⟩ := course listed.remaining taken gathered
  rw [course.loop_eq]
  exact yields

end Lists

end FormatHost.Json
