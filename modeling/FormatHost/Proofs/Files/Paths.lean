import FormatHost.Files.FileSystem
import FormatHost.Proofs.Text.Lines

/-! # Names in paths

A piece of a path that is not empty, is none of the two names with a meaning of their own and holds
no slash is the name of something in a directory. The path of a place is read back as the names of
the place.
-/

namespace FormatHost.Path

/-- Whether a text is the name of something in a directory. -/
def IsName (name : String) : Prop :=
  name ≠ "" ∧ name ≠ "." ∧ name ≠ ".." ∧ '/' ∉ name.toList

instance (name : String) : Decidable (IsName name) :=
  inferInstanceAs (Decidable (_ ∧ _))

/-- Whether texts can be the steps of a path. -/
def AreSteps (steps : List String) : Prop :=
  ∀ step ∈ steps, step ≠ "" ∧ '/' ∉ step.toList

private theorem IsName.isStep {name : String} (proper : IsName name) :
    name ≠ "" ∧ '/' ∉ name.toList :=
  ⟨proper.1, proper.2.2.2⟩

theorem AreSteps.head {step : String} {rest : List String} (valid : AreSteps (step :: rest)) :
    step ≠ "" ∧ '/' ∉ step.toList :=
  valid step (List.mem_cons_self ..)

theorem AreSteps.tail {step : String} {rest : List String} (valid : AreSteps (step :: rest)) :
    AreSteps rest := by
  intro other member
  exact valid other (List.mem_cons_of_mem _ member)

theorem AreSteps.append {front back : List String} (first : AreSteps front)
    (second : AreSteps back) : AreSteps (front ++ back) := by
  intro step member
  obtain member | member := List.mem_append.mp member
  · exact first step member
  · exact second step member

theorem areSteps_names (path : String) : AreSteps (names path) := by
  intro name member
  obtain ⟨piece, nonempty⟩ := List.mem_filter.mp member
  obtain ⟨text, split, rfl⟩ := List.mem_map.mp piece
  refine ⟨by simpa using nonempty, ?_⟩
  rw [String.toList_ofList]
  exact Text.not_mem_of_mem_splitOn split

theorem areSteps_steps (path : String) : AreSteps (steps path) := by
  unfold steps
  split
  · refine (areSteps_names path).append ?_
    intro step member
    obtain rfl := List.mem_singleton.mp member
    decide
  · exact areSteps_names path

theorem toList_path (place : Location) :
    place.path.toList = '/' :: List.intercalate ['/'] (place.map String.toList) := by
  rw [Location.path, String.toList_append, ofPieces, String.toList_intercalate]
  rfl

@[simp] theorem isAbsolute_path (place : Location) : isAbsolute place.path = true := by
  simp [isAbsolute, toList_path]

/-- The path of a place has the names of the place. -/
theorem names_path {place : Location} (proper : ∀ name ∈ place, IsName name) :
    names place.path = place := by
  have clear : ∀ text ∈ place.map String.toList, '/' ∉ text := by
    intro text member
    obtain ⟨name, inside, rfl⟩ := List.mem_map.mp member
    exact (proper name inside).isStep.2
  have nonempty : ∀ name ∈ place, (name != "") = true := by
    intro name member
    simpa using (proper name member).1
  rw [names, pieces, toList_path, Text.splitOn_eq_splitOn]
  cases place with
  | nil => decide
  | cons first rest =>
    have front : ∀ text : List Char, List.splitOn '/' ('/' :: text) = [] :: List.splitOn '/' text :=
      fun text => List.splitOn_append_cons_self_of_not_mem List.not_mem_nil text
    have back := List.splitOn_intercalate '/' clear (by simp)
    rw [front, back, List.map_cons, List.map_map]
    have readBack : (String.ofList ∘ String.toList) = id := by
      funext name
      exact String.ofList_toList
    rw [readBack, List.map_id, List.filter_cons_of_neg (by decide),
      List.filter_eq_self.mpr nonempty]

end FormatHost.Path
