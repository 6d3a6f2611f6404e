import FormatHost.Proofs.Diff.Hunks
import Mathlib.Data.List.Forall2

/-! # A diff is empty exactly for equal texts

Lines get the same number exactly if they are the same, and the lines of a text are the whole text.
So texts that differ have different numbers somewhere, which the script has to delete or insert.
-/

namespace FormatHost.Diff

/-! ## Numbers of lines -/

/-- Whether every line that has a number has one of its own, less than the next one to be given. -/
structure Distinct (known : Std.HashMap String Nat) : Prop where
  injective : ∀ {line other : String} {n : Nat}, known[line]? = some n → known[other]? = some n →
    line = other
  lt_size : ∀ {line : String} {n : Nat}, known[line]? = some n → n < known.size

/-- Whether lines that have a number keep it. -/
def Extends (later known : Std.HashMap String Nat) : Prop :=
  ∀ (line : String) (n : Nat), known[line]? = some n → later[line]? = some n

/-- Whether some numbers are those of some lines. -/
def Numbers (known : Std.HashMap String Nat) (lines : List String) (numbers : List Nat) : Prop :=
  List.Forall₂ (fun line n => known[line]? = some n) lines numbers

theorem Numbers.extend {known later : Std.HashMap String Nat} {lines : List String}
    {numbers : List Nat} (numbered : Numbers known lines numbers) (extend : Extends later known) :
    Numbers later lines numbers :=
  numbered.imp extend

/-- Lines have the same numbers exactly if they are the same. -/
theorem Numbers.inj {known : Std.HashMap String Nat} (distinct : Distinct known)
    {lines others : List String} {numbers numbers' : List Nat} (first : Numbers known lines numbers)
    (second : Numbers known others numbers') : numbers = numbers' ↔ lines = others := by
  constructor
  · rintro rfl
    have unique : Relator.LeftUnique fun (line : String) n => known[line]? = some n :=
      fun _ _ _ => distinct.injective
    exact List.left_unique_forall₂' unique first second
  · rintro rfl
    have unique : Relator.RightUnique fun (line : String) n => known[line]? = some n :=
      fun _ _ _ one other => Option.some.inj (one.symm.trans other)
    exact List.right_unique_forall₂' unique first second

private theorem distinct_empty : Distinct ∅ := by
  constructor
  · simp
  · simp

variable {known : Std.HashMap String Nat} {line : String}

theorem getElem?_insert_eq_some {other : String} {n m : Nat}
    (found : (known.insert line n)[other]? = some m) :
    line = other ∧ n = m ∨ known[other]? = some m := by
  rw [Std.HashMap.getElem?_insert] at found
  split at found
  · next same => exact .inl ⟨LawfulBEq.eq_of_beq same, Option.some.inj found⟩
  · exact .inr found

/-- A new line gets a number that no other line has. -/
theorem Distinct.insert (distinct : Distinct known) (new : known[line]? = none) :
    Distinct (known.insert line known.size) := by
  have absent : line ∉ known := by simp [Std.HashMap.mem_iff_isSome_getElem?, new]
  have size : (known.insert line known.size).size = known.size + 1 := by
    rw [Std.HashMap.size_insert, if_neg absent]
  constructor
  · intro one other n first second
    obtain ⟨rfl, rfl⟩ | first := getElem?_insert_eq_some first
    · obtain ⟨rfl, -⟩ | second := getElem?_insert_eq_some second
      · rfl
      · exact absurd (distinct.lt_size second) (Nat.lt_irrefl _)
    · obtain ⟨rfl, rfl⟩ | second := getElem?_insert_eq_some second
      · exact absurd (distinct.lt_size first) (Nat.lt_irrefl _)
      · exact distinct.injective first second
  · intro other n found
    rw [size]
    obtain ⟨-, rfl⟩ | found := getElem?_insert_eq_some found
    · exact Nat.lt_succ_self _
    · exact Nat.lt_succ_of_lt (distinct.lt_size found)

private theorem extends_insert (new : known[line]? = none) (n : Nat) :
    Extends (known.insert line n) known := by
  intro other m found
  rw [Std.HashMap.getElem?_insert, if_neg]
  · exact found
  · intro same
    rw [← LawfulBEq.eq_of_beq same, new] at found
    cases found

/-- The numbers of some lines with that of one more, and the lines that have a number then. -/
def numberNext (state : Array Nat × Std.HashMap String Nat) (line : String) :
    Array Nat × Std.HashMap String Nat :=
  match state.2[line]? with
  | some n => (state.1.push n, state.2)
  | none => (state.1.push state.2.size, state.2.insert line state.2.size)

private theorem number_eq (known : Std.HashMap String Nat) (lines : Array String) :
    Sides.number known lines = lines.toList.foldl numberNext (#[], known) := by
  rw [Sides.number, ← Array.foldl_toList]
  rfl

private theorem numberNext_spec (distinct : Distinct known) (numbers : Array Nat) (line : String) :
    ∃ n later, numberNext (numbers, known) line = (numbers.push n, later) ∧ Distinct later ∧
      Extends later known ∧ later[line]? = some n := by
  cases found : known[line]? with
  | some n =>
    refine ⟨n, known, ?_, distinct, fun _ _ => id, found⟩
    simp only [numberNext, found]
  | none =>
    refine ⟨known.size, known.insert line known.size, ?_, distinct.insert found,
      extends_insert found _, Std.HashMap.getElem?_insert_self⟩
    simp only [numberNext, found]

theorem foldl_numberNext (distinct : Distinct known) (numbers : Array Nat) (lines : List String) :
    ∃ more later, lines.foldl numberNext (numbers, known) = (numbers ++ List.toArray more, later) ∧
      Distinct later ∧ Extends later known ∧ Numbers later lines more := by
  induction lines generalizing known numbers with
  | nil => exact ⟨[], known, by simp, distinct, fun _ _ => id, .nil⟩
  | cons line rest ih =>
    obtain ⟨n, next, stepped, distinct, extend, found⟩ := numberNext_spec distinct numbers line
    obtain ⟨more, later, folded, distinct, extend', numbered⟩ := ih distinct (numbers.push n)
    refine ⟨n :: more, later, ?_, distinct,
      fun line n known => extend' line n (extend line n known),
      .cons (extend' line n found) numbered⟩
    rw [List.foldl_cons, stepped, folded]
    simp

/-- Both sides have the same numbers exactly if they have the same lines. -/
theorem ofLines_same_iff (old new : Array String) :
    (Sides.ofLines old new).old = (Sides.ofLines old new).new ↔ old = new := by
  obtain ⟨oldNumbers, known, oldNumbered, distinct, -, first⟩ :=
    foldl_numberNext distinct_empty #[] old.toList
  obtain ⟨newNumbers, later, newNumbered, distinct, extend, second⟩ :=
    foldl_numberNext distinct #[] new.toList
  rw [Sides.ofLines]
  simp only [number_eq, oldNumbered, newNumbered]
  rw [← Array.toList_inj, ← Array.toList_inj]
  simpa using Numbers.inj distinct (first.extend extend) second

/-- A region of all lines is the same on both sides exactly if the sides are. -/
theorem same_all_iff (s : Sides) : s.Same ⟨0, s.old.size, 0, s.new.size⟩ ↔ s.old = s.new := by
  constructor
  · rintro ⟨lengths, agree⟩
    simp only [Region.oldLength, Region.newLength, Nat.sub_zero, Nat.zero_add] at lengths agree
    refine Array.ext lengths fun i old new => ?_
    have same := agree i old
    rw [Sides.agree, beq_iff_eq] at same
    simpa [old, new] using same
  · intro same
    refine ⟨by rw [Region.oldLength, Region.newLength, same], fun i _ => ?_⟩
    simp [Sides.agree, same]

/-! ## Lines of a text -/

/-- The lines of a text are the whole text. -/
theorem flatten_splitLines (line text : Text) :
    (splitLines line text).flatten = line.reverse ++ text := by
  fun_induction splitLines line text with
  | case1 line empty => simp [List.isEmpty_iff.mp empty]
  | case2 line nonempty => simp
  | case3 line rest ih =>
    rw [List.flatten_cons, ih]
    simp
  | case4 line c rest other ends ih =>
    rw [List.flatten_cons, ih]
    simp
  | case5 line c rest other goesOn ih =>
    rw [ih]
    simp

/-- The lines of a text as they are compared. -/
def linesOf (text : Text) : Array String :=
  ((splitLines [] text).map String.ofList).toArray

private theorem linesOf_injective : Function.Injective linesOf := by
  intro text other same
  have lists :
      (splitLines [] text).map String.ofList = (splitLines [] other).map String.ofList := by
    simpa [linesOf] using same
  have injective : Function.Injective String.ofList := fun _ _ => String.ofList_injective
  have lines := List.map_injective_iff.mpr injective lists
  calc
    text = (splitLines [] text).flatten := (flatten_splitLines [] text).symm
    _ = (splitLines [] other).flatten := by rw [lines]
    _ = other := flatten_splitLines [] other

/-! ## Diffs -/

def hunksOf (before after : Text) : List (List Change) :=
  let sides := Sides.ofLines (linesOf before) (linesOf after)
  hunks (changes (compact sides sides.edits))

private theorem hunksOf_eq_nil_iff (before after : Text) :
    hunksOf before after = [] ↔ before = after := by
  have same : (Sides.ofLines (linesOf before) (linesOf after)).Same _ ↔ before = after :=
    (same_all_iff _).trans ((ofLines_same_iff _ _).trans linesOf_injective.eq_iff)
  rw [hunksOf]
  generalize Sides.ofLines (linesOf before) (linesOf after) = sides at same ⊢
  rw [← same]
  constructor
  · intro none
    refine same_of_changed_script ?_
    by_contra different
    refine hunks_ne_nil ?_ none
    rwa [changed_compact]
  · intro same
    rw [Sides.edits, script_of_same same, compact_of_keeps _ (keeps_keepLines _ _ _),
      hunks_keepLines]

/-- A diff is empty exactly if there is no difference. -/
theorem unifiedText_eq_nil_iff (name : String) (before after : Text) :
    unifiedText name before after = [] ↔ before = after := by
  rw [← hunksOf_eq_nil_iff before after, unifiedText, hunksOf]
  dsimp only [linesOf]
  generalize hunks _ = list
  cases list with
  | nil => exact ⟨fun _ => rfl, fun _ => rfl⟩
  | cons hunk rest => simp

/-- A diff that is not empty has lines. -/
theorem newline_mem_unifiedText {name : String} {before after : Text}
    (different : before ≠ after) : '\n' ∈ unifiedText name before after := by
  have hunks := (unifiedText_eq_nil_iff name before after).not.mpr different
  rw [unifiedText] at hunks ⊢
  dsimp only at hunks ⊢
  split
  · next none =>
    rw [none] at hunks
    contradiction
  · simp [String.toList_append]

end FormatHost.Diff
