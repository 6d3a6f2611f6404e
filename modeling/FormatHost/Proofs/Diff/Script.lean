import FormatHost.Diff.Unified
import Mathlib.Order.Basic

/-! # Scripts without changes

A script deletes and inserts nothing exactly if there is nothing to delete or insert: the lines of
its region are the same on both sides. What makes this hold is that the lines at both ends are kept
first, as far as they agree, so that what is divided has different lines at both ends. Where it is
divided does not matter.
-/

namespace FormatHost.Diff

namespace Change

variable {action : Action}

@[simp] theorem count_nil : count action [] = 0 := rfl

theorem count_cons (e : Edit) (rest : List Edit) :
    count action (e :: rest) = (if e.action = action then e.length else 0) + count action rest := by
  rw [count, List.foldr_cons]
  split
  · rfl
  · exact (Nat.zero_add _).symm

@[simp] theorem count_append (first second : List Edit) :
    count action (first ++ second) = count action first + count action second := by
  induction first with
  | nil => simp
  | cons e rest ih => rw [List.cons_append, count_cons, count_cons, ih, Nat.add_assoc]

@[simp] theorem count_reverse (edits : List Edit) :
    count action edits.reverse = count action edits := by
  induction edits with
  | nil => rfl
  | cons e rest ih =>
    rw [List.reverse_cons, count_append, ih, count_cons, count_cons, count_nil]
    omega

end Change

/-- The number of lines that are deleted or inserted. -/
def changed (edits : List Edit) : Nat :=
  Change.count .delete edits + Change.count .insert edits

@[simp] theorem changed_append (first second : List Edit) :
    changed (first ++ second) = changed first + changed second := by
  simp only [changed, Change.count_append]
  omega

@[simp] theorem changed_keepLines (old new count : Nat) :
    changed (keepLines old new count) = 0 := by
  rw [keepLines]
  split
  · rfl
  · rfl

@[simp] theorem changed_replaceAll (r : Region) : changed (replaceAll r) = r.size := by
  rw [replaceAll, Region.size, changed_append]
  congr 1
  · split
    · next none => exact none.symm
    · rfl
  · split
    · next none => exact none.symm
    · exact Nat.zero_add _

/-! ## Lines that are the same -/

namespace Sides

variable (s : Sides)

private theorem sameFrom_le (limit i j : Nat) : s.sameFrom limit i j ≤ limit := by
  induction limit generalizing i j with
  | zero => exact Nat.le_refl _
  | succ limit ih =>
    rw [sameFrom]
    split
    · have := ih (i + 1) (j + 1)
      omega
    · exact Nat.zero_le _

private theorem agree_of_lt_sameFrom {limit i j k : Nat} (lt : k < s.sameFrom limit i j) :
    s.agree (i + k) (j + k) = true := by
  induction limit generalizing i j k with
  | zero => exact absurd lt (Nat.not_lt_zero _)
  | succ limit ih =>
    rw [sameFrom] at lt
    split at lt
    · next first =>
      cases k with
      | zero => exact first
      | succ k =>
        have next : s.agree (i + 1 + k) (j + 1 + k) = true := ih (by omega)
        rwa [Nat.add_right_comm, Nat.add_right_comm j] at next
    · exact absurd lt (Nat.not_lt_zero _)

/-- The lines that are the same end at the limit or in front of lines that differ. -/
theorem sameFrom_eq_or_differ (limit i j : Nat) :
    s.sameFrom limit i j = limit ∨
      s.agree (i + s.sameFrom limit i j) (j + s.sameFrom limit i j) = false := by
  induction limit generalizing i j with
  | zero => exact .inl rfl
  | succ limit ih =>
    rw [sameFrom]
    split
    · rcases ih (i + 1) (j + 1) with all | differ
      · exact .inl (by omega)
      · right
        rwa [← Nat.add_assoc, ← Nat.add_assoc]
    · next differ => exact .inr (Bool.eq_false_iff.mpr differ)

private theorem sameBefore_le (limit i j : Nat) : s.sameBefore limit i j ≤ limit := by
  induction limit generalizing i j with
  | zero => exact Nat.le_refl _
  | succ limit ih =>
    rw [sameBefore]
    split
    · have := ih (i - 1) (j - 1)
      omega
    · exact Nat.zero_le _

private theorem agree_of_lt_sameBefore {limit i j k : Nat} (lt : k < s.sameBefore limit i j) :
    s.agree (i - (k + 1)) (j - (k + 1)) = true := by
  induction limit generalizing i j k with
  | zero => exact absurd lt (Nat.not_lt_zero _)
  | succ limit ih =>
    rw [sameBefore] at lt
    split at lt
    · next last =>
      cases k with
      | zero => exact last
      | succ k =>
        have next : s.agree (i - 1 - (k + 1)) (j - 1 - (k + 1)) = true := ih (by omega)
        rwa [Nat.sub_sub, Nat.sub_sub, Nat.add_comm 1] at next
    · exact absurd lt (Nat.not_lt_zero _)

/-- The lines that are the same begin at the limit or behind lines that differ. -/
theorem sameBefore_eq_or_differ (limit i j : Nat) :
    s.sameBefore limit i j = limit ∨
      s.agree (i - s.sameBefore limit i j - 1) (j - s.sameBefore limit i j - 1) = false := by
  induction limit generalizing i j with
  | zero => exact .inl rfl
  | succ limit ih =>
    rw [sameBefore]
    split
    · rcases ih (i - 1) (j - 1) with all | differ
      · exact .inl (by omega)
      · right
        rwa [← Nat.sub_sub, ← Nat.sub_sub]
    · next differ => exact .inr (Bool.eq_false_iff.mpr differ)

theorem commonFront_le (r : Region) :
    s.commonFront r ≤ r.oldLength ∧ s.commonFront r ≤ r.newLength := by
  have le := s.sameFrom_le (min r.oldLength r.newLength) r.oldStart r.newStart
  exact Nat.le_min.mp le

theorem commonBack_le (r : Region) :
    s.commonBack r ≤ r.oldLength ∧ s.commonBack r ≤ r.newLength := by
  have le := s.sameBefore_le (min r.oldLength r.newLength) r.oldStop r.newStop
  exact Nat.le_min.mp le

/-- The common lines at the front end where one side does or in front of lines that differ. -/
theorem commonFront_ends (r : Region) :
    s.commonFront r = min r.oldLength r.newLength ∨
      s.agree (r.oldStart + s.commonFront r) (r.newStart + s.commonFront r) = false :=
  s.sameFrom_eq_or_differ _ _ _

/-- The common lines at the end begin where one side does or behind lines that differ. -/
theorem commonBack_begins (r : Region) :
    s.commonBack r = min r.oldLength r.newLength ∨
      s.agree (r.oldStop - s.commonBack r - 1) (r.newStop - s.commonBack r - 1) = false :=
  s.sameBefore_eq_or_differ _ _ _

/-- Whether the lines of a region are the same on both sides. -/
def Same (r : Region) : Prop :=
  r.oldLength = r.newLength ∧
    ∀ i < r.oldLength, s.agree (r.oldStart + i) (r.newStart + i) = true

/-- What is left of a region between the lines that are common to both ends. -/
def remainder (r : Region) : Region :=
  let rest := r.dropFront (s.commonFront r)
  rest.dropBack (s.commonBack rest)

/-- If nothing is left, all lines are common to the ends. -/
theorem same_of_remainder {r : Region} (old : (s.remainder r).oldLength = 0)
    (new : (s.remainder r).newLength = 0) : s.Same r := by
  have front := s.commonFront_le r
  have back := s.commonBack_le (r.dropFront (s.commonFront r))
  simp only [remainder, Region.dropFront, Region.dropBack, Region.oldLength, Region.newLength]
    at old new front back
  refine ⟨by simp only [Region.oldLength, Region.newLength]; omega, ?_⟩
  intro i inside
  simp only [Region.oldLength] at inside
  by_cases early : i < s.commonFront r
  · exact s.agree_of_lt_sameFrom early
  · have late : r.oldStop - (r.oldStart + i) - 1 <
        s.commonBack (r.dropFront (s.commonFront r)) := by
      simp only [Region.dropFront]
      omega
    have agree := s.agree_of_lt_sameBefore late
    simp only [Region.dropFront] at agree
    have oldPlace : r.oldStop - (r.oldStop - (r.oldStart + i) - 1 + 1) = r.oldStart + i := by omega
    have newPlace : r.newStop - (r.oldStop - (r.oldStart + i) - 1 + 1) = r.newStart + i := by omega
    rwa [oldPlace, newPlace] at agree

/-- What is left with lines on both sides has different lines at the front and at the end. -/
theorem differ_of_remainder {r : Region} (old : 0 < (s.remainder r).oldLength)
    (new : 0 < (s.remainder r).newLength) :
    s.agree (s.remainder r).oldStart (s.remainder r).newStart = false ∧
      s.agree ((s.remainder r).oldStop - 1) ((s.remainder r).newStop - 1) = false := by
  have front := s.commonFront_ends r
  have back := s.commonBack_begins (r.dropFront (s.commonFront r))
  simp only [remainder, Region.dropFront, Region.dropBack, Region.oldLength, Region.newLength]
    at old new front back ⊢
  constructor
  · rcases front with all | differ
    · omega
    · exact differ
  · rcases back with all | differ
    · omega
    · exact differ

/-- Wherever a region with different lines at both ends is divided, one of its parts is not the same
on both sides. -/
theorem not_same_of_divided {m : Region} {old new : Nat} (oldLines : 0 < m.oldLength)
    (first : s.agree m.oldStart m.newStart = false)
    (last : s.agree (m.oldStop - 1) (m.newStop - 1) = false) (before : s.Same (m.before old new))
    (after : s.Same (m.fromPoint old new)) : False := by
  obtain ⟨lengths, same⟩ := before
  obtain ⟨lengths', same'⟩ := after
  simp only [Region.before, Region.fromPoint, Region.oldLength, Region.newLength]
    at oldLines lengths lengths' same same'
  by_cases empty : old ≤ m.oldStart
  · -- nothing lies before the point, so the last lines are behind it
    have agree := same' (m.oldStop - old - 1) (by omega)
    have oldPlace : old + (m.oldStop - old - 1) = m.oldStop - 1 := by omega
    have newPlace : new + (m.oldStop - old - 1) = m.newStop - 1 := by omega
    rw [oldPlace, newPlace, last] at agree
    cases agree
  · have agree := same 0 (by omega)
    rw [Nat.add_zero, Nat.add_zero, first] at agree
    cases agree

end Sides

/-! ## Regions -/

/-- The lines at both ends are kept. What is left between them is replaced as a whole, or it has
lines on both sides and is divided into regions that are smaller than the one it is left of. -/
theorem script_cases (s : Sides) (r : Region) :
    ∃ inner, script s r =
        keepLines r.oldStart r.newStart (s.commonFront r) ++ inner ++
          keepLines (s.remainder r).oldStop (s.remainder r).newStop
            (s.commonBack (r.dropFront (s.commonFront r))) ∧
      (inner = replaceAll (s.remainder r) ∨
        0 < (s.remainder r).oldLength ∧ 0 < (s.remainder r).newLength ∧
        ∃ old new, ((s.remainder r).before old new).size < r.size ∧
          ((s.remainder r).fromPoint old new).size < r.size ∧
          inner = script s ((s.remainder r).before old new) ++
            script s ((s.remainder r).fromPoint old new)) := by
  rw [script]
  split
  · exact ⟨_, rfl, .inl rfl⟩
  · next lines =>
    simp only [Bool.or_eq_true, decide_eq_true_eq, not_or, ← Nat.pos_iff_ne_zero] at lines
    split
    · exact ⟨_, rfl, .inl rfl⟩
    · next old new _ =>
      split
      · next smaller =>
        exact ⟨_, rfl, .inr ⟨lines.1, lines.2, old, new, smaller.1, smaller.2, rfl⟩⟩
      · exact ⟨_, rfl, .inl rfl⟩

/-- A script that changes nothing is one for lines that are the same on both sides. -/
theorem same_of_changed_script {s : Sides} {r : Region} (unchanged : changed (script s r) = 0) :
    s.Same r := by
  generalize bound : r.size = size
  induction size using Nat.strongRecOn generalizing r with
  | ind size ih =>
    obtain ⟨inner, split, cases⟩ := script_cases s r
    rw [split, changed_append, changed_append, changed_keepLines, changed_keepLines] at unchanged
    obtain rfl | ⟨oldLines, newLines, old, new, before, after, rfl⟩ := cases
    · rw [changed_replaceAll, Region.size] at unchanged
      exact s.same_of_remainder (by omega) (by omega)
    · rw [changed_append] at unchanged
      obtain ⟨first, last⟩ := s.differ_of_remainder oldLines newLines
      have sameBefore := ih _ (bound ▸ before) (by omega) rfl
      have sameAfter := ih _ (bound ▸ after) (by omega) rfl
      exact (s.not_same_of_divided oldLines first last sameBefore sameAfter).elim

/-- The script for lines that are the same on both sides keeps them all at once. -/
theorem script_of_same {s : Sides} {r : Region} (same : s.Same r) :
    script s r = keepLines r.oldStart r.newStart r.oldLength := by
  obtain ⟨lengths, agree⟩ := same
  have front : s.commonFront r = r.oldLength := by
    have le := s.commonFront_le r
    rcases s.commonFront_ends r with all | differ
    · rw [all, ← lengths, Nat.min_self]
    · by_contra short
      rw [agree _ (by omega)] at differ
      cases differ
  have back : s.commonBack (r.dropFront (s.commonFront r)) = 0 := by
    have le := s.commonBack_le (r.dropFront (s.commonFront r))
    simp only [Region.dropFront, Region.oldLength, Region.newLength] at le front lengths ⊢
    omega
  have nothing : (s.remainder r).oldLength = 0 ∧ (s.remainder r).newLength = 0 := by
    simp only [Sides.remainder, front, Region.dropFront, Region.dropBack, Region.oldLength,
      Region.newLength] at lengths ⊢
    omega
  obtain ⟨inner, split, cases⟩ := script_cases s r
  obtain rfl | ⟨oldLines, -⟩ := cases
  · rw [split, back, front, replaceAll, if_pos nothing.1, if_pos nothing.2]
    simp [keepLines]
  · omega

end FormatHost.Diff
