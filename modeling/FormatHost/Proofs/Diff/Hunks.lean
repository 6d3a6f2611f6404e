import FormatHost.Proofs.Diff.Compact
import Mathlib.Data.List.SplitBy
import Mathlib.Data.List.Chain

/-! # Every change is shown

A run of edits that are not all kept lines becomes a change that is not kept either, and wherever
kept lines are cut and hunks divided, such a change is in one of the hunks.
-/

namespace FormatHost.Diff

private theorem changed_eq_zero_of_keeps {edits : List Edit}
    (keeps : ∀ e ∈ edits, e.action = .keep) :
    changed edits = 0 := by
  induction edits with
  | nil => rfl
  | cons e rest ih =>
    obtain ⟨keep, others⟩ := List.forall_mem_cons.mp keeps
    have none := ih others
    have deleted : (Action.delete : Action) ≠ .keep := by decide
    have inserted : (Action.insert : Action) ≠ .keep := by decide
    rwa [changed, count_cons_keep deleted keep, count_cons_keep inserted keep]

/-- Whether some change is not kept. -/
def Shows (list : List Change) : Prop :=
  ∃ c ∈ list, c.kept = false

/-! ## Changes -/

private theorem kept_ofEdits {edits : List Edit} (unkept : ∀ e ∈ edits, e.action ≠ .keep)
    (nonempty : edits ≠ []) : (Change.ofEdits edits).kept = false := by
  have noKeep : edits.find? (fun e => e.action = .keep) = none := by
    rw [List.find?_eq_none]
    intro e member
    simpa using unkept e member
  simp only [Change.ofEdits, noKeep]
  cases deleted : edits.find? (fun e => e.action = .delete) with
  | some d =>
    cases edits.find? (fun e => e.action = .insert) with
    | some i => rfl
    | none => rfl
  | none =>
    cases inserted : edits.find? (fun e => e.action = .insert) with
    | some i => rfl
    | none =>
      obtain ⟨e, member⟩ := List.exists_mem_of_ne_nil edits nonempty
      have noDelete := List.find?_eq_none.mp deleted e member
      have noInsert := List.find?_eq_none.mp inserted e member
      have unkept := unkept e member
      cases action : e.action <;> simp_all

/-- The edits of a group are all kept lines, or none of them is. -/
theorem group_alike {edits group : List Edit} {a b : Edit}
    (among : group ∈ edits.splitBy fun a b => (a.action == .keep) == (b.action == .keep))
    (first : a ∈ group) (second : b ∈ group) : (a.action == .keep) = (b.action == .keep) := by
  have chain : (group.map fun e => e.action == .keep).IsChain (· = ·) := by
    rw [List.isChain_map]
    simpa only [beq_iff_eq] using List.isChain_of_mem_splitBy among
  cases group with
  | nil => cases first
  | cons head rest =>
    have same := List.isChain_eq_iff_eq_replicate.mp chain _ rfl
    have alike (e : Edit) (member : e ∈ head :: rest) :
        (e.action == .keep) = (head.action == .keep) := by
      have mapped := List.mem_map_of_mem (f := fun e : Edit => e.action == .keep) member
      rw [same] at mapped
      exact List.eq_of_mem_replicate mapped
    rw [alike a first, alike b second]

private theorem shows_changes {edits : List Edit} (different : changed edits ≠ 0) :
    Shows (changes edits) := by
  have unkept : ∃ e ∈ edits, e.action ≠ .keep := by
    by_contra keeps
    push Not at keeps
    exact different (changed_eq_zero_of_keeps keeps)
  obtain ⟨e, member, unkept⟩ := unkept
  rw [← List.flatten_splitBy (fun a b => (a.action == .keep) == (b.action == .keep)) edits,
    List.mem_flatten] at member
  obtain ⟨group, among, member⟩ := member
  refine ⟨_, List.mem_map_of_mem among, kept_ofEdits ?_ (List.ne_nil_of_mem member)⟩
  intro other also same
  have alike := group_alike among member also
  rw [same] at alike
  exact unkept (by simpa using alike)

/-! ## Hunks -/

/-- The changes with the kept lines at the front cut to the context. -/
def trimFront : List Change → List Change
  | first :: rest => if first.kept then first.takeLast contextLines :: rest else first :: rest
  | [] => []

/-- The changes with the kept lines at the end cut to the context. -/
def trimBack (list : List Change) : List Change :=
  match list.getLast? with
  | some last => if last.kept then list.dropLast ++ [last.take contextLines] else list
  | none => []

private theorem trimEnds_eq (list : List Change) : trimEnds list = trimBack (trimFront list) := by
  cases list with
  | nil => rfl
  | cons first rest => rfl

private theorem shows_trimFront {list : List Change} (shows : Shows list) :
    Shows (trimFront list) := by
  obtain ⟨c, member, unkept⟩ := shows
  cases list with
  | nil => cases member
  | cons first rest =>
    rw [trimFront]
    split
    · next kept =>
      obtain rfl | later := List.mem_cons.mp member
      · rw [unkept] at kept
        cases kept
      · exact ⟨c, List.mem_cons_of_mem _ later, unkept⟩
    · exact ⟨c, member, unkept⟩

private theorem shows_trimBack {list : List Change} (shows : Shows list) :
    Shows (trimBack list) := by
  obtain ⟨c, member, unkept⟩ := shows
  obtain rfl | ⟨front, last, rfl⟩ := List.eq_nil_or_concat' list
  · cases member
  · rw [trimBack, List.getLast?_concat]
    dsimp only
    split
    · next kept =>
      rw [List.dropLast_concat]
      obtain earlier | final := List.mem_append.mp member
      · exact ⟨c, List.mem_append_left _ earlier, unkept⟩
      · rw [← List.mem_singleton.mp final, unkept] at kept
        cases kept
    · exact ⟨c, member, unkept⟩

/-- Dividing loses no hunk with a change that is not kept. -/
theorem divide_ne_nil {hunk list : List Change} (shows : Shows (hunk ++ list)) :
    divide hunk list ≠ [] := by
  induction list generalizing hunk with
  | nil =>
    obtain ⟨c, member, unkept⟩ := shows
    rw [List.append_nil] at member
    match hunk, member with
    | [only], member =>
      obtain rfl := List.mem_singleton.mp member
      simp [divide, unkept]
    | _ :: _ :: _, _ => simp [divide]
  | cons c rest ih =>
    rw [divide]
    split
    · exact List.cons_ne_nil _ _
    · obtain ⟨other, member, unkept⟩ := shows
      exact ih ⟨other, by simpa [or_left_comm] using member, unkept⟩

/-- What is deleted or inserted is in a hunk. -/
theorem hunks_ne_nil {edits : List Edit} (different : changed edits ≠ 0) :
    hunks (changes edits) ≠ [] := by
  rw [hunks, trimEnds_eq]
  exact divide_ne_nil (shows_trimBack (shows_trimFront (shows_changes different)))

theorem keeps_keepLines (old new count : Nat) :
    ∀ e ∈ keepLines old new count, e.action = .keep := by
  intro e member
  rw [keepLines] at member
  split at member
  · cases member
  · rw [List.mem_singleton.mp member]

/-- Lines that are kept at once make no hunk. -/
theorem hunks_keepLines (old new count : Nat) : hunks (changes (keepLines old new count)) = [] := by
  rw [keepLines]
  split
  · rfl
  · let all : Change := ⟨true, old, count, new, count⟩
    let cut := (all.takeLast contextLines).take contextLines
    have trimmed : trimEnds (changes [⟨.keep, old, new, count⟩]) = [cut] := rfl
    have short : ¬(cut.kept && 2 * contextLines < cut.oldLength) = true := by
      rw [Bool.and_eq_true, decide_eq_true_eq]
      rintro ⟨-, long⟩
      change 2 * 3 < min (min count 3) 3 at long
      omega
    rw [hunks, trimmed, divide, if_neg short]
    rfl

end FormatHost.Diff
