import FormatHost.Proofs.Diff.Script

/-! # Compacting keeps every change

However edits are moved, joined and slid over kept lines: as many lines are deleted and inserted
afterwards as before. So what is compacted shows a change exactly if the script did.
-/

namespace FormatHost.Diff

variable {action : Action}

/-- How many lines of one kind a script has that one edit is singled out of. -/
def Focus.count (action : Action) (focus : Focus) : Nat :=
  Change.count action focus.before + Change.count action (focus.edit :: focus.after)

theorem count_cons_keep (changes : action ≠ .keep) {kept : Edit} (keeps : kept.action = .keep)
    (edits : List Edit) : Change.count action (kept :: edits) = Change.count action edits := by
  rw [Change.count_cons, keeps, if_neg changes.symm, Nat.zero_add]

private theorem count_keepBefore (changes : action ≠ .keep) {kept : Edit}
    (keeps : kept.action = .keep) (edits : List Edit) :
    Change.count action (keepBefore kept edits) = Change.count action edits := by
  cases edits with
  | nil => exact count_cons_keep changes keeps []
  | cons next rest =>
    rw [keepBefore]
    split
    · next same =>
      have grown : (next.growFront kept.length).action = .keep := same
      rw [count_cons_keep changes grown, count_cons_keep changes same]
    · exact count_cons_keep changes keeps _

private theorem count_keepAfter (changes : action ≠ .keep) {kept : Edit}
    (keeps : kept.action = .keep) (edits : List Edit) :
    Change.count action (keepAfter kept edits) = Change.count action edits := by
  cases edits with
  | nil => exact count_cons_keep changes keeps []
  | cons previous rest =>
    rw [keepAfter]
    split
    · next same =>
      have grown : (previous.growBack kept.length).action = .keep := same
      rw [count_cons_keep changes grown, count_cons_keep changes same]
    · exact count_cons_keep changes keeps _

/-- Moving an edit up deletes and inserts as many lines as before. -/
theorem count_moveUp (changes : action ≠ .keep) (sides : Sides) (before : List Edit) (e : Edit)
    (after : List Edit) :
    (moveUp sides before e after).count action =
      Change.count action before + Change.count action (e :: after) := by
  fun_induction moveUp sides before e after with
  | case1 => rfl
  | case2 e after previous rest same ih =>
    rw [ih]
    simp only [Change.count_cons, Edit.growBack, same]
    split <;> omega
  | case3 e after previous rest other keeps count moves kept above ih =>
    have left : Change.count action above = Change.count action (previous :: rest) := by
      have shrunk : (previous.shrinkBack count).action = .keep := keeps
      simp only [above]
      split
      · exact (count_cons_keep changes keeps rest).symm
      · rw [count_cons_keep changes shrunk, count_cons_keep changes keeps]
    have same : Change.count action (keepBefore kept after) = Change.count action after :=
      count_keepBefore changes rfl after
    rw [ih, left, Change.count_cons (e.moveUp count), same, Change.count_cons e]
    rfl
  | case4 => rfl
  | case5 e after previous rest other changes ih =>
    rw [ih]
    simp only [Change.count_cons]
    omega

/-- Moving an edit down deletes and inserts as many lines as before. -/
theorem count_moveDown (changes : action ≠ .keep) (sides : Sides) (before : List Edit) (e : Edit)
    (after : List Edit) :
    (moveDown sides before e after).count action =
      Change.count action before + Change.count action (e :: after) := by
  fun_induction moveDown sides before e after with
  | case1 => rfl
  | case2 before e next rest same ih =>
    rw [ih]
    simp only [Change.count_cons, Edit.growBack, same]
    split <;> omega
  | case3 before e next rest other keeps count moves kept below ih =>
    have left : Change.count action below = Change.count action (next :: rest) := by
      have shrunk : (next.shrinkFront count).action = .keep := keeps
      simp only [below]
      split
      · exact (count_cons_keep changes keeps rest).symm
      · rw [count_cons_keep changes shrunk, count_cons_keep changes keeps]
    have same : Change.count action (keepAfter kept before) = Change.count action before :=
      count_keepAfter changes rfl before
    rw [ih, same, Change.count_cons (e.moveDown count), left, Change.count_cons e]
    rfl
  | case4 => rfl
  | case5 before e next rest other changes ih =>
    rw [ih]
    simp only [Change.count_cons]
    omega

theorem count_settle (changes : action ≠ .keep) (sides : Sides) (moved : Action) (turns : Nat)
    (before after : List Edit) :
    Change.count action (settle sides moved turns before after) =
      Change.count action before + Change.count action after := by
  fun_induction settle sides moved turns before after with
  | case1 before after => rw [Change.count_append, Change.count_reverse]
  | case2 turns before =>
    rw [Change.count_reverse]
    rfl
  | case3 turns before e rest same up down ih =>
    have movedUp : up.count action = _ := count_moveUp changes sides before e rest
    have movedDown : down.count action = _ :=
      count_moveDown changes sides up.before up.edit up.after
    rw [Focus.count, Change.count_cons] at movedDown
    rw [Focus.count] at movedUp
    rw [ih, Change.count_cons]
    omega
  | case4 turns before e rest other ih =>
    rw [ih]
    simp only [Change.count_cons]
    omega

theorem changed_compact (sides : Sides) (edits : List Edit) :
    changed (compact sides edits) = changed edits := by
  have deleted : (Action.delete : Action) ≠ .keep := nofun
  have inserted : (Action.insert : Action) ≠ .keep := nofun
  rw [changed, changed, compact]
  simp only [count_settle deleted, count_settle inserted, Change.count_nil, Nat.zero_add]

/-- A script without the edits that are to be moved stays as it is. -/
theorem settle_of_forall_ne {moved : Action} (sides : Sides) (turns : Nat)
    (before after : List Edit) (others : ∀ e ∈ after, e.action ≠ moved) :
    settle sides moved turns before after = before.reverse ++ after := by
  fun_induction settle sides moved turns before after with
  | case1 => rfl
  | case2 turns before => exact (List.append_nil _).symm
  | case3 turns before e rest same up down ih => exact absurd same (others e List.mem_cons_self)
  | case4 turns before e rest other ih =>
    rw [ih fun e' member => others e' (List.mem_cons_of_mem _ member), List.reverse_cons,
      List.append_assoc, List.singleton_append]

theorem compact_of_keeps (sides : Sides) {edits : List Edit}
    (keeps : ∀ e ∈ edits, e.action = .keep) : compact sides edits = edits := by
  have others (moved : Action) (changes : moved ≠ .keep) : ∀ e ∈ edits, e.action ≠ moved := by
    intro e member same
    exact changes (same.symm.trans (keeps e member))
  simp only [compact, settle_of_forall_ne _ _ _ _ (others .delete nofun),
    settle_of_forall_ne _ _ _ _ (others .insert nofun), List.reverse_nil, List.nil_append]

end FormatHost.Diff
