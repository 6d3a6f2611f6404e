import FormatHost.Text.Ruler
import Mathlib.Data.List.Basic

/-! # Cutting texts at byte offsets

An offset is a boundary of a text if the text falls into two parts there. All that is known about
cutting follows from two equations: a cut that lies behind a part leaves that part whole.
-/

namespace FormatHost.Text

theorem byteLength_le_append (s t : Text) : s.byteLength ≤ (s ++ t).byteLength := by
  rw [byteLength_append]
  omega

theorem takeBytes_zero (s : Text) : s.takeBytes 0 = [] := by
  cases s with
  | nil => rfl
  | cons c rest =>
    have positive := c.utf8Size_pos
    rw [takeBytes, if_neg (by omega)]

theorem dropBytes_zero (s : Text) : s.dropBytes 0 = s := by
  have whole := takeBytes_append_dropBytes s 0
  rwa [takeBytes_zero, List.nil_append] at whole

private theorem takeBytes_append_add (s t : Text) (n : ℕ) :
    takeBytes (s ++ t) (s.byteLength + n) = s ++ t.takeBytes n := by
  induction s with
  | nil => simp
  | cons c rest ih =>
    have behind : c.utf8Size + byteLength rest + n - c.utf8Size = byteLength rest + n := by omega
    rw [List.cons_append, byteLength_cons, takeBytes, if_pos (by omega), behind, ih,
      List.cons_append]

theorem dropBytes_append_add (s t : Text) (n : ℕ) :
    dropBytes (s ++ t) (s.byteLength + n) = t.dropBytes n := by
  induction s with
  | nil => simp
  | cons c rest ih =>
    have behind : c.utf8Size + byteLength rest + n - c.utf8Size = byteLength rest + n := by omega
    rw [List.cons_append, byteLength_cons, dropBytes, if_pos (by omega), behind, ih]

theorem dropBytes_byteLength_append (s t : Text) : dropBytes (s ++ t) s.byteLength = t := by
  have cut := dropBytes_append_add s t 0
  rwa [dropBytes_zero] at cut

/-- A text falls into two parts at each of its boundaries. -/
theorem isBoundary_iff {s : Text} {n : ℕ} :
    s.isBoundary n = true ↔ ∃ before behind, s = before ++ behind ∧ before.byteLength = n := by
  constructor
  · intro boundary
    fun_induction isBoundary s n with
    | case1 s => exact ⟨[], s, rfl, rfl⟩
    | case2 => contradiction
    | case3 c rest n ih =>
      rw [Bool.and_eq_true, decide_eq_true_iff] at boundary
      obtain ⟨before, behind, rfl, length⟩ := ih boundary.2
      refine ⟨c :: before, behind, rfl, ?_⟩
      rw [byteLength_cons, length]
      omega
  · rintro ⟨before, behind, rfl, rfl⟩
    induction before with
    | nil => cases behind <;> rfl
    | cons c rest ih =>
      have positive := c.utf8Size_pos
      obtain ⟨k, size⟩ : ∃ k, byteLength (c :: rest) = k + 1 :=
        ⟨byteLength (c :: rest) - 1, by rw [byteLength_cons]; omega⟩
      have behind : k + 1 - c.utf8Size = byteLength rest := by
        rw [← size, byteLength_cons]
        omega
      have fits : c.utf8Size ≤ k + 1 := by
        rw [← size, byteLength_cons]
        omega
      rw [size, List.cons_append, isBoundary, behind, ih, decide_eq_true fits]
      rfl

def slice (s : Text) (start stop : ℕ) : Text :=
  (s.dropBytes start).takeBytes (stop - start)

theorem slice_append (before s behind : Text) :
    slice (before ++ (s ++ behind)) before.byteLength (before ++ s).byteLength = s := by
  have cut := takeBytes_append_add s behind 0
  rw [takeBytes_zero, List.append_nil, Nat.add_zero] at cut
  rw [slice, dropBytes_byteLength_append, byteLength_append, Nat.add_sub_cancel_left, cut]

theorem isBoundary_append (before behind : Text) :
    (before ++ behind).isBoundary before.byteLength = true :=
  isBoundary_iff.mpr ⟨before, behind, rfl, rfl⟩

/-- A boundary behind a part of a text falls into the other part. -/
theorem exists_eq_append_of_isBoundary {before rest : Text} {n : ℕ}
    (boundary : (before ++ rest).isBoundary n = true) (behind : before.byteLength ≤ n) :
    ∃ front back, rest = front ++ back ∧ (before ++ front).byteLength = n := by
  obtain ⟨left, right, whole, length⟩ := isBoundary_iff.mp boundary
  obtain ⟨front, rfl, rfl⟩ | ⟨more, rfl, rfl⟩ := List.append_eq_append_iff.mp whole
  · exact ⟨front, right, rfl, length⟩
  · refine ⟨[], rest, rfl, ?_⟩
    rw [byteLength_append] at behind
    rw [List.append_nil, byteLength_append]
    omega

/-- The line of an offset is the number of line feeds before it. -/
theorem lineOf_append (before behind : Text) :
    lineOf (before ++ behind) before.byteLength = before.count '\n' := by
  induction before with
  | nil => cases behind <;> rfl
  | cons c rest ih =>
    have positive := c.utf8Size_pos
    obtain ⟨k, size⟩ : ∃ k, byteLength (c :: rest) = k + 1 :=
      ⟨byteLength (c :: rest) - 1, by rw [byteLength_cons]; omega⟩
    have onward : k + 1 - c.utf8Size = byteLength rest := by
      rw [← size, byteLength_cons]
      omega
    rw [size, List.cons_append, lineOf, onward, ih, List.count_cons, Nat.add_comm]
    simp

/-- Going on from a boundary is going on from the start. -/
theorem dropBytes_dropBytes {s : Text} {start stop : ℕ} (boundary : s.isBoundary start = true)
    (ordered : start ≤ stop) :
    (s.dropBytes start).dropBytes (stop - start) = s.dropBytes stop := by
  obtain ⟨before, behind, rfl, rfl⟩ := isBoundary_iff.mp boundary
  obtain ⟨n, rfl⟩ := Nat.exists_eq_add_of_le ordered
  rw [dropBytes_byteLength_append, dropBytes_append_add, Nat.add_sub_cancel_left]

end FormatHost.Text
