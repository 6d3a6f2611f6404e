import FormatHost.Proofs.LineContent
import FormatHost.Proofs.Text.Solid
import FormatHost.Proofs.Text.Visible

/-! # How texts end

What a line feed does behind a text depends on how the text ends: it ends a line, or it makes an
empty one. Following the end of a text from character to character tells how many empty lines in a
row there are at each point of it, and so whether there are ever more than some number of them.
-/

namespace FormatHost.Text

/-- How a text ends. -/
inductive Ending
  /-- There is no character in it. -/
  | nothing
  /-- On a line that goes on. -/
  | midLine
  /-- Behind a line feed, with a number of empty lines before it. -/
  | ended (empty : ℕ)
deriving DecidableEq

namespace Ending

/-- How a text ends with one more line feed. -/
def feed : Ending → Ending
  | nothing => ended 1
  | midLine => ended 0
  | ended n => ended (n + 1)

/-- How a text ends with one more character. -/
def step (ending : Ending) (c : Char) : Ending :=
  if c = '\n' then ending.feed else midLine

/-- How a text ends with more text. -/
def after (ending : Ending) (more : Text) : Ending :=
  more.foldl step ending

/-- How a text ends on a new line behind blank ones, if there was something before it. -/
def newline (blanks : ℕ) : Ending → Ending
  | nothing => nothing
  | midLine => ended blanks
  | ended n => ended (n + 1 + blanks)

/-- Whether there are no more empty lines at the end than are allowed. -/
def Fits (most : ℕ) : Ending → Prop
  | nothing | midLine => True
  | ended n => n ≤ most

/-- Whether there are no more empty lines than are allowed with some line feeds behind a text. -/
def FitsFeeds (most feeds : ℕ) : Ending → Prop
  | nothing | midLine => True
  | ended n => 0 < feeds → n + feeds ≤ most

/-- Whether more text, character by character, never makes more empty lines than are allowed. -/
def Allows (most : ℕ) : Ending → Text → Prop
  | _, [] => True
  | ending, c :: rest => (ending.step c).Fits most ∧ (ending.step c).Allows most rest

instance (most : ℕ) : (ending : Ending) → Decidable (ending.Fits most)
  | nothing | midLine => isTrue trivial
  | ended n => inferInstanceAs (Decidable (n ≤ most))

instance (most feeds : ℕ) : (ending : Ending) → Decidable (ending.FitsFeeds most feeds)
  | nothing | midLine => isTrue trivial
  | ended n => inferInstanceAs (Decidable (0 < feeds → n + feeds ≤ most))

def decideAllows (most : ℕ) : (ending : Ending) → (s : Text) → Decidable (ending.Allows most s)
  | _, [] => isTrue trivial
  | ending, c :: rest =>
    have := decideAllows most (ending.step c) rest
    inferInstanceAs (Decidable (_ ∧ _))

instance (most : ℕ) (ending : Ending) (s : Text) : Decidable (ending.Allows most s) :=
  decideAllows most ending s

@[simp] theorem fitsFeeds_midLine (most feeds : ℕ) : midLine.FitsFeeds most feeds := trivial

@[simp] theorem fitsFeeds_zero (most : ℕ) (ending : Ending) : ending.FitsFeeds most 0 := by
  cases ending <;> simp [FitsFeeds]

@[simp] theorem after_nil (ending : Ending) : ending.after [] = ending := rfl

@[simp] theorem after_append (ending : Ending) (s t : Text) :
    ending.after (s ++ t) = (ending.after s).after t :=
  List.foldl_append

theorem allows_append {most : ℕ} {ending : Ending} {s t : Text} :
    ending.Allows most (s ++ t) ↔ ending.Allows most s ∧ (ending.after s).Allows most t := by
  induction s generalizing ending with
  | nil => simp [Allows]
  | cons c rest ih =>
    rw [List.cons_append, Allows, Allows, ih, and_assoc]
    rfl

/-- The last character decides, unless it is a line feed. -/
theorem after_of_last (ending : Ending) {s : Text} (nonempty : s ≠ [])
    (unended : s.endsLine = false) : ending.after s = midLine := by
  obtain rfl | ⟨front, c, rfl⟩ := List.eq_nil_or_concat' s
  · contradiction
  · have text : c ≠ '\n' := by simpa [endsLine] using unended
    rw [after_append]
    exact if_neg text

/-- Text on one line goes on there. -/
theorem after_of_unbroken (ending : Ending) {s : Text} (unbroken : '\n' ∉ s) (nonempty : s ≠ []) :
    ending.after s = midLine := by
  apply ending.after_of_last nonempty
  rw [endsLine, beq_eq_false_iff_ne]
  exact fun feed => unbroken (List.mem_of_getLast? feed)

/-- Text on one line makes no empty line. -/
theorem allows_of_unbroken {most : ℕ} {ending : Ending} {s : Text} (unbroken : '\n' ∉ s) :
    ending.Allows most s := by
  induction s generalizing ending with
  | nil => trivial
  | cons c rest ih =>
    rw [List.mem_cons, not_or] at unbroken
    have text : ending.step c = midLine := if_neg (Ne.symm unbroken.1)
    rw [Allows, text]
    exact ⟨trivial, ih unbroken.2⟩

/-- A new line is as many line feeds. -/
theorem after_feeds {ending : Ending} (begun : ending ≠ nothing) (blanks : ℕ) :
    ending.after (List.replicate (1 + blanks) '\n') = ending.newline blanks := by
  induction blanks with
  | zero => cases ending <;> trivial
  | succ blanks ih =>
    rw [← Nat.add_assoc, List.replicate_succ', after_append, ih]
    cases ending with
    | nothing => contradiction
    | midLine => rfl
    | ended n => exact congrArg ended (by omega)

/-- The last one of some line feeds decides whether they are allowed. -/
theorem allows_feeds {most : ℕ} {ending : Ending} (begun : ending ≠ nothing) (blanks : ℕ) :
    ending.Allows most (List.replicate (1 + blanks) '\n') ↔ (ending.newline blanks).Fits most := by
  induction blanks with
  | zero => cases ending <;> simp_all [Allows, step, feed, newline]
  | succ blanks ih =>
    rw [← Nat.add_assoc, List.replicate_succ', allows_append, after_feeds begun, ih]
    cases ending with
    | nothing => contradiction
    | midLine => simp [newline, Allows, step, feed, Fits]; omega
    | ended n => simp [newline, Allows, step, feed, Fits]; omega

/-- Of the blank lines before a new line only as many are written as are allowed, so the empty lines
before them decide. -/
theorem fits_newline_min {most : ℕ} {ending : Ending} (blanks : ℕ) :
    (ending.newline (min blanks most)).Fits most ↔ ending.FitsFeeds most (blanks + 1) := by
  cases ending with
  | nothing => exact Iff.rfl
  | midLine => exact iff_of_true (Nat.min_le_right blanks most) trivial
  | ended n =>
    simp only [newline, Fits, FitsFeeds]
    omega

/-- In a text that has no empty line in it, only the first character can make one. -/
theorem allows_of_single {most : ℕ} {ending : Ending} {s : Text}
    (single : ¬['\n', '\n'] <:+: s) :
    ending.Allows most s ↔ (s.head? = some '\n' → ending.feed.Fits most) := by
  induction s generalizing ending with
  | nil => simp [Allows]
  | cons c rest ih =>
    rw [Allows, ih fun double => single (List.infix_cons double)]
    by_cases feed : c = '\n'
    · have apart : rest.head? ≠ some '\n' := by
        intro next
        obtain ⟨others, rfl⟩ := List.head?_eq_some_iff.mp next
        exact single (feed ▸ (List.prefix_append ['\n', '\n'] others).isInfix)
      simp [step, feed, apart]
    · simp [step, feed, Fits, Ending.feed]

end Ending

def ending (s : Text) : Ending :=
  Ending.nothing.after s

@[simp] theorem ending_nil : ending [] = .nothing := rfl

@[simp] theorem ending_append (s t : Text) : (s ++ t).ending = s.ending.after t :=
  Ending.after_append _ s t

theorem ending_concat (s : Text) (c : Char) : (s ++ [c]).ending = s.ending.step c :=
  ending_append s [c]

theorem ending_eq_nothing_iff {s : Text} : s.ending = .nothing ↔ s = [] := by
  obtain rfl | ⟨front, c, rfl⟩ := List.eq_nil_or_concat' s
  · simp
  · rw [ending_concat, Ending.step]
    split
    · cases ending front <;> simp [Ending.feed]
    · simp

theorem ending_eq_midLine_iff {s : Text} : s.ending = .midLine ↔ s ≠ [] ∧ s.endsLine = false := by
  obtain rfl | ⟨front, c, rfl⟩ := List.eq_nil_or_concat' s
  · simp
  · rw [ending_concat, Ending.step, endsLine, List.getLast?_concat]
    split
    · next feed => cases ending front <;> simp [Ending.feed, feed]
    · next text => simp [text]

/-- Behind a line feed there is no empty line if there is text before it. -/
theorem ending_eq_ended_zero_iff {s : Text} :
    s.ending = .ended 0 ↔ ∃ front c, s = front ++ [c, '\n'] ∧ c ≠ '\n' := by
  constructor
  · intro once
    obtain rfl | ⟨front, c, rfl⟩ := List.eq_nil_or_concat' s
    · contradiction
    · rw [ending_concat, Ending.step] at once
      split at once
      · next feed =>
        have midLine : ending front = .midLine := by
          cases shape : ending front <;> simp_all [Ending.feed]
        obtain ⟨nonempty, text⟩ := ending_eq_midLine_iff.mp midLine
        refine ⟨front.dropLast, front.getLast nonempty, ?_, ?_⟩
        · rw [feed, List.append_cons front.dropLast, List.dropLast_append_getLast]
        · simpa [endsLine, List.getLast?_eq_some_getLast nonempty] using text
      · contradiction
  · rintro ⟨front, c, rfl, text⟩
    rw [List.append_cons, ending_concat, ending_concat, Ending.step, if_pos rfl, Ending.step,
      if_neg text]
    rfl

/-! ## Runs of empty lines -/

/-- Whether a text has never more empty lines in a row than are allowed. -/
def Capped (most : ℕ) (s : Text) : Prop :=
  Ending.nothing.Allows most s

theorem capped_append {most : ℕ} {s t : Text} :
    (s ++ t).Capped most ↔ s.Capped most ∧ s.ending.Allows most t :=
  Ending.allows_append

/-- Line after line, counting empty ones at the end is looking for runs of them. -/
theorem Ending.allows_joinLines {most empty : ℕ} {lines : List Text}
    (unbroken : ∀ line ∈ lines, '\n' ∉ line) (few : empty ≤ most) :
    (ended empty).Allows most (Layout.joinLines lines) ↔
      ∀ n, List.replicate n [] <:+: List.replicate empty [] ++ lines → n ≤ most := by
  induction lines generalizing empty with
  | nil =>
    refine ⟨fun _ n run => ?_, fun _ => trivial⟩
    have shorter := run.length_le
    simp only [List.append_nil, List.length_replicate] at shorter
    exact shorter.trans few
  | cons line rest ih =>
    obtain ⟨clear, later⟩ := List.forall_mem_cons.mp unbroken
    rw [Layout.joinLines_cons, List.append_cons, allows_append]
    cases line with
    | nil =>
      have shift : List.replicate empty [] ++ [] :: rest =
          List.replicate (empty + 1) [] ++ rest := by
        rw [List.replicate_succ', List.append_assoc]
        rfl
      rw [shift]
      constructor
      · rintro ⟨⟨fits, -⟩, behind⟩
        exact (ih later fits).mp behind
      · intro runs
        have fits := runs (empty + 1) (List.prefix_append _ _).isInfix
        exact ⟨⟨fits, trivial⟩, (ih later fits).mpr runs⟩
    | cons c body =>
      have reached : (ended empty).after (c :: body ++ ['\n']) = ended 0 := by
        rw [after_append, after_of_unbroken _ clear (List.cons_ne_nil c body)]
        rfl
      have allowed : (ended empty).Allows most (c :: body ++ ['\n']) := by
        rw [allows_append, after_of_unbroken _ clear (List.cons_ne_nil c body)]
        exact ⟨allows_of_unbroken clear, Nat.zero_le most, trivial⟩
      rw [reached, and_iff_right allowed, ih later (Nat.zero_le most), List.replicate_zero,
        List.nil_append]
      constructor
      · intro runs n run
        obtain short | behind := Layout.le_or_infix_of_replicate_infix (List.cons_ne_nil c body) run
        · exact short.trans few
        · exact runs n behind
      · intro runs n run
        exact runs n (run.trans ((List.suffix_cons _ rest).trans (List.suffix_append _ _)).isInfix)

/-- A text is its ended lines and the last one. -/
theorem exists_eq_joinLines_append (s : Text) :
    ∃ last, s = Layout.joinLines s.lines.dropLast ++ last ∧ '\n' ∉ last ∧
      ∀ line ∈ s.lines.dropLast, '\n' ∉ line := by
  have unbroken : ∀ line ∈ s.lines.dropLast, '\n' ∉ line :=
    fun line member => not_mem_of_mem_splitOn (List.dropLast_subset _ member)
  obtain ⟨shape, clear⟩ | ⟨first, middle, last, shape, -, -, -, clear⟩ := s.lines_cases
  · exact ⟨s, by simp [shape], clear, unbroken⟩
  · refine ⟨last, ?_, clear, unbroken⟩
    rw [shape, ← List.cons_append, List.dropLast_concat, ← append_breakInto_snoc]
    exact eq_breakInto_of_lines shape

/-- The cap is about the ended lines of a text: no more of them in a row are empty. -/
theorem capped_iff {most : ℕ} {s : Text} :
    s.Capped most ↔ ∀ n, List.replicate n [] <:+: s.lines.dropLast → n ≤ most := by
  obtain ⟨last, whole, clear, unbroken⟩ := s.exists_eq_joinLines_append
  have start : s.Capped most ↔ (Ending.ended 0).Allows most s := by
    cases s with
    | nil => exact Iff.rfl
    | cons c rest =>
      rw [Capped, Ending.Allows, Ending.Allows]
      rfl
  rw [start]
  nth_rewrite 1 [whole]
  rw [Ending.allows_append, and_iff_left (Ending.allows_of_unbroken clear),
    Ending.allows_joinLines unbroken (Nat.zero_le most), List.replicate_zero, List.nil_append]

/-! ## Line feeds at the ends of a text -/

/-- How many line feeds there are before the first thing to be seen. -/
def leadFeeds (s : Text) : ℕ :=
  (s.takeWhile isBlank).count '\n'

/-- How many line feeds there are behind the last thing to be seen. -/
def trailFeeds (s : Text) : ℕ :=
  (s.rtakeWhile isBlank).count '\n'

@[simp] theorem leadFeeds_nil : leadFeeds [] = 0 := rfl

@[simp] theorem trailFeeds_nil : trailFeeds [] = 0 := rfl

@[simp] theorem hasText_nil : hasText [] = false := rfl

@[simp] theorem hasText_append (s t : Text) : (s ++ t).hasText = (s.hasText || t.hasText) :=
  List.any_append

@[simp] theorem hasText_feed_cons (s : Text) : hasText ('\n' :: s) = s.hasText := rfl

theorem hasText_eq_false_iff_forall {s : Text} :
    s.hasText = false ↔ ∀ c ∈ s, isBlank c = true := by
  simp [hasText]

theorem trim_eq_nil_iff {s : Text} : s.trim = [] ↔ s.hasText = false := by
  rw [hasText_eq_false_iff_forall]
  refine ⟨fun empty => ?_, trim_of_blank⟩
  have unseen := visible_trim s
  rw [empty, visible_nil, eq_comm, visible, List.filter_eq_nil_iff] at unseen
  simpa using unseen

theorem trim_ne_nil {s : Text} (text : s.hasText = true) : s.trim ≠ [] := by
  rw [ne_eq, trim_eq_nil_iff, text]
  exact Bool.noConfusion

/-- All line feeds of a blank text are before its text, and behind it. -/
theorem leadFeeds_of_blank {s : Text} (blank : s.hasText = false) : s.leadFeeds = s.count '\n' := by
  rw [leadFeeds, List.takeWhile_eq_self_iff.mpr (hasText_eq_false_iff_forall.mp blank)]

theorem trailFeeds_eq (s : Text) : s.trailFeeds = leadFeeds s.reverse :=
  List.count_reverse

theorem hasText_reverse (s : Text) : hasText s.reverse = s.hasText :=
  List.any_reverse

theorem trailFeeds_of_blank {s : Text} (blank : s.hasText = false) :
    s.trailFeeds = s.count '\n' := by
  rw [trailFeeds_eq, leadFeeds_of_blank ((hasText_reverse s).trans blank), List.count_reverse]

theorem leadFeeds_append (s t : Text) :
    (s ++ t).leadFeeds = s.leadFeeds + if s.hasText then 0 else t.leadFeeds := by
  cases text : s.hasText with
  | false =>
    have blank := hasText_eq_false_iff_forall.mp text
    rw [leadFeeds, List.takeWhile_append_of_pos blank, List.count_append, leadFeeds_of_blank text]
    rfl
  | true =>
    rw [leadFeeds, List.takeWhile_append]
    split
    · next whole =>
      have blank := List.takeWhile_eq_self_iff.mp
        (List.takeWhile_prefix isBlank |>.eq_of_length whole)
      rw [hasText_eq_false_iff_forall.mpr blank] at text
      contradiction
    · rfl

theorem trailFeeds_append (s t : Text) :
    (s ++ t).trailFeeds = t.trailFeeds + if t.hasText then 0 else s.trailFeeds := by
  rw [trailFeeds_eq, List.reverse_append, leadFeeds_append, hasText_reverse, ← trailFeeds_eq,
    ← trailFeeds_eq]

theorem leadFeeds_of_unbroken {s : Text} (unbroken : '\n' ∉ s) : s.leadFeeds = 0 :=
  List.count_eq_zero.mpr fun member => unbroken ((List.takeWhile_subset _) member)

theorem trailFeeds_of_unbroken {s : Text} (unbroken : '\n' ∉ s) : s.trailFeeds = 0 := by
  rw [trailFeeds_eq]
  exact leadFeeds_of_unbroken fun member => unbroken (List.mem_reverse.mp member)

/-- A line in front brings no line feed. -/
theorem leadFeeds_line_append {line : Text} (unbroken : '\n' ∉ line) (behind : Text) :
    (line ++ behind).leadFeeds = if line.hasText then 0 else behind.leadFeeds := by
  rw [leadFeeds_append, leadFeeds_of_unbroken unbroken, Nat.zero_add]

theorem trailFeeds_line_append {line : Text} (unbroken : '\n' ∉ line) (behind : Text) :
    (line ++ behind).trailFeeds = behind.trailFeeds := by
  rw [trailFeeds_append, trailFeeds_of_unbroken unbroken, ite_self, Nat.add_zero]

/-- A line behind a line feed, and what follows it. -/
theorem leadFeeds_feed_line {line : Text} (unbroken : '\n' ∉ line) (behind : Text) :
    leadFeeds ('\n' :: (line ++ behind)) =
      1 + if line.hasText then 0 else behind.leadFeeds := by
  rw [← List.singleton_append, leadFeeds_append, leadFeeds_line_append unbroken]
  rfl

theorem trailFeeds_feed_line {line : Text} (unbroken : '\n' ∉ line) (behind : Text) :
    trailFeeds ('\n' :: (line ++ behind)) =
      behind.trailFeeds + if behind.hasText then 0 else if line.hasText then 0 else 1 := by
  rw [← List.cons_append, trailFeeds_append, ← List.singleton_append, trailFeeds_append,
    trailFeeds_of_unbroken unbroken, Nat.zero_add]
  rfl

end FormatHost.Text
