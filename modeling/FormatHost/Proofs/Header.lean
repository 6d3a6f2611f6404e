import FormatHost.Header
import FormatHost.Proofs.Text.Solid
import FormatHost.Text.Span

/-! # Header comments of a whole source

A header comment is the expression `^#\s*fmtb:\s*(true|false)\s*$`: what it takes to be one is said
here without the search. The search gives the value of the first comment of the text that it is
given, and that text is the window at the front of the source. So what is found is always a comment
of the window. It is one of the source too, unless the window ends on the line of the comment and
something else follows on that line: there the end of the window passes for the end of the line.
-/

namespace FormatHost.Header

open Text

/-- How a value is written. -/
def word : Bool → Text
  | true => "true".toList
  | false => "false".toList

/-- Whether a text is a comment up to its value: a hash mark, the key and the value, with blanks
before the key and before the value. -/
def States (value : Bool) (text : Text) : Prop :=
  ∃ first second : Text, (∀ c ∈ first, isBlank c = true) ∧ (∀ c ∈ second, isBlank c = true) ∧
    text = '#' :: (first ++ ("fmtb:".toList ++ (second ++ word value)))

/-- Whether a line begins behind a text. -/
def BeginsLine (before : Text) : Prop :=
  before.getLast?.all (· == '\n') = true

/-- Whether a line ends before a text. -/
def EndsLine (rest : Text) : Prop :=
  rest.head?.all (· == '\n') = true

/-- Whether a text begins with blanks up to the end of a line. -/
def BlankToEnd (text : Text) : Prop :=
  ∃ blanks rest, text = blanks ++ rest ∧ (∀ c ∈ blanks, isBlank c = true) ∧ EndsLine rest

/-- Whether a text begins with a comment that has a value. -/
def BeginsWith (value : Bool) (text : Text) : Prop :=
  ∃ statement rest, text = statement ++ rest ∧ States value statement ∧ BlankToEnd rest

/-- Whether a comment stands in a source right behind the text before it. -/
def StandsBehind (source before : Text) (value : Bool) : Prop :=
  BeginsLine before ∧ ∃ text, source = before ++ text ∧ BeginsWith value text

/-- Whether that comment is the first one of the source. -/
def IsFirst (source before : Text) (value : Bool) : Prop :=
  StandsBehind source before value ∧
    ∀ other spelled, StandsBehind source other spelled → before.length ≤ other.length

/-- Whether a source has a comment with a value that starts among the bytes that are searched. -/
def Backs (source : Text) (value : Bool) : Prop :=
  ∃ before, before.byteLength < windowSize ∧ StandsBehind source before value

/-- What follows the window. -/
def beyond (source : Text) : Text :=
  source.drop (window source windowSize).length

/-- Whether the window ends on the line of its first comment, behind the value, and the rest of that
line is not blank. -/
def CutsFirst (source : Text) : Prop :=
  ∃ before statement blanks value, IsFirst (window source windowSize) before value ∧
    window source windowSize = before ++ (statement ++ blanks) ∧ States value statement ∧
    (∀ c ∈ blanks, isBlank c = true ∧ c ≠ '\n') ∧ ¬BlankToEnd (beyond source)

/-! ## Ends of lines -/

theorem EndsLine.eq_feed {c : Char} {rest : Text} (ends : EndsLine (c :: rest)) : c = '\n' := by
  simpa [EndsLine] using ends

theorem endsLine_feed (rest : Text) : EndsLine ('\n' :: rest) := rfl

theorem BlankToEnd.of_endsLine {text : Text} (ends : EndsLine text) : BlankToEnd text :=
  ⟨[], text, rfl, nofun, ends⟩

/-- More blanks in front do not matter, unless a line ends among them. -/
theorem blankToEnd_append_iff {blanks text : Text}
    (blank : ∀ c ∈ blanks, isBlank c = true ∧ c ≠ '\n') :
    BlankToEnd (blanks ++ text) ↔ BlankToEnd text := by
  constructor
  · rintro ⟨front, rest, shape, front_blank, ends⟩
    rcases List.append_eq_append_iff.mp shape with ⟨more, rfl, rfl⟩ | ⟨more, rfl, rfl⟩
    · refine ⟨more, rest, rfl, fun c member => ?_, ends⟩
      exact front_blank c (List.mem_append_right _ member)
    · cases more with
      | nil => exact .of_endsLine ends
      | cons c more =>
        have feed := (blank c (by simp)).2
        exact absurd (EndsLine.eq_feed ends) feed
  · rintro ⟨front, rest, rfl, front_blank, ends⟩
    refine ⟨blanks ++ front, rest, by simp, fun c member => ?_, ends⟩
    rcases List.mem_append.mp member with member | member
    · exact (blank c member).1
    · exact front_blank c member

/-- What comes behind blanks does not matter if a line feed is among them. -/
theorem BlankToEnd.append {front text : Text} (blank : ∀ c ∈ front, isBlank c = true)
    (feed : '\n' ∈ front) : BlankToEnd (front ++ text) := by
  obtain ⟨first, second, rfl⟩ := List.append_of_mem feed
  refine ⟨first, '\n' :: (second ++ text), by simp, fun c member => ?_, endsLine_feed _⟩
  exact blank c (List.mem_append_left _ member)

private theorem lineMayEnd_iff {text : Text} : lineMayEnd text = true ↔ BlankToEnd text := by
  have whole := List.takeWhile_append_dropWhile (p := isBlank) (l := text)
  have blank : ∀ c ∈ text.takeWhile isBlank, isBlank c = true :=
    fun c member => List.mem_takeWhile_imp member
  rw [lineMayEnd, Bool.or_eq_true, List.isEmpty_iff, List.contains_iff_mem]
  constructor
  · rintro (nothing | feed)
    · exact ⟨text.takeWhile isBlank, [], by rw [← nothing, whole], blank, rfl⟩
    · rw [← whole]
      exact .append blank feed
  · rintro ⟨front, rest, rfl, front_blank, ends⟩
    cases rest with
    | nil =>
      left
      rw [List.append_nil, List.dropWhile_eq_nil_iff]
      exact front_blank
    | cons c rest =>
      right
      obtain rfl := ends.eq_feed
      rw [List.takeWhile_append_of_pos front_blank, List.takeWhile_cons_of_pos (by decide)]
      simp

/-! ## One comment -/

theorem after?_eq_some_iff {front text rest : Text} :
    after? front text = some rest ↔ text = front ++ rest := by
  unfold after?
  split
  · next isFront =>
    obtain ⟨behind, rfl⟩ := List.isPrefixOf_iff_prefix.mp isFront
    simp [eq_comm]
  · next other =>
    simp only [reduceCtorEq, false_iff]
    rintro rfl
    exact other (List.isPrefixOf_iff_prefix.mpr (List.prefix_append front rest))

theorem solid_word (value : Bool) : (word value).Solid := by
  cases value <;> decide

/-- Blanks before a solid text are skipped, and nothing else is. -/
theorem trimStart_eq_append_iff {text solid rest : Text} (visible : solid.Solid) :
    trimStart text = solid ++ rest ↔
      ∃ blanks : Text, (∀ c ∈ blanks, isBlank c = true) ∧ text = blanks ++ (solid ++ rest) := by
  constructor
  · intro trimmed
    refine ⟨text.takeWhile isBlank, fun c member => List.mem_takeWhile_imp member, ?_⟩
    rw [← trimmed, trimStart, List.takeWhile_append_dropWhile]
  · rintro ⟨blanks, blank, rfl⟩
    rw [trimStart_append_of_blank blank, visible.trimStart]

theorem value?_eq_some_iff {text : Text} {value : Bool} :
    value? text = some value ↔ ∃ rest, text = word value ++ rest ∧ BlankToEnd rest := by
  simp only [← lineMayEnd_iff]
  constructor
  · intro found
    unfold value? at found
    split at found
    · next rest isTrue =>
      split at found
      · next ends =>
        obtain rfl := Option.some.inj found
        exact ⟨rest, after?_eq_some_iff.mp isTrue, ends⟩
      · contradiction
    · next rest _ isFalse =>
      split at found
      · next ends =>
        obtain rfl := Option.some.inj found
        exact ⟨rest, after?_eq_some_iff.mp isFalse, ends⟩
      · contradiction
    · contradiction
  · rintro ⟨rest, rfl, ends⟩
    have read : after? (word value) (word value ++ rest) = some rest :=
      after?_eq_some_iff.mpr rfl
    cases value with
    | true =>
      rw [word] at read
      simp only [value?, word, read, ends, if_true]
    | false =>
      have other : after? "true".toList ("false".toList ++ rest) = none := rfl
      rw [word] at read
      simp only [value?, word, other, read, ends, if_true]

/-- The reader of comments takes exactly what is one. -/
theorem commentAt?_eq_some_iff {text : Text} {value : Bool} :
    commentAt? text = some value ↔ BeginsWith value text := by
  have key : Solid "fmtb:".toList := by decide
  constructor
  · intro found
    unfold commentAt? at found
    obtain ⟨behindMark, mark, found⟩ := Option.bind_eq_some_iff.mp found
    obtain ⟨behindKey, named, found⟩ := Option.bind_eq_some_iff.mp found
    obtain ⟨rest, said, ends⟩ := value?_eq_some_iff.mp found
    obtain ⟨first, first_blank, rfl⟩ :=
      (trimStart_eq_append_iff key).mp (after?_eq_some_iff.mp named)
    obtain ⟨second, second_blank, rfl⟩ := (trimStart_eq_append_iff (solid_word value)).mp said
    refine ⟨_, rest, ?_, ⟨first, second, first_blank, second_blank, rfl⟩, ends⟩
    rw [after?_eq_some_iff.mp mark]
    simp
  · rintro ⟨_, rest, rfl, ⟨first, second, first_blank, second_blank, rfl⟩, ends⟩
    have said : trimStart (second ++ (word value ++ rest)) = word value ++ rest :=
      (trimStart_eq_append_iff (solid_word value)).mpr ⟨second, second_blank, rfl⟩
    have named : trimStart (first ++ ("fmtb:".toList ++ (second ++ (word value ++ rest)))) =
        "fmtb:".toList ++ (second ++ (word value ++ rest)) :=
      (trimStart_eq_append_iff key).mpr ⟨first, first_blank, rfl⟩
    unfold commentAt?
    refine Option.bind_eq_some_iff.mpr ⟨_, after?_eq_some_iff.mpr rfl, ?_⟩
    refine Option.bind_eq_some_iff.mpr
      ⟨second ++ (word value ++ rest), after?_eq_some_iff.mpr ?_, ?_⟩
    · rw [← named]
      simp
    · rw [said]
      exact value?_eq_some_iff.mpr ⟨rest, rfl, ends⟩

/-- What follows the value of a comment is fixed by the text. -/
theorem States.rest_unique {text text' rest rest' : Text} {value value' : Bool}
    (states : States value text) (states' : States value' text')
    (same : text ++ rest = text' ++ rest') : rest = rest' := by
  have key : Solid "fmtb:".toList := by decide
  obtain ⟨first, second, first_blank, second_blank, rfl⟩ := states
  obtain ⟨first', second', first_blank', second_blank', rfl⟩ := states'
  simp only [List.cons_append, List.append_assoc, List.cons.injEq, true_and] at same
  have named := congrArg trimStart same
  rw [trimStart_append_of_blank first_blank, trimStart_append_of_blank first_blank',
    key.trimStart, key.trimStart, List.append_cancel_left_eq] at named
  have said := congrArg trimStart named
  rw [trimStart_append_of_blank second_blank, trimStart_append_of_blank second_blank',
    (solid_word value).trimStart, (solid_word value').trimStart] at said
  cases value <;> cases value'
  · exact List.append_cancel_left said
  · cases said
  · cases said
  · exact List.append_cancel_left said

theorem mark_not_mem_of_blank {blanks : Text} (blank : ∀ c ∈ blanks, isBlank c = true) :
    '#' ∉ blanks := by
  intro member
  exact absurd (blank '#' member) (by decide)

/-- The only hash mark of a comment is its first character. -/
theorem States.exists_tail {text : Text} {value : Bool} (states : States value text) :
    ∃ tail, text = '#' :: tail ∧ '#' ∉ tail := by
  obtain ⟨first, second, first_blank, second_blank, rfl⟩ := states
  refine ⟨_, rfl, ?_⟩
  have spelled : '#' ∉ word value := by cases value <;> decide
  simp only [List.mem_append, not_or]
  exact ⟨mark_not_mem_of_blank first_blank, by decide, mark_not_mem_of_blank second_blank, spelled⟩

/-- Where a hash mark follows a comment, the comment ends before it, whatever comes behind the
mark. -/
theorem BeginsWith.before_mark {value : Bool} {front rest : Text} (nonempty : front ≠ [])
    (comment : BeginsWith value (front ++ '#' :: rest)) (other : Text) :
    BeginsWith value (front ++ '#' :: other) := by
  obtain ⟨_, _, shape, states, blanks, ended, rfl, blank, ends⟩ := comment
  obtain ⟨tail, rfl, clear⟩ := states.exists_tail
  obtain ⟨c, front, rfl⟩ := List.exists_cons_of_ne_nil nonempty
  have noMark : '#' ∉ tail ++ blanks :=
    List.not_mem_append clear (mark_not_mem_of_blank blank)
  rw [List.cons_append, List.cons_append, ← List.append_assoc] at shape
  obtain ⟨rfl, same⟩ := List.cons.inj shape
  rcases List.append_eq_append_iff.mp same with ⟨more, reached, behind⟩ | ⟨more, rfl, rfl⟩
  · cases more with
    | nil =>
      rw [List.nil_append] at behind
      rw [← behind] at ends
      exact absurd ends.eq_feed (by decide)
    | cons d more =>
      obtain ⟨rfl, -⟩ := List.cons.inj behind
      exact absurd (by simp [reached]) noMark
  · cases more with
    | nil => exact absurd (EndsLine.eq_feed ends) (by decide)
    | cons d more =>
      obtain rfl := EndsLine.eq_feed ends
      refine ⟨'#' :: tail, blanks ++ '\n' :: (more ++ '#' :: other), by simp, states, ?_⟩
      exact ⟨blanks, _, rfl, blank, endsLine_feed _⟩

/-! ## The search -/

private theorem standsBehind_append_iff {before text : Text} {value : Bool} :
    StandsBehind (before ++ text) before value ↔
      BeginsLine before ∧ commentAt? text = some value := by
  rw [commentAt?_eq_some_iff]
  constructor
  · rintro ⟨begins, other, same, comment⟩
    rw [List.append_cancel_left same]
    exact ⟨begins, comment⟩
  · rintro ⟨begins, comment⟩
    exact ⟨begins, text, rfl, comment⟩

private theorem StandsBehind.length_lt {source before : Text} {value : Bool}
    (stands : StandsBehind source before value) : before.length < source.length := by
  obtain ⟨-, _, rfl, statement, rest, rfl, states, -⟩ := stands
  obtain ⟨tail, rfl, -⟩ := states.exists_tail
  simp

/-- What a search is to give that starts at a position of a source: the value of the first comment
from there on. -/
def FirstFrom (source : Text) (start : ℕ) : Option Bool → Prop
  | none => ∀ other spelled, StandsBehind source other spelled → other.length < start
  | some value => ∃ before, start ≤ before.length ∧ StandsBehind source before value ∧
      ∀ other spelled, StandsBehind source other spelled → start ≤ other.length →
        before.length ≤ other.length

/-- A position without a comment can be passed over. -/
theorem FirstFrom.back {source : Text} {start : ℕ} {result : Option Bool}
    (first : FirstFrom source (start + 1) result)
    (nothing : ∀ other spelled, StandsBehind source other spelled → other.length ≠ start) :
    FirstFrom source start result := by
  cases result with
  | none =>
    intro other spelled stands
    have late := first other spelled stands
    have elsewhere := nothing other spelled stands
    omega
  | some value =>
    obtain ⟨before, behind, stands, least⟩ := first
    refine ⟨before, by omega, stands, fun other spelled also after => ?_⟩
    have elsewhere := nothing other spelled also
    exact least other spelled also (by omega)

/-- A search gives the value of the first comment. -/
theorem firstFrom_search (before text : Text) :
    FirstFrom (before ++ text) before.length
      (search (before.getLast?.all (· == '\n')) text) := by
  induction text generalizing before with
  | nil =>
    intro other spelled stands
    simpa using stands.length_lt
  | cons c rest ih =>
    rw [search]
    split
    · next value here =>
      -- a comment starts right here
      split at here
      · next begins =>
        refine ⟨before, le_rfl, standsBehind_append_iff.mpr ⟨begins, here⟩, ?_⟩
        exact fun _ _ _ after => after
      · contradiction
    · next here =>
      have later := ih (before ++ [c])
      rw [List.append_assoc, List.singleton_append, List.length_append,
        List.getLast?_concat] at later
      apply later.back
      intro other spelled stands same
      obtain ⟨begins, text, shape, comment⟩ := stands
      obtain ⟨rfl, rfl⟩ := List.append_inj shape same.symm
      unfold BeginsLine at begins
      rw [if_pos begins, commentAt?_eq_some_iff.mpr comment] at here
      contradiction

private theorem firstFrom_find? (source : Text) :
    FirstFrom (window source windowSize) 0 (find? source) :=
  firstFrom_search [] (window source windowSize)

/-! ## The window -/

theorem window_append_beyond (source : Text) :
    window source windowSize ++ beyond source = source := by
  have isFront : ∀ n, window source n <+: source := by
    intro n
    fun_induction window source n with
    | case1 => exact List.prefix_refl _
    | case2 => exact List.nil_prefix
    | case3 c rest n ih => exact List.cons_prefix_cons.mpr ⟨rfl, ih⟩
  exact List.prefix_iff_eq_append.mp (isFront windowSize)

/-- A character of the window starts within its bytes. -/
theorem byteLength_lt_of_window {source before rest : Text} {c : Char} {n : ℕ}
    (shape : window source n = before ++ c :: rest) : before.byteLength < n := by
  fun_induction window source n generalizing before with
  | case1 => simp at shape
  | case2 => simp at shape
  | case3 first source n ih =>
    cases before with
    | nil => simp
    | cons d before =>
      obtain ⟨rfl, same⟩ := List.cons.inj shape
      have inside := ih same
      simp only [byteLength_cons]
      omega

/-- A character that starts within the bytes of the window is in the window. -/
theorem exists_window_of_byteLength_lt {before : Text} {n : ℕ} (inside : before.byteLength < n)
    (c : Char) (rest : Text) : ∃ more, window (before ++ c :: rest) n = before ++ c :: more := by
  induction before generalizing n with
  | nil =>
    obtain ⟨n, rfl⟩ := Nat.exists_eq_add_one_of_ne_zero (Nat.ne_zero_of_lt inside)
    exact ⟨window rest (n + 1 - c.utf8Size), rfl⟩
  | cons d before ih =>
    obtain ⟨n, rfl⟩ := Nat.exists_eq_add_one_of_ne_zero (Nat.ne_zero_of_lt inside)
    rw [byteLength_cons] at inside
    obtain ⟨more, shape⟩ := ih (n := n + 1 - d.utf8Size) (by omega)
    exact ⟨more, congrArg (d :: ·) shape⟩

/-- The first comment of the window is one of the source, or the window cuts its line. -/
theorem IsFirst.backs_or_cutsFirst {source before : Text} {value : Bool}
    (first : IsFirst (window source windowSize) before value) :
    Backs source value ∨ CutsFirst source := by
  obtain ⟨begins, _, shape, statement, _, rfl, states, blanks, ended, rfl, blank, ends⟩ := first.1
  have inside : before.byteLength < windowSize := by
    obtain ⟨tail, rfl, -⟩ := states.exists_tail
    exact byteLength_lt_of_window shape
  have whole : source = before ++ (statement ++ (blanks ++ (ended ++ beyond source))) := by
    nth_rewrite 1 [← window_append_beyond source]
    simp [shape]
  by_cases onward : BlankToEnd (blanks ++ (ended ++ beyond source))
  · left
    exact ⟨before, inside, begins, _, whole, statement, _, rfl, states, onward⟩
  · right
    have unbroken : ∀ c ∈ blanks, isBlank c = true ∧ c ≠ '\n' := by
      intro c member
      refine ⟨blank c member, ?_⟩
      rintro rfl
      exact onward (.append blank member)
    rw [blankToEnd_append_iff unbroken] at onward
    cases ended with
    | nil =>
      rw [List.append_nil] at shape
      exact ⟨before, statement, blanks, value, first, shape, states, unbroken, onward⟩
    | cons c ended =>
      obtain rfl := ends.eq_feed
      exact absurd (.of_endsLine (endsLine_feed _)) onward

/-- Where the window cuts the line of its first comment, the source has no comment that starts among
the bytes that are searched. -/
theorem CutsFirst.not_backs {source : Text} (cuts : CutsFirst source) (value : Bool) :
    ¬Backs source value := by
  rintro ⟨other, inside, begins, _, whole, comment⟩
  obtain ⟨before, statement, blanks, spelled, first, shape, states, blank, continued⟩ := cuts
  obtain ⟨statement', rest, rfl, states', ends⟩ := id comment
  obtain ⟨tail, rfl, clear⟩ := states.exists_tail
  obtain ⟨tail', rfl, -⟩ := states'.exists_tail
  have noMark : '#' ∉ tail ++ blanks :=
    List.not_mem_append clear (mark_not_mem_of_blank fun c member => (blank c member).1)
  have texts : other ++ ('#' :: tail' ++ rest) =
      before ++ ('#' :: tail ++ (blanks ++ beyond source)) := by
    rw [← whole]
    nth_rewrite 1 [← window_append_beyond source]
    simp [shape]
  -- The hash mark of the comment is in the window, where none comes behind that of the cut one.
  have isFront : other <+: before := by
    obtain ⟨more, here⟩ := exists_window_of_byteLength_lt inside '#' (tail' ++ rest)
    rw [← List.cons_append, ← whole, shape, List.cons_append] at here
    rcases List.append_eq_append_iff.mp here with ⟨between, rfl, behind⟩ | ⟨between, rfl, -⟩
    · cases between with
      | nil => simp
      | cons c between =>
        obtain ⟨-, reached⟩ := List.cons.inj behind
        exact absurd (by simp [reached]) noMark
    · exact List.prefix_append other between
  obtain ⟨between, rfl⟩ := isFront
  by_cases apart : between = []
  · subst apart
    rw [List.append_nil] at texts
    have behind := states'.rest_unique states (List.append_cancel_left texts)
    rw [behind, blankToEnd_append_iff blank] at ends
    exact continued ends
  · rw [List.append_assoc, List.append_cancel_left_eq] at texts
    rw [texts] at comment
    have early : StandsBehind (window source windowSize) other value := by
      refine ⟨begins, between ++ '#' :: (tail ++ blanks), by simp [shape], ?_⟩
      exact comment.before_mark apart _
    have least := first.2 other value early
    have longer := List.length_pos_iff.mpr apart
    rw [List.length_append] at least
    omega

/-- The decision of a source is backed by a comment of the whole source, unless the window cuts the
line of its first comment. -/
theorem find?_backed_iff (source : Text) :
    (∀ value, find? source = some value → Backs source value) ↔ ¬CutsFirst source := by
  have found := firstFrom_find? source
  constructor
  · intro backed cuts
    obtain ⟨before, -, -, value, first, -⟩ := id cuts
    cases result : find? source with
    | none =>
      rw [result] at found
      exact absurd (found before value first.1) (Nat.not_lt_zero _)
    | some value => exact cuts.not_backs value (backed value result)
  · intro uncut value result
    rw [result] at found
    obtain ⟨before, -, stands, least⟩ := found
    have first : IsFirst (window source windowSize) before value :=
      ⟨stands, fun other spelled also => least other spelled also (Nat.zero_le _)⟩
    exact first.backs_or_cutsFirst.resolve_right uncut

/-- A line that is no comment becomes one where the window ends behind the value. -/
theorem find?_unbacked :
    let source := List.replicate 488 '\n' ++ "# fmtb: trueish".toList
    find? source = some true ∧ ¬Backs source true := by
  intro source
  have found : find? source = some true := by decide +kernel
  have nothing : search true source = none := by decide +kernel
  -- from here on only what was computed is used
  clear_value source
  refine ⟨found, ?_⟩
  rintro ⟨before, -, stands⟩
  have first := firstFrom_search [] source
  rw [List.nil_append, List.getLast?_nil, Option.all_none, nothing] at first
  exact absurd (first before true stands) (Nat.not_lt_zero _)

end FormatHost.Header
