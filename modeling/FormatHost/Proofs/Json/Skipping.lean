import FormatHost.Proofs.Json.Numbers

/-! # Any value can be skipped

Skipping keeps a stack of open brackets instead of calling itself. A value is passed over with the
brackets around it left as they were, and what comes after it is read as the inmost of them asks.
-/

namespace FormatHost.Json

variable {rest : Bytes} {result : Except Fault (Unit × Bytes)}

/-- What a value begins with: a byte that is neither space nor closes a bracket. -/
def Begins (text : Bytes) : Prop :=
  ∃ b tail, text = b :: tail ∧ isSpace b = false ∧ b ≠ byte ']' ∧ b ≠ byte '\x7d'

theorem begins_cons {b : UInt8} {tail : Bytes} (visible : isSpace b = false) (list : b ≠ byte ']')
    (object : b ≠ byte '\x7d') : Begins (b :: tail) :=
  ⟨b, tail, rfl, visible, list, object⟩

theorem begins_of_isMagnitude {digits : Bytes} (magnitude : IsMagnitude digits) :
    ∃ b tail, digits = b :: tail ∧ isDigit b = true := by
  obtain @⟨digits, fraction, exponent, ⟨run, -⟩, -, -⟩ := magnitude
  have digit := isDigit_of_mem run
  obtain ⟨b, digits, rfl⟩ := List.exists_cons_of_ne_nil run.1
  exact ⟨b, _, rfl, digit b List.mem_cons_self⟩

theorem begins_digit {b : UInt8} {tail : Bytes} (digit : isDigit b = true) : Begins (b :: tail) :=
  begins_cons (isSpace_of_isDigit digit) (ne_of_beq_false (beq_of_isDigit digit (by decide)))
    (ne_of_beq_false (beq_of_isDigit digit (by decide)))

theorem begins_decimal (n : ℕ) : Begins (Utf8.ofString (toString n)) := by
  obtain ⟨b, tail, shape, digit⟩ := decimal_cons n
  rw [shape]
  exact begins_digit digit

private theorem begins_of_isValue {value : Bytes} (isValue : IsValue value) : Begins value := by
  cases isValue with
  | literal listed =>
    simp only [literals, List.mem_cons, List.not_mem_nil, or_false] at listed
    obtain rfl | rfl | rfl := listed
    all_goals exact begins_cons (by decide) (by decide) (by decide)
  | positive magnitude =>
    obtain ⟨b, tail, rfl, digit⟩ := begins_of_isMagnitude magnitude
    exact begins_digit digit
  | negative => exact begins_cons (by decide) (by decide) (by decide)
  | string => exact begins_cons (by decide) (by decide) (by decide)
  | list => exact begins_cons (by decide) (by decide) (by decide)
  | object => exact begins_cons (by decide) (by decide) (by decide)

theorem ObjectEntry.text_append (entry : ObjectEntry) (rest : Bytes) :
    entry.text ++ rest = byte '"' :: (entry.key ++ byte '"' ::
      (entry.front ++ byte ':' :: (entry.back ++ (entry.value ++ rest)))) := by
  simp [ObjectEntry.text, quoted]

theorem colon_of_spaced {space : Bytes} (blank : IsSpacing space) (rest : Bytes) :
    colon (space ++ byte ':' :: rest) = .ok rest := by
  have mark : isSpace (byte ':') = false := by decide
  simp only [colon, skipSpace_append_cons blank mark, beq_self_eq_true, if_true]

theorem begins_entry (entry : ObjectEntry) : Begins entry.text :=
  begins_cons (by decide) (by decide) (by decide)

/-! ## One step -/

/-- What skipping comes to once a value is behind it. -/
def Onward (stack : List Bracket) (rest : Bytes) (result : Except Fault (Unit × Bytes)) : Prop :=
  match stack with
  | [] => result = .ok ((), rest)
  | top :: stack => Course skipStep (.after top stack) rest result

/-- A step over a whole value. -/
theorem Course.onward {state : Skip} {s : Bytes} {stack : List Bracket}
    (stepped : skipStep state s = .ok (Skip.ofStack stack, rest)) (shorter : rest.length < s.length)
    (onward : Onward stack rest result) : Course skipStep state s result := by
  cases stack with
  | nil =>
    obtain rfl : result = .ok ((), rest) := onward
    exact .done stepped
  | cons top stack => exact .again stepped shorter onward

/-- A text that is skipped, whatever brackets are open around it. -/
def Skips (text : Bytes) : Prop :=
  ∀ stack space rest result, IsSpacing space → Follows rest → Onward stack rest result →
    Course skipStep (.value stack) (space ++ (text ++ rest)) result

theorem skipOne_spaced (stack : List Bracket) {space : Bytes} (blank : IsSpacing space)
    (s : Bytes) : skipOne stack (space ++ s) = skipOne stack s := by
  simp only [skipOne, skipSpace_append blank]

/-- A text that is skipped in one step, by the reader that its first byte selects. -/
theorem skips_of_scalar {b : UInt8} {tail : Bytes}
    (skip : Bytes → Except Fault Bytes)
    (selects : ∀ stack s, skipOne stack (b :: s) = do .ok (Skip.ofStack stack, ← skip s))
    (skipped : ∀ rest, Follows rest → skip (tail ++ rest) = .ok rest) : Skips (b :: tail) := by
  intro stack space rest result blank follows onward
  have stepped : skipStep (.value stack) (space ++ (b :: tail ++ rest)) =
      .ok (Skip.ofStack stack, rest) := by
    rw [skipStep, skipOne_spaced stack blank, List.cons_append, selects, skipped rest follows]
    rfl
  refine .onward stepped ?_ onward
  simp only [List.length_append, List.length_cons]
  omega

private theorem skips_literal {word : String} (listed : word ∈ literals) :
    Skips (Utf8.ofString word) := by
  simp only [literals, List.mem_cons, List.not_mem_nil, or_false] at listed
  obtain rfl | rfl | rfl := listed
  · exact skips_of_scalar (keyword (Utf8.ofString "ull")) (fun _ _ => rfl)
      fun rest _ => keyword_append _ rest
  · exact skips_of_scalar (keyword (Utf8.ofString "rue")) (fun _ _ => rfl)
      fun rest _ => keyword_append _ rest
  · exact skips_of_scalar (keyword (Utf8.ofString "alse")) (fun _ _ => rfl)
      fun rest _ => keyword_append _ rest

private theorem skips_positive {digits : Bytes} (magnitude : IsMagnitude digits) :
    Skips digits := by
  obtain ⟨b, tail, rfl, digit⟩ := begins_of_isMagnitude magnitude
  have visible := isSpace_of_isDigit digit
  refine skips_of_scalar (fun s => skipNumber (b :: s)) ?_
    fun rest follows => skipNumber_of_isMagnitude magnitude follows
  intro stack s
  have other (c : Char) (noDigit : isDigit (byte c) = false) : (b == byte c) = false :=
    beq_of_isDigit digit noDigit
  simp only [skipOne, skipSpace_cons visible, other 'n' (by decide), other 't' (by decide),
    other 'f' (by decide), other '-' (by decide), Bool.false_eq_true, if_false, digit, if_true]

private theorem skips_negative {digits : Bytes} (magnitude : IsMagnitude digits) :
    Skips (byte '-' :: digits) :=
  skips_of_scalar skipNumber (fun _ _ => rfl)
    fun _ follows => skipNumber_of_isMagnitude magnitude follows

private theorem skips_string {content : Bytes} (characters : IsContent content) :
    Skips (quoted content) := by
  refine skips_of_scalar skipString (fun _ _ => rfl) fun rest _ => ?_
  rw [List.append_assoc]
  exact skipString_of_isContent characters rest

/-! ## Brackets -/

/-- What is read next inside a bracket: its first item, or what follows one. -/
def Skip.inside (first : Bool) (top : Bracket) (stack : List Bracket) : Skip :=
  if first then .opened top stack else .after top stack

/-- An item that is skipped inside a bracket, first or behind a comma. -/
def SkipsIn (top : Bracket) (item : Bytes) : Prop :=
  ∀ {first : Bool} {lead space rest : Bytes} {stack : List Bracket}
    {result : Except Fault (Unit × Bytes)}, LeadIn first lead → IsSpacing space → Follows rest →
    Course skipStep (.after top stack) rest result →
    Course skipStep (.inside first top stack) (lead ++ (space ++ (item ++ rest))) result

private theorem skipsIn_square {item : Bytes} (begins : Begins item) (skips : Skips item) :
    SkipsIn .square item := by
  obtain ⟨b, tail, rfl, visible, notClosed, -⟩ := begins
  intro first lead space rest stack result before blank follows onward
  cases before with
  | first =>
    have course := skips (.square :: stack) [] rest result isSpacing_nil follows onward
    apply course.of_step_eq
    · simp only [Skip.inside, if_true, skipStep, List.nil_append, List.cons_append,
        skipSpace_append_cons blank visible, Bracket.close, beq_false_of_ne notClosed,
        Bool.false_eq_true, if_false]
    · simp only [List.nil_append, List.length_append]
      omega
  | later after =>
    have course := skips (.square :: stack) space rest result blank follows onward
    have comma : isSpace (byte ',') = false := by decide
    rw [List.append_assoc, List.singleton_append]
    apply course.of_step_eq
    · simp only [Skip.inside, Bool.false_eq_true, if_false, skipStep,
        skipSpace_append_cons after comma, beq_self_eq_true, if_true]
    · simp only [List.length_append, List.length_cons]
      omega

/-- A key and its colon are skipped. -/
theorem skipKey_of_entry {entry : ObjectEntry} (characters : IsContent entry.key)
    (spaced : IsSpacing entry.front) {space : Bytes} (blank : IsSpacing space) (rest : Bytes) :
    skipKey (space ++ (entry.text ++ rest)) = .ok (entry.back ++ (entry.value ++ rest)) := by
  have quote : isSpace (byte '"') = false := by decide
  rw [entry.text_append, skipKey, skipSpace_append_cons blank quote]
  simp only [beq_self_eq_true, if_true, skipString_of_isContent characters, bind, Except.bind,
    colon_of_spaced spaced]

private theorem skipsIn_curly {entry : ObjectEntry} (characters : IsContent entry.key)
    (spaced : IsSpacing entry.front ∧ IsSpacing entry.back) (skips : Skips entry.value) :
    SkipsIn .curly entry.text := by
  intro first lead space rest stack result before blank follows onward
  have course := skips (.curly :: stack) entry.back rest result spaced.2 follows onward
  refine .again ?_ ?_ course
  · cases before with
    | first =>
      have key := skipKey_of_entry characters spaced.1 isSpacing_nil rest
      obtain ⟨b, tail, shape, visible, -, notClosed⟩ := begins_entry entry
      rw [List.nil_append, shape, List.cons_append] at key
      simp only [Skip.inside, if_true, skipStep, shape, List.nil_append, List.cons_append,
        skipSpace_append_cons blank visible, Bracket.close, beq_false_of_ne notClosed,
        Bool.false_eq_true, if_false, key]
      rfl
    | later after =>
      have key := skipKey_of_entry characters spaced.1 blank rest
      have comma : isSpace (byte ',') = false := by decide
      rw [List.append_assoc, List.singleton_append]
      simp only [Skip.inside, Bool.false_eq_true, if_false, skipStep,
        skipSpace_append_cons after comma, beq_self_eq_true, if_true, key]
      rfl
  · simp only [ObjectEntry.text, quoted, List.length_append, List.length_cons]
    omega

/-- Items are skipped up to the bracket that closes them. -/
theorem course_of_remaining {top : Bracket} {first : Bool} {items : List Bytes} {content : Bytes}
    (remaining : Remaining first items content) (each : ∀ item ∈ items, SkipsIn top item)
    {stack : List Bracket} (onward : Onward stack rest result) :
    Course skipStep (.inside first top stack) (content ++ top.close :: rest) result := by
  induction remaining with
  | @none first space blank =>
    have visible : isSpace top.close = false := by cases top <;> decide
    have comma : (top.close == byte ',') = false := by cases top <;> decide
    refine .onward ?_ ?_ onward
    · cases first <;>
        simp [Skip.inside, skipStep, skipSpace_append_cons blank visible, comma]
    · rw [List.length_append, List.length_cons]
      omega
  | item before blank others ih =>
    obtain ⟨skips, eachOther⟩ := List.forall_mem_cons.mp each
    have ends : top.close = byte ',' ∨ top.close = byte ']' ∨ top.close = byte '\x7d' := by
      cases top <;> decide
    have item := skips before blank (others.follows ends) (ih eachOther)
    simpa only [List.append_assoc] using item

/-- A bracket whose items are skipped inside it is skipped itself. -/
theorem skips_of_listed (top : Bracket) {items : List Bytes} {content : Bytes}
    (listed : Listed items content) (each : ∀ item ∈ items, SkipsIn top item) {b : UInt8}
    (opens : ∀ stack s, skipOne stack (b :: s) = .ok (.again (.opened top stack), s)) :
    Skips (b :: (content ++ [top.close])) := by
  intro stack space rest result blank follows onward
  have inside := course_of_remaining listed.remaining each onward
  refine .again ?_ ?_ inside
  · rw [skipStep, skipOne_spaced stack blank, List.cons_append, opens, List.append_assoc]
    rfl
  · simp only [List.length_append, List.length_cons]
    omega

/-- Values of any depth are skipped. -/
theorem skips_of_isValue {value : Bytes} (isValue : IsValue value) : Skips value := by
  induction isValue with
  | literal listed => exact skips_literal listed
  | positive magnitude => exact skips_positive magnitude
  | negative magnitude => exact skips_negative magnitude
  | string characters => exact skips_string characters
  | list listed each ih =>
    refine skips_of_listed .square listed (fun item member => ?_) fun _ _ => rfl
    exact skipsIn_square (begins_of_isValue (each item member)) (ih item member)
  | object listed keys spaces each ih =>
    refine skips_of_listed .curly listed (fun item member => ?_) fun _ _ => rfl
    obtain ⟨entry, among, rfl⟩ := List.mem_map.mp member
    exact skipsIn_curly (keys entry among) (spaces entry among) (ih entry among)

/-- A value is skipped whole. -/
theorem skipValue_of_isValue {value space : Bytes} (isValue : IsValue value)
    (blank : IsSpacing space) (follows : Follows rest) :
    skipValue (space ++ (value ++ rest)) = .ok rest := by
  have course := skips_of_isValue isValue [] space rest _ blank follows rfl
  rw [skipValue, course.loop_eq]
  rfl

end FormatHost.Json
