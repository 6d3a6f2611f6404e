import FormatHost.Proofs.Json.Skipping

/-! # Lists and records are read as they are written

A list holds what its items are read as, and fails if one of them does. A record is read from an
object member by member, unknown ones passed over, or from a list of its fields in their own order;
what it comes to is what its fields do to a draft, one after the other.
-/

namespace FormatHost.Json

variable {σ α : Type} {rest : Bytes}

/-! ## Items -/

/-- An item is found behind the comma and the space in front of it. -/
theorem nextElement_of_begins {first : Bool} {lead space text : Bytes} (before : LeadIn first lead)
    (blank : IsSpacing space) (begins : Begins text) (rest : Bytes) :
    nextElement first (lead ++ (space ++ (text ++ rest))) = .ok (some (text ++ rest)) := by
  obtain ⟨b, tail, rfl, visible, notClosed, -⟩ := begins
  have close := beq_false_of_ne notClosed
  cases before with
  | first =>
    simp only [List.nil_append, List.cons_append, nextElement, skipSpace_append_cons blank visible,
      close, Bool.false_eq_true, if_false, if_true]
  | later after =>
    have comma : isSpace (byte ',') = false := by decide
    have mark : (byte ',' == byte ']') = false := by decide
    rw [List.append_assoc, List.singleton_append]
    simp only [List.cons_append, nextElement, skipSpace_append_cons after comma, mark,
      Bool.false_eq_true, if_false, beq_self_eq_true, if_true, skipSpace_append_cons blank visible,
      close]

theorem nextElement_of_close (first : Bool) {space : Bytes} (blank : IsSpacing space)
    (rest : Bytes) : nextElement first (space ++ byte ']' :: rest) = .ok none := by
  have close : isSpace (byte ']') = false := by decide
  simp only [nextElement, skipSpace_append_cons blank close, beq_self_eq_true, if_true]

theorem closeList_of_close {space : Bytes} (blank : IsSpacing space) (rest : Bytes) :
    closeList (space ++ byte ']' :: rest) = .ok rest := by
  have close : isSpace (byte ']') = false := by decide
  simp only [closeList, skipSpace_append_cons blank close, beq_self_eq_true, if_true]

theorem skipSpace_square {space : Bytes} (blank : IsSpacing space) (content rest : Bytes) :
    skipSpace (space ++ (square content ++ rest)) = byte '[' :: (content ++ byte ']' :: rest) := by
  rw [square, List.cons_append, List.append_assoc, List.singleton_append]
  exact skipSpace_append_cons blank (by decide) _

theorem skipSpace_curly {space : Bytes} (blank : IsSpacing space) (content rest : Bytes) :
    skipSpace (space ++ (curly content ++ rest)) =
      byte '\x7b' :: (content ++ byte '\x7d' :: rest) := by
  rw [curly, List.cons_append, List.append_assoc, List.singleton_append]
  exact skipSpace_append_cons blank (by decide) _

/-! ## Lists -/

/-- The effect of an element: it is put in front of those read before it. -/
def gather (value : Option α) (read : List α) : Option (List α) :=
  value.map (· :: read)

theorem Reads.takes {item : Reader α} {text : Bytes} {value : Option α}
    (reads : Reads item text value) (begins : Begins text) :
    Takes (elementStep item) text (gather value) := by
  constructor
  · obtain ⟨b, tail, rfl, -⟩ := begins
    exact List.cons_ne_nil _ _
  · intro first lead values space rest before blank follows
    have found := nextElement_of_begins before blank begins rest
    have outcome := reads [] rest isSpacing_nil follows
    rw [List.nil_append] at outcome
    simp only [elementStep, found, bind, Except.bind]
    cases value with
    | none =>
      obtain ⟨fault, failed⟩ := outcome
      exact ⟨fault, by rw [failed]⟩
    | some value =>
      have passed : item (text ++ rest) = .ok (value, rest) := outcome
      change _ = _
      rw [passed]

private theorem runAll_gather (values : List (Option α)) (read : List α) :
    runAll (values.map gather) read = (values.mapM id).map fun list => list.reverse ++ read := by
  induction values generalizing read with
  | nil => rfl
  | cons value values ih =>
    cases value with
    | none => rfl
    | some value =>
      simp only [List.map_cons, runAll_cons, gather, Option.map_some, Option.bind_some, ih,
        List.mapM_cons, id_eq, Option.bind_eq_bind]
      cases values.mapM id with
      | none => rfl
      | some list => simp

/-- A list is read as its items are, if one more bracket may be opened. -/
theorem reads_readList {item : Reader α} {texts : List Bytes} {values : List (Option α)}
    {content : Bytes} (listed : Listed texts content) (begins : ∀ text ∈ texts, Begins text)
    (each : List.Forall₂ (Reads item) texts values) :
    Reads (readList true item) (square content) (values.mapM id) := by
  have taken : List.Forall₂ (Takes (elementStep item)) texts (values.map gather) := by
    clear listed
    induction each with
    | nil => exact .nil
    | cons reads _ ih =>
      obtain ⟨first, others⟩ := List.forall_mem_cons.mp begins
      exact .cons (reads.takes first) (ih others)
  intro space rest blank follows
  have opened := skipSpace_square blank content rest
  have closes (first : Bool) (read : List α) (space rest : Bytes) (blank : IsSpacing space) :
      elementStep item (first, read) (space ++ byte ']' :: rest) =
        .ok (.done read.reverse, rest) := by
    simp only [elementStep, nextElement_of_close first blank, closeList_of_close blank, bind,
      Except.bind]
  have loop := loop_of_listed (.inr (.inl rfl)) closes listed taken [] rest
  rw [runAll_gather, Option.map_map] at loop
  simp only [readList, opened, beq_self_eq_true, if_true]
  simpa [Function.comp_def] using loop

/-- No list is read without room for its bracket. -/
theorem reads_readList_false (item : Reader α) (content : Bytes) :
    Reads (readList false item) (square content) none := by
  intro space rest blank follows
  have opened := skipSpace_square blank content rest
  refine ⟨⟨.tooDeep, content ++ byte ']' :: rest⟩, ?_⟩
  simp only [readList, opened, beq_self_eq_true, if_true, Bool.false_eq_true, if_false]
  rfl

/-! ## Members of objects -/

/-- A key is found behind the comma and the space in front of it. -/
theorem nextKey_of_entry {first : Bool} {lead space : Bytes} (before : LeadIn first lead)
    (blank : IsSpacing space) (entry : ObjectEntry) (rest : Bytes) :
    nextKey first (lead ++ (space ++ (entry.text ++ rest))) =
      .ok (true, entry.key ++ byte '"' ::
        (entry.front ++ byte ':' :: (entry.back ++ (entry.value ++ rest)))) := by
  have quote : isSpace (byte '"') = false := by decide
  have visible : (byte '"' == byte '\x7d') = false := by decide
  rw [entry.text_append]
  cases before with
  | first =>
    simp only [List.nil_append, nextKey, skipSpace_append_cons blank quote, visible,
      Bool.false_eq_true, if_false, beq_self_eq_true, if_true]
  | later after =>
    have comma : isSpace (byte ',') = false := by decide
    have mark : (byte ',' == byte '\x7d') = false := by decide
    rw [List.append_assoc, List.singleton_append]
    simp only [nextKey, skipSpace_append_cons after comma, mark, Bool.false_eq_true, if_false,
      beq_self_eq_true, if_true, skipSpace_append_cons blank quote]

section Members

variable {slots : List (Slot σ)} {key : String} {entry : ObjectEntry}

/-- A member whose key is no field's is passed over. -/
theorem takes_unknown (spelled : Spells key.toList entry.key)
    (spaced : IsSpacing entry.front ∧ IsSpacing entry.back) (isValue : IsValue entry.value)
    (unknown : slots.find? (·.name == key) = none) :
    Takes (memberStep slots) entry.text some := by
  constructor
  · obtain ⟨b, tail, shape, -⟩ := begins_entry entry
    rw [shape]
    exact List.cons_ne_nil _ _
  · intro first lead draft space rest before blank follows
    change _ = _
    simp only [memberStep, nextKey_of_entry before blank entry rest, bind, Except.bind, if_true,
      string_of_spells spelled, String.ofList_toList, unknown, colon_of_spaced spaced.1,
      skipValue_of_isValue isValue spaced.2 follows]

/-- A member whose key is that of a field is read into the draft, unless the draft has it. -/
theorem takes_field {slot : Slot σ} {effect : σ → Option σ} (spelled : Spells key.toList entry.key)
    (spaced : IsSpacing entry.front ∧ IsSpacing entry.back)
    (found : slots.find? (·.name == key) = some slot)
    (reads : ∀ draft, Reads (slot.read draft) entry.value (effect draft)) :
    Takes (memberStep slots) entry.text
      fun draft => if slot.filled draft then none else effect draft := by
  constructor
  · obtain ⟨b, tail, shape, -⟩ := begins_entry entry
    rw [shape]
    exact List.cons_ne_nil _ _
  · intro first lead draft space rest before blank follows
    simp only [memberStep, nextKey_of_entry before blank entry rest, bind, Except.bind, if_true,
      string_of_spells spelled, String.ofList_toList, found]
    split
    · exact ⟨_, rfl⟩
    · have read := reads draft entry.back rest spaced.2 follows
      simp only [colon_of_spaced spaced.1]
      cases outcome : effect draft with
      | none =>
        rw [outcome] at read
        obtain ⟨fault, failed⟩ := read
        exact ⟨fault, by rw [failed]⟩
      | some next =>
        rw [outcome] at read
        have passed : slot.read draft _ = .ok (next, rest) := read
        change _ = _
        rw [passed]

end Members

/-- A record is read from an object as its members say. -/
theorem Record.reads_curly (record : Record σ α) {texts : List Bytes} {content : Bytes}
    (listed : Listed texts content) {effects : List (σ → Option σ)}
    (taken : List.Forall₂ (Takes (memberStep record.slots)) texts effects) :
    Reads (record.read true) (curly content)
      ((runAll effects record.blank).bind fun draft => (record.complete draft).toOption) := by
  intro space rest blank follows
  have opened := skipSpace_curly blank content rest
  have closes (first : Bool) (draft : σ) (space rest : Bytes) (blank : IsSpacing space) :
      memberStep record.slots (first, draft) (space ++ byte '\x7d' :: rest) =
        .ok (.done draft, rest) := by
    have close : isSpace (byte '\x7d') = false := by decide
    simp only [memberStep, nextKey, skipSpace_append_cons blank close, beq_self_eq_true, if_true,
      bind, Except.bind, Bool.false_eq_true, if_false]
  have loop := loop_of_listed (.inr (.inr rfl)) closes listed taken record.blank rest
  rw [Option.map_id'] at loop
  simp only [Record.read, opened, beq_self_eq_true, if_true, Record.readObject]
  refine loop.bind fun draft _ => ?_
  dsimp only
  cases record.complete draft with
  | ok value => exact rfl
  | error field => exact ⟨_, rfl⟩

/-! ## Fields in their own order -/

private theorem readInOrder_of_close (slots : List (Slot σ)) (first : Bool) (count : ℕ) (draft : σ)
    {space : Bytes} (blank : IsSpacing space) (rest : Bytes) :
    readInOrder slots first count draft (space ++ byte ']' :: rest) =
      .ok ((draft, count), space ++ byte ']' :: rest) := by
  cases slots with
  | nil => rfl
  | cons slot slots =>
    rw [readInOrder, nextElement_of_close first blank]
    rfl

/-- A slot that reads an item into the draft. -/
def Slot.ReadsItem (slot : Slot σ) (item : Bytes × (σ → Option σ)) : Prop :=
  Begins item.1 ∧ ∀ draft, Reads (slot.read draft) item.1 (item.2 draft)

/-- The first fields are read in their order, as many as there are. -/
theorem readInOrder_of_remaining {filled : List (Slot σ)} {items : List (Bytes × (σ → Option σ))}
    (each : List.Forall₂ Slot.ReadsItem filled items) (unfilled : List (Slot σ)) {first : Bool}
    {content : Bytes} (remaining : Remaining first (items.map Prod.fst) content) (count : ℕ)
    (draft : σ) (rest : Bytes) :
    ∃ space, IsSpacing space ∧
      Yields (readInOrder (filled ++ unfilled) first count draft (content ++ byte ']' :: rest))
        ((runAll (items.map Prod.snd) draft).map fun draft => (draft, count + items.length))
        (space ++ byte ']' :: rest) := by
  induction each generalizing first content count draft with
  | nil =>
    cases remaining with
    | none blank =>
      exact ⟨content, blank, readInOrder_of_close unfilled first count draft blank rest⟩
  | @cons slot item filled items reads _ ih =>
    cases remaining with
    | @item _ lead space _ tail _ before blank others =>
      obtain ⟨begins, reads⟩ := reads
      have follows : Follows (tail ++ byte ']' :: rest) := others.follows (.inr (.inl rfl))
      have found := nextElement_of_begins before blank begins (tail ++ byte ']' :: rest)
      have outcome := reads draft [] (tail ++ byte ']' :: rest) isSpacing_nil follows
      rw [List.nil_append] at outcome
      simp only [List.append_assoc, List.cons_append, readInOrder, found, bind, Except.bind,
        List.map_cons, runAll_cons]
      cases effect : item.2 draft with
      | none =>
        rw [effect] at outcome
        obtain ⟨fault, failed⟩ := outcome
        refine ⟨[], isSpacing_nil, fault, ?_⟩
        rw [failed]
      | some next =>
        rw [effect] at outcome
        have passed : slot.read draft _ = .ok (next, _) := outcome
        obtain ⟨space, blank, later⟩ := ih others (count + 1) next
        refine ⟨space, blank, ?_⟩
        rw [passed]
        simpa only [Option.bind_some, List.length_cons, Nat.add_assoc, Nat.add_comm 1] using later

/-- A record is read from a list of its first fields as these say, if none is missing that may not
be absent. -/
theorem Record.reads_square (record : Record σ α) {filled unfilled : List (Slot σ)}
    (slots : record.slots = filled ++ unfilled) {items : List (Bytes × (σ → Option σ))}
    (each : List.Forall₂ Slot.ReadsItem filled items) {content : Bytes}
    (listed : Listed (items.map Prod.fst) content) (enough : record.required ≤ items.length) :
    Reads (record.read true) (square content)
      ((runAll (items.map Prod.snd) record.blank).bind fun draft =>
        (record.complete draft).toOption) := by
  intro space rest blank follows
  have opened := skipSpace_square blank content rest
  obtain ⟨space, blank, fields⟩ :=
    readInOrder_of_remaining each unfilled listed.remaining 0 record.blank rest
  rw [← slots, Nat.zero_add] at fields
  have object : (byte '[' == byte '\x7b') = false := by decide
  simp only [Record.read, opened, object, Bool.false_eq_true, if_false, beq_self_eq_true, if_true,
    Record.readFields]
  have short : ¬ items.length < record.required := Nat.not_lt.mpr enough
  cases outcome : runAll (items.map Prod.snd) record.blank with
  | none =>
    rw [outcome] at fields
    obtain ⟨fault, failed⟩ := fields
    exact ⟨fault, by rw [failed]; rfl⟩
  | some draft =>
    rw [outcome] at fields
    have passed : readInOrder record.slots true 0 record.blank _ =
      .ok ((draft, items.length), space ++ byte ']' :: rest) := fields
    simp only [passed, bind, Except.bind, short, if_false, Option.bind_some]
    cases record.complete draft with
    | ok value =>
      change _ = _
      simp only [closeList_of_close blank]
    | error field => exact ⟨_, rfl⟩

/-- No record is read without room for its bracket. -/
theorem Record.reads_false (record : Record σ α) {text : Bytes} {content : Bytes}
    (shape : text = curly content ∨ text = square content) :
    Reads (record.read false) text none := by
  intro space rest blank follows
  obtain rfl | rfl := shape
  · refine ⟨⟨.tooDeep, content ++ byte '\x7d' :: rest⟩, ?_⟩
    simp only [Record.read, skipSpace_curly blank, beq_self_eq_true, if_true, Bool.false_eq_true,
      if_false]
    rfl
  · refine ⟨⟨.tooDeep, content ++ byte ']' :: rest⟩, ?_⟩
    have object : (byte '[' == byte '\x7b') = false := by decide
    simp only [Record.read, skipSpace_square blank, object, beq_self_eq_true, if_true,
      Bool.false_eq_true, if_false]
    rfl

end FormatHost.Json
