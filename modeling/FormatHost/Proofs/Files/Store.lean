import FormatHost.Files.FileSystem

/-! # Entries of a file system

What is found at a place after an entry was put there or removed. Only the root cannot be changed.
A place where nothing is can be filled and cleared again without a trace.
-/

namespace FormatHost.FileSystem

variable {fs : FileSystem} {place other : Location} {entry : Entry}

theorem get?_of_ne_nil (fs : FileSystem) (below : place ≠ []) :
    fs.get? place = fs.entries.lookup place := by
  cases place with
  | nil => contradiction
  | cons name rest => rfl

@[simp] theorem get?_root (fs : FileSystem) : fs.get? [] = some .directory := rfl

theorem ne_nil_of_get?_eq_none (vacant : fs.get? place = none) : place ≠ [] := by
  rintro rfl
  simp at vacant

theorem lookup_cons_eq_ite (there : Location) (entry : Entry) (rest : List (Location × Entry))
    (place : Location) :
    ((there, entry) :: rest).lookup place =
      if place = there then some entry else rest.lookup place := by
  rw [List.lookup_cons]
  by_cases same : place = there
  · simp [same]
  · have test : (place == there) = false := beq_eq_false_iff_ne.mpr same
    simp only [test, if_neg same]

private theorem lookup_map_replace (entries : List (Location × Entry)) (place other : Location)
    (entry : Entry) :
    (entries.map fun e => if e.1 = place then (place, entry) else e).lookup other =
      if other = place then (entries.lookup place).map fun _ => entry
      else entries.lookup other := by
  induction entries with
  | nil => simp
  | cons e rest ih =>
    obtain ⟨there, old⟩ := e
    by_cases here : there = place
    · subst here
      simp only [List.map_cons, if_pos, lookup_cons_eq_ite, ih]
      split <;> rfl
    · simp only [List.map_cons, if_neg here, lookup_cons_eq_ite, ih]
      by_cases same : other = place
      · subst same
        simp [Ne.symm here]
      · simp [same]

/-- What is put at a place is found there, and nothing else changes. -/
theorem get?_put (fs : FileSystem) (below : place ≠ []) (entry : Entry) (other : Location) :
    (fs.put place entry).get? other = if other = place then some entry else fs.get? other := by
  by_cases root : other = []
  · subst root
    simp [Ne.symm below]
  rw [get?_of_ne_nil _ root, put]
  split
  · next present =>
    rw [get?_of_ne_nil fs below] at present
    rw [lookup_map_replace, get?_of_ne_nil fs root]
    split
    · obtain ⟨old, found⟩ := Option.isSome_iff_exists.mp present
      rw [found, Option.map_some]
    · rfl
  · next absent =>
    rw [get?_of_ne_nil fs below, Option.not_isSome_iff_eq_none] at absent
    rw [List.lookup_append, get?_of_ne_nil fs root, lookup_cons_eq_ite]
    by_cases same : other = place
    · subst same
      rw [absent, if_pos rfl, if_pos rfl, Option.none_or]
    · rw [if_neg same, if_neg same, List.lookup_nil, Option.or_none]

@[simp] theorem get?_put_self (fs : FileSystem) (below : place ≠ []) (entry : Entry) :
    (fs.put place entry).get? place = some entry := by
  rw [get?_put fs below, if_pos rfl]

theorem get?_put_of_ne (fs : FileSystem) (below : place ≠ []) (entry : Entry)
    (different : other ≠ place) : (fs.put place entry).get? other = fs.get? other := by
  rw [get?_put fs below, if_neg different]

@[simp] theorem workingDirectory_put (fs : FileSystem) (place : Location) (entry : Entry) :
    (fs.put place entry).workingDirectory = fs.workingDirectory := by
  unfold put
  split <;> rfl

@[simp] theorem workingDirectory_erase (fs : FileSystem) (place : Location) :
    (fs.erase place).workingDirectory = fs.workingDirectory := rfl

theorem put_of_vacant (vacant : fs.get? place = none) (entry : Entry) :
    fs.put place entry = { fs with entries := fs.entries ++ [(place, entry)] } := by
  simp [put, vacant]

theorem ne_of_mem_entries (vacant : fs.get? place = none) {e : Location × Entry}
    (member : e ∈ fs.entries) : e.1 ≠ place := by
  rw [get?_of_ne_nil fs (ne_nil_of_get?_eq_none vacant), List.lookup_eq_none_iff] at vacant
  intro same
  have different := vacant e member
  simp [same] at different

/-- Clearing a place that was filled where nothing was leaves no trace. -/
theorem erase_put_of_vacant (vacant : fs.get? place = none) (entry : Entry) :
    (fs.put place entry).erase place = fs := by
  have kept : fs.entries.filter (fun e => e.1 != place) = fs.entries := by
    rw [List.filter_eq_self]
    intro e member
    simpa using ne_of_mem_entries vacant member
  rw [put_of_vacant vacant, erase]
  simp [kept]

/-- Of two entries put at a place where nothing was, only the second one counts. -/
theorem put_put_of_vacant (vacant : fs.get? place = none) (first second : Entry) :
    (fs.put place first).put place second = fs.put place second := by
  have below := ne_nil_of_get?_eq_none vacant
  have kept : fs.entries.map (fun e => if e.1 = place then (place, second) else e) =
      fs.entries := by
    have each : ∀ e ∈ fs.entries, (if e.1 = place then (place, second) else e) = e := by
      intro e member
      rw [if_neg (ne_of_mem_entries vacant member)]
    rw [List.map_congr_left each, List.map_id']
  have present : ((fs.put place first).get? place).isSome = true := by
    rw [get?_put_self fs below]
    rfl
  rw [put, if_pos present, put_of_vacant vacant, put_of_vacant vacant]
  simp [kept]

end FormatHost.FileSystem
