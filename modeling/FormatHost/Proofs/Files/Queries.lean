import FormatHost.Proofs.Files.Walk

/-! # Questions about paths

When a path is found, which directory its last name is in, and what moving a file onto it does, in
terms of where its names lead. A path that has a canonical place leads there by the names of that
place too.
-/

namespace FormatHost

namespace FileSystem

variable {fs : FileSystem} {follow : Bool} {path : String} {place directory : Location}
  {spot : Spot} {entry : Entry}

theorem resolve_eq_ok_iff :
    fs.resolve follow path = .ok spot ↔
      checkPath path = .ok () ∧
        Leads fs follow mostLinks (fs.origin path) (Path.steps path) spot := by
  rw [resolve, bind_eq_ok_iff]
  constructor
  · rintro ⟨⟨⟩, checked, found⟩
    exact ⟨checked, walk_eq_ok_iff.mp found⟩
  · rintro ⟨checked, leads⟩
    exact ⟨(), checked, walk_eq_ok_iff.mpr leads⟩

private theorem occupant_eq_ok_iff :
    occupant spot = .ok (place, entry) ↔ spot = .entry place entry := by
  cases spot <;> simp [occupant]

theorem find_eq_ok_iff :
    fs.find follow path = .ok (place, entry) ↔
      fs.resolve follow path = .ok (.entry place entry) := by
  rw [find, bind_eq_ok_iff]
  simp only [occupant_eq_ok_iff, exists_eq_right]

theorem findDirectory_eq_ok_iff :
    fs.findDirectory path = .ok place ↔ fs.resolve true path = .ok (.entry place .directory) := by
  rw [← find_eq_ok_iff, findDirectory, bind_eq_ok_iff]
  constructor
  · rintro ⟨⟨there, entry⟩, found, shape⟩
    cases entry with
    | directory =>
      obtain rfl := Except.ok.inj shape
      exact found
    | _ => contradiction
  · intro found
    exact ⟨_, found, rfl⟩

theorem findParent_eq_ok_iff :
    fs.findParent path = .ok directory ↔
      Leads fs true mostLinks (fs.origin path) ((Path.names path).dropLast ++ ["."])
        (.entry directory .directory) := by
  rw [findParent, bind_eq_ok_iff]
  simp only [walk_eq_ok_iff]
  constructor
  · rintro ⟨spot, leads, shape⟩
    obtain ⟨place, left, rfl, -⟩ := leads.append
    obtain rfl := Except.ok.inj shape
    exact leads
  · intro leads
    exact ⟨_, leads, rfl⟩

@[simp] theorem origin_put (fs : FileSystem) (place : Location) (entry : Entry) (path : String) :
    (fs.put place entry).origin path = fs.origin path := by
  rw [origin, workingDirectory_put, origin]

/-- A directory is still found when something was put where nothing was. -/
theorem findDirectory_put (vacant : fs.get? place = none) (entry : Entry)
    (found : fs.findDirectory path = .ok directory) :
    (fs.put place entry).findDirectory path = .ok directory := by
  obtain ⟨checked, leads⟩ := resolve_eq_ok_iff.mp (findDirectory_eq_ok_iff.mp found)
  refine findDirectory_eq_ok_iff.mpr (resolve_eq_ok_iff.mpr ⟨checked, ?_⟩)
  rw [origin_put]
  exact leads.extend (extends_put vacant entry)

/-- The directory of the last name is the same as before a file was put where nothing was. -/
theorem findParent_of_put {data : Bytes} {mode : Nat} (vacant : fs.get? place = none)
    (found : (fs.put place (.file data mode)).findParent path = .ok directory) :
    fs.findParent path = .ok directory := by
  have leads := findParent_eq_ok_iff.mp found
  rw [origin_put] at leads
  exact findParent_eq_ok_iff.mpr (leads.of_put_file vacant)

/-- The directory of the last name is still found when something was put where nothing was. -/
theorem findParent_put (vacant : fs.get? place = none) (entry : Entry)
    (found : fs.findParent path = .ok directory) :
    (fs.put place entry).findParent path = .ok directory := by
  have leads := findParent_eq_ok_iff.mp found
  apply findParent_eq_ok_iff.mpr
  rw [origin_put]
  exact leads.extend (extends_put vacant entry)

theorem canonical?_eq_some_iff :
    fs.canonical? path = some place ↔
      path ≠ "" ∧ '\x00' ∉ path.toList ∧
        ∃ entry, Leads fs true mostLinks (fs.origin path) (Path.steps path)
          (.entry place entry) := by
  simp only [← walk_eq_ok_iff]
  unfold canonical?
  split
  · next bad =>
    have refused : ¬(path ≠ "" ∧ '\x00' ∉ path.toList) := by
      simpa [imp_iff_not_or] using bad
    simp only [reduceCtorEq, ← and_assoc, refused, false_and]
  · next good =>
    have given : path ≠ "" ∧ '\x00' ∉ path.toList := by
      simpa using good
    rw [← and_assoc, and_iff_right given]
    split
    · next there entry found => simp [found]
    · next other =>
      simp only [reduceCtorEq, false_iff, not_exists]
      exact fun entry found => other place entry found

theorem checkPath_eq_ok_iff :
    checkPath path = .ok () ↔
      '\x00' ∉ path.toList ∧ path ≠ "" ∧ path.utf8ByteSize ≤ longestPath := by
  unfold checkPath
  split
  · simp_all
  · split
    · simp_all
    · split
      · simp_all
      · simp_all

theorem checkTarget_eq_ok_iff : checkTarget path = .ok () ↔ checkPath path = .ok () := by
  unfold checkTarget
  split <;> simp_all

/-- Whether a file can be moved onto a path, whose last name is looked up in its parent. -/
structure IsTarget (fs : FileSystem) (path : String) (parent : Location) (name : String) :
    Prop where
  checked : checkPath path = .ok ()
  noSlash : Path.endsWithSlash path = false
  last : ∃ front, Path.names path = front ++ [name]
  proper : IsLookedUp name
  found : fs.findParent path = .ok parent
  noDirectory : fs.get? (parent ++ [name]) ≠ some .directory

/-- A target is the same as before a file was put where nothing was. -/
theorem IsTarget.of_put {data : Bytes} {mode : Nat} {parent : Location} {name : String}
    (vacant : fs.get? place = none)
    (target : (fs.put place (.file data mode)).IsTarget path parent name) :
    fs.IsTarget path parent name where
  checked := target.checked
  noSlash := target.noSlash
  last := target.last
  proper := target.proper
  found := findParent_of_put vacant target.found
  noDirectory := fun found => target.noDirectory (extends_put vacant _ _ _ found)

/-- A target stays one when a file was put where nothing was. -/
theorem IsTarget.put {data : Bytes} {mode : Nat} {parent : Location} {name : String}
    (vacant : fs.get? place = none) (target : fs.IsTarget path parent name) :
    (fs.put place (.file data mode)).IsTarget path parent name where
  checked := target.checked
  noSlash := target.noSlash
  last := target.last
  proper := target.proper
  found := findParent_put vacant _ target.found
  noDirectory := by
    rw [get?_put fs (ne_nil_of_get?_eq_none vacant)]
    split
    · simp
    · exact target.noDirectory

/-- What a move that succeeded was given, and what it did. -/
theorem rename_eq_ok {directory name : String} {after : FileSystem}
    (moved : fs.rename directory name path = .ok after) :
    ∃ source parent target entry,
      fs.findDirectory directory = .ok source ∧ fs.get? (source ++ [name]) = some entry ∧
      fs.IsTarget path parent target ∧
      after = (fs.erase (source ++ [name])).put (parent ++ [target]) entry := by
  unfold rename at moved
  obtain ⟨⟨⟩, checked, moved⟩ := bind_eq_ok_iff.mp moved
  obtain ⟨source, found, moved⟩ := bind_eq_ok_iff.mp moved
  split at moved
  · contradiction
  · next target last =>
    obtain ⟨parent, above, moved⟩ := bind_eq_ok_iff.mp moved
    -- each of the remaining checks refuses the move or is passed
    split at moved
    · contradiction
    · next proper =>
      split at moved
      · contradiction
      · next entry there =>
        split at moved
        · contradiction
        · next short =>
          split at moved
          · contradiction
          · next noSlash =>
            split at moved
            · contradiction
            · next noDirectory =>
              simp only [Bool.or_eq_true, decide_eq_true_eq, not_or] at proper
              refine ⟨source, parent, target, entry, found, there, ?_, (Except.ok.inj moved).symm⟩
              exact {
                checked := checkTarget_eq_ok_iff.mp checked
                noSlash := by simpa using noSlash
                last := List.getLast?_eq_some_iff.mp last
                proper := isLookedUp_of_not proper.1 proper.2 short
                found := above
                noDirectory := noDirectory }

/-- A file that is there can be moved onto a target. -/
theorem rename_of_isTarget {directory name last : String} {source parent : Location}
    (found : fs.findDirectory directory = .ok source)
    (there : fs.get? (source ++ [name]) = some entry) (target : fs.IsTarget path parent last) :
    ∃ after, fs.rename directory name path = .ok after := by
  have checked : checkTarget path = .ok () := checkTarget_eq_ok_iff.mpr target.checked
  have named : (Path.names path).getLast? = some last :=
    List.getLast?_eq_some_iff.mpr target.last
  obtain ⟨stays, climbs, short⟩ := target.proper
  have moves : ¬(decide (last = ".") || decide (last = "..")) = true := by
    simp [stays, climbs]
  unfold rename
  simp only [checked, found, named, target.found, bind, Except.bind, there, if_neg moves,
    if_neg (Nat.not_lt.mpr short), target.noSlash, Bool.false_eq_true, if_false]
  split
  · next directory => exact absurd directory target.noDirectory
  · exact ⟨_, rfl⟩

theorem canonical?_of_resolve (found : fs.resolve true path = .ok (.entry place entry)) :
    fs.canonical? path = some place := by
  obtain ⟨checked, leads⟩ := resolve_eq_ok_iff.mp found
  obtain ⟨clear, nonempty, -⟩ := checkPath_eq_ok_iff.mp checked
  exact canonical?_eq_some_iff.mpr ⟨nonempty, clear, entry, leads⟩

theorem mode?_eq_some_iff {mode : Nat} :
    fs.mode? path = some mode ↔
      ∃ place data, fs.resolve true path = .ok (.entry place (.file data mode)) := by
  simp only [← find_eq_ok_iff]
  unfold mode?
  split
  · next place data rights found => simp [found]
  · next other =>
    simp only [reduceCtorEq, false_iff, not_exists]
    exact fun place data found => other place data mode found

end FileSystem

end FormatHost
