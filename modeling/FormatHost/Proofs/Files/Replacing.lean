import FormatHost.Proofs.Destination.AllOrNothing

/-! # Files that are replaced

When a file takes the place of another one, every path that led to the old file leads to the new
one, and every other path to a file leads where it led before: links and directories on the way are
the same. So a path can be read after the replacement exactly as it could before.
-/

namespace FormatHost

namespace FileSystem

/-- Whether two file systems differ in the file at one place only. -/
structure Replaces (before : FileSystem) (place : Location) (data : Bytes) (mode : Nat)
    (after : FileSystem) : Prop where
  wasFile : ∃ old rights, before.get? place = some (.file old rights)
  workingDirectory : after.workingDirectory = before.workingDirectory
  get? : ∀ other, after.get? other =
    if other = place then some (.file data mode) else before.get? other

variable {before after : FileSystem} {place there : Location} {data old : Bytes}
  {mode rights : Nat} {path : String}

/-- What is no file has not changed. -/
theorem Replaces.keeps (replaces : before.Replaces place data mode after) {other : Location}
    {entry : Entry} (found : before.get? other = some entry)
    (noFile : ∀ old rights, entry ≠ .file old rights) : after.get? other = some entry := by
  rw [replaces.get?, if_neg, found]
  rintro rfl
  obtain ⟨old, rights, same⟩ := replaces.wasFile
  exact noFile old rights (Option.some.inj (found.symm.trans same))

theorem Replaces.rooted (replaces : before.Replaces place data mode after)
    (rooted : before.Rooted before.workingDirectory) : after.Rooted after.workingDirectory := by
  rw [replaces.workingDirectory]
  exact rooted.keep fun other found => replaces.keeps found nofun

/-- Names that led to a file lead to the file at the same place. -/
theorem Replaces.leads (replaces : before.Replaces place data mode after) {follow : Bool}
    {links : Nat} {here : Location} {names : List String}
    (leads : Leads before follow links here names (.entry there (.file old rights))) :
    Leads after follow links here names
      (.entry there (if there = place then .file data mode else .file old rights)) := by
  generalize target : Spot.entry there (.file old rights) = spot at leads
  induction leads with
  | arrive => cases target
  | stay _ ih => exact .stay (ih target)
  | climb _ ih => exact .climb (ih target)
  | enter proper found _ ih => exact .enter proper (replaces.keeps found nofun) (ih target)
  | @file _ here name _ _ proper found =>
    cases target
    have there := replaces.get? (here ++ [name])
    split
    · next same =>
      rw [if_pos same] at there
      exact .file proper there
    · next different =>
      rw [if_neg different, found] at there
      exact .file proper there
  | miss => cases target
  | keep => cases target
  | follow proper found moves _ ih =>
    exact .follow proper (replaces.keeps found nofun) moves (ih target)

/-- Names that lead to anything but a directory lead to where that is. -/
theorem Leads.get?_of_entry {fs : FileSystem} {follow : Bool} {links : Nat} {here : Location}
    {names : List String} {entry : Entry}
    (leads : Leads fs follow links here names (.entry place entry))
    (other : entry ≠ .directory) : fs.get? place = some entry := by
  generalize target : Spot.entry place entry = spot at leads
  induction leads with
  | arrive =>
    cases target
    contradiction
  | stay _ ih => exact ih target
  | climb _ ih => exact ih target
  | enter _ _ _ ih => exact ih target
  | file _ there =>
    cases target
    exact there
  | miss => cases target
  | keep _ there =>
    cases target
    exact there
  | follow _ _ _ _ ih => exact ih target

theorem get?_of_resolve {fs : FileSystem} {follow : Bool}
    (found : fs.resolve follow path = .ok (.entry place (.file data mode))) :
    fs.get? place = some (.file data mode) :=
  (resolve_eq_ok_iff.mp found).2.get?_of_entry nofun

/-- A file is read at the place that its path leads to. -/
theorem readFile_eq_ok_iff {fs : FileSystem} :
    fs.readFile path = .ok data ↔
      ∃ place mode, fs.resolve true path = .ok (.entry place (.file data mode)) := by
  simp only [← find_eq_ok_iff, readFile, bind_eq_ok_iff]
  constructor
  · rintro ⟨⟨place, entry⟩, found, read⟩
    cases entry with
    | file bytes mode =>
      obtain rfl := Except.ok.inj read
      exact ⟨place, mode, found⟩
    | link target => cases read
    | directory => cases read
  · rintro ⟨place, mode, found⟩
    exact ⟨_, found, rfl⟩

/-- A path that led to a file leads to the file at the same place. -/
theorem Replaces.resolve (replaces : before.Replaces place data mode after)
    (found : before.resolve true path = .ok (.entry there (.file old rights))) :
    after.resolve true path =
      .ok (.entry there (if there = place then .file data mode else .file old rights)) := by
  obtain ⟨checked, leads⟩ := resolve_eq_ok_iff.mp found
  have origin : after.origin path = before.origin path := by
    rw [origin, replaces.workingDirectory, origin]
  refine resolve_eq_ok_iff.mpr ⟨checked, ?_⟩
  rw [origin]
  exact replaces.leads leads

end FileSystem

/-- Writing to a path that leads to a file replaces that file. -/
theorem Destination.stream_file_replaces {machine after : Machine} {path : String}
    {place : Location} {old bytes : Bytes} {rights written : Nat} {medium : Medium}
    (rooted : machine.files.Rooted machine.files.workingDirectory)
    (found : machine.files.resolve true path = .ok (.entry place (.file old rights)))
    (streamed : (Destination.file path).stream machine [.ok bytes] medium = (.ok written, after)) :
    after.console = machine.console ∧
      ∃ mode, machine.files.Replaces place bytes mode after.files := by
  rcases stream_file_cases medium machine path [.ok bytes] with
    ⟨e, failed⟩ | ⟨parts, parent, name, files, whole, target, succeeded, workingDirectory, frame⟩
  · rw [failed] at streamed
    cases streamed
  · have ok_injective : Function.Injective (Except.ok : Bytes → Except FormatFailure Bytes) :=
      fun _ _ => Except.ok.inj
    obtain rfl : [bytes] = parts := List.map_injective_iff.mpr ok_injective whole
    have canonical := FileSystem.canonical?_of_resolve found
    rw [finalPath, canonical] at target
    obtain ⟨rfl, wasFile⟩ := target.of_canonical rooted canonical
    rw [succeeded] at streamed
    obtain ⟨-, rfl⟩ := Prod.mk.inj streamed
    rw [List.flatten_singleton] at frame
    exact ⟨rfl, _, wasFile, workingDirectory, frame⟩

end FormatHost
