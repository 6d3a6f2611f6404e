import FormatHost.Proofs.Files.Replacing

/-! # Files that are written through links

A path can name a link, which leads on, perhaps over other links, to a file or to a place where
nothing is yet. If there is something where the link leads, it is what gets written, and the path
leads to the same place afterwards. But a path that leads to nothing has no canonical place and is
kept as the path of the target, so that the new file takes the place of the link and nothing comes
to be where the link leads.
-/

namespace FormatHost

namespace FileSystem

/-- Where a path leads, name by name. The path may be longer than one that is given to the system
as a whole. -/
def lookUp (fs : FileSystem) (follow : Bool) (path : String) : Except IoFault Spot :=
  fs.walk follow mostLinks (fs.origin path) (Path.steps path)

variable {fs : FileSystem} {follow : Bool} {path aim name : String} {place directory : Location}
  {spot : Spot} {entry : Entry}

theorem lookUp_eq_ok_iff :
    fs.lookUp follow path = .ok spot ↔
      Leads fs follow mostLinks (fs.origin path) (Path.steps path) spot :=
  walk_eq_ok_iff

theorem get?_of_lookUp_link (named : fs.lookUp follow path = .ok (.entry place (.link aim))) :
    fs.get? place = some (.link aim) :=
  (lookUp_eq_ok_iff.mp named).get?_of_entry (by simp)

/-- There is nothing at a vacant place. -/
theorem Leads.get?_of_vacant {links : Nat} {here : Location} {names : List String}
    (leads : Leads fs follow links here names (.vacant directory name)) :
    fs.get? (directory ++ [name]) = none := by
  generalize target : Spot.vacant directory name = spot at leads
  induction leads with
  | arrive => cases target
  | stay _ ih => exact ih target
  | climb _ ih => exact ih target
  | enter _ _ _ ih => exact ih target
  | file => cases target
  | miss _ there =>
    cases target
    exact there
  | keep => cases target
  | follow _ _ _ _ ih => exact ih target

/-- A path that can be a target has a canonical place if it leads to something. -/
theorem IsTarget.canonical?_of_lookUp {parent : Location} (target : fs.IsTarget path parent name)
    (found : fs.lookUp true path = .ok (.entry place entry)) : fs.canonical? path = some place := by
  obtain ⟨clear, nonempty, -⟩ := checkPath_eq_ok_iff.mp target.checked
  exact canonical?_eq_some_iff.mpr ⟨nonempty, clear, entry, lookUp_eq_ok_iff.mp found⟩

private theorem canonical?_of_vacant
    (missing : fs.lookUp true path = .ok (.vacant directory name)) :
    fs.canonical? path = none := by
  by_contra present
  obtain ⟨place, found⟩ := Option.ne_none_iff_exists'.mp present
  obtain ⟨-, -, entry, leads⟩ := canonical?_eq_some_iff.mp found
  have same := missing.symm.trans (lookUp_eq_ok_iff.mpr leads)
  cases same

end FileSystem

namespace Destination

open FileSystem

/-- Whether some data has gone through a link: the link is still there, and the path that names it
leads to a file with the data at the place where it led before. -/
def WentThrough (path : String) (link : Location) (aim : String) (place : Location) (data : Bytes)
    (after : FileSystem) : Prop :=
  after.get? link = some (.link aim) ∧
    ∃ mode, after.lookUp true path = .ok (.entry place (.file data mode))

variable {files after : FileSystem} {path aim name : String} {link place parent : Location}
  {data : Bytes} {mode : Nat}

/-- What is there where a link leads is replaced by what is written, and the link stays. -/
theorem wentThrough_of_entry {entry : Entry} (rooted : files.Rooted files.workingDirectory)
    (named : files.lookUp false path = .ok (.entry link (.link aim)))
    (found : files.lookUp true path = .ok (.entry place entry))
    (target : files.IsTarget (finalPath files path) parent name)
    (same : after.workingDirectory = files.workingDirectory)
    (frame : ∀ other, after.get? other =
      if other = parent ++ [name] then some (.file data mode) else files.get? other) :
    WentThrough path link aim place data after := by
  have canonical : files.canonical? path = some place := by
    cases known : files.canonical? path with
    | some there =>
      obtain ⟨-, -, _, leads⟩ := canonical?_eq_some_iff.mp known
      cases found.symm.trans (lookUp_eq_ok_iff.mpr leads)
      rfl
    | none =>
      rw [finalPath, known] at target
      rw [← known, target.canonical?_of_lookUp found]
  rw [finalPath, canonical] at target
  obtain ⟨shape, old, rights, there⟩ := target.of_canonical rooted canonical
  rw [← shape] at frame
  have replaces : files.Replaces place data mode after := ⟨⟨old, rights, there⟩, same, frame⟩
  have leads := lookUp_eq_ok_iff.mp found
  have isFile : entry = .file old rights := by
    by_cases inside : entry = .directory
    · subst inside
      cases leads.canonical (rooted_origin rooted path) (Path.areSteps_steps path) with
      | directory inside => cases there.symm.trans (inside.directories _ (List.prefix_refl _))
    · exact Option.some.inj ((leads.get?_of_entry inside).symm.trans there)
  subst isFile
  have onward := replaces.leads leads
  rw [if_pos rfl] at onward
  refine ⟨replaces.keeps (get?_of_lookUp_link named) (by simp), mode, ?_⟩
  rw [lookUp_eq_ok_iff, origin, same]
  exact onward

/-- Where a link leads to nothing, the link is what is replaced. -/
theorem target_eq_link {directory : Location} {missed : String}
    (named : files.lookUp false path = .ok (.entry link (.link aim)))
    (missing : files.lookUp true path = .ok (.vacant directory missed))
    (target : files.IsTarget (finalPath files path) parent name) :
    link = parent ++ [name] := by
  have plain := canonical?_of_vacant missing
  rw [finalPath, plain] at target
  obtain ⟨⟨spot, found, place⟩, -⟩ := target.of_not_canonical plain
  have leads := (resolve_eq_ok_iff.mp found).2
  cases named.symm.trans (lookUp_eq_ok_iff.mpr leads)
  exact place

/-- Whatever the medium, the files and the tokens: a stream to a path that names a link, if all of
it succeeds, has gone through the link exactly if there was something where the link leads. If there
was nothing, the link has become a file with the tokens, and there still is nothing. -/
theorem stream_file_goes_through_iff (medium : Medium) (machine : Machine)
    (tokens : List (Except FormatFailure Bytes)) {spot : Spot} {count : Nat} {result : Machine}
    (rooted : machine.files.Rooted machine.files.workingDirectory)
    (named : machine.files.lookUp false path = .ok (.entry link (.link aim)))
    (leads : machine.files.lookUp true path = .ok spot)
    (streamed : (Destination.file path).stream machine tokens medium = (.ok count, result)) :
    ∃ bytes : List Bytes, tokens = bytes.map .ok ∧
      (WentThrough path link aim spot.place bytes.flatten result.files ↔
        ∃ place entry, spot = .entry place entry) ∧
      ((∃ directory name, spot = .vacant directory name) →
        result.files.get? link = some (.file bytes.flatten standardMode) ∧
          result.files.get? spot.place = none) := by
  obtain ⟨e, failed⟩ | ⟨bytes, parent, name, after, written, target, done, same, frame⟩ :=
    stream_file_cases medium machine path tokens
  · cases failed.symm.trans streamed
  cases done.symm.trans streamed
  have linked := get?_of_lookUp_link named
  refine ⟨bytes, written, ?_⟩
  cases spot with
  | entry place entry =>
    have through := wentThrough_of_entry rooted named leads target same frame
    exact ⟨iff_of_true through ⟨place, entry, rfl⟩, by simp⟩
  | vacant directory missed =>
    have isLink := target_eq_link named leads target
    have mode := (place?_of_isTarget rooted target).2
    rw [← isLink] at frame mode
    have replaced : after.get? link = some (.file bytes.flatten standardMode) := by
      rw [frame, if_pos rfl, mode, modeAt, linked, medium.modeAfter_standardMode]
    have vacant := (lookUp_eq_ok_iff.mp leads).get?_of_vacant
    have elsewhere : directory ++ [missed] ≠ link := by
      rintro rfl
      cases vacant.symm.trans linked
    refine ⟨iff_of_false ?_ (by simp), fun _ => ⟨replaced, ?_⟩⟩
    · rintro ⟨kept, -⟩
      cases kept.symm.trans replaced
    · rw [Spot.place, frame, if_neg elsewhere, vacant]

/-- A link to a link, the second of them by an absolute path, is written through. -/
theorem stream_file_goes_through_chain :
    let machine : Machine :=
      ⟨⟨[(["w"], .directory), (["w", "old"], .file [1] 0o600), (["w", "mid"], .link "/w/old"),
        (["w", "way"], .link "mid")], ["w"]⟩, .clear⟩
    let tokens : List (Except FormatFailure Bytes) := [.ok [7], .ok [8, 9]]
    ∃ result, (Destination.file "way").stream machine tokens = (.ok 3, result) ∧
      WentThrough "way" ["w", "way"] "mid" ["w", "old"] [7, 8, 9] result.files := by
  intro machine tokens
  have rooted : machine.files.Rooted machine.files.workingDirectory :=
    (FileSystem.rooted_root machine.files).child (by decide : Path.IsName "w") (by decide)
  have named : machine.files.lookUp false "way" = .ok (.entry ["w", "way"] (.link "mid")) := by
    decide +kernel
  have leads : machine.files.lookUp true "way" = .ok (.entry ["w", "old"] (.file [1] 0o600)) := by
    decide +kernel
  have succeeds : ((Destination.file "way").stream machine tokens).1.toOption = some 3 := by
    decide +kernel
  have given : tokens = [[7], [8, 9]].map .ok := rfl
  have through := @stream_file_goes_through_iff "way" "mid" ["w", "way"] .sound machine tokens
  -- from here on only what was computed is used
  clear_value machine tokens
  generalize (Destination.file "way").stream machine tokens = result at succeeds through ⊢
  obtain ⟨outcome, result⟩ := result
  cases outcome with
  | error e => contradiction
  | ok count =>
    obtain rfl := Option.some.inj succeeds
    obtain ⟨bytes, written, through, -⟩ := through rooted named leads rfl
    obtain rfl := List.map_injective_iff.mpr (fun _ _ => Except.ok.inj) (given.symm.trans written)
    exact ⟨result, rfl, through.mpr ⟨_, _, rfl⟩⟩

/-- A link to a file that is not there yet does not survive: it becomes the file itself, and the one
that it led to does not come to be. -/
theorem stream_file_replaces_dangling_link :
    let machine : Machine := ⟨⟨[(["w"], .directory), (["w", "way"], .link "new")], ["w"]⟩, .clear⟩
    let result := (Destination.file "way").stream machine [.ok [7]]
    machine.files.lookUp false "way" = .ok (.entry ["w", "way"] (.link "new")) ∧
      machine.files.lookUp true "way" = .ok (.vacant ["w"] "new") ∧
      result.1.toOption = some 1 ∧
      result.2.files.get? ["w", "way"] = some (.file [7] 0o644) ∧
      result.2.files.get? ["w", "new"] = none := by
  decide +kernel

end Destination

end FormatHost
