import FormatHost.Proofs.Destination.Draft

/-! # Files are written whole or not at all

A stream of tokens to a file either fails and leaves the machine exactly as it was, whichever call
was refused and whichever token was missing, or changes the file at one place and nothing else. That
place is the canonical place of the path, or the place of the path itself when it has none. Tokens
only collect in the writer; the draft is the one entry that the file system has gained until the
move, and giving it up takes it back.
-/

namespace FormatHost

def Spot.place : Spot → Location
  | .entry place _ => place
  | .vacant directory name => directory ++ [name]

/-- The mode that a file written at a place gets: that of the file that is there, or the standard
mode. -/
def FileSystem.modeAt (fs : FileSystem) (place : Location) : Nat :=
  match fs.get? place with
  | some (.file _ mode) => mode
  | _ => standardMode

namespace Destination

/-- The place of the file that is written to a path: the canonical place, or the place of the path
itself when it has none. -/
def place? (files : FileSystem) (path : String) : Option Location :=
  match files.canonical? path with
  | some place => some place
  | none =>
    match files.resolve false path with
    | .ok spot => some spot.place
    | .error _ => none

end Destination

/-! ## The mode that a file keeps -/

namespace FileSystem

/-- The bits that are cleared: 11, and 10 where bit 3 is set. -/
theorem testBit_strippedMode (mode i : Nat) :
    (strippedMode mode).testBit i =
      (mode.testBit i && !(decide (11 = i) || decide (10 = i) && mode.testBit 3)) := by
  have owner : Nat.testBit 0o4000 i = decide (11 = i) := Nat.testBit_two_pow (n := 11)
  have both : Nat.testBit 0o6000 i = (decide (11 = i) || decide (10 = i)) := by
    rw [show 0o6000 = 2 ^ 11 ||| 2 ^ 10 by decide, Nat.testBit_or, Nat.testBit_two_pow,
      Nat.testBit_two_pow]
  rw [strippedMode, Nat.testBit_xor, Nat.testBit_and]
  cases mode.testBit 3 with
  | true =>
    rw [if_pos rfl, both]
    cases mode.testBit i <;> cases decide (11 = i) <;> cases decide (10 = i) <;> rfl
  | false =>
    rw [if_neg Bool.false_ne_true, owner]
    cases mode.testBit i <;> cases decide (11 = i) <;> cases decide (10 = i) <;> rfl

/-- Nothing is taken from a mode exactly if it lends no rights. -/
theorem strippedMode_eq_self_iff {mode : Nat} :
    strippedMode mode = mode ↔ lendsRights mode = false := by
  constructor
  · intro same
    have owner := testBit_strippedMode mode 11
    have group := testBit_strippedMode mode 10
    rw [same] at owner group
    simpa [lendsRights, ← Bool.not_eq_true] using And.intro owner group
  · intro keeps
    obtain ⟨owner, group⟩ := Bool.or_eq_false_iff.mp keeps
    apply Nat.eq_of_testBit_eq
    intro i
    rw [testBit_strippedMode]
    by_cases atOwner : 11 = i
    · subst atOwner
      simp [owner]
    · by_cases atGroup : 10 = i
      · subst atGroup
        simpa using group
      · simp [atOwner, atGroup]

end FileSystem

/-- A file keeps its mode unless someone without privileges writes something to it while it lends
rights. -/
theorem Medium.modeAfter_eq_self_iff {medium : Medium} {bytes : Bytes} {mode : Nat} :
    medium.modeAfter bytes mode = mode ↔
      medium.privileged = true ∨ bytes = [] ∨ FileSystem.lendsRights mode = false := by
  rw [modeAfter]
  split
  · next keeps =>
    rw [Bool.or_eq_true, List.isEmpty_iff] at keeps
    exact iff_of_true rfl (keeps.imp_right .inl)
  · next writes =>
    rw [Bool.or_eq_true, List.isEmpty_iff, not_or] at writes
    rw [FileSystem.strippedMode_eq_self_iff]
    exact ⟨fun keeps => .inr (.inr keeps), fun keeps =>
      (keeps.resolve_left writes.1).resolve_left writes.2⟩

theorem Medium.attempt_eq_ok_iff {medium : Medium} {call : FileCall} :
    medium.attempt call = .ok () ↔ medium.refuses call = none := by
  rw [attempt]
  cases medium.refuses call with
  | some fault => exact ⟨nofun, nofun⟩
  | none => exact ⟨fun _ => rfl, fun _ => rfl⟩

/-- Whether a medium refuses none of the calls by which a file takes its place in the end. -/
structure Medium.Finishes (medium : Medium) : Prop where
  flush : medium.refuses .flush = none
  sync : medium.refuses .sync = none
  move : medium.refuses .move = none

theorem Medium.modeAfter_standardMode (medium : Medium) (bytes : Bytes) :
    medium.modeAfter bytes FileSystem.standardMode = FileSystem.standardMode :=
  modeAfter_eq_self_iff.mpr (.inr (.inr (by decide)))

/-! ## The place that is written -/

namespace FileSystem

variable {files : FileSystem} {path name : String} {place parent : Location}

/-- The last name of a path is looked up in the directory that the others lead to. -/
theorem IsTarget.resolve {follow : Bool} {spot : Spot} (target : files.IsTarget path parent name)
    (behind : ∀ left, Leads files follow left parent [name] spot) :
    files.resolve follow path = .ok spot := by
  obtain ⟨front, names⟩ := target.last
  have leads := findParent_eq_ok_iff.mp target.found
  rw [names, List.dropLast_concat] at leads
  obtain ⟨directory, left, same, onward⟩ := leads.append
  obtain ⟨rfl, -⟩ := Spot.entry.inj same
  refine resolve_eq_ok_iff.mpr ⟨target.checked, ?_⟩
  rw [Path.steps, target.noSlash, names]
  exact onward (List.cons_ne_nil _ _) (behind left)

theorem rooted_origin (rooted : files.Rooted files.workingDirectory) (path : String) :
    files.Rooted (files.origin path) := by
  unfold origin
  split
  · exact rooted_root files
  · exact rooted

/-- The parent of the path of a place is the directory that the place is in. -/
theorem findParent_path {front : Location} (names : Path.names place.path = front ++ [name])
    (rooted : files.Rooted front) (found : files.findParent place.path = .ok parent) :
    parent = front := by
  have leads := findParent_eq_ok_iff.mp found
  rw [names, List.dropLast_concat, origin, Path.isAbsolute_path, if_pos rfl] at leads
  exact (Spot.entry.inj (leads.eq_of_rooted rooted)).1

/-- The path of a canonical place leads to that place, where the file to be replaced is. -/
theorem IsTarget.of_canonical (rooted : files.Rooted files.workingDirectory)
    (canonical : files.canonical? path = some place)
    (target : files.IsTarget place.path parent name) :
    place = parent ++ [name] ∧ ∃ data mode, files.get? place = some (.file data mode) := by
  obtain ⟨-, -, entry, leads⟩ := canonical?_eq_some_iff.mp canonical
  obtain ⟨front, names⟩ := target.last
  cases leads.canonical (rooted_origin rooted path) (Path.areSteps_steps path) with
  | directory inside =>
    have shape := Path.names_path inside.names
    obtain rfl : place = front ++ [name] := shape.symm.trans names
    obtain rfl := findParent_path names (inside.ofPrefix (List.prefix_append ..)) target.found
    exact absurd (inside.directories _ (List.prefix_refl _)) target.noDirectory
  | @file directory last data mode inside proper there =>
    have shape := Path.names_path (inside.names_child proper)
    obtain ⟨rfl, same⟩ := List.append_inj' (shape.symm.trans names) rfl
    obtain rfl := List.singleton_inj.mp same
    obtain rfl := findParent_path names inside target.found
    exact ⟨rfl, data, mode, there⟩

/-- A path without a canonical place leads to a place where no file is. -/
theorem IsTarget.of_not_canonical (plain : files.canonical? path = none)
    (target : files.IsTarget path parent name) :
    (∃ spot, files.resolve false path = .ok spot ∧ spot.place = parent ++ [name]) ∧
      ∀ data mode, files.get? (parent ++ [name]) ≠ some (.file data mode) := by
  have noFile : ∀ data mode, files.get? (parent ++ [name]) ≠ some (.file data mode) := by
    intro data mode there
    have found : files.resolve true path = _ := target.resolve fun _ => .file target.proper there
    rw [canonical?_of_resolve found] at plain
    contradiction
  refine ⟨?_, noFile⟩
  match there : files.get? (parent ++ [name]) with
  | none => exact ⟨_, target.resolve fun _ => .miss target.proper there, rfl⟩
  | some (.link aim) => exact ⟨_, target.resolve fun _ => .keep target.proper there rfl, rfl⟩
  | some (.file data mode) => exact absurd there (noFile data mode)
  | some .directory => exact absurd there target.noDirectory

end FileSystem

namespace Destination

open FileSystem

variable {files : FileSystem} {path name : String} {place parent : Location}

/-- A file that is moved onto its final path replaces what is at the place of the path, and has got
the mode of the file there. -/
theorem place?_of_isTarget (rooted : files.Rooted files.workingDirectory)
    (target : files.IsTarget (finalPath files path) parent name) :
    place? files path = some (parent ++ [name]) ∧
      (files.mode? (finalPath files path)).getD standardMode = files.modeAt (parent ++ [name]) := by
  cases canonical : files.canonical? path with
  | some place =>
    have final : finalPath files path = place.path := by
      rw [finalPath, canonical]
    rw [final] at target ⊢
    obtain ⟨rfl, data, mode, there⟩ := target.of_canonical rooted canonical
    have found : files.resolve true _ = _ := target.resolve fun _ => .file target.proper there
    have kept := mode?_eq_some_iff.mpr ⟨_, _, found⟩
    refine ⟨by rw [place?, canonical], ?_⟩
    rw [kept, modeAt, there, Option.getD_some]
  | none =>
    have final : finalPath files path = path := by
      rw [finalPath, canonical]
    rw [final] at target ⊢
    obtain ⟨⟨spot, found, same⟩, noFile⟩ := target.of_not_canonical canonical
    have unknown : files.mode? path = none := by
      by_contra known
      obtain ⟨mode, known⟩ := Option.ne_none_iff_exists'.mp known
      obtain ⟨place, data, there⟩ := mode?_eq_some_iff.mp known
      rw [canonical?_of_resolve there] at canonical
      contradiction
    refine ⟨by rw [place?, canonical, found, ← same], ?_⟩
    rw [unknown, modeAt]
    split
    · next data mode there => exact absurd there (noFile data mode)
    · rfl

/-! ## From opening to moving -/

/-- A writer for a file is not opened and nothing has changed, or the files have gained its draft
with the mode that is wanted. -/
theorem openFile_cases (medium : Medium) (files : FileSystem) (path : String) :
    (∃ e, openFile medium files path = (.error e, files)) ∨
      ∃ draft, draft.Fits files ∧ draft.medium = medium ∧
        openFile medium files path =
          (.ok ⟨path, .file draft (finalPath files path), []⟩,
            files.put draft.place
              (.file [] ((files.mode? (finalPath files path)).getD standardMode))) := by
  unfold openFile
  split
  · exact .inl ⟨_, rfl⟩
  · split
    · exact .inl ⟨_, rfl⟩
    · extract_lets final mode
      split
      · exact .inl ⟨_, rfl⟩
      · next draft made opened =>
        obtain ⟨fits, same, rfl⟩ := Draft.fits_of_make opened
        split
        · next fault _ =>
          rw [fits.discard]
          exact .inl ⟨_, rfl⟩
        · next ready changed =>
          rw [fits.setMode changed]
          exact .inr ⟨draft, fits, same, rfl⟩

end Destination

namespace Writer

variable {w : Writer} {draft : Draft} {target : String}

/-- Bytes for a file are refused, or collect in the writer. -/
theorem write_file_cases (channel : w.channel = .file draft target) (console : Console)
    (bytes : Bytes) :
    (∃ e, w.write console bytes = .error e) ∨
      w.write console bytes = .ok ({ w with written := w.written ++ bytes }, console) := by
  rw [write, channel]
  dsimp only
  split
  · exact .inr rfl
  · exact .inl ⟨_, rfl⟩

/-- Tokens for a file leave the console and the channel alone; when all are written, none has
failed and the writer holds them in order. -/
theorem writeTokens_file (channel : w.channel = .file draft target) (console : Console)
    (tokens : List (Except FormatFailure Bytes)) :
    (w.writeTokens console tokens).console = console ∧
      (w.writeTokens console tokens).writer.channel = .file draft target ∧
      ((w.writeTokens console tokens).outcome = .ok () →
        ∃ bytes : List Bytes, tokens = bytes.map .ok ∧
          (w.writeTokens console tokens).writer.written = w.written ++ bytes.flatten) := by
  induction tokens generalizing w with
  | nil => exact ⟨rfl, channel, fun _ => ⟨[], rfl, by simp [writeTokens]⟩⟩
  | cons token rest ih =>
    cases token with
    | error failure => exact ⟨rfl, channel, nofun⟩
    | ok token =>
      obtain ⟨e, refused⟩ | passed := write_file_cases channel console token
      · rw [writeTokens, refused]
        exact ⟨rfl, channel, nofun⟩
      · obtain ⟨quiet, same, whole⟩ := @ih { w with written := w.written ++ token } channel
        rw [writeTokens, passed]
        refine ⟨quiet, same, fun succeeded => ?_⟩
        obtain ⟨bytes, rfl, written⟩ := whole succeeded
        refine ⟨token :: bytes, rfl, ?_⟩
        simp only [written, List.flatten_cons, List.append_assoc]

/-- Giving a writer for a file up takes its draft back. -/
theorem discard_file {files : FileSystem} (fits : draft.Fits files)
    (channel : w.channel = .file draft target) (entry : Entry) :
    w.discard (files.put draft.place entry) = files := by
  rw [discard, channel]
  exact fits.discard entry

/-- Ending the writing of a file fails and gives the draft up, or puts what was written at the
target and changes nothing else. -/
theorem finish_file_cases {files : FileSystem} (fits : draft.Fits files)
    (channel : w.channel = .file draft target) (console : Console) (mode : Nat) :
    (∃ fault, w.finish ⟨files.put draft.place (.file [] mode), console⟩ =
        (.error (.writeFailed w.target fault), ⟨files, console⟩)) ∨
      ∃ parent name after, draft.medium.Finishes ∧ files.IsTarget target parent name ∧
        w.finish ⟨files.put draft.place (.file [] mode), console⟩ =
          (.ok w.written.length, ⟨after, console⟩) ∧
        after.workingDirectory = files.workingDirectory ∧
        ∀ other, after.get? other =
          if other = parent ++ [name] then
            some (.file w.written (draft.medium.modeAfter w.written mode))
          else files.get? other := by
  have below := FileSystem.ne_nil_of_get?_eq_none fits.free
  have settled : w.settle (files.put draft.place (.file [] mode)) draft =
      files.put draft.place (.file w.written (draft.medium.modeAfter w.written mode)) := by
    rw [settle, FileSystem.get?_put_self files below]
    exact FileSystem.put_put_of_vacant fits.free ..
  rw [finish, channel]
  simp only [settled]
  split
  · next after completed =>
    right
    obtain ⟨⟨⟩, flushes, completed⟩ := bind_eq_ok_iff.mp completed
    obtain ⟨⟨⟩, syncs, completed⟩ := bind_eq_ok_iff.mp completed
    obtain ⟨⟨⟩, moves, moved⟩ := bind_eq_ok_iff.mp completed
    have finishes : draft.medium.Finishes :=
      ⟨Medium.attempt_eq_ok_iff.mp flushes, Medium.attempt_eq_ok_iff.mp syncs,
        Medium.attempt_eq_ok_iff.mp moves⟩
    obtain ⟨source, parent, name, entry, found, there, onto, rfl⟩ := FileSystem.rename_eq_ok moved
    obtain ⟨directory, before, shape⟩ := fits.found
    rw [FileSystem.findDirectory_put fits.free _ before] at found
    obtain rfl := Except.ok.inj found
    rw [← shape, FileSystem.get?_put_self files below] at there
    obtain rfl := Option.some.inj there
    refine ⟨parent, name, _, finishes, onto.of_put fits.free, rfl, by simp, ?_⟩
    intro other
    rw [← shape, FileSystem.erase_put_of_vacant fits.free, FileSystem.get?_put files (by simp)]
  · next fault _ =>
    left
    rw [discard_file fits channel]
    exact ⟨_, rfl⟩

end Writer

namespace Destination

/-- What a stream does once its writer is open. -/
theorem stream_of_startOn {destination : Destination} {machine : Machine} {medium : Medium}
    {writer : Writer} {files : FileSystem}
    (opened : destination.startOn medium machine.files = (.ok writer, files))
    (tokens : List (Except FormatFailure Bytes)) :
    destination.stream machine tokens medium =
      let emission := writer.writeTokens machine.console tokens
      match emission.outcome with
      | .error e => (.error e, ⟨emission.writer.discard files, emission.console⟩)
      | .ok () => emission.writer.finish ⟨files, emission.console⟩ := by
  rw [stream, fill, opened]
  dsimp only
  cases (writer.writeTokens machine.console tokens).outcome with
  | error e => rfl
  | ok => rfl

/-- A stream to a file fails and gives the draft up, or moves the tokens onto the final path. -/
theorem stream_file_cases (medium : Medium) (machine : Machine) (path : String)
    (tokens : List (Except FormatFailure Bytes)) :
    (∃ e, (Destination.file path).stream machine tokens medium = (.error e, machine)) ∨
      ∃ (bytes : List Bytes) (parent : Location) (name : String) (after : FileSystem),
        tokens = bytes.map .ok ∧
        machine.files.IsTarget (finalPath machine.files path) parent name ∧
        (Destination.file path).stream machine tokens medium =
          (.ok bytes.flatten.length, ⟨after, machine.console⟩) ∧
        after.workingDirectory = machine.files.workingDirectory ∧
        ∀ other, after.get? other =
          if other = parent ++ [name] then
            some (.file bytes.flatten (medium.modeAfter bytes.flatten
              ((machine.files.mode? (finalPath machine.files path)).getD FileSystem.standardMode)))
          else machine.files.get? other := by
  obtain ⟨e, failed⟩ | ⟨draft, fits, medium_eq, opened⟩ := openFile_cases medium machine.files path
  · refine .inl ⟨e, ?_⟩
    simp only [stream, fill, startOn, failed]
  · obtain ⟨quiet, channel, whole⟩ :=
      Writer.writeTokens_file (w := ⟨path, .file draft (finalPath machine.files path), []⟩) rfl
        machine.console tokens
    have started : (Destination.file path).startOn medium machine.files = _ := opened
    rw [stream_of_startOn started]
    generalize Writer.writeTokens _ machine.console tokens = emission at quiet channel whole ⊢
    obtain ⟨outcome, taken, w, console⟩ := emission
    obtain rfl : console = machine.console := quiet
    cases outcome with
    | error e =>
      refine .inl ⟨e, ?_⟩
      dsimp only
      rw [Writer.discard_file fits channel]
    | ok =>
      obtain ⟨bytes, rfl, written⟩ := whole rfl
      obtain ⟨fault, failed⟩ | ⟨parent, name, after, -, target, finished, frame⟩ :=
        Writer.finish_file_cases fits channel machine.console
          ((machine.files.mode? (finalPath machine.files path)).getD FileSystem.standardMode)
      · exact .inl ⟨_, failed⟩
      · rw [written, List.nil_append] at finished frame
        rw [medium_eq] at frame
        exact .inr ⟨bytes, parent, name, after, rfl, target, finished, frame⟩

end Destination

end FormatHost
