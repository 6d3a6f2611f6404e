import FormatHost.Proofs.Destination.AllOrNothing

/-! # Destinations that take all that is written

On a medium that refuses no write, and on a console that is not full, all that is written goes
through. What then becomes of a stream is decided by three things alone: whether the destination can
be opened, whether the tokens come to a good end, and whether a file can be brought onto its final
path. Each of them leaves the files as they were if it fails; only what is on the console stays
there.
-/

namespace FormatHost

/-- Whether a console takes everything, and shows it. -/
structure Console.Working (console : Console) : Prop where
  room : console.full = false
  nothingHeld : console.held = 0

def Console.showing (console : Console) (bytes : Bytes) : Console :=
  { console with written := console.written ++ bytes }

/-- Whether a medium takes whatever is written. -/
def Medium.Writable (medium : Medium) : Prop :=
  ∀ before bytes, medium.refuses (.write before bytes) = none

theorem Medium.writable_sound : Medium.sound.Writable :=
  fun _ _ => rfl

/-- Whether files differ from those before in nothing but the file of a path, which holds some data
and has what is left of the mode of the file that it replaces. -/
def FileSystem.Rewritten (before : FileSystem) (medium : Medium) (path : String) (data : Bytes)
    (after : FileSystem) : Prop :=
  ∃ place, Destination.place? before path = some place ∧
    after.get? place = some (.file data (medium.modeAfter data (before.modeAt place))) ∧
    (∀ other, other ≠ place → after.get? other = before.get? other) ∧
    after.workingDirectory = before.workingDirectory

namespace Destination

/-- Whether what is written to a destination can take its place in the end. -/
def Finishable (files : FileSystem) (medium : Medium) : Destination → Prop
  | .console => True
  | .file path =>
    medium.Finishes ∧ ∃ parent name, files.IsTarget (finalPath files path) parent name

/-- What a machine is like when a destination has received all of some data. -/
def Receives (before : Machine) (medium : Medium) (data : Bytes) (after : Machine) :
    Destination → Prop
  | .console => after = ⟨before.files, before.console.showing data⟩
  | .file path =>
    before.files.Rewritten medium path data after.files ∧ after.console = before.console

/-- What a machine is like when a destination was given up after some data: files are not touched,
and nothing is taken back from the console. -/
def Retains (before : Machine) (data : Bytes) (after : Machine) : Destination → Prop
  | .console => after = ⟨before.files, before.console.showing data⟩
  | .file _ => after = before

end Destination

/-! ## Writing -/

namespace Writer

variable {w : Writer} {console : Console}

/-- Whether nothing that is written can be refused. -/
def Reliable (w : Writer) (console : Console) : Prop :=
  match w.channel with
  | .console => console.full = false
  | .file draft _ => draft.medium.Writable

def add (w : Writer) (bytes : Bytes) : Writer :=
  { w with written := w.written ++ bytes }

/-- The console after a writer has written some more bytes. -/
def shown (w : Writer) (console : Console) (bytes : Bytes) : Console :=
  match w.channel with
  | .console => console.showing bytes
  | .file _ _ => console

@[simp] theorem add_nil (w : Writer) : w.add [] = w := by
  simp [add]

@[simp] theorem shown_nil (w : Writer) (console : Console) : w.shown console [] = console := by
  unfold shown
  split
  · simp [Console.showing]
  · rfl

theorem add_add (w : Writer) (first second : Bytes) :
    (w.add first).add second = w.add (first ++ second) := by
  simp [add]

theorem shown_shown (w : Writer) (console : Console) (first second : Bytes) :
    (w.add first).shown (w.shown console first) second = w.shown console (first ++ second) := by
  unfold shown add
  cases w.channel with
  | console => simp [Console.showing]
  | file draft target => rfl

theorem write_of_reliable (reliable : w.Reliable console) (bytes : Bytes) :
    w.write console bytes = .ok (w.add bytes, w.shown console bytes) := by
  obtain ⟨target, channel, written⟩ := w
  cases channel with
  | console =>
    have room : console.full = false := reliable
    simp only [write, Console.print_of_not_full room]
    rfl
  | file draft target =>
    have accepted := Medium.attempt_eq_ok_iff.mpr (reliable written bytes)
    simp only [write, accepted]
    rfl

theorem Reliable.add (reliable : w.Reliable console) (bytes : Bytes) :
    (w.add bytes).Reliable (w.shown console bytes) := by
  obtain ⟨target, channel, written⟩ := w
  cases channel with
  | console => exact reliable
  | file draft target => exact reliable

end Writer

/-! ## Opening, giving up and finishing -/

/-- A file can be finished if the medium does not refuse it and its target can be moved onto. -/
theorem Draft.complete_of_isTarget {draft : Draft} {files : FileSystem} {target name : String}
    {parent : Location} (fits : draft.Fits files) (finishes : draft.medium.Finishes)
    (onto : files.IsTarget target parent name) (data : Bytes) (mode : Nat) :
    ∃ after, draft.complete (files.put draft.place (.file data mode)) target = .ok after := by
  obtain ⟨directory, found, shape⟩ := fits.found
  have below := FileSystem.ne_nil_of_get?_eq_none fits.free
  have there : (files.put draft.place (.file data mode)).get? (directory ++ [draft.name]) =
      some (.file data mode) := by
    rw [← shape, FileSystem.get?_put_self files below]
  obtain ⟨after, moved⟩ := FileSystem.rename_of_isTarget
    (FileSystem.findDirectory_put fits.free _ found) there (onto.put fits.free)
  refine ⟨after, ?_⟩
  simp only [complete, Medium.attempt_eq_ok_iff.mpr finishes.flush,
    Medium.attempt_eq_ok_iff.mpr finishes.sync, Medium.attempt_eq_ok_iff.mpr finishes.move, bind,
    Except.bind]
  exact moved

/-- A writer that was opened for a destination on a medium, and the files since then. -/
inductive Writer.Opened (files : FileSystem) :
    Medium → Destination → Writer → FileSystem → Prop
  | console {medium : Medium} (target : String) (written : Bytes) :
      Opened files medium .console ⟨target, .console, written⟩ files
  | file {draft : Draft} {path : String} (written : Bytes) (fits : draft.Fits files) :
      Opened files draft.medium (.file path)
        ⟨path, .file draft (Destination.finalPath files path), written⟩
        (files.put draft.place (.file []
          ((files.mode? (Destination.finalPath files path)).getD FileSystem.standardMode)))

namespace Writer.Opened

variable {files ready : FileSystem} {medium : Medium} {destination : Destination} {w : Writer}

theorem add (opened : Opened files medium destination w ready) (bytes : Bytes) :
    Opened files medium destination (w.add bytes) ready := by
  cases opened with
  | console target written => exact .console target _
  | file written fits => exact .file _ fits

theorem reliable (opened : Opened files medium destination w ready) (writable : medium.Writable)
    {console : Console} (room : console.full = false) : w.Reliable console := by
  cases opened with
  | console => exact room
  | file => exact writable

/-- A writer that is given up takes its draft with it. -/
theorem discard (opened : Opened files medium destination w ready) : w.discard ready = files := by
  cases opened with
  | console => rfl
  | file written fits => exact Writer.discard_file fits rfl _

/-- A writer is finished exactly if its destination can be; otherwise its draft is given up. -/
theorem finish (opened : Opened files medium destination w ready)
    (rooted : files.Rooted files.workingDirectory) {console : Console}
    (nothingHeld : console.held = 0) :
    (destination.Finishable files medium ∧
      ∃ after, w.finish ⟨ready, console⟩ = (.ok w.written.length, after) ∧
        after.console = console ∧
        match destination with
        | .console => after.files = files
        | .file path => files.Rewritten medium path w.written after.files) ∨
    (¬destination.Finishable files medium ∧
      ∃ fault, w.finish ⟨ready, console⟩ =
        (.error (.writeFailed w.target fault), ⟨files, console⟩)) := by
  cases opened with
  | console target written =>
    left
    refine ⟨trivial, ⟨files, console⟩, ?_, rfl, rfl⟩
    simp [Writer.finish, Console.flush, nothingHeld]
  | @file draft path written fits =>
    obtain ⟨fault, failed⟩ | ⟨parent, name, after, finishes, target, finished, same, frame⟩ :=
      Writer.finish_file_cases (w := ⟨path, .file draft _, written⟩) fits rfl console
        ((files.mode? (Destination.finalPath files path)).getD FileSystem.standardMode)
    · right
      refine ⟨?_, fault, failed⟩
      rintro ⟨finishes, parent, name, target⟩
      have below := FileSystem.ne_nil_of_get?_eq_none fits.free
      obtain ⟨after, completed⟩ := Draft.complete_of_isTarget fits finishes target written
        (draft.medium.modeAfter written
          ((files.mode? (Destination.finalPath files path)).getD FileSystem.standardMode))
      simp only [Writer.finish, Writer.settle, FileSystem.get?_put_self files below,
        FileSystem.put_put_of_vacant fits.free, completed] at failed
      cases failed
    · left
      obtain ⟨found, mode⟩ := Destination.place?_of_isTarget rooted target
      refine ⟨⟨finishes, parent, name, target⟩, ⟨after, console⟩, finished, rfl, ?_⟩
      refine ⟨parent ++ [name], found, ?_, ?_, same⟩
      · rw [frame, if_pos rfl, mode]
      · intro other different
        rw [frame, if_neg different]

end Writer.Opened

namespace Destination

/-- A destination is not opened and nothing has changed, or there is a writer for it. -/
theorem startOn_cases (destination : Destination) (medium : Medium) (files : FileSystem) :
    (∃ e, destination.startOn medium files = (.error e, files)) ∨
      ∃ w ready, destination.startOn medium files = (.ok w, ready) ∧
        Writer.Opened files medium destination w ready ∧ w.written = [] ∧
        w.target = destination.describe := by
  cases destination with
  | console => exact .inr ⟨_, _, rfl, .console _ [], rfl, rfl⟩
  | file path =>
    obtain ⟨e, failed⟩ | ⟨draft, fits, same, opened⟩ := openFile_cases medium files path
    · exact .inl ⟨e, failed⟩
    · subst same
      exact .inr ⟨_, _, opened, .file [] fits, rfl, rfl⟩

/-! ## Streams -/

section Filling

variable {destination : Destination} {medium : Medium} {machine : Machine}
  {emit : Writer → Console → Emission} {taken : Nat} {data : Bytes} {e : HostError} {w : Writer}

/-- A destination that cannot be opened is asked for no token. -/
theorem fill_of_unopened (refused : (destination.startOn medium machine.files).1 = .error e) :
    destination.fill machine emit medium = (.error e, 0, machine) := by
  obtain ⟨other, failed⟩ | ⟨w, ready, started, -⟩ :=
    startOn_cases destination medium machine.files
  · rw [failed] at refused
    obtain rfl := Except.error.inj refused
    simp only [fill, failed]
  · rw [started] at refused
    cases refused

/-- A destination that was opened has a writer. -/
theorem opened_of_startOn (opens : (destination.startOn medium machine.files).1 = .ok w) :
    ∃ ready, destination.startOn medium machine.files = (.ok w, ready) ∧
      Writer.Opened machine.files medium destination w ready ∧ w.written = [] ∧
      w.target = destination.describe := by
  obtain ⟨e, failed⟩ | ⟨w', ready, started, rest⟩ :=
    startOn_cases destination medium machine.files
  · rw [failed] at opens
    cases opens
  · rw [started] at opens
    obtain rfl := Except.ok.inj opens
    exact ⟨ready, started, rest⟩

/-- A stream that ends in an error after some data is given up. -/
theorem fill_of_failure (opens : (destination.startOn medium machine.files).1 = .ok w)
    (writable : medium.Writable) (working : machine.console.Working)
    (emits : ∀ w console, w.Reliable console →
      emit w console = ⟨.error e, taken, w.add data, w.shown console data⟩) :
    ∃ after, destination.fill machine emit medium = (.error e, taken, after) ∧
      destination.Retains machine data after := by
  obtain ⟨ready, started, opened, -⟩ := opened_of_startOn opens
  simp only [fill, started, emits w machine.console (opened.reliable writable working.room)]
  refine ⟨_, rfl, ?_⟩
  rw [(opened.add data).discard]
  cases opened with
  | console => rfl
  | file => rfl

/-- A stream that ends well is received, unless its destination cannot be finished. -/
theorem fill_of_success (opens : (destination.startOn medium machine.files).1 = .ok w)
    (rooted : machine.files.Rooted machine.files.workingDirectory)
    (writable : medium.Writable) (working : machine.console.Working)
    (emits : ∀ w console, w.Reliable console →
      emit w console = ⟨.ok (), taken, w.add data, w.shown console data⟩) :
    (destination.Finishable machine.files medium ∧
      ∃ after, destination.fill machine emit medium = (.ok data.length, taken, after) ∧
        destination.Receives machine medium data after) ∨
    (¬destination.Finishable machine.files medium ∧
      ∃ fault, destination.fill machine emit medium =
        (.error (.writeFailed destination.describe fault), taken, machine)) := by
  obtain ⟨ready, started, opened, empty, named⟩ := opened_of_startOn opens
  have whole : (w.add data).written = data := by
    simp [Writer.add, empty]
  have held : (w.shown machine.console data).held = 0 := by
    unfold Writer.shown
    split
    · exact working.nothingHeld
    · exact working.nothingHeld
  simp only [fill, started, emits w machine.console (opened.reliable writable working.room)]
  obtain ⟨finishable, after, finished, console, received⟩ | ⟨refused, fault, failed⟩ :=
    (opened.add data).finish rooted held
  · left
    rw [whole] at finished received
    refine ⟨finishable, after, by rw [finished], ?_⟩
    obtain ⟨files, shown⟩ := after
    obtain rfl : shown = _ := console
    cases opened with
    | console =>
      obtain rfl : files = _ := received
      rfl
    | file => exact ⟨received, rfl⟩
  · right
    refine ⟨refused, fault, ?_⟩
    cases opened with
    | console => exact absurd trivial refused
    | file =>
      rw [failed]
      rfl

end Filling

end Destination

end FormatHost
