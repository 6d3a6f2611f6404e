import FormatHost.Program
import FormatHost.Proofs.Inputs.Wanted

/-! # Where the wanted extensions come from

A list of extensions is given by an option or by a variable. In front of other arguments the option
adds the entries of its list, as they stand, to the extensions that the arguments give. The variable
comes into effect where the arguments give none, after blanks, dots and empty entries were put
aside. Nothing else depends on either of them. So the two mean the same exactly for the lists with
the same extensions before and after that.
-/

namespace FormatHost

/-! ## The variable -/

namespace Environment

def set (env : Environment) (name value : String) : Environment :=
  { env with bindings := (name, value) :: env.bindings }

variable {env : Environment} {name other value : String}

@[simp] theorem get?_set : (env.set name value).get? name = some value := by
  simp [get?, set]

theorem get?_set_of_ne (different : other ≠ name) :
    (env.set name value).get? other = env.get? other := by
  rw [get?, set, List.lookup_cons, beq_false_of_ne different]
  rfl

private theorem nonempty?_set_of_ne (different : other ≠ name) :
    (env.set name value).nonempty? other = env.nonempty? other := by
  rw [nonempty?, get?_set_of_ne different]
  rfl

theorem home?_set_of_ne (different : "HOME" ≠ name) : (env.set name value).home? = env.home? := by
  rw [home?, get?_set_of_ne different]
  rfl

end Environment

def Settings.extensionsName : String := "FMTB_EXTENSIONS"

section Variable

open Environment Settings

variable (files : FileSystem) (env : Environment) (list : String)

private theorem Ignore.UserRules.read_set :
    read files (env.set extensionsName list) = read files env := by
  have configurations : configurations? (env.set extensionsName list) = configurations? env := by
    rw [configurations?, nonempty?_set_of_ne (by decide), home?_set_of_ne (by decide)]
    rfl
  have paths : configurationPaths (env.set extensionsName list) = configurationPaths env := by
    rw [configurationPaths, home?_set_of_ne (by decide), configurations,
      get?_set_of_ne (by decide), get?_set_of_ne (by decide)]
    rfl
  have named : namedIn? files (env.set extensionsName list) = namedIn? files env := by
    funext path
    have expand : expandHome (env.set extensionsName list) = expandHome env := by
      funext path
      rw [expandHome, home?_set_of_ne (by decide)]
      rfl
    rw [namedIn?, expand]
    rfl
  have path : path? files (env.set extensionsName list) = path? files env := by
    rw [path?, paths, named, defaultPath?, configurations]
    rfl
  rw [read, path]
  rfl

private theorem Inputs.collect_set (wanted : Wanted) (paths : List String) :
    collect files (env.set extensionsName list) wanted paths = collect files env wanted paths := by
  rw [collect, Ignore.UserRules.read_set]
  rfl

end Variable

/-! ## The option -/

namespace Invocation

/-- An invocation with more extensions, in front of its own. -/
def prepend (more : List String) (invocation : Invocation) : Invocation :=
  { invocation with extensions := some (more ++ invocation.extensions.getD []) }

variable (more : List String) (invocation : Invocation)

@[simp] theorem has_prepend (flag : Flag) :
    (invocation.prepend more).has flag = invocation.has flag := rfl

theorem raise_prepend (flag : Flag) :
    (invocation.prepend more).raise flag = (invocation.raise flag).map (prepend more) := by
  unfold raise
  split
  · rfl
  · rfl
  · rw [has_prepend, apply_ite (Except.map _)]
    split <;> rfl

private theorem assign_prepend (field : Field) (text : String) :
    (invocation.prepend more).assign field text =
      (invocation.assign field text).map (prepend more) := by
  cases field with
  | extensions => simp [assign, prepend, moreExtensions, Except.map]
  | output | tree | engine | engineStem | indentWidth | maxBlankLines =>
    simp only [assign, prepend]
    generalize once _ _ _ _ = value
    cases value <;> rfl

theorem give_prepend (field : Field) (text : String) :
    (invocation.prepend more).give field text =
      (invocation.give field text).map (prepend more) := by
  rw [give, give, assign_prepend]
  cases invocation.assign field text <;> rfl

private theorem readName_prepend (name : String) (value : Option String) :
    (invocation.prepend more).readName name value =
      (invocation.readName name value).map (Prod.map (prepend more) id) := by
  unfold readName
  split
  · rfl
  · next flag _ =>
    rw [raise_prepend]
    cases invocation.raise flag <;> rfl
  · rfl
  · rfl
  · next field value _ =>
    rw [give_prepend]
    cases invocation.give field value <;> rfl

private theorem readLetters_prepend (letters : List Char) :
    (invocation.prepend more).readLetters letters =
      (invocation.readLetters letters).map (Prod.map (prepend more) id) := by
  induction letters generalizing invocation with
  | nil => rfl
  | cons letter rest ih =>
    unfold readLetters
    split
    · rfl
    · rfl
    · next rest _ _ field _ _ =>
      rw [give_prepend]
      cases invocation.give field (attachedValue rest) <;> rfl
    · next rest flag _ =>
      rw [raise_prepend]
      cases invocation.raise flag with
      | error halt => rfl
      | ok invocation => exact ih invocation

/-- Reading goes on in the same way, and ends with the same extensions in front. -/
theorem readAll_prepend (waiting : Option Field) (arguments : List String) :
    (invocation.prepend more).readAll waiting arguments =
      (invocation.readAll waiting arguments).map (prepend more) := by
  induction arguments generalizing invocation waiting with
  | nil => cases waiting <;> rfl
  | cons argument rest ih =>
    unfold readAll
    split
    · next field _ =>
      rw [give_prepend]
      cases invocation.give field argument with
      | error halt => rfl
      | ok invocation => exact ih invocation none
    · rfl
    · exact ih (invocation.addPath argument) none
    · rfl
    · next name value _ =>
      rw [readName_prepend]
      cases invocation.readName name value with
      | error halt => rfl
      | ok result => exact ih result.1 result.2
    · next letters _ =>
      rw [readLetters_prepend]
      cases invocation.readLetters letters with
      | error halt => rfl
      | ok result => exact ih result.1 result.2

theorem readAll_name {after : Invocation} {argument name : String} {value : Option String}
    {waiting : Option Field} (word : Word.ofArgument argument = .name name value)
    (read : invocation.readName name value = .ok (after, waiting)) (rest : List String) :
    invocation.readAll none (argument :: rest) = after.readAll waiting rest := by
  simp only [readAll, word, read]
  rfl

private theorem readAll_value {after : Invocation} {argument : String} {field : Field}
    (word : Word.ofArgument argument = .plain)
    (given : invocation.give field argument = .ok after) (rest : List String) :
    invocation.readAll (some field) (argument :: rest) = after.readAll none rest := by
  simp only [readAll, word, given]
  rfl

end Invocation

/-- The entries of a list with commas. -/
def Settings.entries (list : String) : List String :=
  (Text.splitOn ',' list.toList).map String.ofList

/-- The entries stay as they are if there is something to each of them, without blanks around it and
without dots in front. -/
theorem Settings.parseExtensions_eq_entries {list : String}
    (clean : ∀ entry ∈ Text.splitOn ',' list.toList, entry ≠ [] ∧ cleanExtension entry = entry) :
    parseExtensions list = entries list := by
  have same : (Text.splitOn ',' list.toList).map cleanExtension = Text.splitOn ',' list.toList := by
    rw [List.map_congr_left fun entry member => (clean entry member).2, List.map_id']
  have kept : ∀ entry ∈ Text.splitOn ',' list.toList, (!entry.isEmpty) = true := by
    intro entry member
    simpa using (clean entry member).1
  rw [parseExtensions, same, List.filter_eq_self.mpr kept, entries]

/-- Whether an option with a list of extensions is spelled by some arguments. Behind a blank, the
list must not look like an option. -/
def Request.SpellsExtensions (list : String) (option : List String) : Prop :=
  option = ["--extensions=" ++ list] ∨
    option = ["--extensions", list] ∧ Word.ofArgument list = .plain

namespace Request

open Settings

variable {list : String} {option arguments : List String} {invocation : Invocation}

private theorem ofArgument_extensions (list : String) :
    Word.ofArgument ("--extensions=" ++ list) = .name "extensions" (some list) := by
  have characters : ("--extensions=" ++ list).toList =
      "--extensions=".toList ++ list.toList := String.toList_append
  simp [Word.ofArgument, characters]

/-- The option puts the entries of its list in front of the extensions of other arguments. -/
theorem SpellsExtensions.readAll (spells : SpellsExtensions list option)
    (arguments : List String) :
    Invocation.empty.readAll none (option ++ arguments) =
      (Invocation.empty.readAll none arguments).map (.prepend (entries list)) := by
  have given : Invocation.empty.give .extensions list =
      .ok (Invocation.empty.prepend (entries list)) := by
    simp [Invocation.give, Invocation.assign, Invocation.prepend, Invocation.moreExtensions,
      Invocation.empty, entries, Except.mapError]
  have known : Switch.ofName? "extensions" = some (.field .extensions) := by decide
  -- Both spellings come to the same invocation, from which the other arguments are read.
  rw [← Invocation.readAll_prepend]
  obtain rfl | ⟨rfl, plain⟩ := spells
  · apply Invocation.readAll_name _ (ofArgument_extensions list)
    simp only [Invocation.readName, known, given]
    rfl
  · have word : Word.ofArgument "--extensions" = .name "extensions" none := by decide
    have read : Invocation.empty.readName "extensions" none =
        .ok (Invocation.empty, some .extensions) := by
      simp only [Invocation.readName, known]
    calc Invocation.empty.readAll none ("--extensions" :: list :: arguments)
      _ = Invocation.empty.readAll (some .extensions) (list :: arguments) :=
        Invocation.readAll_name _ word read _
      _ = (Invocation.empty.prepend (entries list)).readAll none arguments :=
        Invocation.readAll_value _ plain given _

theorem parse_eq_run_iff :
    parse arguments = .ok (.run invocation) ↔
      Invocation.empty.readAll none arguments = .ok invocation ∧
        invocation.exclusions.find? (·.1) = none := by
  unfold parse
  cases Invocation.empty.readAll none arguments with
  | error halt => cases halt <;> simp
  | ok other =>
    cases excluded : other.exclusions.find? (·.1) with
    | none => grind
    | some => grind

theorem SpellsExtensions.parse_eq_run_iff (spells : SpellsExtensions list option) :
    parse (option ++ arguments) = .ok (.run invocation) ↔
      ∃ other, parse arguments = .ok (.run other) ∧ other.prepend (entries list) = invocation := by
  simp only [Request.parse_eq_run_iff, spells.readAll]
  cases Invocation.empty.readAll none arguments with
  | error halt => simp [Except.map]
  | ok other =>
    simp only [Except.map, Except.ok.injEq]
    constructor
    · rintro ⟨rfl, compatible⟩
      exact ⟨other, ⟨rfl, compatible⟩, rfl⟩
    · rintro ⟨_, ⟨rfl, compatible⟩, rfl⟩
      exact ⟨rfl, compatible⟩

/-- Whether no extensions are given by some arguments. -/
def LacksExtensions (arguments : List String) : Prop :=
  ∀ invocation, parse arguments = .ok (.run invocation) → invocation.extensions = none

end Request

/-! ## Files that are picked up -/

namespace Program

open Settings Inputs

/-- Whether a run picks up the file of a path for formatting, given what it looks for. -/
def PicksUpWith (looksFor : Invocation → Wanted) (files : FileSystem) (env : Environment)
    (arguments : List String) (path : String) : Prop :=
  ∃ invocation paths,
    Request.parse arguments = .ok (.run invocation) ∧
    invocation.has .configPath = false ∧ invocation.has .configInit = false ∧
    expandAll files invocation.paths = .ok paths ∧
    .file path ∈ collect files env (looksFor invocation) paths

/-- Whether a run picks up the file of a path for formatting. -/
def PicksUp (files : FileSystem) (env : Environment) (arguments : List String) (path : String) :
    Prop :=
  PicksUpWith (wanted · (load files env).settings env) files env arguments path

/-- What a run looks for if the extensions are settled. -/
def among (extensions : List String) (invocation : Invocation) : Wanted :=
  ⟨extensions, invocation.has .includeIgnored⟩

variable {files : FileSystem} {env : Environment} {list path : String}
  {option arguments : List String}

/-- With the option, a run looks for the entries of the list. -/
theorem picksUp_option_iff (spells : Request.SpellsExtensions list option)
    (lacks : Request.LacksExtensions arguments) :
    PicksUp files env (option ++ arguments) path ↔
      PicksUpWith (among (entries list)) files env arguments path := by
  have looksFor : ∀ (invocation : Invocation) (settings : Settings),
      Request.parse arguments = .ok (.run invocation) →
      wanted (invocation.prepend (entries list)) settings env =
        among (entries list) invocation := by
    intro invocation settings parsed
    simp [wanted, among, Invocation.prepend, Invocation.has, lacks invocation parsed]
  constructor
  · rintro ⟨_, paths, whole, noPath, noInit, expanded, found⟩
    obtain ⟨invocation, parsed, rfl⟩ := spells.parse_eq_run_iff.mp whole
    simp only [looksFor invocation _ parsed] at found
    exact ⟨invocation, paths, parsed, noPath, noInit, expanded, found⟩
  · rintro ⟨invocation, paths, parsed, noPath, noInit, expanded, found⟩
    have whole := spells.parse_eq_run_iff.mpr ⟨invocation, parsed, rfl⟩
    refine ⟨invocation.prepend (entries list), paths, whole, noPath, noInit, expanded, ?_⟩
    simp only [looksFor invocation _ parsed]
    exact found

/-- With the variable, a run looks for what the settings make of the list. -/
theorem picksUp_variable_iff (lacks : Request.LacksExtensions arguments) :
    PicksUp files (env.set extensionsName list) arguments path ↔
      PicksUpWith (among (parseExtensions list)) files env arguments path := by
  have looksFor : ∀ (invocation : Invocation) (settings : Settings),
      Request.parse arguments = .ok (.run invocation) →
      wanted invocation settings (env.set extensionsName list) =
        among (parseExtensions list) invocation := by
    intro invocation settings parsed
    have value : (env.set extensionsName list).get? "FMTB_EXTENSIONS" = some list :=
      Environment.get?_set
    simp only [wanted, among, lacks invocation parsed, extensionsIn, value, Option.getD_none]
  unfold PicksUp PicksUpWith
  refine exists_congr fun invocation => exists_congr fun paths => and_congr_right fun parsed => ?_
  simp only [looksFor invocation _ parsed, collect_set]

private theorem picksUpWith_congr {first second : List String} (same : SameExtensions first second)
    (named : files.Named) :
    PicksUpWith (among first) files env arguments path ↔
      PicksUpWith (among second) files env arguments path := by
  unfold PicksUpWith among
  simp only [same.collect named]

theorem parse_here : Request.parse ["."] = .ok (.run (Invocation.empty.addPath ".")) := by
  decide

theorem lacksExtensions_here : Request.LacksExtensions ["."] := by
  intro invocation parsed
  obtain ⟨⟩ := parse_here.symm.trans parsed
  rfl

/-- A run through a directory with a lone file picks it up if its extension is looked for. -/
theorem picksUpWith_lone_iff {extension : String} (valid : IsExtension extension)
    (extensions : List String) :
    PicksUpWith (among extensions) (lone (nameWith extension)) bare ["."]
        (here.pathOf (nameWith extension)) ↔ extension ∈ extensions := by
  rw [← valid.found_iff extensions false]
  constructor
  · rintro ⟨invocation, paths, parsed, -, -, expanded, found⟩
    obtain ⟨⟩ := parse_here.symm.trans parsed
    obtain ⟨⟩ := expanded
    exact found
  · intro found
    exact ⟨Invocation.empty.addPath ".", ["."], parse_here, rfl, rfl, rfl, found⟩

/-- The option and the variable pick up the same with a list, whatever the files, the environment
and the other arguments are, exactly if its entries have the same extensions as they stand and
after blanks, dots and empty entries were put aside. -/
theorem picksUp_alike_iff (list : String) :
    (∀ files env option arguments path, files.Named → Request.SpellsExtensions list option →
      Request.LacksExtensions arguments →
      (PicksUp files env (option ++ arguments) path ↔
        PicksUp files (env.set extensionsName list) arguments path)) ↔
      SameExtensions (entries list) (parseExtensions list) := by
  constructor
  · intro alike extension valid
    -- A directory with a single file tells whether its extension is looked for.
    have both := alike (lone (nameWith extension)) bare _ ["."] (here.pathOf (nameWith extension))
      valid.named_lone (.inl rfl) lacksExtensions_here
    rw [picksUp_option_iff (.inl rfl) lacksExtensions_here,
      picksUp_variable_iff lacksExtensions_here, picksUpWith_lone_iff valid,
      picksUpWith_lone_iff valid] at both
    exact both
  · intro same files env option arguments path named spells lacks
    rw [picksUp_option_iff spells lacks, picksUp_variable_iff lacks]
    exact picksUpWith_congr same named

example : SameExtensions (entries "rb,rake") (parseExtensions "rb,rake") := by
  rw [parseExtensions_eq_entries (by decide)]
  exact fun _ _ => Iff.rfl

/-- A dot in front of an extension hides its files from the option but not from the variable. -/
theorem option_misses_dotted_extension :
    ¬PicksUp (lone "x.rb") bare ["--extensions=.rb", "."] "./x.rb" ∧
      PicksUp (lone "x.rb") (bare.set extensionsName ".rb") ["."] "./x.rb" := by
  have valid : IsExtension "rb" := ⟨by decide, by decide, by decide, by decide⟩
  have found := picksUpWith_lone_iff valid
  have spells : Request.SpellsExtensions ".rb" ["--extensions=.rb"] := .inl rfl
  constructor
  · intro picked
    have picked := (picksUp_option_iff spells lacksExtensions_here).mp picked
    exact absurd ((found _).mp picked) (by decide)
  · apply (picksUp_variable_iff lacksExtensions_here).mpr
    exact (found _).mpr (by decide)

end Program

end FormatHost
