import FormatHost.Inputs
import FormatHost.Proofs.Files.Queries

/-! # Wanted extensions

A walk asks for the extensions that are wanted at one point only: when it has met a file by a name
that can be looked up. So two lists of extensions that have the same texts among those that can be
extensions of such names find the same. Conversely every such text makes a difference: it is the
extension of a file that a walk meets.
-/

namespace FormatHost

/-! ## Extensions of names -/

namespace Path

/-- A name with an extension has something before the last dot and no dot behind it. -/
theorem extension?_eq_some_iff {name extension : String} :
    extension? name = some extension ↔
      '.' ∉ extension.toList ∧ ∃ stem, stem ≠ "" ∧ name = stem ++ "." ++ extension := by
  have whole := List.takeWhile_append_dropWhile (p := (· != '.')) (l := name.toList.reverse)
  have clear : '.' ∉ name.toList.reverse.takeWhile (· != '.') := by
    intro member
    simpa using List.mem_takeWhile_imp member
  have first := List.head?_dropWhile_not (· != '.') name.toList.reverse
  simp only [extension?]
  constructor
  · intro found
    split at found
    · contradiction
    · contradiction
    · next dot last rest shape =>
      obtain rfl := Option.some.inj found
      rw [shape] at whole first
      obtain rfl : dot = '.' := by simpa using first
      refine ⟨by simpa using clear, String.ofList (last :: rest).reverse, by simp, ?_⟩
      apply String.toList_inj.mp
      calc name.toList
        _ = (name.toList.reverse.takeWhile (· != '.') ++ '.' :: last :: rest).reverse := by
          rw [whole, List.reverse_reverse]
        _ = _ := by simp
  · rintro ⟨noDot, stem, nonempty, rfl⟩
    have nonempty : stem.toList ≠ [] := by simpa using nonempty
    obtain ⟨front, last, shape⟩ := (List.eq_nil_or_concat' stem.toList).resolve_left nonempty
    have backward : (stem ++ "." ++ extension).toList.reverse =
        extension.toList.reverse ++ '.' :: last :: front.reverse := by
      simp [shape]
    have other : ∀ c ∈ extension.toList.reverse, (c != '.') = true := by
      intro c member
      have : c ≠ '.' := fun dot => noDot (by simpa [dot] using member)
      simpa using this
    rw [backward, List.dropWhile_append_of_pos other, List.takeWhile_append_of_pos other]
    simp

/-- A name is the one step of itself. -/
theorem steps_of_isName {name : String} (proper : IsName name) : steps name = [name] := by
  obtain ⟨nonempty, -, -, clear⟩ := proper
  have alone : pieces name = [name] := by
    have whole : name.toList = List.intercalate ['/'] [name.toList] :=
      List.intercalate_singleton.symm
    rw [pieces, Text.splitOn_eq_splitOn, whole,
      List.splitOn_intercalate '/' (by simpa using clear) (by simp)]
    simp
  have noSlash : endsWithSlash name = false := by
    have : name.toList.getLast? ≠ some '/' := fun last => clear (List.mem_of_getLast? last)
    simpa [endsWithSlash] using this
  rw [steps, noSlash, names, alone]
  simp [nonempty]
end Path

/-- Whether a text can be the extension of a file: it is part of a name, and short enough to stand
behind a character and a dot. -/
structure Inputs.IsExtension (extension : String) : Prop where
  noDot : '.' ∉ extension.toList
  noSlash : '/' ∉ extension.toList
  noNul : '\x00' ∉ extension.toList
  short : extension.utf8ByteSize + 2 ≤ FileSystem.longestName

namespace FileSystem

/-- Whether everything in a file system is under a name. -/
def Named (files : FileSystem) : Prop :=
  ∀ e ∈ files.entries, ∀ name ∈ e.1, Path.IsName name

private theorem mem_of_nameIn? {directory place : Location} {name : String}
    (direct : nameIn? directory place = some name) : name ∈ place := by
  fun_induction nameIn? directory place with
  | case1 => simp_all
  | case2 directory first place ih => exact List.mem_cons_of_mem _ (ih direct)
  | case3 => contradiction
  | case4 => contradiction

theorem Named.isName {files : FileSystem} {directory : Location} {name : String} {entry : Entry}
    (named : files.Named) (child : (name, entry) ∈ files.children directory) :
    Path.IsName name := by
  obtain ⟨⟨place, _⟩, member, direct⟩ := List.mem_filterMap.mp child
  obtain ⟨_, found, same⟩ := Option.map_eq_some_iff.mp direct
  obtain ⟨rfl, -⟩ := Prod.mk.inj same
  exact named _ member _ (mem_of_nameIn? found)

end FileSystem

namespace Inputs

open FileSystem

variable {files : FileSystem} {site : Ignore.Site} {name extension : String}

theorem hasFile_iff : site.hasFile files name = true ↔
    ∃ place data mode, site.find files name = .ok (place, .file data mode) := by
  unfold Ignore.Site.hasFile
  split
  · next place data mode found => simp [found]
  · next other =>
    simp only [Bool.false_eq_true, false_iff, not_exists]
    exact fun place data mode found => other place data mode found

private theorem subset_pathOf (site : Ignore.Site) (name : String) :
    name.toList ⊆ (site.pathOf name).toList := by
  unfold Ignore.Site.pathOf Path.join
  split
  · exact List.Subset.refl _
  · split <;> simp

/-- The extension of a file that is met can be the extension of a file. -/
theorem isExtension_of_hasFile (proper : Path.IsName name) (met : site.hasFile files name = true)
    (has : Path.extension? name = some extension) : IsExtension extension := by
  obtain ⟨noDot, stem, nonempty, shape⟩ := Path.extension?_eq_some_iff.mp has
  obtain ⟨place, data, mode, found⟩ := hasFile_iff.mp met
  obtain ⟨⟨⟩, checked, found⟩ := bind_eq_ok_iff.mp found
  obtain ⟨spot, walked, -⟩ := bind_eq_ok_iff.mp found
  rw [Path.steps_of_isName proper, walk_eq_ok_iff] at walked
  have inside : extension.toList ⊆ name.toList := by
    simp [shape]
  have looked : IsLookedUp name := by
    cases walked with
    | stay => exact absurd rfl proper.2.1
    | climb => exact absurd rfl proper.2.2.1
    | enter looked | file looked | miss looked | keep looked | follow looked => exact looked
  have size := congrArg String.utf8ByteSize shape
  simp only [String.utf8ByteSize_append] at size
  have dot : ".".utf8ByteSize = 1 := by decide
  have some : stem.utf8ByteSize ≠ 0 :=
    fun none => nonempty (String.utf8ByteSize_eq_zero_iff.mp none)
  exact {
    noDot := noDot
    noSlash := fun member => proper.2.2.2 (inside member)
    noNul := fun member =>
      (checkPath_eq_ok_iff.mp checked).1 (subset_pathOf site name (inside member))
    short := by
      have long := looked.2.2
      omega }

/-! ## Lists of extensions -/

/-- Whether two lists have the same texts among those that can be extensions. -/
def SameExtensions (first second : List String) : Prop :=
  ∀ extension, IsExtension extension → (extension ∈ first ↔ extension ∈ second)

variable {first second : List String}

theorem SameExtensions.isWanted (same : SameExtensions first second) (ignored : Bool)
    (proper : Path.IsName name) (met : site.hasFile files name = true) :
    isWanted ⟨first, ignored⟩ name = isWanted ⟨second, ignored⟩ name := by
  unfold Inputs.isWanted
  split
  · next extension has =>
    have alike := same extension (isExtension_of_hasFile proper met has)
    rw [Bool.eq_iff_iff, List.contains_iff_mem, List.contains_iff_mem]
    exact alike
  · rfl

/-- A walk finds the same with lists that have the same extensions. -/
theorem SameExtensions.walk (same : SameExtensions first second) (named : files.Named)
    (ignored : Bool) (root : Ignore.Site) (outer : List Outer) (rules : List Ignore.Rule)
    (levels : ℕ) (site : Ignore.Site) (layers : List Ignore.Layer) :
    walk ⟨files, ⟨first, ignored⟩, root, outer, rules⟩ levels site layers =
      walk ⟨files, ⟨second, ignored⟩, root, outer, rules⟩ levels site layers := by
  induction levels generalizing site layers with
  | zero => rfl
  | succ levels ih =>
    unfold Inputs.walk
    apply List.flatMap_congr
    rintro ⟨name, entry⟩ member
    have child : (name, entry) ∈ files.children site.place := List.mem_mergeSort.mp member
    simp only [ih]
    -- Everything but the last question is the same for both lists.
    refine if_congr Iff.rfl rfl (if_congr Iff.rfl rfl (if_congr ?_ rfl rfl))
    cases met : site.hasFile files name with
    | false => simp
    | true => rw [same.isWanted ignored (named.isName child) met]

theorem SameExtensions.collectPath (same : SameExtensions first second) (named : files.Named)
    (ignored : Bool) (rules : List Ignore.Rule) (kept : List Outer) (path : String) :
    collectPath files ⟨first, ignored⟩ rules kept path =
      collectPath files ⟨second, ignored⟩ rules kept path := by
  unfold Inputs.collectPath
  simp only [same.walk named]
  rfl

/-- So do all walks of a run. -/
theorem SameExtensions.collect (same : SameExtensions first second) (named : files.Named)
    (ignored : Bool) (env : Environment) (paths : List String) :
    collect files env ⟨first, ignored⟩ paths = collect files env ⟨second, ignored⟩ paths := by
  unfold Inputs.collect
  generalize Ignore.UserRules.read files env = rules
  generalize ([] : List Outer) = kept
  induction paths generalizing kept with
  | nil => rfl
  | cons path rest ih => simp only [collectAll, same.collectPath named, ih]

/-! ## A file that a walk meets -/

/-- A file system with one file, in the root. -/
def lone (name : String) : FileSystem :=
  ⟨[([name], .file [] standardMode)], []⟩

/-- The root of a file system, as the working directory. -/
def here : Ignore.Site := ⟨".", []⟩

/-- The ignore files of a working directory that has none. -/
def noLayer : Ignore.Layer := ⟨".", [], [], [], [], false⟩

/-- Whether a name can be looked up and is not hidden. -/
structure IsPlainName (name : String) : Prop where
  isName : Path.IsName name
  isLookedUp : IsLookedUp name
  noNul : '\x00' ∉ name.toList
  visible : name.toList.head? ≠ some '.'

private theorem get?_lone_of_ne {other : String} (different : other ≠ name) :
    (lone name).get? [other] = none := by
  rw [get?_of_ne_nil _ (by simp), lone, lookup_cons_eq_ite, if_neg (by simpa using different)]
  rfl

private theorem get?_lone (name : String) :
    (lone name).get? [name] = some (.file [] standardMode) := by
  rw [get?_of_ne_nil _ (by simp), lone, lookup_cons_eq_ite, if_pos rfl]

/-- Nothing else is found in the directory. -/
theorem find_lone_of_ne {path front : String} {rest : List String}
    (steps : Path.steps path = front :: rest) (looked : IsLookedUp front)
    (different : front ≠ name) : ∃ fault, here.find (lone name) path = .error fault := by
  have vacant : (lone name).get? ([] ++ [front]) = none := get?_lone_of_ne different
  cases result : here.find (lone name) path with
  | error fault => exact ⟨fault, rfl⟩
  | ok found =>
    obtain ⟨⟨⟩, -, result⟩ := bind_eq_ok_iff.mp result
    obtain ⟨spot, walked, result⟩ := bind_eq_ok_iff.mp result
    rw [steps, walk_eq_ok_iff] at walked
    cases walked with
    | stay => exact absurd rfl looked.1
    | climb => exact absurd rfl looked.2.1
    | miss => contradiction
    | enter _ there | file _ there | keep _ there | follow _ there =>
      exact absurd (vacant.symm.trans there) (by simp)

/-- The directory has no ignore files: all of them would be hidden. -/
theorem layer_lone (visible : name.toList.head? ≠ some '.') (ignored : Bool) :
    Ignore.Layer.read (lone name) ignored here = (noLayer, []) := by
  have absent : ∀ path front rest, Path.steps path = front :: rest → IsLookedUp front →
      front.toList.head? = some '.' → ∃ fault, here.find (lone name) path = .error fault := by
    intro path front rest steps looked hidden
    apply find_lone_of_ne steps looked
    rintro rfl
    exact visible hidden
  have noRules : ∀ path front rest, Path.steps path = front :: rest → IsLookedUp front →
      front.toList.head? = some '.' → here.readRules (lone name) path = ([], []) := by
    intro path front rest steps looked hidden
    obtain ⟨fault, missing⟩ := absent path front rest steps looked hidden
    simp only [Ignore.Site.readRules, missing]
    rfl
  obtain ⟨_, git⟩ := absent ".git" ".git" [] (by decide) (by decide) (by decide)
  obtain ⟨_, jj⟩ := absent ".jj" ".jj" [] (by decide) (by decide) (by decide)
  have noRepository : Ignore.Layer.hasRepository (lone name) here = false := by
    simp only [Ignore.Layer.hasRepository, Ignore.Site.has, Ignore.Layer.repositoryName, git, jj]
    rfl
  have exclude : Ignore.Layer.readExclude (lone name) here = ([], []) := by
    have noFile : here.hasFile (lone name) ".git" = false := by
      rw [Bool.eq_false_iff, ne_eq, hasFile_iff, git]
      rintro ⟨place, data, mode, ⟨⟩⟩
    rw [Ignore.Layer.readExclude, Ignore.Layer.repositoryName, noFile]
    exact noRules _ ".git" ["info", "exclude"] (by decide) (by decide) (by decide)
  rw [Ignore.Layer.read, noRepository, exclude, Ignore.Layer.ownName,
    noRules ".fmtbignore" ".fmtbignore" [] (by decide) (by decide) (by decide),
    noRules ".ignore" ".ignore" [] (by decide) (by decide) (by decide),
    noRules ".gitignore" ".gitignore" [] (by decide) (by decide) (by decide)]
  simp [here, noLayer]

/-- The file is met under its name. -/
theorem hasFile_lone (plain : IsPlainName name) : here.hasFile (lone name) name = true := by
  have relative : Path.isAbsolute name = false := by
    have first : name.toList.head? ≠ some '/' :=
      fun slash => plain.isName.2.2.2 (List.mem_of_head? slash)
    simpa [Path.isAbsolute] using first
  have path : here.pathOf name = "./" ++ name := by
    rw [Ignore.Site.pathOf, Path.join, relative]
    rfl
  have checked : checkPath (here.pathOf name) = .ok () := by
    have front : "./".utf8ByteSize = 2 := by decide
    have short := plain.isLookedUp.2.2
    rw [checkPath_eq_ok_iff, path, String.utf8ByteSize_append]
    refine ⟨by simpa using plain.noNul, by simp, ?_⟩
    unfold longestName at short
    unfold longestPath
    omega
  have leads : Leads (lone name) true mostLinks [] [name] (.entry [name] (.file [] standardMode)) :=
    .file plain.isLookedUp (get?_lone name)
  apply hasFile_iff.mpr
  refine ⟨[name], [], standardMode, ?_⟩
  refine bind_eq_ok_iff.mpr ⟨(), checked, bind_eq_ok_iff.mpr ⟨.entry [name] _, ?_, rfl⟩⟩
  rw [Path.steps_of_isName plain.isName]
  exact walk_of_leads leads

/-- No rule says anything about it. -/
theorem leavesOut_lone (visible : name.toList.head? ≠ some '.') (wanted : Wanted) (path : String)
    (entry : Entry) :
    Tour.leavesOut ⟨lone name, wanted, here, [], []⟩ [noLayer] path name entry = false := by
  have nothing : Tour.verdict ⟨lone name, wanted, here, [], []⟩ [noLayer] path
      (entry == .directory) = .none := rfl
  simpa [Tour.leavesOut, nothing] using visible

private theorem walk_lone (plain : IsPlainName name) (wanted : Wanted) (levels : ℕ) :
    walk ⟨lone name, wanted, here, [], []⟩ (levels + 1) here [noLayer] =
      if isWanted wanted name then [.file (here.pathOf name)] else [] := by
  have alone : sortedChildren (lone name) here.place = [(name, .file [] standardMode)] := by
    simp [sortedChildren, children, lone, nameIn?, here]
  unfold walk
  simp only [alone, List.flatMap_singleton, leavesOut_lone plain.visible, hasFile_lone plain]
  simp

/-- The environment of a process for which nothing is set. -/
def bare : Environment := ⟨[], none⟩

/-- All that counts is whether the extension of the file is wanted. -/
theorem collect_lone (plain : IsPlainName name) (wanted : Wanted) :
    collect (lone name) bare wanted ["."] =
      if isWanted wanted name then [.file (here.pathOf name)] else [] := by
  have found : ∀ follow, (lone name).find follow "." = .ok ([], .directory) := by
    intro follow
    refine find_eq_ok_iff.mpr (resolve_eq_ok_iff.mpr ⟨?_, ?_⟩)
    · decide
    · exact .stay .arrive
  have noRules : Ignore.UserRules.read (lone name) bare = [] := rfl
  have noDash : Path.isJust "-" "." = false := by decide
  have root : (⟨".", []⟩ : Ignore.Site) = here := rfl
  have above : Outer.readAbove (lone name) wanted [] [] = ([], []) := rfl
  rw [collect, noRules, collectAll, collectPath, noDash]
  simp only [found, root, above, layer_lone plain.visible, walk_lone plain]
  simp [collectAll]

def nameWith (extension : String) : String :=
  "x." ++ extension

private theorem IsExtension.extension?_nameWith (valid : IsExtension extension) :
    Path.extension? (nameWith extension) = some extension :=
  Path.extension?_eq_some_iff.mpr ⟨valid.noDot, "x", by decide, rfl⟩

theorem IsExtension.isPlainName (valid : IsExtension extension) :
    IsPlainName (nameWith extension) := by
  have characters : (nameWith extension).toList = 'x' :: '.' :: extension.toList := by
    simp [nameWith]
  have differs : ∀ other : String, other.toList.head? ≠ some 'x' → nameWith extension ≠ other := by
    rintro _ first rfl
    exact first (by rw [characters]; rfl)
  have short : (nameWith extension).utf8ByteSize ≤ longestName := by
    have front : "x.".utf8ByteSize = 2 := by decide
    have length := valid.short
    rw [nameWith, String.utf8ByteSize_append]
    omega
  exact {
    isName := by
      refine ⟨differs "" (by decide), differs "." (by decide), differs ".." (by decide), ?_⟩
      simpa [characters] using valid.noSlash
    isLookedUp := ⟨differs "." (by decide), differs ".." (by decide), short⟩
    noNul := by simpa [characters] using valid.noNul
    visible := by simp [characters] }

theorem IsExtension.named_lone (valid : IsExtension extension) :
    (lone (nameWith extension)).Named := by
  intro e member other inside
  obtain rfl := List.mem_singleton.mp member
  obtain rfl := List.mem_singleton.mp inside
  exact valid.isPlainName.isName

/-- Every text that can be an extension is that of a file which is found if it is wanted. -/
theorem IsExtension.found_iff (valid : IsExtension extension) (extensions : List String)
    (ignored : Bool) :
    Found.file (here.pathOf (nameWith extension)) ∈
        collect (lone (nameWith extension)) bare ⟨extensions, ignored⟩ ["."] ↔
      extension ∈ extensions := by
  rw [collect_lone valid.isPlainName, isWanted, valid.extension?_nameWith]
  by_cases wanted : extension ∈ extensions <;> simp [wanted]

end Inputs

end FormatHost
