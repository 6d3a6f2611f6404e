import FormatHost.Proofs.Files.Paths
import FormatHost.Proofs.Files.Store

/-! # Where paths lead

The ways that names can lead through a file system are a relation, and a walk finds exactly what
they lead to. What is found stays when something is added where nothing was, and a new file leads to
no directory that was not reached before. Places that are found by following all links are made of
names and are reached through directories alone.
-/

namespace FormatHost.FileSystem

variable {fs larger : FileSystem} {follow : Bool} {links : Nat} {here place directory : Location}
  {names : List String} {name : String} {spot : Spot} {entry : Entry}

/-- Whether a name is looked up in a directory, and is not too long for that. -/
def IsLookedUp (name : String) : Prop :=
  name ≠ "." ∧ name ≠ ".." ∧ name.utf8ByteSize ≤ longestName

instance (name : String) : Decidable (IsLookedUp name) :=
  inferInstanceAs (Decidable (_ ∧ _))

theorem IsLookedUp.isName (proper : IsLookedUp name) (step : name ≠ "" ∧ '/' ∉ name.toList) :
    Path.IsName name :=
  ⟨step.1, proper.1, proper.2.1, step.2⟩

/-- Where the names lead from a directory on, if at most so many links are followed. -/
inductive Leads (fs : FileSystem) (follow : Bool) : Nat → Location → List String → Spot → Prop
  | arrive {links : Nat} {here : Location} : Leads fs follow links here [] (.entry here .directory)
  | stay {links : Nat} {here : Location} {rest : List String} {spot : Spot}
      (onward : Leads fs follow links here rest spot) :
      Leads fs follow links here ("." :: rest) spot
  | climb {links : Nat} {here : Location} {rest : List String} {spot : Spot}
      (onward : Leads fs follow links here.dropLast rest spot) :
      Leads fs follow links here (".." :: rest) spot
  | enter {links : Nat} {here : Location} {name : String} {rest : List String} {spot : Spot}
      (proper : IsLookedUp name) (found : fs.get? (here ++ [name]) = some .directory)
      (onward : Leads fs follow links (here ++ [name]) rest spot) :
      Leads fs follow links here (name :: rest) spot
  | file {links : Nat} {here : Location} {name : String} {data : Bytes} {mode : Nat}
      (proper : IsLookedUp name) (found : fs.get? (here ++ [name]) = some (.file data mode)) :
      Leads fs follow links here [name] (.entry (here ++ [name]) (.file data mode))
  | miss {links : Nat} {here : Location} {name : String}
      (proper : IsLookedUp name) (found : fs.get? (here ++ [name]) = none) :
      Leads fs follow links here [name] (.vacant here name)
  | keep {links : Nat} {here : Location} {name target : String}
      (proper : IsLookedUp name) (found : fs.get? (here ++ [name]) = some (.link target))
      (still : follow = false) :
      Leads fs follow links here [name] (.entry (here ++ [name]) (.link target))
  | follow {links : Nat} {here : Location} {name target : String} {rest : List String} {spot : Spot}
      (proper : IsLookedUp name) (found : fs.get? (here ++ [name]) = some (.link target))
      (moves : rest ≠ [] ∨ follow = true)
      (onward : Leads fs follow links (if Path.isAbsolute target then [] else here)
        (Path.steps target ++ rest) spot) :
      Leads fs follow (links + 1) here (name :: rest) spot

theorem isLookedUp_of_not {name : String} (stays : ¬name = ".") (climbs : ¬name = "..")
    (short : ¬longestName < name.utf8ByteSize) : IsLookedUp name :=
  ⟨stays, climbs, Nat.le_of_not_lt short⟩

/-- What is found on the way up to a link, and behind it by jumps that lead there, is led to. -/
theorem leads_of_walkWith {jump : Location → List String → Except IoFault Spot}
    (behind : ∀ there steps, jump there steps = .ok spot →
      ∃ left, links = left + 1 ∧ Leads fs follow left there steps spot)
    (found : fs.walkWith follow jump here names = .ok spot) :
    Leads fs follow links here names spot := by
  fun_induction fs.walkWith follow jump here names with
  | case1 here =>
    obtain rfl := Except.ok.inj found
    exact .arrive
  | case2 here rest ih => exact .stay (ih found)
  | case3 here rest _ ih => exact .climb (ih found)
  | case4 => contradiction
  | case5 here name rest stays climbs short there last =>
    obtain rfl := Except.ok.inj found
    obtain rfl := List.isEmpty_iff.mp last
    exact .miss (isLookedUp_of_not stays climbs short) there
  | case6 => contradiction
  | case7 here name rest stays climbs short there ih =>
    exact .enter (isLookedUp_of_not stays climbs short) there (ih found)
  | case8 here name rest stays climbs short data mode there last =>
    obtain rfl := Except.ok.inj found
    obtain rfl := List.isEmpty_iff.mp last
    exact .file (isLookedUp_of_not stays climbs short) there
  | case9 => contradiction
  | case10 here name rest stays climbs short target there last =>
    obtain rfl := Except.ok.inj found
    simp only [Bool.and_eq_true, List.isEmpty_iff, Bool.not_eq_true'] at last
    obtain ⟨rfl, still⟩ := last
    exact .keep (isLookedUp_of_not stays climbs short) there still
  | case11 here name rest stays climbs short target there moves =>
    obtain ⟨left, rfl, onward⟩ := behind _ _ found
    refine .follow (isLookedUp_of_not stays climbs short) there ?_ onward
    by_contra! still
    simp [still] at moves

private theorem leads_of_walk (found : fs.walk follow links here names = .ok spot) :
    Leads fs follow links here names spot := by
  induction links generalizing here names with
  | zero =>
    rw [walk] at found
    refine leads_of_walkWith ?_ found
    nofun
  | succ links ih => exact leads_of_walkWith (fun _ _ jumped => ⟨links, rfl, ih jumped⟩) found

@[simp] theorem walk_nil : fs.walk follow links here [] = .ok (.entry here .directory) := by
  cases links <;> rfl

@[simp] theorem walk_stay (rest : List String) :
    fs.walk follow links here ("." :: rest) = fs.walk follow links here rest := by
  cases links <;> rfl

@[simp] theorem walk_climb (rest : List String) :
    fs.walk follow links here (".." :: rest) = fs.walk follow links here.dropLast rest := by
  cases links <;> rfl

theorem walk_of_isLookedUp (proper : IsLookedUp name) (rest : List String) :
    fs.walk follow links here (name :: rest) =
      match fs.get? (here ++ [name]) with
      | none => if rest.isEmpty then .ok (.vacant here name) else .error (.os .noEntry)
      | some .directory => fs.walk follow links (here ++ [name]) rest
      | some (.file data mode) =>
        if rest.isEmpty then .ok (.entry (here ++ [name]) (.file data mode))
        else .error (.os .notDirectory)
      | some (.link target) =>
        if rest.isEmpty && !follow then .ok (.entry (here ++ [name]) (.link target))
        else
          match links with
          | 0 => .error (.os .tooManyLinks)
          | links + 1 =>
            fs.walk follow links (if Path.isAbsolute target then [] else here)
              (Path.steps target ++ rest) := by
  cases links with
  | zero =>
    rw [walk, walkWith, if_neg proper.1, if_neg proper.2.1]
    exact if_neg proper.2.2.not_gt
  | succ links =>
    rw [walk, walkWith, if_neg proper.1, if_neg proper.2.1]
    exact if_neg proper.2.2.not_gt

theorem walk_of_leads (leads : Leads fs follow links here names spot) :
    fs.walk follow links here names = .ok spot := by
  induction leads with
  | arrive => exact walk_nil
  | stay _ ih => rw [walk_stay, ih]
  | climb _ ih => rw [walk_climb, ih]
  | enter proper found _ ih =>
    rw [walk_of_isLookedUp proper, found]
    exact ih
  | file proper found =>
    rw [walk_of_isLookedUp proper, found]
    rfl
  | miss proper found =>
    rw [walk_of_isLookedUp proper, found]
    rfl
  | keep proper found still =>
    rw [walk_of_isLookedUp proper, found, still]
    rfl
  | @follow _ _ _ _ rest _ proper found moves _ ih =>
    have onward : ¬(rest.isEmpty && !follow) = true := by
      simpa [imp_iff_not_or] using moves
    rw [walk_of_isLookedUp proper, found]
    simp only [if_neg onward]
    exact ih

/-- A walk finds exactly what the names lead to. -/
theorem walk_eq_ok_iff :
    fs.walk follow links here names = .ok spot ↔ Leads fs follow links here names spot :=
  ⟨leads_of_walk, walk_of_leads⟩

/-- Whether everything in a file system is in another one too. -/
def Extends (fs larger : FileSystem) : Prop :=
  ∀ place entry, fs.get? place = some entry → larger.get? place = some entry

theorem extends_put (vacant : fs.get? place = none) (entry : Entry) :
    fs.Extends (fs.put place entry) := by
  intro other old found
  rw [get?_put_of_ne fs (ne_nil_of_get?_eq_none vacant), found]
  rintro rfl
  rw [vacant] at found
  contradiction

/-- What names lead to stays when something is added. -/
theorem Leads.extend (extension : fs.Extends larger)
    (leads : Leads fs follow links here names (.entry place entry)) :
    Leads larger follow links here names (.entry place entry) := by
  generalize target : Spot.entry place entry = spot at leads
  induction leads with
  | arrive => exact .arrive
  | stay _ ih => exact .stay (ih target)
  | climb _ ih => exact .climb (ih target)
  | enter proper found _ ih => exact .enter proper (extension _ _ found) (ih target)
  | file proper found => exact .file proper (extension _ _ found)
  | miss => contradiction
  | keep proper found still => exact .keep proper (extension _ _ found) still
  | follow proper found moves _ ih => exact .follow proper (extension _ _ found) moves (ih target)

/-- A new file leads to no directory that was not reached before. -/
theorem Leads.of_put_file {data : Bytes} {mode : Nat} (vacant : fs.get? place = none)
    (leads : Leads (fs.put place (.file data mode)) follow links here names
      (.entry directory .directory)) :
    Leads fs follow links here names (.entry directory .directory) := by
  have before : ∀ {other old}, (fs.put place (.file data mode)).get? other = some old →
      (∀ bytes rights, old ≠ .file bytes rights) → fs.get? other = some old := by
    intro other old found noFile
    rw [get?_put fs (ne_nil_of_get?_eq_none vacant)] at found
    split at found
    · obtain rfl := Option.some.inj found
      exact absurd rfl (noFile data mode)
    · exact found
  generalize target : Spot.entry directory .directory = spot at leads
  induction leads with
  | arrive => exact .arrive
  | stay _ ih => exact .stay (ih target)
  | climb _ ih => exact .climb (ih target)
  | enter proper found _ ih => exact .enter proper (before found nofun) (ih target)
  | file => cases target
  | miss => contradiction
  | keep => cases target
  | follow proper found moves _ ih => exact .follow proper (before found nofun) moves (ih target)

theorem exists_cons_of_append_stop {front rest : List String}
    (shape : front ++ ["."] = name :: rest) (moves : name ≠ ".") :
    ∃ back, front = name :: back ∧ back ++ ["."] = rest := by
  obtain ⟨rfl, same⟩ | ⟨back, rfl, same⟩ := List.append_eq_cons_iff.mp shape
  · exact absurd (List.cons.inj same).1.symm moves
  · exact ⟨back, rfl, same.symm⟩

theorem append_stop_ne {front : List String} (moves : name ≠ ".") : front ++ ["."] ≠ [name] := by
  intro shape
  obtain ⟨back, -, same⟩ := exists_cons_of_append_stop shape moves
  simp at same

/-- Names that lead to a directory can be followed by others, which are looked up from there. -/
theorem Leads.append {front : List String}
    (leads : Leads fs true links here (front ++ ["."]) spot) :
    ∃ directory left, spot = .entry directory .directory ∧
      ∀ {follow : Bool} {back : List String} {spot : Spot}, back ≠ [] →
        Leads fs follow left directory back spot →
        Leads fs follow links here (front ++ back) spot := by
  generalize shape : front ++ ["."] = names at leads
  induction leads generalizing front with
  | arrive => simp at shape
  | @stay links here rest spot onward ih =>
    obtain ⟨rfl, same⟩ | ⟨back, rfl, same⟩ := List.append_eq_cons_iff.mp shape
    · obtain ⟨-, rfl⟩ := List.cons.inj same
      cases onward
      exact ⟨here, links, rfl, fun _ behind => behind⟩
    · obtain ⟨directory, left, rfl, behind⟩ := ih same.symm
      exact ⟨directory, left, rfl, fun nonempty tail => .stay (behind nonempty tail)⟩
  | climb onward ih =>
    obtain ⟨back, rfl, same⟩ := exists_cons_of_append_stop shape (by decide)
    obtain ⟨directory, left, rfl, behind⟩ := ih same
    exact ⟨directory, left, rfl, fun nonempty tail => .climb (behind nonempty tail)⟩
  | enter proper found onward ih =>
    obtain ⟨back, rfl, same⟩ := exists_cons_of_append_stop shape proper.1
    obtain ⟨directory, left, rfl, behind⟩ := ih same
    exact ⟨directory, left, rfl, fun nonempty tail => .enter proper found (behind nonempty tail)⟩
  | @follow _ _ _ target _ _ proper found moves onward ih =>
    obtain ⟨back, rfl, same⟩ := exists_cons_of_append_stop shape proper.1
    have longer : (Path.steps target ++ back) ++ ["."] = Path.steps target ++ (back ++ ["."]) :=
      List.append_assoc ..
    obtain ⟨directory, left, rfl, behind⟩ := ih (same ▸ longer)
    refine ⟨directory, left, rfl, fun nonempty tail => .follow proper found ?_ ?_⟩
    · exact .inl (List.append_ne_nil_of_right_ne_nil back nonempty)
    · have onward := behind nonempty tail
      rw [List.append_assoc] at onward
      exact onward
  | file proper found => exact absurd shape (append_stop_ne proper.1)
  | miss proper found => exact absurd shape (append_stop_ne proper.1)
  | keep proper found still => exact absurd shape (append_stop_ne proper.1)

/-- Whether a place is a directory that is reached from the root through directories, as the working
directory of a machine is. -/
structure Rooted (fs : FileSystem) (place : Location) : Prop where
  names : ∀ name ∈ place, Path.IsName name
  directories : ∀ front, front <+: place → fs.get? front = some .directory

theorem rooted_root (fs : FileSystem) : fs.Rooted [] where
  names := nofun
  directories := by
    intro front inside
    rw [List.prefix_nil.mp inside, get?_root]

theorem Rooted.ofPrefix {front : Location} (rooted : fs.Rooted place) (inside : front <+: place) :
    fs.Rooted front where
  names := fun name member => rooted.names name (inside.subset member)
  directories := fun first before => rooted.directories first (before.trans inside)

theorem Rooted.names_child (rooted : fs.Rooted place) (proper : Path.IsName name) :
    ∀ other ∈ place ++ [name], Path.IsName other := by
  intro other member
  obtain member | member := List.mem_append.mp member
  · exact rooted.names other member
  · obtain rfl := List.mem_singleton.mp member
    exact proper

theorem Rooted.child (rooted : fs.Rooted place) (proper : Path.IsName name)
    (found : fs.get? (place ++ [name]) = some .directory) : fs.Rooted (place ++ [name]) where
  names := rooted.names_child proper
  directories := by
    intro front inside
    obtain rfl | before := List.prefix_concat_iff.mp inside
    · exact found
    · exact rooted.directories front before

theorem Rooted.keep (rooted : fs.Rooted place)
    (kept : ∀ other, fs.get? other = some .directory → larger.get? other = some .directory) :
    larger.Rooted place where
  names := rooted.names
  directories := fun front inside => kept front (rooted.directories front inside)

/-- The names of a directory lead to it. -/
theorem Leads.eq_of_rooted (rooted : fs.Rooted (here ++ names))
    (leads : Leads fs true links here (names ++ ["."]) spot) :
    spot = .entry (here ++ names) .directory := by
  induction names generalizing here with
  | nil =>
    have found := walk_of_leads leads
    rw [List.nil_append, walk_stay, walk_nil] at found
    rw [List.append_nil]
    exact (Except.ok.inj found).symm
  | cons name rest ih =>
    have proper := rooted.names name (by simp)
    have inside : here ++ [name] <+: here ++ name :: rest :=
      (List.prefix_append_right_inj here).mpr (List.prefix_append [name] rest)
    have there := rooted.directories _ inside
    have shape : here ++ name :: rest = (here ++ [name]) ++ rest := by simp
    rw [shape] at rooted ⊢
    generalize behind : rest ++ ["."] = back at ih
    rw [List.cons_append, behind] at leads
    cases leads with
    | stay => exact absurd rfl proper.2.1
    | climb => exact absurd rfl proper.2.2.1
    | enter _ _ onward => exact ih rooted onward
    | file | miss | keep => simp at behind
    | follow _ found => simp [there] at found

/-- Whether a path leads to a place without any link on the way. -/
inductive Canonical (fs : FileSystem) : Location → Entry → Prop
  | directory {place : Location} (rooted : fs.Rooted place) : Canonical fs place .directory
  | file {directory : Location} {name : String} {data : Bytes} {mode : Nat}
      (rooted : fs.Rooted directory) (proper : Path.IsName name)
      (found : fs.get? (directory ++ [name]) = some (.file data mode)) :
      Canonical fs (directory ++ [name]) (.file data mode)

/-- Following all links leads to a place without any link on the way. -/
theorem Leads.canonical (leads : Leads fs true links here names (.entry place entry))
    (rooted : fs.Rooted here) (valid : Path.AreSteps names) : fs.Canonical place entry := by
  generalize goal : Spot.entry place entry = spot at leads
  induction leads with
  | arrive =>
    obtain ⟨rfl, rfl⟩ := Spot.entry.inj goal
    exact .directory rooted
  | stay _ ih => exact ih rooted valid.tail goal
  | climb _ ih => exact ih (rooted.ofPrefix (List.dropLast_prefix _)) valid.tail goal
  | enter proper found _ ih =>
    exact ih (rooted.child (proper.isName valid.head) found) valid.tail goal
  | file proper found =>
    obtain ⟨rfl, rfl⟩ := Spot.entry.inj goal
    exact .file rooted (proper.isName valid.head) found
  | miss => contradiction
  | keep _ _ still => contradiction
  | follow proper found _ _ ih =>
    refine ih ?_ ((Path.areSteps_steps _).append valid.tail) goal
    split
    · exact rooted_root fs
    · exact rooted

end FormatHost.FileSystem
