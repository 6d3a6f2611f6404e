import FormatHost.Destination
import FormatHost.Proofs.Files.Queries
import Mathlib.Data.List.Nodup

/-! # Unfinished files

The name of an unfinished file is free, whatever is in its directory, and the path of the directory
still leads there when the file has been made. So an unfinished file that is given up leaves the
file system exactly as it was.
-/

namespace FormatHost.Draft

private theorem toList_sixDigits (n : Nat) :
    (sixDigits n).toList =
      List.replicate (6 - (toString n).length) '0' ++ Nat.toDigits 10 n := by
  rw [sixDigits, String.toList_append, String.toList_ofList, Nat.toString_eq_repr, Nat.toList_repr]

/-- The digits of a number say which number it is. -/
theorem ofDigitChars_sixDigits (n : Nat) : Nat.ofDigitChars 10 (sixDigits n).toList 0 = n := by
  rw [toList_sixDigits, Nat.ofDigitChars_append, Nat.ofDigitChars_replicate_zero, Nat.mul_zero,
    Nat.ofDigitChars_ten_toDigits]

private theorem nameOf_injective : Function.Injective nameOf := by
  intro first second same
  have digits : sixDigits first = sixDigits second := by
    rw [nameOf, nameOf, String.append_left_inj, String.append_right_inj] at same
    exact same
  rw [← ofDigitChars_sixDigits first, digits, ofDigitChars_sixDigits]

/-- Some of the names that are tried is free: there are more of them than entries. -/
theorem exists_free (files : FileSystem) (directory : Location) :
    ∃ n ∈ List.range (files.entries.length + 1), files.get? (directory ++ [nameOf n]) = none := by
  by_contra! taken
  let place (n : Nat) : Location := directory ++ [nameOf n]
  have injective : Function.Injective place := by
    intro first second same
    exact nameOf_injective (List.cons.inj (List.append_cancel_left same)).1
  have distinct : ((List.range (files.entries.length + 1)).map place).Nodup :=
    List.Nodup.map injective List.nodup_range
  have inside : (List.range (files.entries.length + 1)).map place ⊆ files.entries.map Prod.fst := by
    intro other member
    obtain ⟨n, tried, rfl⟩ := List.mem_map.mp member
    obtain ⟨entry, found⟩ := Option.ne_none_iff_exists'.mp (taken n tried)
    rw [FileSystem.get?_of_ne_nil files (by simp)] at found
    obtain ⟨front, back, shape, -⟩ := List.lookup_eq_some_iff.mp found
    rw [shape]
    simp [place]
  have bound := distinct.length_le_of_subset inside
  simp only [List.length_map, List.length_range] at bound
  omega

private theorem freeNumber_free (files : FileSystem) (directory : Location) :
    files.get? (directory ++ [nameOf (freeNumber files directory)]) = none := by
  obtain ⟨n, tried, free⟩ := exists_free files directory
  have found : ((List.range (files.entries.length + 1)).find? fun n =>
      (files.get? (directory ++ [nameOf n])).isNone).isSome := by
    rw [List.find?_isSome]
    exact ⟨n, tried, by simp [free]⟩
  obtain ⟨number, chosen⟩ := Option.isSome_iff_exists.mp found
  have free := List.find?_some chosen
  rw [freeNumber, chosen, Option.getD_some]
  simpa using free

/-- Whether a draft can be made in a file system: its name is free in the directory that its path
leads to. -/
structure Fits (draft : Draft) (files : FileSystem) : Prop where
  free : files.get? draft.place = none
  found : ∃ directory, files.findDirectory draft.directory = .ok directory ∧
    draft.place = directory ++ [draft.name]

/-- A draft is made where nothing was, on the medium that was asked for. -/
theorem fits_of_make {medium : Medium} {files made : FileSystem} {directory : String}
    {draft : Draft} (opened : make medium files directory = .ok (draft, made)) :
    draft.Fits files ∧ draft.medium = medium ∧
      made = files.put draft.place (.file [] privateMode) := by
  unfold make at opened
  extract_lets attempt at opened
  cases attempted : attempt with
  | error fault =>
    rw [attempted] at opened
    contradiction
  | ok place =>
    rw [attempted] at opened
    obtain ⟨⟨⟩, -, attempted⟩ := bind_eq_ok_iff.mp attempted
    obtain ⟨there, found, attempted⟩ := bind_eq_ok_iff.mp attempted
    obtain ⟨⟨⟩, -, attempted⟩ := bind_eq_ok_iff.mp attempted
    obtain rfl := Except.ok.inj attempted
    obtain ⟨rfl, rfl⟩ := Prod.mk.inj (Except.ok.inj opened)
    exact ⟨⟨freeNumber_free files there, there, found, rfl⟩, rfl, rfl⟩

/-- A draft that is given up leaves no trace. -/
theorem Fits.discard {draft : Draft} {files : FileSystem} (fits : draft.Fits files)
    (entry : Entry) : draft.discard (files.put draft.place entry) = files := by
  obtain ⟨directory, found, shape⟩ := fits.found
  have still := FileSystem.findDirectory_put fits.free entry found
  rw [Draft.discard, FileSystem.removeFrom, still]
  simp only [← shape]
  exact FileSystem.erase_put_of_vacant fits.free entry

/-- A draft that gets a mode is the only new entry. -/
theorem Fits.setMode {draft : Draft} {files ready : FileSystem} {entry : Entry} {mode : Nat}
    (fits : draft.Fits files)
    (changed : draft.setMode (files.put draft.place entry) mode = .ok ready) :
    ready = files.put draft.place (.file [] mode) := by
  obtain ⟨⟨⟩, -, changed⟩ := bind_eq_ok_iff.mp changed
  rw [FileSystem.put_put_of_vacant fits.free] at changed
  exact (Except.ok.inj changed).symm

end FormatHost.Draft
