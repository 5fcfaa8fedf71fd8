import ModuleLoader.Proofs.Entry
import ModuleLoader.Proofs.File.Names
import ModuleLoader.Proofs.Url.Size

/-! References in a directory.  Whatever a reference means there, its path takes no more room than
those of the directory and of the text. -/

namespace ModuleLoader.Url

open FilePath (dot slash)

variable {base u : Url} {directory names : List String} {text rest : List Char} {d : FilePath}
  {c : Char}

/-- The URL of a directory with the names of its path. -/
structure IsFolder (base : Url) (directory : List String) : Prop where
  scheme : base.scheme = "file"
  authority : base.authority = some {}
  path : base.path = .segments (directory ++ [""])
  named : ∀ name ∈ directory, name ≠ ""
  query : base.query = none
  fragment : base.fragment = none

theorem isFolder_ofDirectoryPath? (h : ofDirectoryPath? d = some base) :
    base.IsFolder (d.names.map encodeFileName) := by
  obtain ⟨v, hv, rfl⟩ := Option.map_eq_some_iff.1 h
  unfold ofFilePath? at hv
  split at hv
  · cases hv
    have hSome : "" ∉ d.names.map encodeFileName := by
      intro hMem
      obtain ⟨name, hName, hEmpty⟩ := List.mem_map.1 hMem
      exact encodeFileName_ne_empty (FilePath.mem_names hName).2 hEmpty
    cases hNames : d.names.map encodeFileName with
    | nil => exact ⟨rfl, rfl, rfl, by simp, rfl, rfl⟩
    | cons first rest =>
      have hLast : (first :: rest).getLast? ≠ some "" := fun hLast =>
        hSome (hNames ▸ List.mem_of_getLast? hLast)
      simp only [names?, List.isEmpty_cons, Bool.false_eq_true, if_false, beq_iff_eq, hLast]
      exact ⟨rfl, rfl, rfl, fun name hName hEmpty => hSome (hNames ▸ hEmpty ▸ hName), rfl, rfl⟩
  · cases hv

namespace IsFolder

variable (h : base.IsFolder directory)
include h

theorem names?_eq : base.names? = some (directory ++ [""]) :=
  names?_eq_of_path h.path (by simp)

theorem fileNamesFrom_eq (pieces : List (List Char)) :
    fileNamesFrom (base.names?.getD []) pieces = addPieces .file directory.reverse pieces := by
  have hLast : isColonDrive "" = false := by decide
  rw [h.names?_eq, Option.getD_some, fileNamesFrom, List.reverse_append, List.reverse_singleton,
    List.singleton_append]
  simp only [hLast, Bool.false_eq_true, if_false]

end IsFolder

/-! ## The length of what is read -/

/-- The path is that of the directory and of the text, at most. -/
def Fits (directory : List String) (text : List Char) (u : Url) : Prop :=
  ∃ names, u.path = .segments names ∧ pathSize names ≤ pathSize directory + 1 + size text

theorem Fits.mono (h : u.Fits directory rest) (hSub : rest.Sublist text) : u.Fits directory text := by
  obtain ⟨names, hPath, hSize⟩ := h
  have hText := size_le_of_sublist hSub
  exact ⟨names, hPath, by omega⟩

theorem fits_withRest {done : List String} (hPath : u.path = .segments (trimNames
    (addPieces .file done (SchemeKind.file.pieces text)))) (hDone : pathSize done ≤ pathSize directory)
    (rest : List Char) : (withRest u rest).Fits directory text := by
  have hTrim := pathSize_trimNames_le (addPieces .file done (SchemeKind.file.pieces text))
  have hAdd := pathSize_addPieces_le done (SchemeKind.file.pieces text)
  rw [size_pieces] at hAdd
  exact ⟨_, (withRest_path u rest).trans hPath, by omega⟩

theorem fits_parseFileAuthority (directory : List String) (hu : parseFileAuthority text = .ok u) :
    u.Fits directory text := by
  obtain ⟨host, rest, path, hRest, hPath, rfl⟩ := eq_of_parseFileAuthority hu
  exact (fits_withRest rfl (Nat.zero_le _) _).mono
    (hPath.trans ((splitPath_sublist rest).trans hRest))

namespace IsFolder

variable (h : base.IsFolder directory)
include h

theorem fits_self (text : List Char) : base.Fits directory text := by
  refine ⟨_, h.path, ?_⟩
  rw [pathSize_append, pathSize_cons, pathSize_nil, String.toList_empty, List.length_nil]
  omega

theorem fits_parseFileRoot (text : List Char) :
    (parseFileRoot (some base) text).Fits directory text := by
  unfold parseFileRoot
  dsimp only
  refine (fits_withRest rfl ?_ _).mono (splitPath_sublist text)
  generalize hKept : (if startsWithDrive (dropBreaks text) = true then none else some base) = kept
  have hNames : ∀ names, kept.bind names? = some names → names = directory ++ [""] := by
    intro names hSome
    split at hKept
    · subst hKept
      cases hSome
    · subst hKept
      rw [Option.bind_some, h.names?_eq] at hSome
      exact (Option.some.inj hSome).symm
  split
  · next first rest hFirst =>
    have hDirectory := hNames _ hFirst
    split
    · next hDrive =>
      cases directory with
      | nil =>
        cases hDirectory
        cases hDrive
      | cons name names =>
        cases hDirectory
        simp only [pathSize_cons, pathSize_nil]
        omega
    · exact Nat.zero_le _
  · exact Nat.zero_le _

theorem fits_parseFileRelative (text : List Char) :
    (parseFileRelative (some base) text).Fits directory (splitPath text).1 := by
  have hAlone : (withRest (fileUrl none (addPieces .file []
      (SchemeKind.file.pieces (splitPath text).1))) (splitPath text).2).Fits directory
        (splitPath text).1 := fits_withRest rfl (Nat.zero_le _) _
  unfold parseFileRelative
  dsimp only
  split
  · exact hAlone
  · next hEq =>
    cases hEq
    exact h.fits_self _
  · next hEq =>
    cases hEq
    obtain ⟨names, hPath, hSize⟩ := h.fits_self (splitPath ('?' :: _)).1
    exact ⟨names, (withRest_path _ _).trans hPath, hSize⟩
  · next hEq =>
    cases hEq
    exact h.fits_self _
  · next hSome _ _ _ =>
    cases hSome
    split
    · exact hAlone
    · have hDone : pathSize directory.reverse ≤ pathSize directory := by simp
      refine fits_withRest ?_ hDone _
      rw [h.fileNamesFrom_eq]

theorem fits_parseFile (hu : parseFile (some base) text = .ok u) : u.Fits directory text := by
  unfold parseFile at hu
  dsimp only at hu
  have hDrop : (text.dropWhile isBreak).Sublist text := List.dropWhile_sublist _
  split at hu
  · cases hu
    exact (h.fits_parseFileRelative []).mono (List.nil_sublist _)
  · next first rest hFirst =>
    rw [hFirst] at hDrop
    have hRest : rest.Sublist text := (List.sublist_cons_self _ _).trans hDrop
    split at hu
    · cases hu
      exact (h.fits_parseFileRelative _).mono ((splitPath_sublist _).trans hDrop)
    split at hu
    · cases hu
      exact (h.fits_parseFileRoot []).mono (List.nil_sublist _)
    · next second tail hSecond =>
      have hBehind : (rest.dropWhile isBreak).Sublist text := (List.dropWhile_sublist _).trans hRest
      rw [hSecond] at hBehind
      split at hu
      · exact (fits_parseFileAuthority directory hu).mono
          ((List.sublist_cons_self _ _).trans hBehind)
      · cases hu
        exact (h.fits_parseFileRoot rest).mono hRest

end IsFolder

end ModuleLoader.Url
