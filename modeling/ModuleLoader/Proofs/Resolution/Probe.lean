import ModuleLoader.Proofs.File.Shown
import ModuleLoader.Proofs.Resolution
import ModuleLoader.Proofs.Url.Path

/-! The one file that a search finds.  It stands in the directory under the name that this directory
is shown by, its name is that of the path with an extension, and its URL is TypeScript. -/

namespace ModuleLoader.Resolution

open File
open FilePath (dot slash)

variable {fs : FileSystem} {d path file : FilePath} {stem : FileName} {ending : String} {u v : Url}

/-- The search for the URL is made, and `file` is the only one that it finds. -/
structure IsProbed (fs : FileSystem) (u : Url) (file : FilePath) : Prop where
  bare : extension? u = none
  unclosed : endsInSlash u = false
  matched : ∃ path, u.toFilePath? = some path ∧ candidates fs path = [file]

/-- The file stands where the search for the path looks, and has the extension. -/
structure IsMatch (fs : FileSystem) (path file : FilePath) (d : FilePath) (stem : FileName)
    (ending : String) : Prop where
  directory : path.parent? = some d
  name : path.fileName? = some stem
  known : ending ∈ TypeScript.extensions
  place : file = (FilePath.ofString d.text).join ⟨stem ++ dot :: Text.Utf8.ofString ending⟩
  present : fs.isFile file = true

theorem exists_isMatch (h : file ∈ candidates fs path) :
    ∃ d stem ending, IsMatch fs path file d stem ending := by
  unfold candidates at h
  split at h
  · next d stem hParent hStem =>
    obtain ⟨hMem, hFile⟩ := List.mem_filter.1 h
    obtain ⟨name, hName, rfl⟩ := List.mem_map.1 hMem
    have hSource : isSourceOf stem name = true := (List.mem_filter.1 hName).2
    obtain ⟨ending, hEnding, rfl⟩ :=
      (isSourceOf_iff (FilePath.isName_of_fileName? hStem).ne_nil).1 hSource
    exact ⟨d, stem, ending, hParent, hStem, hEnding, rfl, hFile⟩
  · cases h

namespace IsMatch

variable (h : IsMatch fs path file d stem ending)
include h

theorem isName : FilePath.IsName stem := FilePath.isName_of_fileName? h.name

theorem isName_file : FilePath.IsName (stem ++ dot :: Text.Utf8.ofString ending) :=
  isName_source h.isName h.known

theorem isAbsolute_shown (hPath : path.isAbsolute = true) :
    (FilePath.ofString d.text).isAbsolute = true :=
  FilePath.isAbsolute_shown (FilePath.isAbsolute_of_parent? hPath h.directory)

theorem isAbsolute (hPath : path.isAbsolute = true) : file.isAbsolute = true := by
  rw [h.place]
  exact FilePath.isAbsolute_join (h.isAbsolute_shown hPath) h.isName_file.not_slash

theorem names (hPath : path.isAbsolute = true) : file.names =
    (FilePath.ofString d.text).names ++ [stem ++ dot :: Text.Utf8.ofString ending] := by
  rw [h.place, FilePath.names_join_name (h.isAbsolute_shown hPath) h.isName_file]

/-- Where a path does not go up, neither does what is found. -/
theorem not_up (hPath : path.isAbsolute = true) (hUp : [dot, dot] ∉ path.names) :
    [dot, dot] ∉ file.names := by
  rw [FilePath.names_parent hPath h.directory h.name] at hUp
  have hDirectory := FilePath.not_up_shown (FilePath.isAbsolute_of_parent? hPath h.directory)
    fun hMem => hUp (List.mem_append_left _ hMem)
  rw [h.names hPath, List.mem_append, List.mem_singleton, not_or]
  exact ⟨hDirectory, Ne.symm h.isName_file.not_up⟩

end IsMatch

/-! ## Extensions in URLs -/

theorem encodeFileName_source (stem : FileName) (hEnding : ending ∈ TypeScript.extensions) :
    Url.encodeFileName (stem ++ dot :: Text.Utf8.ofString ending) =
      Url.encodeFileName stem ++ "." ++ ending := by
  have hPlain : ∀ ending ∈ TypeScript.extensions,
      Url.encodeBytes Url.escapesInFileName (dot :: Text.Utf8.ofString ending) =
        '.' :: ending.toList := by decide
  rw [← String.toList_inj]
  have hSource := hPlain ending hEnding
  simp only [Url.encodeBytes] at hSource
  simp [Url.encodeFileName, Url.encodeBytes, List.flatMap_append, hSource]

/-- A name with an extension of TypeScript behind it has that extension. -/
theorem extension?_source {front : String} (hFront : front ≠ "") (hSlash : '/' ∉ front.toList)
    (hEnding : ending ∈ TypeScript.extensions) :
    (FilePath.ofString (front ++ "." ++ ending)).extension? =
      some (Text.Utf8.ofString ending) := by
  obtain ⟨hWhole, hDot, hSome⟩ := extensions_plain ending hEnding
  have hBytes : FilePath.ofString (front ++ "." ++ ending) =
      ⟨Text.Utf8.ofString front ++ dot :: Text.Utf8.ofString ending⟩ := by
    have hMark : Text.Utf8.encode ['.'] = [dot] := by decide
    simp only [Text.Utf8.encode, List.flatMap_singleton] at hMark
    simp [FilePath.ofString, Text.Utf8.ofString, Text.Utf8.encode, hMark]
  have hFrontBytes : Text.Utf8.ofString front ≠ [] := by
    intro hNil
    obtain ⟨c, rest, hText⟩ := List.exists_cons_of_ne_nil (mt String.toList_eq_nil_iff.1 hFront)
    simp [Text.Utf8.ofString, Text.Utf8.encode, hText] at hNil
  have hFrontSlash : slash ∉ Text.Utf8.ofString front := fun hMem =>
    hSlash (FilePath.mem_of_mem_encode (by decide) hMem)
  rw [hBytes, (FilePath.isName_adding hFrontSlash hFrontBytes hWhole hSome).extension?,
    FilePath.splitExtension_append hDot, if_neg hFrontBytes]

theorem isExtension_source (hEnding : ending ∈ TypeScript.extensions) :
    TypeScript.isExtension (Text.Utf8.ofString ending) = true :=
  isExtension_iff.2 ⟨ending, hEnding, rfl⟩

/-- A URL whose last name has an extension of TypeScript stands for itself. -/
theorem classify_source {names : List String} {front : String} (fs : FileSystem)
    (hPath : u.path = .segments (names ++ [front ++ "." ++ ending])) (hFront : front ≠ "")
    (hSlash : '/' ∉ front.toList) (hEnding : ending ∈ TypeScript.extensions) :
    classify fs u = ⟨u.text, .dynamic⟩ := by
  have hNames := Url.names?_eq_of_path hPath (by simp)
  have hExtension : extension? u = some (Text.Utf8.ofString ending) := by
    simp [extension?, hNames, extension?_source hFront hSlash hEnding]
  simp [classify, hExtension, isExtension_source hEnding]

/-! ## What is found -/

namespace IsMatch

variable (h : IsMatch fs path file d stem ending) (hPath : path.isAbsolute = true)
include h hPath

theorem names_ne_nil : file.names ≠ [] := by simp [h.names hPath]

/-- What is found is TypeScript by its name. -/
theorem classify_eq (hUrl : Url.ofFilePath? file = some v) :
    classify fs v = ⟨v.text, .dynamic⟩ := by
  have hSegments := Url.path_ofFilePath? hUrl (h.names_ne_nil hPath)
  rw [h.names hPath, List.map_append, List.map_singleton, encodeFileName_source stem h.known]
    at hSegments
  have hSlash := Url.slash_not_mem_of_whole (Url.isWord_encodeFileName stem).whole
  refine classify_source fs hSegments ?_ hSlash h.known
  intro hEmpty
  have hStem := Url.decode_encodeFileName stem
  rw [hEmpty] at hStem
  exact h.isName.ne_nil hStem.symm

/-- The URL of what is found names it. -/
theorem toFilePath?_eq (hUrl : Url.ofFilePath? file = some v) :
    v.toFilePath? = some ⟨file.names.flatMap (slash :: ·)⟩ := by
  have hExtensions : ∀ ending ∈ TypeScript.extensions, (Text.Utf8.ofString ending).getLast?.all
      (fun b => Url.isDriveMark 'a' (Char.ofNat b.toNat) = false) := by decide
  have hLast : ∀ b ∈ (Text.Utf8.ofString ending).getLast?,
      Url.isDriveMark 'a' (Char.ofNat b.toNat) = false := fun b hb =>
    of_decide_eq_true ((Option.all_eq_true _ _).1 (hExtensions ending h.known) b hb)
  rw [Url.toFilePath?_ofFilePath? hUrl (h.names_ne_nil hPath), Url.closeDrive_eq]
  intro b hb
  refine hLast b ?_
  obtain ⟨c, more, hEnding⟩ :=
    List.exists_cons_of_ne_nil (extensions_plain ending h.known).2.2
  rw [h.names hPath, List.flatMap_append, List.flatMap_singleton, ← List.cons_append,
    ← List.append_assoc, hEnding, List.getLast?_append_cons, List.getLast?_cons_cons] at hb
  rwa [hEnding]

/-- The URL of what is found leads to it. -/
theorem node_eq :
    fs.node ⟨file.names.flatMap (slash :: ·)⟩ = fs.node file := by
  have hPresent := h.present
  unfold FileSystem.isFile at hPresent
  split at hPresent
  · next content hNode =>
    rw [hNode, FileSystem.node_names (h.isAbsolute hPath) (h.names_ne_nil hPath) hNode]
  · cases hPresent

end IsMatch

/-- A URL stands for the file that is found, if one is, and otherwise for itself. -/
theorem classify_eq (fs : FileSystem) (hScheme : u.scheme = "file") :
    (∃ file v, IsProbed fs u file ∧ Url.ofFilePath? file = some v ∧
      classify fs u = ⟨v.text, .dynamic⟩) ∨
    ((¬∃ file, IsProbed fs u file) ∧ classify fs u =
      ⟨u.text, if (extension? u).any TypeScript.isExtension then .dynamic else .module⟩) := by
  by_cases hProbed : ∃ file, IsProbed fs u file
  · obtain ⟨file, hBare, hUnclosed, path, hPath, hOnly⟩ := hProbed
    have hMem : file ∈ candidates fs path := by simp [hOnly]
    obtain ⟨d, stem, ending, hMatch⟩ := exists_isMatch hMem
    obtain ⟨v, hUrl⟩ := Url.exists_ofFilePath?
      (hMatch.isAbsolute (Url.isAbsolute_of_toFilePath? hPath))
    refine .inl ⟨file, v, ⟨hBare, hUnclosed, path, hPath, hOnly⟩, hUrl, ?_⟩
    simp [classify, hBare, hUnclosed, hScheme, probe?, hPath, hOnly, hUrl]
  · refine .inr ⟨hProbed, classify_of_probe?_none fs fun hBare hUnclosed => ?_⟩
    cases hPath : u.toFilePath? with
    | none => simp [probe?, hPath]
    | some path =>
      simp only [probe?, hPath, Option.bind_eq_bind, Option.bind_some]
      split
      · next file hOnly => exact absurd ⟨file, hBare, hUnclosed, path, hPath, hOnly⟩ hProbed
      · rfl

end ModuleLoader.Resolution
