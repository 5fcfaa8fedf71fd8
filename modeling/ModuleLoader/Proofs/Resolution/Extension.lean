import ModuleLoader.Proofs.Resolution.Again
import ModuleLoader.Proofs.Url.Ending
import ModuleLoader.Proofs.Url.FileText

/-! An import without an extension and the import of the file that it finds.  The first is read as a
URL and found as a file, whose path makes the URL of the module; the second is that URL as it is read,
with the extension behind it. -/

namespace ModuleLoader

open File
open FilePath (dot slash)

namespace Url

variable {u v w p : Url} {path bare : FilePath} {names : List String}

/-- The name of a file, which is a text, as a name of a URL. -/
def IsFileName (name : String) : Prop :=
  ∃ text : String, '/' ∉ text.toList ∧ name = encodeFileName (Text.Utf8.ofString text)

theorem IsFileName.slash_not_mem {name : String} (h : IsFileName name) :
    slash ∉ decode name.toList := by
  obtain ⟨text, hSlash, rfl⟩ := h
  rw [decode_encodeFileName]
  exact fun hMem => hSlash (FilePath.mem_of_mem_encode (by decide) hMem)

theorem IsFileName.encode_decode {name : String} (h : IsFileName name) :
    encodeFileName (decode name.toList) = name := by
  obtain ⟨text, -, rfl⟩ := h
  rw [decode_encodeFileName]

/-- What is written without slashes and percent signs is written as the name of a file. -/
theorem covers_isFileName :
    Covers IsFileName fun c => SchemeKind.file.isSlash c = false ∧ c ≠ '%' := by
  refine ⟨fun piece h => ⟨String.ofList piece, ?_, ?_⟩, fun c h => ?_, by decide⟩
  · rw [String.toList_ofList]
    exact fun hMem => absurd (h _ hMem).1 (by decide)
  · rw [writtenName_eq h, Text.Utf8.ofString, String.toList_ofList]
  · obtain ⟨hWord, -, hPercent⟩ := isWord_letter h
    exact ⟨by simpa using hWord.whole, hPercent⟩

/-- The names in the URL of a path that is a text. -/
theorem isFileName_ofFilePath? (hText : path.IsText) (h : ofFilePath? path = some u)
    (hNames : u.path = .segments names) : ∀ name ∈ names, IsFileName name := by
  intro name hName
  have hAbsolute : path.isAbsolute = true := isAbsolute_of_ofFilePath? h
  by_cases hRoot : path.names = []
  · unfold ofFilePath? at h
    rw [if_pos hAbsolute] at h
    cases h
    cases hNames
    refine ⟨"", by simp, ?_⟩
    have hEmpty : encodeFileName (Text.Utf8.ofString "") = "" := by decide
    simpa [hRoot, hEmpty] using hName
  · cases (path_ofFilePath? h hRoot).symm.trans hNames
    obtain ⟨file, hFile, rfl⟩ := List.mem_map.1 hName
    obtain ⟨text, rfl⟩ := hText.exists_of_mem_names hAbsolute hFile
    refine ⟨text, fun hMem => (FilePath.mem_names hFile).1 ?_, rfl⟩
    exact List.mem_flatMap.2 ⟨'/', hMem, by decide⟩

/-- A path with the names of a URL has that URL, if they are names of files. -/
theorem IsRead.ofFilePath?_eq (h : u.IsRead IsFileName) (hHost : u.host? = none)
    (hQuery : u.query = none) (hFragment : u.fragment = none)
    (hUsed : ∀ names, u.path = .segments names →
      ∀ name ∈ names, FilePath.isIdle (decode name.toList) = false)
    (hPath : u.toFilePath? = some path) (hBare : bare.isAbsolute = true)
    (hNames : bare.names = path.names) : ofFilePath? bare = some u := by
  obtain ⟨names, hSegments, hTrim, -⟩ := h.path
  have hEach := h.each hSegments
  have hDecode : bare.names = names.map fun name => decode name.toList := by
    rw [hNames, names_of_toFilePath? hPath hSegments fun name hName =>
      (hEach name hName).slash_not_mem]
    apply FilePath.used_eq_self
    simpa using hUsed names hSegments
  have hEncode : bare.names.map encodeFileName = names := by
    rw [hDecode, List.map_map]
    exact (List.map_congr_left fun name hName => (hEach name hName).encode_decode).trans
      (List.map_id _)
  have hSome : bare.names ≠ [] := by
    rintro hNil
    rw [hNil, List.map_nil] at hEncode
    rw [← hEncode] at hTrim
    exact absurd hTrim (by decide)
  have hAuthority := h.authority
  rw [hHost] at hAuthority
  rw [Url.ofFilePath?_eq hBare hSome, hEncode, Url.fileUrl, hTrim]
  obtain ⟨scheme, authority, segments, query, fragment⟩ := u
  obtain rfl : scheme = "file" := h.scheme
  obtain rfl : authority = some {} := hAuthority
  obtain rfl : segments = .segments names := hSegments
  obtain rfl : query = none := hQuery
  obtain rfl : fragment = none := hFragment
  rfl

end Url

namespace Resolution

variable {fs : FileSystem} {specifier referrer ending : String} {p u v : Url} {d path file : FilePath}
  {stem : FileName}

/-- The specifier is a path with a slash, and nothing of it is a query, a fragment or lost. -/
structure IsBarePath (specifier : String) : Prop where
  path : isPath specifier = true
  slash : '/' ∈ specifier.toList
  plain : ∀ c ∈ specifier.toList, Url.endsPath c = false
  trimmed : Url.trimEnds specifier.toList = specifier.toList

/-- Without escapes, the specifier means `u` in the file of a path that is a text, and every name of
`u` is used: none is empty or a dot. -/
structure IsDirect (p u : Url) (specifier : String) : Prop where
  parent : ∃ path, path.IsText ∧ Url.ofFilePath? path = some p
  percent : '%' ∉ specifier.toList
  host : u.host? = none
  used : ∀ names, u.path = .segments names →
    ∀ name ∈ names, FilePath.isIdle (Url.decode name.toList) = false

/-- The file without its extension is a path, too. -/
theorem IsMatch.exists_bare (h : IsMatch fs path file d stem ending) (hPath : path.isAbsolute = true)
    (hUrl : Url.ofFilePath? file = some v) : ∃ bare w,
      file.bytes = bare.bytes ++ dot :: Text.Utf8.ofString ending ∧
      Url.ofFilePath? bare = some w ∧ v.text = w.text ++ ("." ++ ending) ∧
      bare.isAbsolute = true ∧ bare.names = (FilePath.ofString d.text).names ++ [stem] := by
  have hShown := h.isAbsolute_shown hPath
  have hSome := FilePath.ne_nil_of_isAbsolute hShown
  have hBare := FilePath.isAbsolute_join hShown h.isName.not_slash
  have hNames : ((FilePath.ofString d.text).join ⟨stem⟩).names =
      (FilePath.ofString d.text).names ++ [stem] := FilePath.names_join_name hShown h.isName
  have hBareNames : ((FilePath.ofString d.text).join ⟨stem⟩).names ≠ [] := by simp [hNames]
  have hBareUrl := Url.ofFilePath?_eq hBare hBareNames
  have hBarePath := Url.path_ofFilePath? hBareUrl hBareNames
  rw [hNames, List.map_append, List.map_singleton] at hBareUrl hBarePath
  refine ⟨(FilePath.ofString d.text).join ⟨stem⟩, _, ?_, hBareUrl, ?_, hBare, hNames⟩
  · rw [h.place, FilePath.join_name hSome h.isName_file.not_slash,
      FilePath.join_name hSome h.isName.not_slash, List.append_assoc]
  · have hFile := h.names_ne_nil hPath
    have hPathNames := Url.path_ofFilePath? hUrl hFile
    rw [h.names hPath, List.map_append, List.map_singleton, encodeFileName_source stem h.known,
      String.append_assoc] at hPathNames
    have hSame := Option.some.inj (hUrl.symm.trans (Url.ofFilePath?_eq (h.isAbsolute hPath) hFile))
    rw [← Url.text_append hBarePath rfl rfl ("." ++ ending),
      ← hPathNames, hSame]
    rfl

/-- Where the names of the path are texts, what is found has them. -/
theorem IsMatch.names_bare (h : IsMatch fs path file d stem ending) (hPath : path.isAbsolute = true)
    (hTexts : ∀ name ∈ path.names, ∃ text : String, name = Text.Utf8.ofString text) :
    (FilePath.ofString d.text).names ++ [stem] = path.names := by
  have hNames := FilePath.names_parent hPath h.directory h.name
  have hDirectory := FilePath.isAbsolute_of_parent? hPath h.directory
  rw [hNames, FilePath.names_shown_eq hDirectory]
  intro name hName
  apply hTexts
  rw [hNames]
  exact List.mem_append_left _ hName

/-- A direct specifier means the URL of the file without its extension. -/
theorem IsDirect.ofFilePath?_eq {bare : FilePath} (h : IsDirect p u specifier)
    (hParent : p.IsRead Url.IsWord) (hJoin : Url.join p specifier = .ok u) (hScheme : u.scheme = "file")
    (hEnd : u.query = none ∧ u.fragment = none) (hPath : u.toFilePath? = some path)
    (hMatch : IsMatch fs path file d stem ending) (hBare : bare.isAbsolute = true)
    (hNames : bare.names = (FilePath.ofString d.text).names ++ [stem]) :
    Url.ofFilePath? bare = some u := by
  obtain ⟨parent, hText, hUrl⟩ := h.parent
  have hBase : p.IsRead Url.IsFileName := hParent.strengthen fun names hSegments name hName _ =>
    Url.isFileName_ofFilePath? hText hUrl hSegments name hName
  have hRead : u.IsRead Url.IsFileName := by
    refine Url.read_parseAgainst Url.covers_isFileName (fun b hb _ => ?_) (fun c hc hSlash => ?_)
      hJoin hScheme
    · cases hb
      exact hBase
    · refine ⟨hSlash, ?_⟩
      rintro rfl
      exact h.percent hc
  refine hRead.ofFilePath?_eq h.host hEnd.1 hEnd.2 h.used hPath hBare ?_
  rw [hNames, hMatch.names_bare (Url.isAbsolute_of_toFilePath? hPath)]
  obtain ⟨names, hSegments, -⟩ := hRead.path
  have hEach := hRead.each hSegments
  rw [Url.names_of_toFilePath? hPath hSegments fun name hName => (hEach name hName).slash_not_mem]
  intro name hName
  obtain ⟨written, hWritten, rfl⟩ := List.mem_map.1 (List.mem_filter.1 hName).1
  obtain ⟨text, -, rfl⟩ := hEach written hWritten
  exact ⟨text, Url.decode_encodeFileName _⟩

/-- What an import without an extension finds, and what the import of the file means. -/
theorem exists_bare (hParent : Url.parse referrer = .ok p) (hScheme : p.scheme = "file")
    (hText : IsBarePath specifier) (hJoin : Url.join p specifier = .ok u)
    (hProbed : IsProbed fs u file)
    (hLone : ∀ name, u.path = .segments [name] → Url.isColonDrive name = false) :
    ∃ bare ending w longer, ending ∈ TypeScript.extensions ∧
      file.bytes = bare.bytes ++ dot :: Text.Utf8.ofString ending ∧
      Url.ofFilePath? bare = some w ∧ classify fs u = ⟨w.text ++ ("." ++ ending), .dynamic⟩ ∧
      Url.join p (specifier ++ ("." ++ ending)) = .ok longer ∧
      classify fs longer = ⟨u.text ++ ("." ++ ending), .dynamic⟩ ∧
      (IsDirect p u specifier → w = u) := by
  have hFileScheme := Url.scheme_of_join hScheme (.inl hText.path) hJoin
  have hBase : p.IsRead Url.IsWord :=
    Url.read_parseAgainst Url.covers_isWord (by simp) (fun _ _ hSlash => hSlash) hParent hScheme
  have hRead : u.IsRead Url.IsWord := by
    refine Url.read_parseAgainst Url.covers_isWord (fun b hb _ => ?_) (fun _ _ hSlash => hSlash)
      hJoin hFileScheme
    cases hb
    exact hBase
  obtain ⟨file', v, hProbed', hUrl, hClass⟩ | ⟨hNone, -⟩ := classify_eq fs hFileScheme
  case inr => exact absurd ⟨file, hProbed⟩ hNone
  obtain rfl := hProbed.unique hProbed'
  obtain ⟨path, hPath, hOnly⟩ := hProbed.matched
  have hAbsolute := Url.isAbsolute_of_toFilePath? hPath
  obtain ⟨d, stem, ending, hMatch⟩ := exists_isMatch (show file ∈ candidates fs path by simp [hOnly])
  obtain ⟨bare, w, hBytes, hBareUrl, hText', hBare, hBareNames⟩ := hMatch.exists_bare hAbsolute hUrl
  obtain ⟨names, hNames, -⟩ := hRead.path
  obtain rfl | ⟨init, name, rfl⟩ := names.eq_nil_or_concat'
  · simp [Url.toFilePath?, Url.names?, hNames] at hPath
  have hLast : u.names?.bind List.getLast? = some name := by
    simp [Url.names?_eq_of_path hNames]
  have hName : name ≠ "" := by
    rintro rfl
    have hClosed := hProbed.unclosed
    simp [endsInSlash, hLast] at hClosed
  have hWord : Url.IsWord name := hRead.each hNames name (by simp)
  have hSlash : '/' ∉ name.toList := Url.slash_not_mem_of_whole hWord.whole
  have hAlone : init ≠ [] ∨ Url.isColonDrive name = false := by
    cases init with
    | nil => exact .inr (hLone name hNames)
    | cons first rest => exact .inl (List.cons_ne_nil _ _)
  obtain ⟨⟨longer, hLonger, hLongNames, hLongText⟩, hEnd⟩ :=
    (Url.isEnding_source hMatch.known).join_append hScheme hText.path hText.slash hText.plain
      hText.trimmed hJoin hNames hName hAlone
  rw [← String.append_assoc] at hLongNames
  refine ⟨bare, ending, w, longer, hMatch.known, hBytes, hBareUrl, by rw [hClass, hText'], hLonger,
    ?_, fun hDirect => ?_⟩
  · rw [classify_source fs hLongNames hName hSlash hMatch.known, hLongText]
  · have hSelf := hDirect.ofFilePath?_eq hBase hJoin hFileScheme hEnd hPath hMatch hBare hBareNames
    exact Option.some.inj (hBareUrl.symm.trans hSelf)

end Resolution

end ModuleLoader
