import ModuleLoader.Entry
import ModuleLoader.Proofs.File.Path
import ModuleLoader.Proofs.Url.Settled

/-! The URL of an entry.  It is in its normal form, so that reading its text again changes nothing,
unless the entry is an absolute path with two dots in it, which stay in the URL. -/

namespace ModuleLoader

open FilePath (dot slash)

namespace Url

variable {base u v : Url} {names names' : List String} {path : FilePath} {name : FileName} {c : Char}

/-! ## The URL of a path -/

theorem escapes_of_fileName (h : escapesInFileName c = false) :
    escapesInPath c = false ∧ SchemeKind.file.isSlash c = false := by
  obtain ⟨hPath, hMarks⟩ := Bool.or_eq_false_iff.1 h
  refine ⟨hPath, ?_⟩
  rw [← Bool.not_eq_true, isSlash_iff]
  rintro (rfl | rfl) <;> revert hMarks <;> decide

theorem isWord_encodeFileName (name : FileName) : IsWord (encodeFileName name) := by
  constructor <;> intro c hc <;> rw [encodeFileName, String.toList_ofList] at hc
  · exact isWritten_of_mem_encodeBytes sparesPercent_path
      (fun c hc => (escapes_of_fileName hc).1) hc
  · rcases mem_encodeBytes hc with ⟨-, hKept⟩ | ⟨b, hc⟩
    · exact (escapes_of_fileName hKept).2
    · exact isSlash_of_mem_percentByte hc

theorem decode_encodeFileName (name : FileName) : decode (encodeFileName name).toList = name := by
  rw [encodeFileName, String.toList_ofList, decode_encodeBytes fun _ => by decide]

theorem encodeFileName_ne_empty (h : FilePath.isIdle name = false) : encodeFileName name ≠ "" := by
  intro hEmpty
  have hDecode := decode_encodeFileName name
  rw [hEmpty] at hDecode
  rw [← hDecode] at h
  exact absurd h (by decide)

/-- Of the names in a path, two dots alone read as a directory. -/
theorem isDots_encodeFileName (h : FilePath.isIdle name = false) :
    isDots (encodeFileName name) = true ↔ name = [dot, dot] := by
  constructor
  · intro hDots
    have hDecode : ∀ text ∈ dotNames, decode text.toList = [dot] ∨
        decode text.toList = [dot, dot] := by decide
    have hName := hDecode _ (isDots_iff.1 hDots)
    rw [decode_encodeFileName] at hName
    refine hName.resolve_left ?_
    rintro rfl
    exact absurd h (by decide)
  · rintro rfl
    decide

theorem local_ofFilePath? (h : ofFilePath? path = some u) :
    ∃ names, u.IsLocal names ∧
      ((∀ name ∈ names, isDots name = false) ↔ [dot, dot] ∉ path.names) := by
  unfold ofFilePath? at h
  split at h
  · cases h
    have hIdle : ∀ name ∈ path.names, FilePath.isIdle name = false := fun name hName => by
      simpa using (List.mem_filter.1 hName).2
    cases hNames : path.names with
    | nil =>
      refine ⟨[""], ⟨rfl, rfl, rfl, by decide, ?_, by simp, by simp⟩, ?_⟩
      · simpa using isSteady_empty.toIsWord
      · simpa using isSteady_empty.still
    | cons first rest =>
      rw [hNames] at hIdle
      refine ⟨(first :: rest).map encodeFileName, ⟨rfl, rfl, by simp, ?_, ?_, by simp, by simp⟩, ?_⟩
      · exact trimNames_cons (encodeFileName_ne_empty (hIdle first List.mem_cons_self))
      · intro name hName
        obtain ⟨file, -, rfl⟩ := List.mem_map.1 hName
        exact isWord_encodeFileName file
      · have hEach : ∀ file ∈ first :: rest,
            isDots (encodeFileName file) = false ↔ file ≠ [dot, dot] := fun file hFile => by
          rw [← Bool.not_eq_true, isDots_encodeFileName (hIdle file hFile)]
        rw [List.forall_mem_map]
        constructor
        · exact fun hAll hMem => (hEach _ hMem).1 (hAll _ hMem) rfl
        · exact fun hNot file hFile => (hEach file hFile).2 fun hEq => hNot (hEq ▸ hFile)
  · cases h

/-- The text of a local file tells its names. -/
theorem IsLocal.names_eq (h : u.IsLocal names) (h' : v.IsLocal names') (hText : u.text = v.text) :
    names = names' := by
  have hTails : namesText names ++ u.restText = namesText names' ++ v.restText := by
    have hLists := congrArg String.toList hText
    rw [h.toList_text, h'.toList_text] at hLists
    exact List.append_cancel_left hLists
  have hPaths : namesText names = namesText names' := by
    have hSplit := splitPath_append (fun c hc => h.endsPath_of_mem hc) (head?_restText u)
    rw [hTails, splitPath_append (fun c hc => h'.endsPath_of_mem hc) (head?_restText v)] at hSplit
    exact (congrArg Prod.fst hSplit).symm
  have hPieces := pieces_namesText h.words
  have hPieces' := pieces_namesText h'.words
  rw [← hPaths, hPieces, List.cons.injEq] at hPieces'
  exact List.map_injective_iff.2 (fun _ _ => String.toList_inj.1) hPieces'.2

/-- Reading the text of a local file again changes nothing exactly if no name of it stands for a
directory. -/
theorem IsLocal.canonical_iff (h : u.IsLocal names) :
    (∃ v, parse u.text = .ok v ∧ v.text = u.text) ↔ ∀ name ∈ names, isDots name = false := by
  constructor
  · rintro ⟨v, hParse, hText⟩
    have hUnbroken : IsUnbroken u.text.toList := fun c hc => isBreak_of_lt (h.lt_of_mem_text hc)
    have hRegular := regular_parse hUnbroken hParse
    rw [h.parse_text] at hParse
    cases hParse
    obtain ⟨names', hLocal, hStill⟩ := hRegular (by simp) (by simp)
    rw [h.names_eq hLocal hText.symm]
    exact hStill
  · intro hStill
    exact ⟨u, IsSettled.parse_text ⟨names, h, hStill⟩, rfl⟩

theorem isAbsolute_of_ofDirectoryPath? (h : ofDirectoryPath? path = some u) :
    path.isAbsolute = true := by
  obtain ⟨v, hv, -⟩ := Option.map_eq_some_iff.1 h
  exact isAbsolute_of_ofFilePath? hv

end Url

variable {entry : String} {base u : Url}

theorem exists_of_isAbsolute (h : (FilePath.ofString entry).isAbsolute = true) :
    ∃ rest, entry.toList = '/' :: rest := by
  obtain ⟨rest, hBytes⟩ := FilePath.isAbsolute_iff.1 h
  cases hEntry : entry.toList with
  | nil => simp [FilePath.ofString, Text.Utf8.ofString, Text.Utf8.encode, hEntry] at hBytes
  | cons c more =>
    have hChars : String.utf8EncodeChar c ++ Text.Utf8.encode more = slash :: rest := by
      simpa [FilePath.ofString, Text.Utf8.ofString, Text.Utf8.encode, hEntry] using hBytes
    exact ⟨more, by rw [(Url.char_of_utf8EncodeChar (by decide) hChars).1]; rfl⟩

/-- An absolute path is no URL. -/
theorem parse_of_isAbsolute (h : (FilePath.ofString entry).isAbsolute = true) :
    Url.parse entry = .error .relativeWithoutBase := by
  obtain ⟨rest, hEntry⟩ := exists_of_isAbsolute h
  obtain ⟨trimmed, hTrim⟩ := Url.trimEnds_append ['/'] rfl (by decide) rfl (by decide) rest
  have hText : Url.dropBreaks (Url.trimEnds entry.toList) = '/' :: Url.dropBreaks trimmed := by
    rw [hEntry, ← List.singleton_append, hTrim, Url.dropBreaks_append (by decide)]
    rfl
  unfold Url.parse Url.parseAgainst
  simp only [hText]
  rfl

theorem entryUrl_of_isAbsolute (h : (FilePath.ofString entry).isAbsolute = true) :
    entryUrl entry base = .ok u ↔ Url.ofFilePath? (FilePath.ofString entry) = some u := by
  unfold entryUrl
  simp only [parse_of_isAbsolute h, Except.toOption, Option.filter_none, h, if_true]
  cases Url.ofFilePath? (FilePath.ofString entry) <;> simp

theorem entryUrl_of_relative (h : (FilePath.ofString entry).isAbsolute = false)
    (hNone : ∀ v, Url.parse entry = .ok v → v.scheme.length ≤ 1) :
    entryUrl entry base = .ok u ↔ Url.join base entry = .ok u := by
  have hFilter : (Url.parse entry).toOption.filter (fun v => decide (1 < v.scheme.length)) =
      none := by
    rw [Option.filter_eq_none_iff]
    intro v hv
    cases hParse : Url.parse entry with
    | error reason => simp [hParse, Except.toOption] at hv
    | ok w =>
      obtain rfl : w = v := by simpa [hParse, Except.toOption] using hv
      simpa using hNone w hParse
  unfold entryUrl
  simp only [hFilter, h, Bool.false_eq_true, if_false]
  cases Url.join base entry <;> simp

theorem regular_entryUrl (hBase : base.IsRegular)
    (h : (FilePath.ofString entry).isAbsolute = false) (hEntry : Url.IsUnbroken entry.toList)
    (hUrl : entryUrl entry base = .ok u) : u.IsRegular := by
  unfold entryUrl at hUrl
  dsimp only at hUrl
  split at hUrl
  · next v hParse =>
    obtain rfl := Except.ok.inj hUrl
    have hOption := (Option.filter_eq_some_iff.1 hParse).1
    cases hResult : Url.parse entry with
    | error reason =>
      rw [hResult] at hOption
      cases hOption
    | ok w =>
      rw [hResult] at hOption
      cases hOption
      exact Url.regular_parse hEntry hResult
  · rw [h] at hUrl
    simp only [Bool.false_eq_true, if_false] at hUrl
    cases hJoin : Url.join base entry with
    | error reason =>
      rw [hJoin] at hUrl
      cases hUrl
    | ok v =>
      rw [hJoin] at hUrl
      obtain rfl := Except.ok.inj hUrl
      exact Url.regular_parseAgainst (by simpa using hBase) hEntry hJoin

/-- In a regular base, the URL of an entry without tabs and newlines is in its normal form, unless
the entry is an absolute path that goes up. -/
theorem entryUrl_canonical_iff (hBase : base.IsRegular)
    (hEntry : (FilePath.ofString entry).isAbsolute = true ∨ Url.IsUnbroken entry.toList)
    (hUrl : entryUrl entry base = .ok u) (hScheme : u.scheme = "file") (hHost : u.host? = none) :
    (∃ v, Url.parse u.text = .ok v ∧ v.text = u.text) ↔
      ((FilePath.ofString entry).isAbsolute = true →
        [dot, dot] ∉ (FilePath.ofString entry).names) := by
  by_cases hAbsolute : (FilePath.ofString entry).isAbsolute = true
  · obtain ⟨names, hLocal, hDots⟩ := Url.local_ofFilePath? ((entryUrl_of_isAbsolute hAbsolute).1 hUrl)
    rw [hLocal.canonical_iff, hDots]
    exact ⟨fun h _ => h, fun h => h hAbsolute⟩
  · have hRegular := regular_entryUrl hBase (Bool.eq_false_iff.2 hAbsolute)
      (hEntry.resolve_left hAbsolute) hUrl
    exact ⟨fun _ h => absurd h hAbsolute, fun _ => ⟨u, (hRegular hScheme hHost).parse_text, rfl⟩⟩

end ModuleLoader
