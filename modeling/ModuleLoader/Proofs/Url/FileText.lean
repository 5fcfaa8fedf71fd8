import ModuleLoader.Proofs.Url.Path
import ModuleLoader.Proofs.Url.Size

/-! File names in the text of a reference.  A few characters are marks: there they stand for
something, or they are left out, while the name of a file writes them as they are.  Without marks the
names of the text are those of the files; with them, the text has less room than the names take. -/

namespace ModuleLoader.Url

open FilePath (dot slash)

variable {names : List String} {text : List Char} {c : Char} {name : String}

/-! ## Room -/

/-- The characters that a path of a file writes in another way than the path of a reference, or that
end the path of a reference. -/
def marks : List Char := ['?', '#', '%', '\\', '\t', '\n', '\r']

/-- The room that a character takes in the name of a file. -/
def fileRoom (c : Char) : Nat := (encodeBytes escapesInFileName (String.utf8EncodeChar c)).length

theorem length_encodeByte_le (b : UInt8) :
    (encodeByte escapesInPath b).length ≤ (encodeByte escapesInFileName b).length := by
  unfold encodeByte escapesInFileName percentByte
  dsimp only
  split <;> split <;> simp_all

theorem room_le_fileRoom (c : Char) : room c ≤ fileRoom c := by
  have hBytes : ∀ bytes : List UInt8, (encodeBytes escapesInPath bytes).length ≤
      (encodeBytes escapesInFileName bytes).length := by
    intro bytes
    induction bytes with
    | nil => exact Nat.le_refl _
    | cons b bytes ih =>
      have hb := length_encodeByte_le b
      simp only [encodeBytes, List.flatMap_cons, List.length_append] at ih ⊢
      omega
  have hSelf : encode escapesInPath [c] = encodeBytes escapesInPath (String.utf8EncodeChar c) := by
    simp [encode, Text.Utf8.encode]
  have hLength := length_encode_pos escapesInPath c
  have hc := hBytes (String.utf8EncodeChar c)
  rw [← hSelf] at hc
  unfold room fileRoom
  split
  · omega
  · exact hc

theorem endsPath_of_not_mem_marks (h : c ∉ marks) : endsPath c = false := by
  simp only [marks, List.mem_cons, not_or] at h
  simp [endsPath, h]

theorem isBreak_of_not_mem_marks (h : c ∉ marks) : isBreak c = false := by
  simp only [marks, List.mem_cons, not_or] at h
  simp [isBreak, h]

theorem room_lt_fileRoom (hMark : c ∈ marks) (hEnd : endsPath c = false) : room c < fileRoom c := by
  have hAll : ∀ c ∈ marks, endsPath c = false → room c < fileRoom c := by decide
  exact hAll c hMark hEnd

/-- The names of files as names of a URL. -/
def fileNames (names : List String) : List String :=
  names.map fun name => encodeFileName (Text.Utf8.ofString name)

theorem length_fileName (name : String) :
    (encodeFileName (Text.Utf8.ofString name)).toList.length = (name.toList.map fileRoom).sum := by
  rw [encodeFileName, String.toList_ofList, Text.Utf8.ofString]
  induction name.toList with
  | nil => rfl
  | cons c text ih =>
    have hCons : encodeBytes escapesInFileName (Text.Utf8.encode (c :: text)) =
        encodeBytes escapesInFileName (String.utf8EncodeChar c) ++
          encodeBytes escapesInFileName (Text.Utf8.encode text) := by
      simp [encodeBytes, Text.Utf8.encode]
    rw [hCons, List.length_append, ih, List.map_cons, List.sum_cons]
    rfl

theorem size_le_fileRoom (text : List Char) : size text ≤ (text.map fileRoom).sum := by
  induction text with
  | nil => exact Nat.le_refl _
  | cons c text ih =>
    have hc := room_le_fileRoom c
    rw [size_cons, List.map_cons, List.sum_cons]
    omega

/-- A text that takes the room of the names of files has no marks but those of its end. -/
theorem not_mem_marks (h : (text.map fileRoom).sum ≤ size text) (hc : c ∈ text)
    (hEnd : endsPath c = false) : c ∉ marks := by
  intro hMark
  induction text with
  | nil => cases hc
  | cons d text ih =>
    have hd := room_le_fileRoom d
    have hText := size_le_fileRoom text
    rw [size_cons, List.map_cons, List.sum_cons] at h
    rcases List.mem_cons.1 hc with rfl | hc
    · have hLess := room_lt_fileRoom hMark hEnd
      omega
    · exact ih (by omega) hc

theorem size_namesText_le (names : List String) :
    size (namesText names) ≤ pathSize (fileNames names) := by
  have hSlash : room '/' = 1 := by decide
  induction names with
  | nil => exact Nat.le_refl _
  | cons name names ih =>
    have hCons : namesText (name :: names) = '/' :: (name.toList ++ namesText names) := rfl
    have hName := size_le_fileRoom name.toList
    simp only [fileNames, List.map_cons, pathSize_cons, length_fileName] at ih ⊢
    rw [hCons, size_cons, size_append, hSlash]
    omega

theorem not_mem_marks_names (h : pathSize (fileNames names) ≤ size (namesText names))
    (hName : name ∈ names) (hc : c ∈ name.toList) (hEnd : endsPath c = false) : c ∉ marks := by
  have hSlash : room '/' = 1 := by decide
  induction names with
  | nil => cases hName
  | cons first names ih =>
    have hCons : namesText (first :: names) = '/' :: (first.toList ++ namesText names) := rfl
    have hFirst := size_le_fileRoom first.toList
    have hRest := size_namesText_le names
    simp only [fileNames, List.map_cons, pathSize_cons, length_fileName] at h hRest
    rw [hCons, size_cons, size_append, hSlash] at h
    rcases List.mem_cons.1 hName with rfl | hName
    · exact not_mem_marks (by omega) hc hEnd
    · refine ih ?_ hName
      simp only [fileNames]
      omega

/-! ## Names without marks -/

theorem encodeByte_eq {b : UInt8} (h : b.toNat < 0x80 →
    SchemeKind.file.isSlash (Char.ofNat b.toNat) = false ∧ Char.ofNat b.toNat ≠ '%') :
    encodeByte escapesInPath b = encodeByte escapesInFileName b := by
  unfold encodeByte
  dsimp only
  by_cases hb : b < 0x80
  · obtain ⟨hSlash, hPercent⟩ := h (UInt8.lt_iff_toNat_lt.1 hb)
    have hOthers : "/%\\".toList.contains (Char.ofNat b.toNat) = false := by
      rw [← Bool.not_eq_true, isSlash_iff] at hSlash
      rw [← Bool.not_eq_true, List.contains_iff_mem]
      intro hMem
      have hCases : Char.ofNat b.toNat = '/' ∨ Char.ofNat b.toNat = '%' ∨
          Char.ofNat b.toNat = '\\' := by simpa using hMem
      rcases hCases with hEq | hEq | hEq
      · exact hSlash (.inl hEq)
      · exact hPercent hEq
      · exact hSlash (.inr hEq)
    simp only [escapesInFileName, hOthers, Bool.or_false]
  · simp [hb]

/-- A name is written as that of a file if it has neither slashes nor percent signs. -/
theorem writtenName_eq (h : ∀ c ∈ text, SchemeKind.file.isSlash c = false ∧ c ≠ '%') :
    writtenName text = encodeFileName (Text.Utf8.encode text) := by
  have hBytes : encode escapesInPath text = encodeBytes escapesInFileName (Text.Utf8.encode text) :=
    List.flatMap_congr fun b hb => encodeByte_eq fun hLt => h _ (FilePath.mem_of_mem_encode hLt hb)
  rw [writtenName, hBytes]
  rfl

theorem whole_of_unmarked (hMarks : ∀ c ∈ text, c ∉ marks) (hSlash : '/' ∉ text) :
    ∀ c ∈ text, SchemeKind.file.isSlash c = false ∧ c ≠ '%' := by
  intro c hc
  refine ⟨?_, ?_⟩
  · rw [← Bool.not_eq_true, isSlash_iff]
    rintro (rfl | rfl)
    · exact hSlash hc
    · exact hMarks _ hc (by decide)
  · rintro rfl
    exact hMarks _ hc (by decide)

/-- Without marks a name is written as that of a file. -/
theorem writtenName_of_unmarked (hMarks : ∀ c ∈ name.toList, c ∉ marks)
    (hSlash : '/' ∉ name.toList) :
    writtenName name.toList = encodeFileName (Text.Utf8.ofString name) :=
  writtenName_eq (whole_of_unmarked hMarks hSlash)

theorem slash_not_mem (h : FilePath.IsName (Text.Utf8.ofString name)) : '/' ∉ name.toList := by
  intro hMem
  exact h.not_slash (List.mem_flatMap.2 ⟨'/', hMem, by decide⟩)

theorem isStill_of_isName (h : FilePath.IsName (Text.Utf8.ofString name))
    (hMarks : ∀ c ∈ name.toList, c ∉ marks) : IsStill name.toList := by
  have hSlash := slash_not_mem h
  refine ⟨fun c hc => ⟨(whole_of_unmarked hMarks hSlash c hc).1,
    isBreak_of_not_mem_marks (hMarks c hc)⟩, ?_⟩
  rw [writtenName_of_unmarked hMarks hSlash, ← Bool.not_eq_true, isDots_encodeFileName h.not_idle]
  exact h.not_up

theorem isUnbroken_of_unmarked (h : ∀ c ∈ text, c ∉ marks) : IsUnbroken text :=
  fun c hc => isBreak_of_not_mem_marks (h c hc)

theorem splitPath_of_unmarked (h : ∀ c ∈ text, c ∉ marks) : splitPath text = (text, []) :=
  splitPath_eq fun c hc => endsPath_of_not_mem_marks (h c hc)

/-! ## Texts of names -/

/-- The text is that of names with one slash between each. -/
structure IsTextOf (names : List String) (text : List Char) : Prop where
  text_eq : '/' :: text = namesText names
  isName : ∀ name ∈ names, FilePath.IsName (Text.Utf8.ofString name)

namespace IsTextOf

variable (h : IsTextOf names text)
include h

theorem mem_cases (hc : c ∈ text) : c = '/' ∨ ∃ name ∈ names, c ∈ name.toList := by
  have hMem : c ∈ namesText names := h.text_eq ▸ List.mem_cons_of_mem _ hc
  obtain ⟨name, hName, hc⟩ := List.mem_flatMap.1 hMem
  exact (List.mem_cons.1 hc).imp_right fun hc => ⟨name, hName, hc⟩

theorem mem_of_mem (hName : name ∈ names) (hc : c ∈ name.toList) (hSlash : c ≠ '/') : c ∈ text := by
  have hMem : c ∈ namesText names :=
    List.mem_flatMap.2 ⟨name, hName, List.mem_cons_of_mem _ hc⟩
  rw [← h.text_eq] at hMem
  exact (List.mem_cons.1 hMem).resolve_left hSlash

theorem exists_cons : ∃ first rest, names = first :: rest ∧ text = first.toList ++ namesText rest ∧
    ∃ c more, first.toList = c :: more ∧ c ≠ '/' := by
  cases hNames : names with
  | nil => cases hNames ▸ h.text_eq
  | cons first rest =>
    have hFirst := h.isName first (by simp [hNames])
    have hText := h.text_eq
    rw [hNames, namesText, List.flatMap_cons, List.cons_append, List.cons.injEq] at hText
    refine ⟨first, rest, rfl, hText.2, ?_⟩
    cases hChars : first.toList with
    | nil => exact absurd (by simp [Text.Utf8.ofString, Text.Utf8.encode, hChars]) hFirst.ne_nil
    | cons c more =>
      refine ⟨c, more, rfl, ?_⟩
      rintro rfl
      exact slash_not_mem hFirst (by simp [hChars])

theorem size_eq : size (namesText names) = 1 + size text := by
  have hSlash : room '/' = 1 := by decide
  rw [← h.text_eq, size_cons, hSlash]

/-- Where the names take as much room as they do in a path of files, they have no marks but those of
an end. -/
theorem unmarked (hSize : pathSize (fileNames names) ≤ 1 + size text) (hc : c ∈ text)
    (hEnd : endsPath c = false) : c ∉ marks := by
  rcases h.mem_cases hc with rfl | ⟨name, hName, hc⟩
  · decide
  · exact not_mem_marks_names (h.size_eq ▸ hSize) hName hc hEnd

theorem pieces_encode : FilePath.pieces (Text.Utf8.encode text) = names.map Text.Utf8.ofString := by
  have hSlash : ∀ name ∈ names.map Text.Utf8.ofString, slash ∉ name := by
    simpa using fun name hName => (h.isName name hName).not_slash
  have hBytes : slash :: Text.Utf8.encode text =
      (names.map Text.Utf8.ofString).flatMap (slash :: ·) := by
    have hEncode := congrArg Text.Utf8.encode h.text_eq
    have hMark : String.utf8EncodeChar '/' = [slash] := by decide
    simpa [Text.Utf8.encode, Text.Utf8.ofString, namesText, List.flatMap_assoc, hMark,
      List.flatMap_map] using hEncode
  have hPieces := FilePath.pieces_append_names [] hSlash
  rw [← hBytes, FilePath.pieces_append_slash] at hPieces
  exact List.append_cancel_left hPieces

variable (hMarks : ∀ c ∈ text, c ∉ marks)
include hMarks

theorem not_mem_marks (hName : name ∈ names) : ∀ c ∈ name.toList, c ∉ marks := by
  intro c hc
  by_cases hSlash : c = '/'
  · subst hSlash
    decide
  · exact hMarks c (h.mem_of_mem hName hc hSlash)

theorem still : ∀ piece ∈ names.map String.toList, IsStill piece := by
  simpa using fun name hName => isStill_of_isName (h.isName name hName) (h.not_mem_marks hMarks hName)

theorem written : (names.map String.toList).map writtenName = fileNames names := by
  rw [List.map_map]
  exact List.map_congr_left fun name hName =>
    writtenName_of_unmarked (h.not_mem_marks hMarks hName) (slash_not_mem (h.isName name hName))

theorem pieces_eq : SchemeKind.file.pieces text = names.map String.toList := by
  obtain ⟨first, rest, rfl, hText, -⟩ := h.exists_cons
  have hPiece : ∀ name ∈ first :: rest, IsPiece name.toList := fun name hName =>
    (h.still hMarks _ (List.mem_map_of_mem hName)).whole
  rw [hText, pieces_append_namesText (hPiece first (by simp)) fun name hName =>
    hPiece name (by simp [hName])]
  rfl

/-- A drive at the front of the text is its first name. -/
theorem startsWithDrive_iff : startsWithDrive text = true ↔
    ∃ first ∈ names.head?, isDrive first.toList = true := by
  obtain ⟨first, rest, rfl, hText, c, more, hFirst, hc⟩ := h.exists_cons
  have hMark : ∀ d ∈ first.toList, d ∉ "/\\?#".toList := by
    intro d hd hMem
    have hNot := h.not_mem_marks hMarks (List.mem_cons_self) d hd
    have hSlash := slash_not_mem (h.isName first List.mem_cons_self)
    have hCases : d = '/' ∨ d = '\\' ∨ d = '?' ∨ d = '#' := by simpa using hMem
    rcases hCases with rfl | rfl | rfl | rfl
    · exact hSlash hd
    all_goals exact hNot (by decide)
  have hBehind : rest = [] ∨ ∃ tail, namesText rest = '/' :: tail := by
    cases rest with
    | nil => exact .inl rfl
    | cons next rest => exact .inr ⟨next.toList ++ namesText rest, rfl⟩
  have hSlash : ∀ letter, isDriveMark letter '/' = false := by simp [isDriveMark]
  simp only [List.head?_cons, Option.mem_def, Option.some.injEq, exists_eq_left', hText, hFirst]
  rw [hFirst] at hMark
  rcases more with _ | ⟨mark, _ | ⟨next, more⟩⟩
  · rcases hBehind with rfl | ⟨tail, hTail⟩
    · simp [startsWithDrive, isDrive, namesText]
    · cases tail <;> simp [startsWithDrive, isDrive, hTail, hSlash]
  · rcases hBehind with rfl | ⟨tail, hTail⟩
    · simp [startsWithDrive, isDrive, namesText]
    · simp [startsWithDrive, isDrive, hTail]
  · have hNext := hMark next (by simp)
    simp only [List.cons_append, startsWithDrive, isDrive, List.contains_iff_mem, hNext,
      Bool.and_eq_true, and_false, Bool.false_eq_true]

end IsTextOf

end ModuleLoader.Url
