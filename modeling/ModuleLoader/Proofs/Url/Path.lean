import ModuleLoader.Proofs.Entry
import ModuleLoader.Proofs.File.Shown

/-! What the names of a URL decode to.  A name that decodes to dots is one of dots, and no slash comes
out of a text that has neither slashes nor percent signs. -/

namespace ModuleLoader.Url

open FilePath (dot slash)

variable {text piece : List Char} {bytes rest : List UInt8} {name : String} {b : UInt8} {c : Char}
  {escapes : Char → Bool} {n : Nat}

theorem hexValue?_cases (h : hexValue? c = some n) : n < 16 ∧
    ((c.toNat = n + 48 ∧ n < 10) ∨ (c.toNat = n + 87 ∧ 10 ≤ n) ∨ (c.toNat = n + 55 ∧ 10 ≤ n)) := by
  have hNumbers : ('0').val.toNat = 48 ∧ ('9').val.toNat = 57 ∧ ('a').val.toNat = 97 ∧
      ('f').val.toNat = 102 ∧ ('A').val.toNat = 65 ∧ ('F').val.toNat = 70 := by decide
  have hSelf : c.val.toNat = c.toNat := rfl
  unfold hexValue? at h
  simp only [Bool.and_eq_true, decide_eq_true_eq, Char.le_def, UInt32.le_iff_toNat_le, hNumbers,
    hSelf] at h
  split at h
  · cases h
    omega
  split at h
  · cases h
    omega
  split at h
  · cases h
    omega
  · cases h

theorem decode_eq_nil (h : decode text = []) : text = [] := by
  unfold decode at h
  split at h
  · split at h <;> simp at h
  · simp at h
  · rfl

/-- The ways to write a dot. -/
def dotMarks : List (List Char) := [['.'], ['%', '2', 'e'], ['%', '2', 'E']]

/-- What decodes to a dot and more starts with a dot, escaped or not. -/
theorem dot_of_decode (h : decode text = dot :: bytes) :
    ∃ mark ∈ dotMarks, ∃ more, text = mark ++ more ∧ decode more = bytes := by
  unfold decode at h
  split at h
  · next high low more =>
    split at h
    · next a b hHigh hLow =>
      obtain ⟨hByte, hMore⟩ := List.cons.inj h
      obtain ⟨ha, hHigh⟩ := hexValue?_cases hHigh
      obtain ⟨hb, hLow⟩ := hexValue?_cases hLow
      have hNumber : a * 16 + b = 46 := by
        have hNat := congrArg UInt8.toNat hByte
        rwa [Nat.toUInt8, UInt8.toNat_ofNat_of_lt' (show _ < 256 by omega)] at hNat
      have hTwo : high = '2' := Char.toNat_inj.1 (show high.toNat = 50 by omega)
      have hMark : low = 'e' ∨ low = 'E' := by
        rcases hLow with hLow | hLow | hLow
        · omega
        · exact .inl (Char.toNat_inj.1 (show low.toNat = 101 by omega))
        · exact .inr (Char.toNat_inj.1 (show low.toNat = 69 by omega))
      refine ⟨['%', high, low], ?_, more, rfl, hMore⟩
      rcases hMark with rfl | rfl <;> simp [dotMarks, hTwo]
    · have hPercent := (char_of_utf8EncodeChar (by decide) h).1
      exact absurd hPercent (by decide)
  · next c more _ =>
    obtain ⟨hChar, hMore⟩ := char_of_utf8EncodeChar (by decide) h
    exact ⟨['.'], by simp [dotMarks], more, by rw [hChar]; rfl, hMore⟩
  · cases h

theorem isDots_of_decode (h : decode name.toList = [dot, dot]) : isDots name = true := by
  obtain ⟨mark, hMark, more, hText, hMore⟩ := dot_of_decode h
  obtain ⟨mark', hMark', last, hLast, hNil⟩ := dot_of_decode hMore
  have hDots : ∀ mark ∈ dotMarks, ∀ mark' ∈ dotMarks,
      String.ofList (mark ++ mark') ∈ dotNames := by decide
  rw [isDots_iff, ← String.ofList_toList (s := name), hText, hLast, decode_eq_nil hNil,
    List.append_nil]
  exact hDots mark hMark mark' hMark'

/-- What is written without percent signs has no slash but those of the text. -/
theorem slash_not_mem_decode (hPercent : '%' ∉ piece) (hSlash : '/' ∉ piece) :
    slash ∉ decode (writtenName piece).toList := by
  have hBytes : 0x25 ∉ Text.Utf8.encode piece := fun hMem =>
    hPercent (FilePath.mem_of_mem_encode (by decide) hMem)
  rw [writtenName, String.toList_ofList, encode, decode_encodeBytes fun hMem => absurd hMem hBytes]
  exact fun hMem => hSlash (FilePath.mem_of_mem_encode (by decide) hMem)

/-! ## From URLs to paths -/

theorem closeDrive_cases (bytes : List UInt8) :
    closeDrive bytes = bytes ∨ closeDrive bytes = bytes ++ [slash] := by
  unfold closeDrive
  split
  · split
    · exact .inr rfl
    · exact .inl rfl
  · exact .inl rfl

theorem names_closeDrive (h : (⟨bytes⟩ : FilePath).isAbsolute = true) :
    (⟨closeDrive bytes⟩ : FilePath).names = (⟨bytes⟩ : FilePath).names := by
  rcases closeDrive_cases bytes with hSame | hSlash
  · rw [hSame]
  · obtain ⟨rest, hBytes⟩ := FilePath.isAbsolute_iff.1 h
    obtain rfl : bytes = slash :: rest := hBytes
    have hClosed : (⟨slash :: rest ++ [slash]⟩ : FilePath).isAbsolute = true :=
      FilePath.isAbsolute_iff.2 ⟨rest ++ [slash], rfl⟩
    have hEnd : FilePath.used [[]] = [] := by decide
    rw [hSlash, FilePath.names_of_isAbsolute hClosed, FilePath.names_of_isAbsolute h,
      FilePath.pieces_append_slash, FilePath.used_append, FilePath.pieces, hEnd, List.append_nil]

/-- The names of the path that a URL names are those of the URL, decoded, without the idle ones. -/
theorem names_of_toFilePath? {path : FilePath} {u : Url} {names : List String}
    (h : u.toFilePath? = some path) (hNames : u.path = .segments names)
    (hSlash : ∀ name ∈ names, slash ∉ decode name.toList) :
    path.names = FilePath.used (names.map fun name => decode name.toList) := by
  cases names with
  | nil => simp [toFilePath?, names?, hNames] at h
  | cons first rest =>
    simp only [toFilePath?, names?, hNames] at h
    split at h
    · cases h
      have hMap := List.flatMap_map (fun name : String => decode name.toList) (slash :: ·)
        (first :: rest)
      have hAbsolute : (⟨(first :: rest).flatMap fun name => slash :: decode name.toList⟩ :
          FilePath).isAbsolute = true := FilePath.isAbsolute_iff.2 ⟨_, rfl⟩
      rw [names_closeDrive hAbsolute, ← hMap, FilePath.names_flatMap (by simp)]
      simpa using hSlash
    · cases h

theorem ofFilePath?_eq {path : FilePath} (h : path.isAbsolute = true) (hSome : path.names ≠ []) :
    ofFilePath? path = some (fileUrl none (path.names.map encodeFileName)) := by
  obtain ⟨first, rest, hNames⟩ := List.exists_cons_of_ne_nil hSome
  have hFirst : FilePath.isIdle first = false := (FilePath.mem_names (hNames ▸ List.mem_cons_self)).2
  simp only [ofFilePath?, h, if_true, fileUrl, hNames, List.map_cons,
    trimNames_cons (encodeFileName_ne_empty hFirst)]
  rfl

theorem path_ofFilePath? {path : FilePath} {v : Url} (h : ofFilePath? path = some v)
    (hSome : path.names ≠ []) : v.path = .segments (path.names.map encodeFileName) := by
  unfold ofFilePath? at h
  split at h
  · cases h
    simp [hSome]
  · cases h

/-- The URL of a file names the file, by its names. -/
theorem toFilePath?_ofFilePath? {path : FilePath} {v : Url} (h : ofFilePath? path = some v)
    (hSome : path.names ≠ []) :
    v.toFilePath? = some ⟨closeDrive (path.names.flatMap (slash :: ·))⟩ := by
  obtain ⟨first, rest, hNames⟩ := List.exists_cons_of_ne_nil hSome
  obtain ⟨names, hLocal, -⟩ := local_ofFilePath? h
  have hPath := path_ofFilePath? h hSome
  have hDecode : (path.names.map encodeFileName).flatMap (fun name => slash :: decode name.toList) =
      path.names.flatMap (slash :: ·) := by
    simp only [List.flatMap_map, decode_encodeFileName]
  rw [hNames, List.map_cons] at hPath hDecode
  simp only [toFilePath?, names?, hPath, isLocal, host?, hLocal.authority, Option.bind_some, if_true,
    hDecode, hNames]

theorem exists_toFilePath?_ofFilePath? {path : FilePath} {v : Url} (h : ofFilePath? path = some v)
    (hSome : path.names ≠ []) :
    ∃ named, v.toFilePath? = some named ∧ named.isAbsolute = true ∧ named.names = path.names := by
  obtain ⟨first, rest, hNames⟩ := List.exists_cons_of_ne_nil hSome
  have hAbsolute : (⟨path.names.flatMap (slash :: ·)⟩ : FilePath).isAbsolute = true :=
    FilePath.isAbsolute_iff.2 ⟨_, by rw [hNames]; rfl⟩
  refine ⟨_, toFilePath?_ofFilePath? h hSome, ?_, ?_⟩
  · rcases closeDrive_cases (path.names.flatMap (slash :: ·)) with hSame | hSlash
    · rwa [hSame]
    · rw [hSlash, hNames]
      rfl
  · rw [names_closeDrive hAbsolute, FilePath.names_of_names hSome]

/-- A path that does not end in the mark of a drive stays as it is. -/
theorem closeDrive_eq (h : ∀ b ∈ bytes.getLast?, isDriveMark 'a' (Char.ofNat b.toNat) = false) :
    closeDrive bytes = bytes := by
  unfold closeDrive
  split
  · next mark letter more front hReverse =>
    have hMark := h mark (by rw [← List.head?_reverse, hReverse]; rfl)
    have hNot : isDriveMark (Char.ofNat letter.toNat) (Char.ofNat mark.toNat) = false := by
      simp only [isDriveMark, Bool.and_eq_false_iff] at hMark ⊢
      exact .inr (hMark.resolve_left (by decide))
    rw [hNot]
    rfl
  · rfl

end ModuleLoader.Url
