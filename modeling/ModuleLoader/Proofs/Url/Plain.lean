import ModuleLoader.Proofs.Url.FileText
import ModuleLoader.Proofs.Url.Folder
import ModuleLoader.Proofs.Url.Relative

/-! The path of a file as a reference.  In a directory it names the file of that path exactly if it is
plain: it has no mark, no blank at an end, no scheme and no drive at its front.  Any other reference
is cut short, or some of it is left out or stands for something else. -/

namespace ModuleLoader.Url

variable {base u : Url} {directory names : List String} {text : List Char} {reference : String}

/-- The text reads as a path of file names. -/
structure IsPlain (text : List Char) : Prop where
  unmarked : ∀ c ∈ text, c ∉ marks
  trimmed : trimEnds text = text
  unschemed : scheme? text = none
  driveless : startsWithDrive text = false

/-! ## Reading a reference as a path -/

theorem parseFile_ok {from? : Option Url} (h : parseFile (some base) text = .ok u) :
    ∃ v, parseFile from? text = .ok v := by
  unfold parseFile at h ⊢
  dsimp only at h ⊢
  split
  · exact ⟨_, rfl⟩
  · next first rest hFirst =>
    rw [hFirst] at h
    dsimp only at h
    split
    · exact ⟨_, rfl⟩
    · next hSlash =>
      rw [if_neg hSlash] at h
      split
      · exact ⟨_, rfl⟩
      · next second tail hSecond =>
        rw [hSecond] at h
        dsimp only at h
        split
        · next hDouble =>
          rw [if_pos hDouble] at h
          exact ⟨u, h⟩
        · exact ⟨_, rfl⟩

/-- What a reference means in a file is read as a path, if it has no scheme, and is the URL of a file
in itself, if it has that of files. -/
theorem parseFile_of_join (hBase : base.scheme = "file") (hu : u.scheme = "file")
    (hFragment : u.fragment = none) (h : join base reference = .ok u)
    (hUrl : ∀ v, parse reference = .ok v → v.scheme ≠ "file") :
    scheme? (dropBreaks (trimEnds reference.toList)) = none ∧
      parseFile (some base) (trimEnds reference.toList) = .ok u := by
  have hKind : SchemeKind.ofScheme "file" = .file := rfl
  unfold parse at hUrl
  unfold join at h
  unfold parseAgainst at h hUrl
  dsimp only at h hUrl
  cases hScheme : scheme? (dropBreaks (trimEnds reference.toList)) with
  | none =>
    refine ⟨rfl, ?_⟩
    simp only [hScheme] at h
    split at h
    · cases h
      cases hFragment
    · cases h
    · simpa only [hBase, hKind] using h
  | some found =>
    obtain ⟨scheme, behind⟩ := found
    simp only [hScheme] at h hUrl
    have hFile := ofScheme_of_parseWithScheme h hu
    unfold parseWithScheme at h hUrl
    have hSame : (base.scheme == "file") = true := by simp [hBase]
    simp only [hFile, Option.filter_some, hSame, if_true, Option.filter_none] at h hUrl
    have ⟨v, hv⟩ : ∃ v, parseFile none _ = .ok v := parseFile_ok h
    exact absurd (parseFile_scheme (by simp) hv) (hUrl v hv)

theorem parseFileRelative_of_drive {first : Char} {tail : List Char} (from? : Option Url)
    (hFront : text = first :: tail) (hEnd : endsPath first = false)
    (hDrive : startsWithDrive (dropBreaks text) = true) :
    parseFileRelative from? text = withRest (fileUrl none (addPieces .file []
      (SchemeKind.file.pieces (splitPath text).1))) (splitPath text).2 := by
  have hEnds : first ≠ '?' ∧ first ≠ '#' := by simpa [endsPath] using hEnd
  unfold parseFileRelative
  dsimp only
  split
  · rfl
  · cases hFront
  · exact absurd (List.cons.inj hFront).1.symm hEnds.1
  · exact absurd (List.cons.inj hFront).1.symm hEnds.2
  · rw [if_pos hDrive]

theorem fits_eq {names' : List String} (h : u.Fits directory text)
    (hPath : u.path = .segments (directory ++ names')) : pathSize names' ≤ 1 + size text := by
  obtain ⟨_, hNames, hSize⟩ := h
  cases hPath.symm.trans hNames
  rw [pathSize_append] at hSize
  omega

/-! ## Drives -/

/-- A letter with a colon behind it is a scheme. -/
theorem scheme?_drive {letter : Char} (h : letter.isAlpha = true) (rest : List Char) :
    scheme? (letter :: ':' :: rest) = some (String.ofList [letter.toLower], rest) := by
  have hSelf : letter ≠ ':' := by
    rintro rfl
    exact absurd h (by decide)
  simp [scheme?, schemeFrom?, h, hSelf, Char.isAlphanum]

/-- A drive at the front of a path is written with a colon. -/
theorem addPieces_drive {letter mark : Char} {pieces : List (List Char)}
    (h : isDriveMark letter mark = true) (hPieces : ∀ piece ∈ pieces, IsStill piece) :
    addPieces .file [] ([letter, mark] :: pieces) =
      String.ofList [letter, ':'] :: pieces.map writtenName := by
  have hText : (writtenName [letter, mark]).toList = [letter, mark] := by
    rw [writtenName_drive h, String.toList_ofList]
  have hStill := isDots_of_letter (Bool.and_eq_true_iff.1 h).1 hText
  have hDots : isDoubleDot (writtenName [letter, mark]) = false ∧
      isSingleDot (writtenName [letter, mark]) = false := by
    simpa [isDots, and_comm] using hStill
  have hDrop : dropBreaks [letter, mark] = [letter, mark] := by
    have hPiece := (isWord_drive h).isPiece.dropBreaks
    rwa [String.toList_ofList] at hPiece
  have hPass : passPiece .file [] [letter, mark] = [String.ofList [letter, ':']] := by
    simp [passPiece, pushName, hDrop, hDots.1, hDots.2, h]
  cases pieces with
  | nil => simp [addPieces, lastPiece, hPass, hDrop, hDots.1, hDots.2]
  | cons next rest =>
    rw [addPieces, hPass, addPieces_still hPieces (.inl (List.cons_ne_nil _ _))]
    · rfl
    · simp

/-! ## References in a directory -/

namespace IsFolder

variable (h : base.IsFolder directory) (hText : IsTextOf names reference.toList)
include h hText

theorem trimNames_append : trimNames (directory ++ fileNames names) = directory ++ fileNames names := by
  cases hDirectory : directory with
  | nil =>
    obtain ⟨first, rest, rfl, -⟩ := hText.exists_cons
    exact trimNames_cons (encodeFileName_ne_empty (hText.isName first List.mem_cons_self).not_idle)
  | cons first rest => exact trimNames_cons (h.named first (by simp [hDirectory]))

theorem join_of_isPlain (hPlain : IsPlain reference.toList) :
    join base reference = .ok (fileUrl none (directory ++ fileNames names)) := by
  obtain ⟨first, rest, hNames, hChars, c, more, hFirst, hc⟩ := hText.exists_cons
  have hMarks := hPlain.unmarked
  have hFront : reference.toList = c :: (more ++ namesText rest) := by
    rw [hChars, hFirst, List.cons_append]
  have hMark : c ∉ marks := hMarks c (by simp [hFront])
  have hShown : SchemeKind.file.isSlash c = false ∧ endsPath c = false := by
    refine ⟨?_, endsPath_of_not_mem_marks hMark⟩
    rw [← Bool.not_eq_true, isSlash_iff]
    rintro (rfl | rfl)
    · exact hc rfl
    · exact hMark (by decide)
  have hDrive : ∀ piece ∈ (names.map String.toList).head?, isDrive piece = false := by
    intro piece hPiece
    obtain rfl : first.toList = piece := by simpa [hNames] using hPiece
    rw [← Bool.not_eq_true]
    intro hDrive
    have hStarts := (hText.startsWithDrive_iff hMarks).2 ⟨first, by simp [hNames], hDrive⟩
    simp [hPlain.driveless] at hStarts
  have hAdd : fileNamesFrom (base.names?.getD []) (names.map String.toList) =
      directory ++ fileNames names := by
    rw [h.fileNamesFrom_eq, addPieces_still (hText.still hMarks) (.inr hDrive),
      hText.written hMarks, List.reverse_reverse]
  rw [join_of_relative h.scheme h.path hFront hShown (isUnbroken_of_unmarked hMarks) hPlain.trimmed
    hPlain.unschemed hPlain.driveless, splitPath_of_unmarked hMarks, hText.pieces_eq hMarks, hAdd]
  obtain ⟨scheme, authority, path, query, fragment⟩ := base
  obtain rfl : scheme = "file" := h.scheme
  obtain rfl : authority = some {} := h.authority
  rfl

/-- A path with a drive at its front leaves the directory, or it has another name for the drive. -/
theorem driveless_of_join (hMarks : ∀ c ∈ reference.toList, c ∉ marks)
    (hNone : scheme? reference.toList = none)
    (hRelative : parseFileRelative (some base) reference.toList =
      fileUrl none (directory ++ fileNames names)) : startsWithDrive reference.toList = false := by
  rw [← Bool.not_eq_true]
  intro hStarts
  obtain ⟨first, hHead, hDrive⟩ := (hText.startsWithDrive_iff hMarks).1 hStarts
  obtain ⟨rest, rfl⟩ := List.head?_eq_some_iff.1 hHead
  obtain ⟨letter, mark, hChars, hMark⟩ := isDrive_iff.1 hDrive
  have hFront : reference.toList = letter :: mark :: namesText rest := by
    obtain ⟨_, _, hCons, hText, -⟩ := hText.exists_cons
    cases hCons
    rw [hText, hChars]
    rfl
  have hBar : mark ≠ ':' := by
    rintro rfl
    rw [hFront, scheme?_drive (Bool.and_eq_true_iff.1 hMark).1] at hNone
    cases hNone
  have hEnd : endsPath letter = false :=
    endsPath_of_not_mem_marks (hMarks letter (by simp [hFront]))
  have hDriven : startsWithDrive (dropBreaks reference.toList) = true := by
    rw [(isUnbroken_of_unmarked hMarks).dropBreaks, hStarts]
  have hPieces : SchemeKind.file.pieces reference.toList =
      [letter, mark] :: rest.map String.toList := by
    rw [hText.pieces_eq hMarks, List.map_cons, hChars]
  have hStill : ∀ piece ∈ rest.map String.toList, IsStill piece := fun piece hPiece =>
    hText.still hMarks piece (List.mem_cons_of_mem _ hPiece)
  have hPath : String.ofList [letter, ':'] :: (rest.map String.toList).map writtenName =
      directory ++ fileNames (first :: rest) := by
    have hPaths := congrArg Url.path hRelative
    rw [parseFileRelative_of_drive _ hFront hEnd hDriven, splitPath_of_unmarked hMarks, hPieces,
      addPieces_drive hMark hStill] at hPaths
    have hTrim := (UrlPath.segments.inj hPaths).trans (h.trimNames_append hText)
    rwa [trimNames_cons (by simp)] at hTrim
  -- The names of the drive and behind it are as many as those of the text.
  have hNil : directory = [] := by
    have hLength := congrArg List.length hPath
    rw [← List.length_eq_zero_iff]
    simp only [List.length_cons, List.length_map, List.length_append, fileNames] at hLength
    omega
  have hSame : String.ofList [letter, ':'] = String.ofList [letter, mark] := by
    have hMem : first ∈ first :: rest := List.mem_cons_self
    rw [hNil, List.nil_append, fileNames, List.map_cons, List.cons.injEq] at hPath
    rw [hPath.1, ← writtenName_of_unmarked (hText.not_mem_marks hMarks hMem)
      (slash_not_mem (hText.isName first hMem)), hChars, writtenName_drive hMark]
  have hChar := congrArg String.toList hSame
  simp only [String.toList_ofList, List.cons.injEq, true_and, and_true] at hChar
  exact hBar hChar.symm

theorem isPlain_of_join (hUrl : ∀ v, parse reference = .ok v → v.scheme ≠ "file")
    (hJoin : join base reference = .ok (fileUrl none (directory ++ fileNames names))) :
    IsPlain reference.toList := by
  obtain ⟨hNone, hParse⟩ := parseFile_of_join h.scheme rfl rfl hJoin hUrl
  have hPath : (fileUrl none (directory ++ fileNames names)).path =
      .segments (directory ++ fileNames names) :=
    congrArg UrlPath.segments (h.trimNames_append hText)
  have hFits := fits_eq (h.fits_parseFile hParse) hPath
  have hSub := sublist_trimEnds reference.toList
  have hWhole := hText.size_eq
  have hNames := size_namesText_le names
  have hTrim : trimEnds reference.toList = reference.toList := eq_of_sublist hSub (by omega)
  rw [hTrim] at hParse hNone hFits
  have hUnbroken : IsUnbroken reference.toList := by
    intro c hc
    rw [← Bool.not_eq_true]
    intro hBreak
    have hAll : ∀ c ∈ ['\t', '\n', '\r'], endsPath c = false ∧ c ∈ marks := by decide
    obtain ⟨hEnd, hMark⟩ := hAll c (by simpa [isBreak, or_assoc] using hBreak)
    exact hText.unmarked hFits hc hEnd hMark
  rw [hUnbroken.dropBreaks] at hNone
  obtain ⟨first, rest, -, hChars, c, more, hFirst, hc⟩ := hText.exists_cons
  have hFront : reference.toList = c :: (more ++ namesText rest) := by
    rw [hChars, hFirst, List.cons_append]
  have hSlash : SchemeKind.file.isSlash c = false := by
    rw [← Bool.not_eq_true, isSlash_iff]
    rintro (rfl | rfl)
    · exact hc rfl
    · have hMem : '\\' ∈ reference.toList := by simp [hFront]
      exact hText.unmarked hFits hMem (by decide) (by decide)
  have hRelative : parseFileRelative (some base) reference.toList =
      fileUrl none (directory ++ fileNames names) := by
    unfold parseFile at hParse
    rw [hUnbroken.dropWhile, hFront] at hParse
    simp only [hSlash, Bool.not_false, if_true] at hParse
    rw [hFront]
    exact Except.ok.inj hParse
  have hShort := fits_eq (hRelative ▸ h.fits_parseFileRelative reference.toList) hPath
  have hSplit : (splitPath reference.toList).1 = reference.toList :=
    eq_of_sublist (splitPath_sublist _) (by omega)
  have hMarks : ∀ c ∈ reference.toList, c ∉ marks := by
    intro c hc
    have hKept := List.takeWhile_eq_self_iff.1 hSplit c hc
    exact hText.unmarked hFits hc (by simpa using hKept)
  exact ⟨hMarks, hTrim, hNone, h.driveless_of_join hText hMarks hNone hRelative⟩

end IsFolder

end ModuleLoader.Url
