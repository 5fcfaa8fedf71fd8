import Mathlib.Data.List.TakeWhile
import ModuleLoader.Proofs.Text.Split
import ModuleLoader.Proofs.Url.Encode
import ModuleLoader.Url.Names

/-! The names that the path of a file is read as.  Without tabs and newlines in it, all names are
steady: they contain no slash, stand for no directory, and read as themselves wherever they follow
another name. -/

namespace ModuleLoader.Url

/-- The name stands for the directory that it is in, or for the one above. -/
def isDots (name : String) : Bool := isSingleDot name || isDoubleDot name

/-- The name is written as in a URL, with no slash in it. -/
structure IsWord (name : String) : Prop where
  written : ∀ c ∈ name.toList, isWritten escapesInPath c = true
  whole : ∀ c ∈ name.toList, SchemeKind.file.isSlash c = false

/-- The name reads as itself. -/
structure IsSteady (name : String) : Prop extends IsWord name where
  still : isDots name = false

/-- The piece lies between slashes, and nothing in it gets lost. -/
def IsPiece (piece : List Char) : Prop :=
  ∀ c ∈ piece, SchemeKind.file.isSlash c = false ∧ isBreak c = false

variable {name : String} {names done : List String} {piece text : List Char}
  {pieces : List (List Char)} {c : Char}

/-! ## Words -/

theorem isSlash_iff : SchemeKind.file.isSlash c = true ↔ c = '/' ∨ c = '\\' := by
  simp [SchemeKind.isSlash, SchemeKind.isSpecial]

theorem isSlash_of_mem_percentByte {b : UInt8} (h : c ∈ percentByte b) :
    SchemeKind.file.isSlash c = false := by
  have hMem := mem_percentByte h
  have hAll : ∀ c ∈ "%0123456789ABCDEF".toList, SchemeKind.file.isSlash c = false :=
    List.all_iff_forall_prop.1 (by decide)
  exact hAll c hMem

theorem isWord_writtenName (h : ∀ c ∈ piece, SchemeKind.file.isSlash c = false) :
    IsWord (writtenName piece) := by
  constructor <;> intro c hc <;> rw [writtenName, String.toList_ofList] at hc
  · exact isWritten_of_mem_encode sparesPercent_path hc
  · rcases mem_encode hc with hMem | ⟨b, hMem⟩
    · exact h c hMem
    · exact isSlash_of_mem_percentByte hMem

theorem writtenName_toList (h : ∀ c ∈ name.toList, isWritten escapesInPath c = true) :
    writtenName name.toList = name := by
  rw [writtenName, encode_of_isWritten h, String.ofList_toList]

theorem writtenName_append (a b : List Char) :
    writtenName (a ++ b) = writtenName a ++ writtenName b := by
  rw [← String.toList_inj]
  simp [writtenName, encode, encodeBytes, Text.Utf8.encode]

theorem IsWord.append {other : String} (h : IsWord name) (h' : IsWord other) :
    IsWord (name ++ other) := by
  constructor <;> intro c hc <;> rw [String.toList_append, List.mem_append] at hc
  · exact hc.elim (h.written c) (h'.written c)
  · exact hc.elim (h.whole c) (h'.whole c)

theorem isSteady_empty : IsSteady "" := ⟨⟨by simp, by simp⟩, by decide⟩

theorem isBreak_of_lt (h : 0x20 < c.toNat) : isBreak c = false := by
  simp only [isBreak, Bool.or_eq_false_iff, beq_eq_false_iff_ne]
  refine ⟨⟨?_, ?_⟩, ?_⟩ <;> · rintro rfl; revert h; decide

theorem IsWord.isPiece (h : IsWord name) : IsPiece name.toList := fun c hc =>
  ⟨h.whole c hc, isBreak_of_lt (escapesBlanks_path.lt (h.written c hc))⟩

/-! ## Pieces -/

theorem IsPiece.dropBreaks (h : IsPiece piece) : dropBreaks piece = piece :=
  List.filter_eq_self.2 fun c hc => by simp [(h c hc).2]

theorem of_mem_pieces (hPiece : piece ∈ SchemeKind.file.pieces text) (hc : c ∈ piece) :
    c ∈ text ∧ SchemeKind.file.isSlash c = false := by
  obtain ⟨hMem, hNot⟩ := Text.mem_of_mem_splitOn hPiece hc
  obtain ⟨d, hd, hEq⟩ := List.mem_map.1 hMem
  split at hEq
  · exact absurd hEq.symm hNot
  · next hSlash =>
    subst hEq
    exact ⟨hd, by simpa using hSlash⟩

/-- The pieces of a text from which nothing gets lost. -/
theorem isPiece_of_mem_pieces (hText : ∀ c ∈ text, isBreak c = false)
    (hPiece : piece ∈ SchemeKind.file.pieces text) : IsPiece piece := fun c hc =>
  ⟨(of_mem_pieces hPiece hc).2, hText c (of_mem_pieces hPiece hc).1⟩

theorem map_of_whole (h : ∀ c ∈ text, SchemeKind.file.isSlash c = false) :
    (text.map fun c => if SchemeKind.file.isSlash c then '/' else c) = text := by
  refine (List.map_congr_left fun c hc => ?_).trans (List.map_id _)
  simp [h c hc]

theorem slash_not_mem_of_whole (h : ∀ c ∈ text, SchemeKind.file.isSlash c = false) :
    '/' ∉ text := fun hMem => absurd (h '/' hMem) (by decide)

theorem pieces_of_whole (h : ∀ c ∈ text, SchemeKind.file.isSlash c = false) :
    SchemeKind.file.pieces text = [text] := by
  rw [SchemeKind.pieces, map_of_whole h, Text.splitOn_of_not_mem (slash_not_mem_of_whole h)]

/-- The text of names that follow one slash each. -/
def namesText (names : List String) : List Char := names.flatMap fun name => '/' :: name.toList

theorem pieces_append_namesText (hPiece : IsPiece piece)
    (h : ∀ name ∈ names, IsPiece name.toList) :
    SchemeKind.file.pieces (piece ++ namesText names) = piece :: names.map String.toList := by
  induction names generalizing piece with
  | nil => simp [namesText, pieces_of_whole fun c hc => (hPiece c hc).1]
  | cons name rest ih =>
    obtain ⟨hName, hRest⟩ := List.forall_mem_cons.1 h
    have hWhole : ∀ c ∈ piece, SchemeKind.file.isSlash c = false := fun c hc => (hPiece c hc).1
    have hCons : namesText (name :: rest) = '/' :: (name.toList ++ namesText rest) := rfl
    have hSlash : (if SchemeKind.file.isSlash '/' then '/' else '/') = '/' := by decide
    rw [hCons, SchemeKind.pieces, List.map_append, List.map_cons, map_of_whole hWhole, hSlash,
      Text.splitOn_append_sep (slash_not_mem_of_whole hWhole), List.map_cons, ← ih hName hRest]
    rfl

theorem pieces_namesText (h : ∀ name ∈ names, IsWord name) :
    SchemeKind.file.pieces (namesText names) = [] :: names.map String.toList := by
  have hEmpty : IsPiece [] := by simp [IsPiece]
  exact pieces_append_namesText hEmpty fun name hName => (h name hName).isPiece

/-! ## Pushing a name -/

theorem isDrive_iff : isDrive text = true ↔
    ∃ letter mark, text = [letter, mark] ∧ isDriveMark letter mark = true := by
  constructor
  · intro hDrive
    unfold isDrive at hDrive
    split at hDrive
    · next letter mark => exact ⟨letter, mark, rfl, hDrive⟩
    · cases hDrive
  · rintro ⟨letter, mark, rfl, hMark⟩
    exact hMark

theorem breaksBehindDrive_eq_false (h : ∀ c ∈ piece, isBreak c = false) :
    breaksBehindDrive piece = false := by
  have hDrop : ∀ {text : List Char}, (∀ c ∈ text, isBreak c = false) →
      text.dropWhile isBreak = text := by
    intro text hText
    cases text with
    | nil => rfl
    | cons c rest => exact List.dropWhile_cons_of_neg (by simp [hText c])
  unfold breaksBehindDrive
  rw [hDrop h]
  cases piece with
  | nil => rfl
  | cons letter rest =>
    have hRest : ∀ c ∈ rest, isBreak c = false := fun c hc => h c (List.mem_cons_of_mem _ hc)
    dsimp only
    rw [hDrop hRest]
    split
    · rw [hRest _ (by simp)]
      simp
    · rfl

/-- Only a drive at the front of the path is written in another way. -/
theorem pushName_cases (h : IsPiece piece) :
    pushName .file done piece = writtenName piece :: done ∨
      done = [] ∧ ∃ letter mark, piece = [letter, mark] ∧ isDriveMark letter mark = true ∧
        pushName .file done piece = [String.ofList [letter, ':']] := by
  unfold pushName
  rw [h.dropBreaks]
  dsimp only
  split
  · next hFront =>
    have hDone : done = [] := by simpa using hFront
    subst hDone
    split
    · next letter mark =>
      by_cases hDrive : isDriveMark letter mark = true
      · exact .inr ⟨rfl, letter, mark, rfl, hDrive, by rw [if_pos hDrive]⟩
      · exact .inl (by rw [if_neg hDrive])
    · rw [breaksBehindDrive_eq_false fun c hc => (h c hc).2]
      exact .inl rfl
  · exact .inl rfl

theorem pushName_eq (h : IsPiece piece) (hBehind : done ≠ [] ∨ isDrive piece = false) :
    pushName .file done piece = writtenName piece :: done := by
  rcases pushName_cases h with hPush | ⟨hNil, letter, mark, hPiece, hDrive, -⟩
  · exact hPush
  · rw [hPiece, isDrive, hDrive] at hBehind
    exact absurd hBehind (by simp [hNil])

theorem lt_of_isAlpha (h : c.isAlpha = true) : c.toNat < 0x80 := by
  delta Char.isAlpha Char.isUpper Char.isLower at h
  simp only [Bool.or_eq_true, Bool.and_eq_true, decide_eq_true_eq, ge_iff_le,
    UInt32.le_iff_toNat_le] at h
  have hBound : c.val.toNat ≤ 90 ∨ c.val.toNat ≤ 122 := h.imp And.right And.right
  show c.val.toNat < 0x80
  omega

theorem isWord_letter (h : c.isAlpha = true) :
    IsWord (String.singleton c) ∧ c ≠ '.' ∧ c ≠ '%' := by
  have hAll : ∀ n : Fin 128, (Char.ofNat n).isAlpha = true →
      isWritten escapesInPath (Char.ofNat n) = true ∧
        SchemeKind.file.isSlash (Char.ofNat n) = false ∧ Char.ofNat n ≠ '.' ∧
        Char.ofNat n ≠ '%' := by decide +kernel
  have hLetter := hAll ⟨c.toNat, lt_of_isAlpha h⟩
  simp only [Char.ofNat_toNat] at hLetter
  obtain ⟨hWritten, hWhole, hDot, hPercent⟩ := hLetter h
  exact ⟨⟨by simpa using hWritten, by simpa using hWhole⟩, hDot, hPercent⟩

theorem isWord_drive {letter mark : Char} (h : isDriveMark letter mark = true) :
    IsWord (String.ofList [letter, mark]) := by
  obtain ⟨hLetter, hMark⟩ := Bool.and_eq_true_iff.1 h
  have hWord := (isWord_letter hLetter).1
  have hMarks : ∀ mark ∈ [':', '|'], isWritten escapesInPath mark = true ∧
      SchemeKind.file.isSlash mark = false := by decide
  obtain ⟨hWritten, hWhole⟩ := hMarks mark (by simpa using hMark)
  constructor <;> rw [String.toList_ofList, List.forall_mem_cons, List.forall_mem_singleton]
  · exact ⟨hWord.written letter (by simp), hWritten⟩
  · exact ⟨hWord.whole letter (by simp), hWhole⟩

theorem writtenName_drive {letter mark : Char} (h : isDriveMark letter mark = true) :
    writtenName [letter, mark] = String.ofList [letter, mark] := by
  have hName := writtenName_toList (isWord_drive h).written
  rwa [String.toList_ofList] at hName

def dotNames : List String :=
  [".", "%2e", "%2E", "..", "%2e%2e", "%2e%2E", "%2E%2e", "%2E%2E", "%2e.", "%2E.", ".%2e", ".%2E"]

theorem isDots_iff : isDots name = true ↔ name ∈ dotNames := by
  simp [isDots, isSingleDot, isDoubleDot, dotNames, or_assoc]

/-- A name that starts with a letter is not made of dots. -/
theorem isDots_of_letter {rest : List Char} (h : c.isAlpha = true)
    (hName : name.toList = c :: rest) : isDots name = false := by
  obtain ⟨-, hDot, hPercent⟩ := isWord_letter h
  have hHead : ∀ name ∈ dotNames, name.toList.head? = some '.' ∨ name.toList.head? = some '%' := by
    decide
  rw [← Bool.not_eq_true, isDots_iff]
  intro hMem
  have hCases := hHead name hMem
  rw [hName, List.head?_cons, Option.some.injEq, Option.some.injEq] at hCases
  exact hCases.elim hDot hPercent

/-- A drive and a word behind it make a steady name. -/
theorem isSteady_drive {letter : Char} {rest : String} (h : letter.isAlpha = true)
    (hRest : IsWord rest) : IsSteady (String.ofList [letter, ':'] ++ rest) := by
  have hColon : IsWord ":" :=
    ⟨List.all_iff_forall_prop.1 (by decide), List.all_iff_forall_prop.1 (by decide)⟩
  have hDrive : String.ofList [letter, ':'] = String.singleton letter ++ ":" := by
    rw [← String.toList_inj]
    simp
  have hFront : (String.ofList [letter, ':'] ++ rest).toList = letter :: ':' :: rest.toList := by
    simp
  refine ⟨?_, isDots_of_letter h hFront⟩
  rw [hDrive]
  exact ((isWord_letter h).1.append hColon).append hRest

theorem steady_pushName (hDone : ∀ name ∈ done, IsSteady name) (h : IsPiece piece)
    (hStill : isDots (writtenName piece) = false) :
    ∀ name ∈ pushName .file done piece, IsSteady name := by
  intro name hName
  rcases pushName_cases h with hPush | ⟨-, letter, mark, -, hDrive, hPush⟩
  · rw [hPush, List.mem_cons] at hName
    rcases hName with rfl | hName
    · exact ⟨isWord_writtenName fun c hc => (h c hc).1, hStill⟩
    · exact hDone name hName
  · rw [hPush, List.mem_singleton] at hName
    have hAlpha : letter.isAlpha = true := (Bool.and_eq_true_iff.1 hDrive).1
    simpa [hName] using isSteady_drive hAlpha isSteady_empty.toIsWord

/-! ## Reading names -/

theorem steady_removeLast (hDone : ∀ name ∈ done, IsSteady name) :
    ∀ name ∈ removeLast done, IsSteady name := by
  intro name hName
  unfold removeLast at hName
  split at hName
  · cases hName
  · split at hName
    · exact hDone name hName
    · exact hDone name (List.mem_cons_of_mem _ hName)

theorem steady_passPiece (hDone : ∀ name ∈ done, IsSteady name) (h : IsPiece piece) :
    ∀ name ∈ passPiece .file done piece, IsSteady name := by
  unfold passPiece
  rw [h.dropBreaks]
  dsimp only
  split
  · exact steady_removeLast hDone
  · next hUp =>
    split
    · exact hDone
    · next hHere =>
      exact steady_pushName hDone h (by simp [isDots, hUp, hHere])

theorem steady_lastPiece (hDone : ∀ name ∈ done, IsSteady name) (h : IsPiece piece) :
    ∀ name ∈ lastPiece .file done piece, IsSteady name := by
  have hPass := steady_passPiece hDone h
  unfold lastPiece
  dsimp only
  split
  · exact List.forall_mem_cons.2 ⟨isSteady_empty, hPass⟩
  · exact hPass

theorem steady_addPieces (hDone : ∀ name ∈ done, IsSteady name)
    (hPieces : ∀ piece ∈ pieces, IsPiece piece) :
    ∀ name ∈ addPieces .file done pieces, IsSteady name := by
  induction pieces generalizing done with
  | nil =>
    intro name hName
    exact hDone name (List.mem_reverse.1 hName)
  | cons piece rest ih =>
    obtain ⟨hPiece, hRest⟩ := List.forall_mem_cons.1 hPieces
    cases rest with
    | nil =>
      intro name hName
      exact steady_lastPiece hDone hPiece name (List.mem_reverse.1 hName)
    | cons next rest => exact ih (steady_passPiece hDone hPiece) hRest

theorem exists_of_isColonDrive (h : isColonDrive name = true) :
    ∃ letter, letter.isAlpha = true ∧ name = String.ofList [letter, ':'] := by
  unfold isColonDrive at h
  split at h
  · next letter hEq => exact ⟨letter, h, by rw [← hEq, String.ofList_toList]⟩
  · cases h

theorem steady_of_isColonDrive (h : isColonDrive name = true) : IsSteady name := by
  obtain ⟨letter, hLetter, rfl⟩ := exists_of_isColonDrive h
  simpa using isSteady_drive hLetter isSteady_empty.toIsWord

theorem steady_addBehindDrive {drive : String} (hDone : ∀ name ∈ done, IsSteady name)
    (hDrive : isColonDrive drive = true) (hPieces : ∀ piece ∈ pieces, IsPiece piece) :
    ∀ name ∈ addBehindDrive done drive pieces, IsSteady name := by
  have hSelf := steady_of_isColonDrive hDrive
  obtain ⟨letter, hLetter, rfl⟩ := exists_of_isColonDrive hDrive
  cases pieces with
  | nil =>
    intro name hName
    exact List.forall_mem_cons.2 ⟨hSelf, hDone⟩ name (List.mem_reverse.1 hName)
  | cons piece rest =>
    obtain ⟨hPiece, hRest⟩ := List.forall_mem_cons.1 hPieces
    have hWord := isWord_writtenName fun c hc => (hPiece c hc).1
    have hNames : ∀ name ∈ (if isDoubleDot (writtenName piece) || isSingleDot (writtenName piece)
        then String.ofList [letter, ':'] :: done
        else (String.ofList [letter, ':'] ++ writtenName piece) :: done), IsSteady name := by
      split
      · exact List.forall_mem_cons.2 ⟨hSelf, hDone⟩
      · exact List.forall_mem_cons.2 ⟨isSteady_drive hLetter hWord, hDone⟩
    simp only [addBehindDrive, hPiece.dropBreaks]
    split
    · intro name hName
      rw [List.mem_reverse] at hName
      split at hName
      · rcases List.mem_cons.1 hName with rfl | hName
        · exact isSteady_empty
        · exact hNames name hName
      · exact hNames name hName
    · exact steady_addPieces hNames hRest

theorem steady_trimNames (hNames : ∀ name ∈ names, IsSteady name) :
    ∀ name ∈ trimNames names, IsSteady name := by
  intro name hName
  unfold trimNames at hName
  split at hName
  · rw [List.mem_singleton.1 hName]
    exact isSteady_empty
  · exact hNames name (List.dropWhile_sublist _ |>.subset hName)

theorem trimNames_trimNames (names : List String) :
    trimNames (trimNames names) = trimNames names := by
  unfold trimNames
  cases hDrop : names.dropWhile String.isEmpty with
  | nil => rfl
  | cons name rest =>
    have hHead := List.head_dropWhile_not (p := String.isEmpty) (l := names) (by simp [hDrop])
    simp only [hDrop, List.head_cons] at hHead
    have hNot : ¬name.isEmpty = true := by simp [hHead]
    simp only [List.dropWhile_cons_of_neg hNot]

theorem trimNames_cons (h : name ≠ "") : trimNames (name :: names) = name :: names := by
  rw [trimNames, List.dropWhile_cons_of_neg (by simpa using h)]

/-! ## Pieces that stay -/

/-- The piece becomes a name that stands for no directory. -/
structure IsStill (piece : List Char) : Prop where
  whole : IsPiece piece
  still : isDots (writtenName piece) = false

theorem IsSteady.isStill (h : IsSteady name) : IsStill name.toList :=
  ⟨h.isPiece, by rw [writtenName_toList h.written, h.still]⟩

theorem passPiece_still (h : IsStill piece) (hFront : done ≠ [] ∨ isDrive piece = false) :
    passPiece .file done piece = writtenName piece :: done := by
  have hDots : isSingleDot (writtenName piece) = false ∧ isDoubleDot (writtenName piece) = false := by
    simpa [isDots] using h.still
  unfold passPiece
  simp only [h.whole.dropBreaks, hDots, Bool.false_eq_true, if_false, pushName_eq h.whole hFront]

/-- Such pieces are read one by one.  Only a drive at the front of the path is written in another
way. -/
theorem addPieces_still (hPieces : ∀ piece ∈ pieces, IsStill piece)
    (hFront : done ≠ [] ∨ ∀ piece ∈ pieces.head?, isDrive piece = false) :
    addPieces .file done pieces = done.reverse ++ pieces.map writtenName := by
  induction pieces generalizing done with
  | nil => simp [addPieces]
  | cons piece rest ih =>
    obtain ⟨hPiece, hRest⟩ := List.forall_mem_cons.1 hPieces
    have hPass := passPiece_still hPiece (hFront.imp_right fun h => h piece rfl)
    cases rest with
    | nil =>
      have hDots : (isDoubleDot (writtenName piece) || isSingleDot (writtenName piece)) = false := by
        simpa [isDots, and_comm] using hPiece.still
      simp [addPieces, lastPiece, hPass, hPiece.whole.dropBreaks, hDots]
    | cons next rest =>
      rw [addPieces, hPass, ih hRest (.inl (List.cons_ne_nil _ _))]
      simp
      simp

theorem reachesDrive_still (hPieces : ∀ piece ∈ pieces, IsStill piece)
    (hFront : done ≠ [] ∨ ∀ piece ∈ pieces.head?, isDrive piece = false) :
    reachesDrive done pieces = false := by
  induction pieces generalizing done with
  | nil => rfl
  | cons piece rest ih =>
    obtain ⟨hPiece, hRest⟩ := List.forall_mem_cons.1 hPieces
    have hHead : done ≠ [] ∨ isDrive piece = false := hFront.imp_right fun h => h piece rfl
    rw [reachesDrive, passPiece_still hPiece hHead, ih hRest (.inl (List.cons_ne_nil _ _)),
      hPiece.whole.dropBreaks]
    rcases hHead with hDone | hDrive
    · simp [hDone]
    · simp [hDrive]

/-! ## Reading steady names back -/

theorem still_of_steady (hNames : ∀ name ∈ names, IsSteady name) :
    ∀ piece ∈ names.map String.toList, IsStill piece := by
  simpa using fun name hName => (hNames name hName).isStill

theorem addPieces_steady (hNames : ∀ name ∈ names, IsSteady name)
    (hFront : done ≠ [] ∨ ∀ name ∈ names.head?, isDrive name.toList = false) :
    addPieces .file done (names.map String.toList) = done.reverse ++ names := by
  have hWritten : (names.map String.toList).map writtenName = names := by
    rw [List.map_map]
    refine (List.map_congr_left fun name hName => ?_).trans (List.map_id _)
    exact writtenName_toList (hNames name hName).written
  rw [addPieces_still (still_of_steady hNames), hWritten]
  simpa using hFront

/-- Names behind a slash are read as they are. -/
theorem addPieces_names (hNames : ∀ name ∈ names, IsSteady name) :
    addPieces .file [] (SchemeKind.file.pieces (namesText names)) = "" :: names := by
  rw [pieces_namesText fun name hName => (hNames name hName).toIsWord]
  cases names with
  | nil => decide
  | cons name rest =>
    have hFirst : passPiece .file [] [] = [""] := by decide
    have hRest := addPieces_steady hNames (.inl (List.cons_ne_nil "" []))
    simp only [List.map_cons, addPieces, hFirst] at hRest ⊢
    exact hRest

end ModuleLoader.Url
