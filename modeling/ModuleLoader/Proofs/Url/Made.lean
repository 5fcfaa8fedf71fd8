import ModuleLoader.Proofs.Url.Settled

/-! What the URL of a file is made of, wherever its text has tabs and newlines and whatever its host
is.  Each name is one of the base, or it is written from characters of the text.  A name stands for
a directory only behind a drive at the front, where a tab or newline may keep dots apart. -/

namespace ModuleLoader.Url

/-- The property holds of all that is written from allowed characters, and of drives. -/
structure Covers (P : String → Prop) (allowed : Char → Prop) : Prop where
  written : ∀ piece : List Char, (∀ c ∈ piece, allowed c) → P (writtenName piece)
  letter : ∀ c : Char, c.isAlpha = true → allowed c
  colon : allowed ':'

/-- No name stands for a directory, unless the path starts with a drive.  The last name comes
first. -/
def IsOrderly (done : List String) : Prop :=
  (∀ name ∈ done, isDots name = false) ∨ ∃ drive ∈ done.getLast?, isColonDrive drive = true

/-- The names have the property and are in order.  The last name comes first. -/
structure IsMade (P : String → Prop) (done : List String) : Prop where
  each : ∀ name ∈ done, P name
  orderly : IsOrderly done

variable {P : String → Prop} {allowed : Char → Prop} {u base : Url} {name : String}
  {names done : List String} {piece text rest : List Char} {pieces : List (List Char)} {c : Char}

theorem dropBreaks_subset (text : List Char) : dropBreaks text ⊆ text :=
  (List.filter_sublist).subset

theorem isDots_drive (h : isColonDrive name = true) : isDots name = false :=
  (steady_of_isColonDrive h).still

/-! ## Names in order -/

theorem IsOrderly.cons (h : IsOrderly done) (hName : isDots name = false) :
    IsOrderly (name :: done) := by
  rcases h with hDone | ⟨drive, hLast, hDrive⟩
  · exact .inl (List.forall_mem_cons.2 ⟨hName, hDone⟩)
  · refine .inr ⟨drive, ?_, hDrive⟩
    cases done with
    | nil => simp at hLast
    | cons first rest => simpa using hLast

theorem IsOrderly.tail (h : IsOrderly done) : IsOrderly done.tail := by
  rcases h with hDone | ⟨drive, hLast, hDrive⟩
  · exact .inl fun name hName => hDone name (List.mem_of_mem_tail hName)
  · cases done with
    | nil => simp at hLast
    | cons last done =>
      cases done with
      | nil => exact .inl (by simp)
      | cons first rest => exact .inr ⟨drive, by simpa using hLast, hDrive⟩

theorem dropBreaks_dropWhile (text : List Char) :
    dropBreaks (text.dropWhile isBreak) = dropBreaks text := by
  induction text with
  | nil => rfl
  | cons c rest ih =>
    by_cases hBreak : isBreak c = true
    · rw [List.dropWhile_cons_of_pos hBreak, ih]
      simp [dropBreaks, hBreak]
    · rw [List.dropWhile_cons_of_neg hBreak]

theorem dropBreaks_of_dropWhile (h : text.dropWhile isBreak = c :: rest) :
    dropBreaks text = c :: dropBreaks rest := by
  have hNot := List.head?_dropWhile_not isBreak text
  rw [h] at hNot
  have hShown : isBreak c = false := by simpa using hNot
  rw [← dropBreaks_dropWhile text, h, dropBreaks, List.filter_cons_of_pos (by simp [hShown])]
  rfl

/-- What a tab or newline keeps apart stands behind a drive. -/
theorem dropBreaks_of_breaksBehindDrive (h : breaksBehindDrive piece = true) :
    ∃ letter rest, letter.isAlpha = true ∧ rest ≠ [] ∧ dropBreaks piece = letter :: ':' :: rest := by
  unfold breaksBehindDrive at h
  split at h
  · next letter behind hLetter =>
    split at h
    · next next rest hColon =>
      obtain ⟨⟨hAlpha, hNext⟩, hRest⟩ := by simpa only [Bool.and_eq_true] using h
      have hDrop : dropBreaks (next :: rest) = dropBreaks rest := by simp [dropBreaks, hNext]
      refine ⟨letter, dropBreaks rest, hAlpha, by simpa using hRest, ?_⟩
      rw [dropBreaks_of_dropWhile hLetter, dropBreaks_of_dropWhile hColon, hDrop]
    · cases h
  · cases h

theorem take_of_breaksBehindDrive (h : breaksBehindDrive piece = true) :
    isColonDrive (String.ofList ((dropBreaks piece).take 2)) = true := by
  obtain ⟨letter, rest, hLetter, -, hPiece⟩ := dropBreaks_of_breaksBehindDrive h
  rw [hPiece]
  simpa [isColonDrive] using hLetter

/-! ## Names that are made -/

theorem Covers.empty (hP : Covers P allowed) : P "" := hP.written [] (by simp)

theorem Covers.drive (hP : Covers P allowed) (h : isColonDrive name = true) : P name := by
  obtain ⟨letter, hLetter, rfl⟩ := exists_of_isColonDrive h
  have hWritten : writtenName [letter, ':'] = String.ofList [letter, ':'] := by
    have hDrive : isColonDrive (String.ofList [letter, ':']) = true := by
      simpa [isColonDrive] using hLetter
    have hName := writtenName_toList (steady_of_isColonDrive hDrive).written
    rwa [String.toList_ofList] at hName
  rw [← hWritten]
  refine hP.written _ ?_
  rw [List.forall_mem_cons, List.forall_mem_singleton]
  exact ⟨hP.letter _ hLetter, hP.colon⟩

namespace IsMade

theorem nil : IsMade P [] := ⟨by simp, .inl (by simp)⟩

theorem cons (h : IsMade P done) (hName : P name) (hDots : isDots name = false) :
    IsMade P (name :: done) :=
  ⟨List.forall_mem_cons.2 ⟨hName, h.each⟩, h.orderly.cons hDots⟩

theorem tail (h : IsMade P done) : IsMade P done.tail :=
  ⟨fun name hName => h.each name (List.mem_of_mem_tail hName), h.orderly.tail⟩

theorem removeLast (h : IsMade P done) : IsMade P (removeLast done) := by
  unfold Url.removeLast
  split
  · exact h
  · split
    · exact h
    · exact h.tail

variable (hP : Covers P allowed)
include hP

theorem pushName (h : IsMade P done) (hPiece : ∀ c ∈ piece, allowed c)
    (hStill : isDots (writtenName (dropBreaks piece)) = false) :
    IsMade P (pushName .file done piece) := by
  have hWritten : ∀ text ⊆ dropBreaks piece, P (writtenName text) := fun text hText =>
    hP.written text fun c hc => hPiece c (dropBreaks_subset piece (hText hc))
  have hWhole := h.cons (hWritten _ (List.Subset.refl _)) hStill
  unfold Url.pushName
  dsimp only
  split
  · next hFront =>
    have hDone : done = [] := by simpa using hFront
    subst hDone
    split
    · next letter mark hName =>
      split
      · next hDrive =>
        have hColon : isColonDrive (String.ofList [letter, ':']) = true := by
          simpa [isColonDrive] using (Bool.and_eq_true_iff.1 hDrive).1
        exact nil.cons (hP.drive hColon) (isDots_drive hColon)
      · exact hName ▸ hWhole
    · split
      · next hBreaks =>
        have hColon := take_of_breaksBehindDrive hBreaks
        refine ⟨?_, .inr ⟨_, rfl, hColon⟩⟩
        rw [List.forall_mem_cons, List.forall_mem_singleton]
        exact ⟨hWritten _ (List.drop_subset _ _), hP.drive hColon⟩
      · exact hWhole
  · exact hWhole

theorem passPiece (h : IsMade P done) (hPiece : ∀ c ∈ piece, allowed c) :
    IsMade P (passPiece .file done piece) := by
  unfold Url.passPiece
  dsimp only
  split
  · exact h.removeLast
  · next hUp =>
    split
    · exact h
    · next hHere => exact h.pushName hP hPiece (by simp [isDots, hUp, hHere])

theorem lastPiece (h : IsMade P done) (hPiece : ∀ c ∈ piece, allowed c) :
    IsMade P (lastPiece .file done piece) := by
  have hPass := h.passPiece hP hPiece
  unfold Url.lastPiece
  dsimp only
  split
  · exact hPass.cons hP.empty (by decide)
  · exact hPass

theorem addPieces (h : IsMade P done) (hPieces : ∀ piece ∈ pieces, ∀ c ∈ piece, allowed c) :
    IsMade P (addPieces .file done pieces).reverse := by
  induction pieces generalizing done with
  | nil => simpa [Url.addPieces] using h
  | cons piece rest ih =>
    obtain ⟨hPiece, hRest⟩ := List.forall_mem_cons.1 hPieces
    cases rest with
    | nil => simpa [Url.addPieces] using h.lastPiece hP hPiece
    | cons next rest => exact ih (h.passPiece hP hPiece) hRest

theorem addBehindDrive {drive : String} (h : IsMade P done) (hDrive : isColonDrive drive = true)
    (hPieces : ∀ piece ∈ pieces, ∀ c ∈ piece, allowed c) :
    IsMade P (addBehindDrive done drive pieces).reverse := by
  have hSelf := h.cons (hP.drive hDrive) (isDots_drive hDrive)
  cases pieces with
  | nil => simpa [Url.addBehindDrive] using hSelf
  | cons piece rest =>
    obtain ⟨hPiece, hRest⟩ := List.forall_mem_cons.1 hPieces
    obtain ⟨letter, hLetter, rfl⟩ := exists_of_isColonDrive hDrive
    have hBehind : IsMade P
        ((String.ofList [letter, ':'] ++ writtenName (dropBreaks piece)) :: done) := by
      have hWritten : String.ofList [letter, ':'] ++ writtenName (dropBreaks piece) =
          writtenName ([letter, ':'] ++ dropBreaks piece) := by
        have hName := writtenName_toList (steady_of_isColonDrive hDrive).written
        rw [String.toList_ofList] at hName
        rw [writtenName_append, hName]
      refine h.cons ?_ (isDots_of_letter hLetter (by simp; rfl))
      rw [hWritten]
      refine hP.written _ fun c hc => ?_
      rcases List.mem_append.1 hc with hc | hc
      · rcases List.mem_cons.1 hc with rfl | hc
        · exact hP.letter _ hLetter
        · rw [List.mem_singleton.1 hc]
          exact hP.colon
      · exact hPiece c (dropBreaks_subset piece hc)
    have hNames : IsMade P
        (if isDoubleDot (writtenName (dropBreaks piece)) ||
            isSingleDot (writtenName (dropBreaks piece))
          then String.ofList [letter, ':'] :: done
          else (String.ofList [letter, ':'] ++ writtenName (dropBreaks piece)) :: done) := by
      split
      · exact hSelf
      · exact hBehind
    simp only [Url.addBehindDrive]
    split
    · rw [List.reverse_reverse]
      split
      · exact hNames.cons hP.empty (by decide)
      · exact hNames
    · exact hNames.addPieces hP hRest

theorem fileNamesFrom (h : IsMade P names.reverse)
    (hPieces : ∀ piece ∈ pieces, ∀ c ∈ piece, allowed c) :
    IsMade P (fileNamesFrom names pieces).reverse := by
  unfold Url.fileNamesFrom
  split
  · exact nil.addPieces hP hPieces
  · next last done hReverse =>
    rw [hReverse] at h
    split
    · next hDrive =>
      split
      · next hDone =>
        rw [List.isEmpty_iff.1 hDone] at h
        exact h.addPieces hP hPieces
      · exact h.tail.addBehindDrive hP hDrive hPieces
    · exact h.tail.addPieces hP hPieces

theorem trimNames (h : IsMade P names.reverse) : IsMade P (trimNames names).reverse := by
  unfold Url.trimNames
  split
  · exact nil.cons hP.empty (by decide)
  · obtain ⟨dropped, hDropped⟩ := List.dropWhile_suffix (l := names) String.isEmpty
    refine ⟨fun name hName => ?_, ?_⟩
    · have hMem := (List.dropWhile_sublist _).subset (List.mem_reverse.1 hName)
      exact h.each name (List.mem_reverse.2 hMem)
    · rcases h.orderly with hStill | ⟨drive, hLast, hDrive⟩
      · refine .inl fun name hName => hStill name (List.mem_reverse.2 ?_)
        exact (List.dropWhile_sublist _).subset (List.mem_reverse.1 hName)
      · -- a drive at the front is not empty, so that nothing is dropped
        refine .inr ⟨drive, ?_, hDrive⟩
        rw [List.getLast?_reverse] at hLast ⊢
        obtain ⟨rest, hNames⟩ := List.head?_eq_some_iff.1 hLast
        obtain ⟨letter, -, rfl⟩ := exists_of_isColonDrive hDrive
        rw [hNames, List.dropWhile_cons_of_neg (by simp)]
        rfl

end IsMade

end ModuleLoader.Url
