import Mathlib.Algebra.GroupWithZero.Nat
import ModuleLoader.Proofs.Url.Names

/-! How long the path of a URL can get.  Reading a path writes each character once at most, so that the
path is no longer than that of the base with the text behind it. -/

namespace ModuleLoader.Url

variable {name : String} {names done : List String} {piece text rest : List Char}
  {pieces : List (List Char)} {c : Char}

/-- The room that a character takes in a path.  A tab or newline may stand for a slash. -/
def room (c : Char) : Nat := if isBreak c then 1 else (encode escapesInPath [c]).length

/-- The room that a text takes in a path. -/
def size (text : List Char) : Nat := (text.map room).sum

/-- The length of the text of names that follow one slash each. -/
def pathSize (names : List String) : Nat := (namesText names).length

/-! ## Texts -/

theorem encode_cons (escapes : Char → Bool) (c : Char) (rest : List Char) :
    encode escapes (c :: rest) = encode escapes [c] ++ encode escapes rest := by
  simp [encode, encodeBytes, Text.Utf8.encode]

theorem encodeByte_ne_nil (escapes : Char → Bool) (b : UInt8) : encodeByte escapes b ≠ [] := by
  unfold encodeByte percentByte
  dsimp only
  split <;> simp

theorem length_encode_pos (escapes : Char → Bool) (c : Char) : 0 < (encode escapes [c]).length := by
  obtain ⟨b, bytes, hBytes⟩ := List.exists_cons_of_ne_nil (l := String.utf8EncodeChar c) (by simp)
  have hLength := List.length_pos_of_ne_nil (encodeByte_ne_nil escapes b)
  have hFront : encode escapes [c] = encodeByte escapes b ++ encodeBytes escapes bytes := by
    simp [encode, encodeBytes, Text.Utf8.encode, hBytes]
  rw [hFront, List.length_append]
  omega

theorem one_le_room (c : Char) : 1 ≤ room c := by
  have hLength := length_encode_pos escapesInPath c
  unfold room
  split
  · omega
  · exact hLength

theorem room_of_isSlash (h : SchemeKind.file.isSlash c = true) : room c = 1 := by
  rcases isSlash_iff.1 h with rfl | rfl <;> decide

@[simp] theorem size_nil : size [] = 0 := rfl

@[simp] theorem size_cons (c : Char) (text : List Char) : size (c :: text) = room c + size text := by
  simp [size]

@[simp] theorem size_append (text rest : List Char) : size (text ++ rest) = size text + size rest := by
  simp [size]

theorem size_le_of_sublist (h : text.Sublist rest) : size text ≤ size rest := by
  induction h with
  | slnil => exact Nat.le_refl _
  | cons c _ ih =>
    rw [size_cons]
    omega
  | cons_cons c _ ih =>
    rw [size_cons, size_cons]
    omega

/-- What takes the room of the whole is the whole. -/
theorem eq_of_sublist (h : text.Sublist rest) (hSize : size rest ≤ size text) : text = rest := by
  induction h with
  | slnil => rfl
  | cons c hSub _ =>
    have hRoom := one_le_room c
    have hLess := size_le_of_sublist hSub
    rw [size_cons] at hSize
    omega
  | cons_cons c _ ih =>
    rw [size_cons, size_cons] at hSize
    rw [ih (by omega)]

/-- What is written takes the room of the text but for what is lost. -/
theorem length_writtenName (piece : List Char) :
    (writtenName (dropBreaks piece)).toList.length + piece.countP isBreak = size piece := by
  simp only [writtenName, String.toList_ofList]
  induction piece with
  | nil => rfl
  | cons c piece ih =>
    by_cases hBreak : isBreak c = true
    · have hDrop : dropBreaks (c :: piece) = dropBreaks piece := by simp [dropBreaks, hBreak]
      have hRoom : room c = 1 := by simp [room, hBreak]
      rw [hDrop, List.countP_cons_of_pos hBreak, size_cons, hRoom]
      omega
    · have hDrop : dropBreaks (c :: piece) = c :: dropBreaks piece := by simp [dropBreaks, hBreak]
      have hRoom : room c = (encode escapesInPath [c]).length := by simp [room, hBreak]
      rw [hDrop, encode_cons, List.length_append, List.countP_cons_of_neg hBreak, size_cons, hRoom]
      omega

theorem length_le_writtenName (text : List Char) :
    text.length ≤ (writtenName text).toList.length := by
  rw [writtenName, String.toList_ofList]
  induction text with
  | nil => exact Nat.le_refl _
  | cons c text ih =>
    have hc := length_encode_pos escapesInPath c
    rw [encode_cons, List.length_append, List.length_cons]
    omega

/-! ## Names -/

@[simp] theorem pathSize_nil : pathSize [] = 0 := rfl

@[simp] theorem pathSize_cons (name : String) (names : List String) :
    pathSize (name :: names) = 1 + name.toList.length + pathSize names := by
  simp [pathSize, namesText]
  omega

@[simp] theorem pathSize_append (names rest : List String) :
    pathSize (names ++ rest) = pathSize names + pathSize rest := by
  simp [pathSize, namesText]

@[simp] theorem pathSize_reverse (names : List String) :
    pathSize names.reverse = pathSize names := by
  induction names with
  | nil => rfl
  | cons name names ih =>
    rw [List.reverse_cons, pathSize_append, ih]
    simp
    omega

theorem pathSize_removeLast_le (done : List String) : pathSize (removeLast done) ≤ pathSize done := by
  unfold removeLast
  split
  · exact Nat.le_refl _
  · split
    · exact Nat.le_refl _
    · rw [pathSize_cons]
      omega

theorem pathSize_pushName_le (done : List String) (piece : List Char) :
    pathSize (pushName .file done piece) ≤ pathSize done + 1 + size piece := by
  have hLength := length_writtenName piece
  unfold pushName
  dsimp only
  split
  · split
    · next letter mark hName =>
      have hName' := size_le_of_sublist (List.filter_sublist (p := (!isBreak ·)) (l := piece))
      rw [← dropBreaks, hName, size_cons, size_cons, size_nil] at hName'
      have hLetter := one_le_room letter
      have hMark := one_le_room mark
      split <;>
      · simp only [pathSize_cons, pathSize_nil, String.toList_ofList, List.length_cons,
          List.length_nil]
        omega
    · split
      · next hBreaks =>
        have hBreak : 0 < piece.countP isBreak := by
          by_contra hNone
          rw [List.countP_pos_iff] at hNone
          have hUnbroken : ∀ c ∈ piece, isBreak c = false := fun c hc => by
            simpa using fun h => hNone ⟨c, hc, h⟩
          rw [breaksBehindDrive_eq_false hUnbroken] at hBreaks
          cases hBreaks
        have hTake := length_le_writtenName ((dropBreaks piece).take 2)
        rw [← List.take_append_drop 2 (dropBreaks piece), writtenName_append,
          String.toList_append, List.length_append] at hLength
        simp only [pathSize_cons, pathSize_nil, String.toList_ofList]
        omega
      · rw [pathSize_cons, pathSize_nil]
        omega
  · rw [pathSize_cons]
    omega

theorem pathSize_passPiece_le (done : List String) (piece : List Char) :
    pathSize (passPiece .file done piece) ≤ pathSize done + 1 + size piece := by
  have hRemove := pathSize_removeLast_le done
  have hPush := pathSize_pushName_le done piece
  unfold passPiece
  dsimp only
  split
  · omega
  split
  · omega
  · exact hPush

theorem pathSize_lastPiece_le (done : List String) (piece : List Char) :
    pathSize (lastPiece .file done piece) ≤ pathSize done + 1 + size piece := by
  have hRemove := pathSize_removeLast_le done
  have hPass := pathSize_passPiece_le done piece
  unfold lastPiece
  dsimp only
  split
  · next hDots =>
    have hLess : pathSize (passPiece .file done piece) ≤ pathSize done := by
      unfold passPiece
      dsimp only
      split
      · exact hRemove
      split
      · exact Nat.le_refl _
      · next hUp hHere => simp [hUp, hHere] at hDots
    rw [pathSize_cons, String.toList_empty, List.length_nil]
    omega
  · exact hPass

theorem pathSize_addPieces_le (done : List String) (pieces : List (List Char)) :
    pathSize (addPieces .file done pieces) ≤ pathSize done + size (pieces.flatMap ('/' :: ·)) := by
  have hSlash : room '/' = 1 := by decide
  induction pieces generalizing done with
  | nil => simp [addPieces]
  | cons piece rest ih =>
    cases rest with
    | nil =>
      have hLast := pathSize_lastPiece_le done piece
      simp only [addPieces, pathSize_reverse, List.flatMap_singleton, size_cons, hSlash]
      omega
    | cons next rest =>
      have hPass := pathSize_passPiece_le done piece
      have hRest := ih (passPiece .file done piece)
      rw [List.flatMap_cons, size_append, size_cons, hSlash]
      simp only [addPieces]
      omega

theorem size_pieces (text : List Char) :
    size ((SchemeKind.file.pieces text).flatMap ('/' :: ·)) = 1 + size text := by
  have hSlash : room '/' = 1 := by decide
  have hMap : size (text.map fun c => if SchemeKind.file.isSlash c then '/' else c) = size text := by
    induction text with
    | nil => rfl
    | cons c text ih =>
      rw [List.map_cons, size_cons, size_cons, ih]
      split
      · next hc => rw [hSlash, room_of_isSlash hc]
      · rfl
  rw [SchemeKind.pieces, Text.flatMap_splitOn, size_cons, hSlash, hMap]

theorem pathSize_trimNames_le (names : List String) :
    pathSize (trimNames names) ≤ max 1 (pathSize names) := by
  have hDrop : ∀ names : List String, pathSize (names.dropWhile String.isEmpty) ≤ pathSize names := by
    intro names
    induction names with
    | nil => exact Nat.le_refl _
    | cons name names ih =>
      rw [List.dropWhile_cons]
      split
      · rw [pathSize_cons]
        omega
      · exact Nat.le_refl _
  have hNames := hDrop names
  unfold trimNames
  split
  · rw [pathSize_cons, pathSize_nil, String.toList_empty, List.length_nil]
    omega
  · omega

end ModuleLoader.Url
