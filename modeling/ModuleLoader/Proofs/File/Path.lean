import ModuleLoader.Proofs.Text.Utf8
import ModuleLoader.File.Path
import Mathlib.Data.List.Basic
import Mathlib.Data.List.TakeWhile

/-! Paths of files: how they fall into pieces, which names they end in, where the extension of a name
starts, and which of them survive being shown. -/

namespace ModuleLoader

namespace FilePath

variable {p d : FilePath} {name stem ending : FileName} {a b : List UInt8}

/-! ## Pieces -/

theorem pieces_ne_nil (bytes : List UInt8) : pieces bytes ≠ [] := by
  cases bytes with
  | nil => simp [pieces]
  | cons b rest =>
    simp only [pieces]
    split
    · simp
    · split <;> simp

theorem pieces_append_slash (a b : List UInt8) :
    pieces (a ++ slash :: b) = pieces a ++ pieces b := by
  induction a with
  | nil => simp [pieces]
  | cons c a ih =>
    by_cases hSlash : c = slash
    · simp [pieces, hSlash, ih]
    · obtain ⟨piece, more, hPieces⟩ := List.exists_cons_of_ne_nil (pieces_ne_nil a)
      simp [pieces, hSlash, ih, hPieces]

theorem pieces_of_not_mem (h : slash ∉ name) : pieces name = [name] := by
  induction name with
  | nil => rfl
  | cons c name ih =>
    rw [List.mem_cons, not_or] at h
    simp [pieces, Ne.symm h.1, ih h.2]

theorem not_mem_of_mem_pieces {piece : FileName} (h : piece ∈ pieces a) : slash ∉ piece := by
  induction a generalizing piece with
  | nil =>
    rw [pieces, List.mem_singleton] at h
    simp [h]
  | cons c a ih =>
    obtain ⟨first, more, hPieces⟩ := List.exists_cons_of_ne_nil (pieces_ne_nil a)
    by_cases hSlash : c = slash
    · rcases List.mem_cons.1 (by simpa only [pieces, hSlash, if_true] using h) with rfl | hMore
      · exact List.not_mem_nil
      · exact ih hMore
    · simp only [pieces, hSlash, if_false, hPieces, List.mem_cons] at h
      rcases h with rfl | hMore
      · rw [List.mem_cons, not_or]
        exact ⟨Ne.symm hSlash, ih (by simp [hPieces])⟩
      · exact ih (by simp [hPieces, hMore])

/-! ## The last name and the directory -/

/-- The bytes can be the name of a file: they name something, and no other directory. -/
structure IsName (name : FileName) : Prop where
  not_slash : slash ∉ name
  not_idle : isIdle name = false
  not_up : name ≠ [dot, dot]

theorem IsName.ne_nil (h : IsName name) : name ≠ [] := by
  rintro rfl
  exact absurd h.not_idle (by simp [isIdle])

theorem mem_pieces_of_mem_body {piece : FileName} (h : piece ∈ p.body.2) :
    piece ∈ pieces p.bytes := by
  unfold body at h
  split at h
  · next hNil => exact absurd hNil (pieces_ne_nil _)
  · next first rest hPieces =>
    rw [hPieces]
    split at h
    · exact List.mem_cons_of_mem _ h
    · split at h
      · exact List.mem_cons_of_mem _ h
      · exact h

theorem isName_of_fileName? (h : p.fileName? = some name) : IsName name := by
  unfold fileName? at h
  split at h
  · cases h
  · next last hLast =>
    split at h
    · cases h
    · next hUp =>
      obtain rfl : last = name := Option.some.inj h
      obtain ⟨hMem, hIdle⟩ := List.mem_filter.1 (List.mem_of_getLast? hLast)
      exact ⟨not_mem_of_mem_pieces (mem_pieces_of_mem_body hMem), by simpa using hIdle,
        by simpa using hUp⟩

theorem isAbsolute_iff : p.isAbsolute = true ↔ ∃ rest, p.bytes = slash :: rest := by
  cases hBytes : p.bytes <;> simp [isAbsolute, hBytes]

theorem ne_nil_of_isAbsolute (h : p.isAbsolute = true) : p.bytes ≠ [] := by
  obtain ⟨rest, hBytes⟩ := isAbsolute_iff.1 h
  simp [hBytes]

/-- The directory of an absolute path is absolute. -/
theorem isAbsolute_of_parent? (hp : p.isAbsolute = true) (h : p.parent? = some d) :
    d.isAbsolute = true := by
  obtain ⟨rest, hBytes⟩ := isAbsolute_iff.1 hp
  have hBody : p.body = (some [], pieces rest) := by simp [body, hBytes, pieces, hp]
  simp only [parent?, hBody] at h
  split at h
  · exact absurd h (by simp)
  · obtain rfl := Option.some.inj h
    rfl

/-! ## A name in a directory -/

theorem isAbsolute_of_slash_not_mem (h : slash ∉ name) : isAbsolute ⟨name⟩ = false := by
  rw [Bool.eq_false_iff]
  intro hAbsolute
  obtain ⟨rest, hName⟩ := isAbsolute_iff.1 hAbsolute
  obtain rfl : name = slash :: rest := hName
  exact h List.mem_cons_self

theorem join_name (hd : d.bytes ≠ []) (h : slash ∉ name) :
    (d.join ⟨name⟩).bytes =
      (if d.bytes.getLast? = some slash then d.bytes else d.bytes ++ [slash]) ++ name := by
  simp only [join, isAbsolute_of_slash_not_mem h]
  by_cases hLast : d.bytes.getLast? = some slash <;> simp [hLast, hd]

/-- Behind its pieces a directory may end in a slash; a name in it takes the place behind that. -/
theorem pieces_join (hd : d.bytes ≠ []) (h : slash ∉ name) :
    ∃ front, pieces (d.join ⟨name⟩).bytes = front ++ [name] ∧
      (pieces d.bytes = front ∨ pieces d.bytes = front ++ [[]]) := by
  rw [join_name hd h]
  split
  · next hLast =>
    obtain ⟨front, hFront⟩ := List.getLast?_eq_some_iff.1 hLast
    refine ⟨pieces front, ?_, .inr ?_⟩
    · rw [hFront, List.append_assoc, List.singleton_append, pieces_append_slash,
        pieces_of_not_mem h]
    · rw [hFront, pieces_append_slash, pieces]
  · refine ⟨pieces d.bytes, ?_, .inl rfl⟩
    rw [List.append_assoc, List.singleton_append, pieces_append_slash, pieces_of_not_mem h]

theorem isAbsolute_join (hd : d.isAbsolute = true) (h : slash ∉ name) :
    (d.join ⟨name⟩).isAbsolute = true := by
  obtain ⟨rest, hBytes⟩ := isAbsolute_iff.1 hd
  rw [isAbsolute_iff, join_name (by simp [hBytes]) h, hBytes]
  split <;> simp

theorem join_name_inj {other : FileName} (hd : d.bytes ≠ []) (hName : slash ∉ name)
    (hOther : slash ∉ other) (h : d.join ⟨name⟩ = d.join ⟨other⟩) : name = other := by
  have hBytes := congrArg FilePath.bytes h
  rw [join_name hd hName, join_name hd hOther] at hBytes
  exact List.append_cancel_left hBytes

/-! ## Extensions -/

theorem splitExtension_of_not_mem (h : dot ∉ name) : splitExtension name = (name, none) := by
  have hAll : name.reverse.takeWhile (· != dot) = name.reverse := by
    rw [List.takeWhile_eq_self_iff]
    intro c hc
    simpa using fun hDot : c = dot => h (hDot ▸ List.mem_reverse.1 hc)
  simp [splitExtension, hAll]

theorem splitExtension_append (h : dot ∉ ending) :
    splitExtension (stem ++ dot :: ending) =
      if stem = [] then (dot :: ending, none) else (stem, some ending) := by
  have hTail : ∀ c ∈ ending.reverse, (c != dot) = true := by
    intro c hc
    simpa using fun hDot : c = dot => h (hDot ▸ List.mem_reverse.1 hc)
  have hEnding : ((stem ++ dot :: ending).reverse.takeWhile (· != dot)).reverse = ending := by
    rw [List.reverse_append, List.reverse_cons, List.append_assoc, List.singleton_append,
      List.takeWhile_append_of_pos hTail, List.takeWhile_cons_of_neg (by simp), List.append_nil,
      List.reverse_reverse]
  have hStem : (stem ++ dot :: ending).length - ending.length - 1 = stem.length := by
    simp only [List.length_append, List.length_cons]
    omega
  simp only [splitExtension, hEnding, hStem, List.take_left]
  by_cases hNil : stem = [] <;> simp [hNil]
  omega

/-- A name has the extension behind its last dot if something stands before that dot. -/
theorem splitExtension_eq_some_iff :
    splitExtension name = (stem, some ending) ↔
      name = stem ++ dot :: ending ∧ stem ≠ [] ∧ dot ∉ ending := by
  constructor
  · intro h
    by_cases hDot : dot ∈ name
    · obtain ⟨back, front, hReverse, hBack⟩ :=
        List.eq_append_cons_of_mem (List.mem_reverse.2 hDot)
      have hName : name = front.reverse ++ dot :: back.reverse := by
        rw [← List.reverse_reverse name, hReverse]
        simp
      rw [hName, splitExtension_append (by simpa using hBack)] at h
      split at h
      · cases h
      · next hFront =>
        cases h
        exact ⟨hName, hFront, by simpa using hBack⟩
    · rw [splitExtension_of_not_mem hDot] at h
      cases h
  · rintro ⟨rfl, hStem, hEnding⟩
    rw [splitExtension_append hEnding, if_neg hStem]

/-- The path with an extension behind its last name. -/
def adding? (p : FilePath) (ending : FileName) : Option FilePath :=
  match p.parent?, p.fileName? with
  | some directory, some name => some (directory.join ⟨name ++ dot :: ending⟩)
  | _, _ => none

/-- What has an extension behind it is a name. -/
theorem isName_adding (hStem : slash ∉ stem) (hFront : stem ≠ []) (hSlash : slash ∉ ending)
    (hSome : ending ≠ []) : IsName (stem ++ dot :: ending) := by
  have hStemLength := List.length_pos_of_ne_nil hFront
  have hEnding := List.length_pos_of_ne_nil hSome
  have hLength : 2 < (stem ++ dot :: ending).length := by
    rw [List.length_append, List.length_cons]
    omega
  constructor
  · simp only [List.mem_append, List.mem_cons, not_or]
    exact ⟨hStem, by decide, hSlash⟩
  · rw [isIdle, Bool.or_eq_false_iff, List.isEmpty_eq_false_iff, beq_eq_false_iff_ne]
    exact ⟨List.ne_nil_of_length_pos (by omega),
      fun hDot => absurd (congrArg List.length hDot) (by simp; omega)⟩
  · exact fun hUp => absurd (congrArg List.length hUp) (by simp; omega)

theorem IsName.isAbsolute (h : IsName name) : (⟨name⟩ : FilePath).isAbsolute = false :=
  isAbsolute_of_slash_not_mem h.not_slash

theorem IsName.extension? (h : IsName name) :
    (⟨name⟩ : FilePath).extension? = (splitExtension name).2 := by
  have hHere : (name == [dot]) = false := (Bool.or_eq_false_iff.1 h.not_idle).2
  simp [FilePath.extension?, fileName?, names, body, pieces_of_not_mem h.not_slash, h.isAbsolute,
    hHere, h.not_idle, h.not_up]

/-! ## Paths that are texts -/

/-- The bytes of the path are those of a text. -/
def IsText (p : FilePath) : Prop := ∃ text, p = ofString text

theorem IsText.ofString_text (h : p.IsText) : ofString p.text = p := by
  obtain ⟨text, rfl⟩ := h
  simp only [ofString, FilePath.text, Text.Utf8.ofString, Text.Utf8.decodeLossy_encode,
    String.toList_ofList]

theorem IsText.text?_eq (h : p.IsText) : p.text? = some p.text := if_pos h.ofString_text

theorem text?_of_not_isText (h : ¬p.IsText) : p.text? = none :=
  if_neg fun hText => h ⟨p.text, hText.symm⟩

end FilePath

end ModuleLoader
