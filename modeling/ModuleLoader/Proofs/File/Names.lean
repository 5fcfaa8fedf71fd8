import Mathlib.Data.List.Flatten
import ModuleLoader.Proofs.File.Path

/-! The names of absolute paths.  They are the pieces between the slashes that name something, and
they stay the same where names are put behind one slash each, where one path is looked at from
another one, and where a path is cut into its directory and its last name. -/

namespace ModuleLoader

namespace FilePath

variable {p q d : FilePath} {name : FileName} {names rest : List FileName} {a b : List UInt8}

/-- The pieces that name something. -/
def used (rest : List FileName) : List FileName := rest.filter fun piece => !isIdle piece

theorem used_append (rest rest' : List FileName) : used (rest ++ rest') = used rest ++ used rest' :=
  List.filter_append ..

theorem used_dropIdleEnd (rest : List FileName) : used (dropIdleEnd rest) = used rest := by
  have hDrop : ∀ rest : List FileName, used (rest.dropWhile isIdle) = used rest := by
    intro rest
    induction rest with
    | nil => rfl
    | cons piece rest ih =>
      by_cases hIdle : isIdle piece = true
      · rw [List.dropWhile_cons_of_pos hIdle, ih]
        simp [used, hIdle]
      · rw [List.dropWhile_cons_of_neg hIdle]
  have hReverse := congrArg List.reverse (hDrop rest.reverse)
  simpa [used, dropIdleEnd, List.filter_reverse] using hReverse

theorem used_eq_self (h : ∀ piece ∈ rest, isIdle piece = false) : used rest = rest :=
  List.filter_eq_self.2 fun piece hPiece => by simp [h piece hPiece]

theorem mem_names (h : name ∈ p.names) : slash ∉ name ∧ isIdle name = false := by
  obtain ⟨hMem, hIdle⟩ := List.mem_filter.1 h
  exact ⟨not_mem_of_mem_pieces (mem_pieces_of_mem_body hMem), by simpa using hIdle⟩

/-- In an absolute path the front is empty, so that nothing else is lost. -/
theorem names_of_isAbsolute (h : p.isAbsolute = true) : p.names = used (pieces p.bytes) := by
  obtain ⟨rest, hBytes⟩ := isAbsolute_iff.1 h
  have hIdle : isIdle [] = true := by decide
  simp [names, body, hBytes, pieces, h, used, hIdle]

/-! ## Names behind slashes -/

theorem pieces_append_names (a : List UInt8) (h : ∀ name ∈ names, slash ∉ name) :
    pieces (a ++ names.flatMap (slash :: ·)) = pieces a ++ names := by
  induction names generalizing a with
  | nil => simp
  | cons name rest ih =>
    obtain ⟨hName, hRest⟩ := List.forall_mem_cons.1 h
    rw [List.flatMap_cons, List.cons_append, pieces_append_slash, ih name hRest,
      pieces_of_not_mem hName, List.singleton_append]

theorem names_flatMap (hNames : names ≠ []) (h : ∀ name ∈ names, slash ∉ name) :
    (⟨names.flatMap (slash :: ·)⟩ : FilePath).names = used names := by
  have hAbsolute : (⟨names.flatMap (slash :: ·)⟩ : FilePath).isAbsolute = true := by
    obtain ⟨first, rest, rfl⟩ := List.exists_cons_of_ne_nil hNames
    exact isAbsolute_iff.2 ⟨_, rfl⟩
  have hPieces := pieces_append_names [] h
  have hIdle : isIdle [] = true := by decide
  rw [names_of_isAbsolute hAbsolute, show names.flatMap (slash :: ·) =
    [] ++ names.flatMap (slash :: ·) from rfl, hPieces]
  simp [used, pieces, hIdle]

/-- A path that is made of names has them. -/
theorem names_of_names (h : p.names ≠ []) :
    (⟨p.names.flatMap (slash :: ·)⟩ : FilePath).names = p.names := by
  rw [names_flatMap h fun name hName => (mem_names hName).1]
  exact used_eq_self fun name hName => (mem_names hName).2

theorem pieces_intercalate (hRest : rest ≠ []) (h : ∀ piece ∈ rest, slash ∉ piece) :
    pieces ([slash].intercalate rest) = rest := by
  obtain ⟨first, rest, rfl⟩ := List.exists_cons_of_ne_nil hRest
  obtain ⟨hFirst, hMore⟩ := List.forall_mem_cons.1 h
  have hText : [slash].intercalate (first :: rest) = first ++ rest.flatMap (slash :: ·) := by
    clear h hRest hFirst hMore
    induction rest generalizing first with
    | nil => simp
    | cons next rest ih =>
      rw [List.intercalate_cons_cons, ih, List.flatMap_cons]
      simp
  rw [hText, pieces_append_names first hMore, pieces_of_not_mem hFirst, List.singleton_append]

/-- The pieces behind a slash each are the bytes behind a slash. -/
theorem flatMap_pieces (bytes : List UInt8) :
    (pieces bytes).flatMap (slash :: ·) = slash :: bytes := by
  induction bytes with
  | nil => rfl
  | cons b bytes ih =>
    obtain ⟨piece, more, hPieces⟩ := List.exists_cons_of_ne_nil (pieces_ne_nil bytes)
    rw [hPieces, List.flatMap_cons, List.cons_append, List.cons.injEq] at ih
    by_cases hSlash : b = slash
    · simp [pieces, hSlash, hPieces, ih.2]
    · simp [pieces, hSlash, hPieces, ih.2]

/-- The names of an absolute path behind a slash each are some of its bytes. -/
theorem sublist_bytes (h : p.isAbsolute = true) : (p.names.flatMap (slash :: ·)).Sublist p.bytes := by
  obtain ⟨rest, hBytes⟩ := isAbsolute_iff.1 h
  have hIdle : isIdle [] = true := by decide
  have hNames : p.names = used (pieces rest) := by
    rw [names_of_isAbsolute h, hBytes]
    simp [used, pieces, hIdle]
  rw [hNames, hBytes, ← flatMap_pieces rest]
  exact List.Sublist.flatMap List.filter_sublist _

/-! ## One path as seen from another -/

theorem join_of_isAbsolute {q : FilePath} (h : q.isAbsolute = true) (p : FilePath) :
    p.join q = q := by
  simp [join, h]

theorem IsText.join {q : FilePath} (hp : p.IsText) (hq : q.IsText) : (p.join q).IsText := by
  obtain ⟨s, rfl⟩ := hp
  obtain ⟨t, rfl⟩ := hq
  have hAppend : ∀ s t : String,
      (ofString s).bytes ++ (ofString t).bytes = (ofString (s ++ t)).bytes := by
    simp [ofString, Text.Utf8.ofString, Text.Utf8.encode]
  have hSlash : [slash] = (ofString "/").bytes := rfl
  unfold FilePath.join
  split
  · exact ⟨t, rfl⟩
  · split
    · exact ⟨s ++ t, by rw [hAppend]⟩
    · exact ⟨s ++ ("/" ++ t), by rw [← List.singleton_append, hSlash, hAppend, hAppend]⟩

theorem isAbsolute_join_of_not (hd : d.isAbsolute = true) (q : FilePath) :
    (d.join q).isAbsolute = true := by
  obtain ⟨rest, hBytes⟩ := isAbsolute_iff.1 hd
  unfold join
  split
  · assumption
  · split <;> simp [isAbsolute_iff, hBytes]

/-- The names of a relative path come behind those of the directory. -/
theorem names_join (hd : d.isAbsolute = true) (hq : q.isAbsolute = false) :
    (d.join q).names = d.names ++ used (pieces q.bytes) := by
  have hSome := ne_nil_of_isAbsolute hd
  rw [names_of_isAbsolute (isAbsolute_join_of_not hd q), names_of_isAbsolute hd]
  by_cases hLast : d.bytes.getLast? = some slash
  · obtain ⟨front, hFront⟩ := List.getLast?_eq_some_iff.1 hLast
    have hIdle : isIdle [] = true := by decide
    have hJoin : (d.join q).bytes = front ++ slash :: q.bytes := by
      simp [join, hq, hFront]
    rw [hJoin, hFront, pieces_append_slash, pieces_append_slash, used_append, used_append]
    simp [used, pieces, hIdle]
  · have hJoin : (d.join q).bytes = d.bytes ++ slash :: q.bytes := by
      simp [join, hq, hSome, hLast]
    rw [hJoin, pieces_append_slash, used_append]

theorem names_join_name (hd : d.isAbsolute = true) (h : IsName name) :
    (d.join ⟨name⟩).names = d.names ++ [name] := by
  rw [names_join hd h.isAbsolute, pieces_of_not_mem h.not_slash]
  simp [used, h.not_idle]

/-! ## The directory and the last name -/

theorem subset_dropIdleEnd (rest : List FileName) : dropIdleEnd rest ⊆ rest := fun _ hPiece =>
  List.mem_reverse.1 ((List.dropWhile_sublist _).subset (List.mem_reverse.1 hPiece))

theorem isIdle_of_getLast?_dropIdleEnd (h : (dropIdleEnd rest).getLast? = some name) :
    isIdle name = false := by
  rw [dropIdleEnd, List.getLast?_reverse] at h
  obtain ⟨tail, hTail⟩ := List.head?_eq_some_iff.1 h
  have hHead := List.head_dropWhile_not (p := isIdle) (l := rest.reverse) (by simp [hTail])
  simpa only [hTail, List.head_cons] using hHead

theorem names_ofBody (h : ∀ piece ∈ rest, slash ∉ piece) :
    (ofBody (some []) rest).names = used rest := by
  have hAbsolute : (ofBody (some []) rest).isAbsolute = true := rfl
  have hBytes : (ofBody (some []) rest).bytes = slash :: [slash].intercalate rest := rfl
  have hIdle : isIdle [] = true := by decide
  rw [names_of_isAbsolute hAbsolute, hBytes]
  by_cases hNil : rest = []
  · rw [hNil]
    decide
  · simp [pieces, pieces_intercalate hNil h, used, hIdle]

/-- The directory has all names but the last one. -/
theorem exists_names_parent (hp : p.isAbsolute = true) (h : p.parent? = some d) :
    ∃ last, p.names = d.names ++ [last] := by
  obtain ⟨bytes, hBytes⟩ := isAbsolute_iff.1 hp
  have hBody : p.body = (some [], pieces bytes) := by simp [body, hBytes, pieces, hp]
  have hNames : p.names = used (dropIdleEnd (pieces bytes)) := by
    rw [used_dropIdleEnd]
    simp [names, hBody, used]
  have hFront : (some ([] : FileName) == some [dot]) = false := by decide
  simp only [parent?, hBody, hFront] at h
  rw [hNames]
  rcases List.eq_nil_or_concat (dropIdleEnd (pieces bytes)) with hNil | ⟨front, last, hLast⟩
  · simp [hNil] at h
  · rw [List.concat_eq_append] at hLast
    have hIdle : isIdle last = false :=
      isIdle_of_getLast?_dropIdleEnd (show (dropIdleEnd (pieces bytes)).getLast? = some last by
        rw [hLast]
        simp)
    have hSlash : ∀ piece ∈ dropIdleEnd front, slash ∉ piece := by
      intro piece hPiece
      have hMem : piece ∈ dropIdleEnd (pieces bytes) := by
        rw [hLast]
        exact List.mem_append_left _ (subset_dropIdleEnd front hPiece)
      exact not_mem_of_mem_pieces (subset_dropIdleEnd _ hMem)
    have hDirectory : d = ofBody (some []) (dropIdleEnd front) := by
      rw [hLast] at h
      simpa using h.symm
    have hSelf : used [last] = [last] := used_eq_self (by simpa using hIdle)
    refine ⟨last, ?_⟩
    rw [hDirectory, names_ofBody hSlash, used_dropIdleEnd front, hLast, used_append, hSelf]

theorem names_parent (hp : p.isAbsolute = true) (hParent : p.parent? = some d)
    (hName : p.fileName? = some name) : p.names = d.names ++ [name] := by
  obtain ⟨last, hNames⟩ := exists_names_parent hp hParent
  unfold fileName? at hName
  rw [hNames, List.getLast?_concat] at hName
  dsimp only at hName
  split at hName
  · cases hName
  · cases hName
    exact hNames

end FilePath

end ModuleLoader
