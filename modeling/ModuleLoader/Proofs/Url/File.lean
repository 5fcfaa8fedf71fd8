import ModuleLoader.Proofs.File.Path
import ModuleLoader.Resolution

/-! The URLs of files.  What a path means in a file is the URL of a file, because paths have no scheme
of their own, and the path that a URL names is absolute. -/

namespace ModuleLoader.Url

variable {base u : Url} {text rest : List Char} {reference : String} {path : FilePath}

theorem names?_eq_of_path {names : List String} (hPath : u.path = .segments names)
    (hSome : names ≠ []) : u.names? = some names := by
  obtain ⟨name, rest, rfl⟩ := List.exists_cons_of_ne_nil hSome
  simp [names?, hPath]

/-! ## Reading files -/

/-- The text behind a path changes the query and the fragment, and nothing else. -/
theorem withRest_eq (u : Url) (rest : List Char) :
    ∃ query fragment, withRest u rest = { u with query, fragment } := by
  unfold withRest
  split
  · dsimp only
    split
    · exact ⟨_, _, rfl⟩
    · exact ⟨_, _, rfl⟩
  · exact ⟨_, _, rfl⟩
  · exact ⟨_, _, rfl⟩

@[simp] theorem withRest_scheme (u : Url) (rest : List Char) :
    (withRest u rest).scheme = u.scheme := by
  obtain ⟨query, fragment, hRest⟩ := withRest_eq u rest
  rw [hRest]

@[simp] theorem withRest_path (u : Url) (rest : List Char) : (withRest u rest).path = u.path := by
  obtain ⟨query, fragment, hRest⟩ := withRest_eq u rest
  rw [hRest]

@[simp] theorem withRest_host? (u : Url) (rest : List Char) : (withRest u rest).host? = u.host? := by
  obtain ⟨query, fragment, hRest⟩ := withRest_eq u rest
  rw [hRest, host?, host?]

@[simp] theorem withFragment_scheme (u : Url) (text : List Char) :
    (withFragment u text).scheme = u.scheme := rfl

@[simp] theorem fileUrl_scheme (host : Option UrlHost) (names : List String) :
    (fileUrl host names).scheme = "file" := rfl

@[simp] theorem fileUrl_host? (host : Option UrlHost) (names : List String) :
    (fileUrl host names).host? = host := rfl

theorem splitPath_sublist (text : List Char) : (splitPath text).1.Sublist text :=
  List.takeWhile_sublist _

/-- The rest of a text behind the host of a file. -/
theorem sublist_of_takeFileHost {host : Option UrlHost} (h : takeFileHost text = .ok (host, rest)) :
    rest.Sublist text := by
  unfold takeFileHost at h
  simp only [bind, Except.bind, pure, Except.pure] at h
  split at h
  · cases h
    exact List.Sublist.refl _
  split at h
  · cases h
    exact List.drop_sublist _ _
  split at h
  · cases h
  · cases h
    exact List.drop_sublist _ _

/-- What is read behind the two slashes of a file: the names of a path and what stands behind it, both
out of the text. -/
theorem eq_of_parseFileAuthority (h : parseFileAuthority text = .ok u) :
    ∃ host rest path, rest.Sublist text ∧ path.Sublist (splitPath rest).1 ∧
      u = withRest (fileUrl host (addPieces .file [] (SchemeKind.file.pieces path)))
        (splitPath rest).2 := by
  unfold parseFileAuthority at h
  simp only [bind, Except.bind, pure, Except.pure] at h
  cases hTake : takeFileHost text with
  | error reason => simp [hTake] at h
  | ok found =>
    obtain ⟨host, rest⟩ := found
    have hRest := sublist_of_takeFileHost hTake
    simp only [hTake] at h
    cases host with
    | none => exact ⟨none, rest, _, hRest, .refl _, (Except.ok.inj h).symm⟩
    | some host => exact ⟨_, rest, _, hRest, List.tail_sublist _, (Except.ok.inj h).symm⟩

theorem parseFileAuthority_scheme (h : parseFileAuthority text = .ok u) : u.scheme = "file" := by
  obtain ⟨host, rest, path, -, -, rfl⟩ := eq_of_parseFileAuthority h
  rw [withRest_scheme, fileUrl_scheme]

theorem parseFileRoot_scheme (from? : Option Url) (text : List Char) :
    (parseFileRoot from? text).scheme = "file" := by
  simp [parseFileRoot]

theorem parseFileRelative_scheme {from? : Option Url} (h : ∀ b ∈ from?, b.scheme = "file")
    (text : List Char) : (parseFileRelative from? text).scheme = "file" := by
  unfold parseFileRelative
  dsimp only
  split
  · simp
  · simpa using h
  · simpa using h
  · simpa using h
  · split
    · simp
    · simpa using h

theorem parseFile_scheme {from? : Option Url} (hFrom : ∀ b ∈ from?, b.scheme = "file")
    (h : parseFile from? text = .ok u) : u.scheme = "file" := by
  unfold parseFile at h
  dsimp only at h
  split at h
  · rw [← Except.ok.inj h, parseFileRelative_scheme hFrom]
  split at h
  · rw [← Except.ok.inj h, parseFileRelative_scheme hFrom]
  split at h
  · rw [← Except.ok.inj h, parseFileRoot_scheme]
  split at h
  · exact parseFileAuthority_scheme h
  · rw [← Except.ok.inj h, parseFileRoot_scheme]

/-! ## The front of a reference -/

/-- Trimming takes nothing from a front that neither starts nor ends in a blank. -/
theorem trimEnds_append (word : List Char) {first last : Char} (hHead : word.head? = some first)
    (hFirst : 0x20 < first.toNat) (hEnd : word.getLast? = some last) (hLast : 0x20 < last.toNat)
    (rest : List Char) : ∃ trimmed, trimEnds (word ++ rest) = word ++ trimmed := by
  obtain ⟨tail, rfl⟩ := List.head?_eq_some_iff.1 hHead
  obtain ⟨front, hFront⟩ := List.getLast?_eq_some_iff.1 hEnd
  have hReverse : (first :: tail).reverse = last :: front.reverse := by simp [hFront]
  refine ⟨(rest.reverse.dropWhile fun c => c.toNat ≤ 0x20).reverse, ?_⟩
  simp only [trimEnds]
  rw [List.cons_append, List.dropWhile_cons_of_neg (by simpa using hFirst), ← List.cons_append,
    List.reverse_append, List.dropWhile_append, hReverse]
  split
  · next hNil =>
    rw [List.dropWhile_cons_of_neg (by simpa using hLast), ← hReverse, List.reverse_reverse,
      List.isEmpty_iff.1 hNil, List.reverse_nil, List.append_nil]
  · rw [List.reverse_append, ← hReverse, List.reverse_reverse]

theorem dropBreaks_append {word : List Char} (hWord : word.all (!isBreak ·) = true)
    (rest : List Char) : dropBreaks (word ++ rest) = word ++ dropBreaks rest := by
  rw [dropBreaks, List.filter_append, List.filter_eq_self.2 (List.all_eq_true.1 hWord)]
  rfl

/-- A path starts with a character that starts no scheme. -/
theorem front_of_isPath (h : Resolution.isPath reference = true) :
    ∃ c rest, dropBreaks (trimEnds reference.toList) = c :: rest ∧ c ≠ '#' ∧ c.isAlpha = false := by
  have hFront : ∃ c rest, reference.toList = c :: rest ∧ (c = '/' ∨ c = '.') := by
    unfold Resolution.isPath at h
    split at h
    all_goals first | exact ⟨_, _, ‹_›, by simp⟩ | cases h
  obtain ⟨c, rest, hText, hChar⟩ := hFront
  have hShown : 0x20 < c.toNat := by rcases hChar with rfl | rfl <;> decide
  obtain ⟨trimmed, hTrim⟩ := trimEnds_append [c] rfl hShown rfl hShown rest
  refine ⟨c, dropBreaks trimmed, ?_, ?_, ?_⟩
  · rw [hText, ← List.singleton_append, hTrim, dropBreaks_append]
    · rfl
    · rcases hChar with rfl | rfl <;> decide
  · rcases hChar with rfl | rfl <;> decide
  · rcases hChar with rfl | rfl <;> decide

/-- The scheme that a reference to a file starts with. -/
theorem scheme?_of_isFileUrl (h : Resolution.isFileUrl reference = true) :
    ∃ rest, scheme? (dropBreaks (trimEnds reference.toList)) = some ("file", rest) := by
  obtain ⟨rest, hText⟩ : "file:".toList <+: reference.toList := String.startsWith_string_iff.1 h
  obtain ⟨trimmed, hTrim⟩ :=
    trimEnds_append "file:".toList rfl (by decide) rfl (by decide) rest
  refine ⟨dropBreaks trimmed, ?_⟩
  rw [← hText, hTrim, dropBreaks_append (by decide)]
  rfl

/-- In a file, a path is read as one, if the file has a path. -/
theorem join_of_isPath (hBase : base.scheme = "file") (h : Resolution.isPath reference = true) :
    join base reference = match base.path with
      | .plain _ => .error .relativeToUnstructuredBase
      | .segments _ => parseFile (some base) (trimEnds reference.toList) := by
  have hKind : SchemeKind.ofScheme "file" = .file := rfl
  obtain ⟨c, rest, hText, hMark, hAlpha⟩ := front_of_isPath h
  have hNone : scheme? (c :: rest) = none := by simp [scheme?, hAlpha]
  unfold join parseAgainst
  cases hPath : base.path with
  | plain =>
    simp only [hText, hNone, hPath]
    split
    · next hHash => exact absurd (List.cons.inj hHash).1 hMark
    · rfl
    · next hSegments _ => cases hSegments
  | segments =>
    simp only [hText, hNone, hPath, hBase, hKind]
    split
    · next hHash => exact absurd (List.cons.inj hHash).1 hMark
    · next hPlain _ => cases hPlain
    · rfl

/-- In a file, a path and the URL of a file mean a file. -/
theorem scheme_of_join (hBase : base.scheme = "file")
    (hFile : Resolution.isPath reference = true ∨ Resolution.isFileUrl reference = true)
    (h : join base reference = .ok u) : u.scheme = "file" := by
  rcases hFile with hPath | hUrl
  · rw [join_of_isPath hBase hPath] at h
    split at h
    · cases h
    · exact parseFile_scheme (by simpa using hBase) h
  · have hKind : SchemeKind.ofScheme "file" = .file := rfl
    obtain ⟨rest, hScheme⟩ := scheme?_of_isFileUrl hUrl
    unfold join parseAgainst at h
    simp only [hScheme, parseWithScheme, hKind] at h
    exact parseFile_scheme (by simp) h

/-! ## The file of a URL -/

theorem prefix_closeDrive (bytes : List UInt8) : bytes <+: closeDrive bytes := by
  unfold closeDrive
  split
  · split
    · exact List.prefix_append ..
    · exact List.prefix_rfl
  · exact List.prefix_rfl

/-- What a URL names is an absolute path. -/
theorem isAbsolute_of_toFilePath? (h : u.toFilePath? = some path) : path.isAbsolute = true := by
  unfold toFilePath? names? at h
  cases hPath : u.path with
  | plain text => simp [hPath] at h
  | segments names =>
    cases names with
    | nil => simp [hPath] at h
    | cons name names =>
      simp only [hPath] at h
      split at h
      · cases h
        obtain ⟨rest, hRest⟩ := prefix_closeDrive
          ((name :: names).flatMap fun name => FilePath.slash :: decode name.toList)
        rw [FilePath.isAbsolute_iff, ← hRest]
        exact ⟨_, rfl⟩
      · cases h

theorem exists_ofFilePath? (h : path.isAbsolute = true) : ∃ v, ofFilePath? path = some v := by
  simp [ofFilePath?, h]

theorem isAbsolute_of_ofFilePath? (h : ofFilePath? path = some u) : path.isAbsolute = true := by
  unfold ofFilePath? at h
  split at h
  · assumption
  · cases h

end ModuleLoader.Url
