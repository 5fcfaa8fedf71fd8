import ModuleLoader.Proofs.Url.Made

/-! The URLs of files that are read, with any host.  All their parts are written with the escapes that
they need, so that the text of such a URL reads as the URL again, if no drive stands at its front and
the text of its host reads as that host. -/

namespace ModuleLoader.Url

variable {P : String → Prop} {allowed : Char → Prop} {u base : Url} {names : List String}
  {text rest : List Char} {host : UrlHost}

/-- The URL of a file as it is read, with names that have the property. -/
structure IsRead (P : String → Prop) (u : Url) : Prop where
  scheme : u.scheme = "file"
  authority : u.authority = some { host := u.host? }
  path : ∃ names, u.path = .segments names ∧ trimNames names = names ∧ IsMade P names.reverse
  query : ∀ query ∈ u.query, ∀ c ∈ query.toList, isWritten escapesInSpecialQuery c = true
  fragment : ∀ fragment ∈ u.fragment, ∀ c ∈ fragment.toList, isWritten escapesInFragment c = true

/-- All characters of the text are allowed, up to slashes. -/
def IsAllowed (allowed : Char → Prop) (text : List Char) : Prop :=
  ∀ c ∈ text, SchemeKind.file.isSlash c = false → allowed c

theorem IsAllowed.mono (h : IsAllowed allowed text) (hSub : rest ⊆ text) : IsAllowed allowed rest :=
  fun c hc => h c (hSub hc)

theorem IsAllowed.pieces (h : IsAllowed allowed text) :
    ∀ piece ∈ SchemeKind.file.pieces text, ∀ c ∈ piece, allowed c := fun _ hPiece c hc =>
  h c (of_mem_pieces hPiece hc).1 (of_mem_pieces hPiece hc).2

theorem IsAllowed.splitPath (h : IsAllowed allowed text) : IsAllowed allowed (splitPath text).1 :=
  h.mono (List.takeWhile_sublist _).subset

/-! ## The parts -/

namespace IsRead

theorem withEnd {query fragment : Option String} (h : u.IsRead P)
    (hQuery : ∀ text ∈ query, ∀ c ∈ text.toList, isWritten escapesInSpecialQuery c = true)
    (hFragment : ∀ text ∈ fragment, ∀ c ∈ text.toList, isWritten escapesInFragment c = true) :
    ({ u with query, fragment } : Url).IsRead P :=
  ⟨h.scheme, h.authority, h.path, hQuery, hFragment⟩

theorem withFragment (h : u.IsRead P) (text : List Char) : (withFragment u text).IsRead P :=
  h.withEnd h.query (written_fragment _)

theorem withRest (h : u.IsRead P) (rest : List Char) : (withRest u rest).IsRead P := by
  obtain ⟨query, fragment, hRest, hQuery, hFragment⟩ := withRest_written h.scheme rest
  rw [hRest]
  exact h.withEnd hQuery hFragment

variable (hP : Covers P allowed)
include hP

theorem withPath (h : u.IsRead P) (hNames : IsMade P names.reverse) :
    ({ u with path := .segments (trimNames names) } : Url).IsRead P :=
  ⟨h.scheme, h.authority, ⟨_, rfl, trimNames_trimNames names, hNames.trimNames hP⟩, h.query,
    h.fragment⟩

theorem fileUrl (host : Option UrlHost) (hNames : IsMade P names.reverse) :
    (fileUrl host names).IsRead P :=
  ⟨rfl, rfl, ⟨_, rfl, trimNames_trimNames names, hNames.trimNames hP⟩, nofun, nofun⟩

end IsRead

/-! ## What is read -/

section Reading

variable (hP : Covers P allowed)
include hP

theorem read_parseFileAuthority (hText : IsAllowed allowed text)
    (h : parseFileAuthority text = .ok u) : u.IsRead P := by
  obtain ⟨host, rest, path, hRest, hPath, rfl⟩ := eq_of_parseFileAuthority h
  have hAllowed : IsAllowed allowed path :=
    hText.mono (hPath.trans ((splitPath_sublist rest).trans hRest)).subset
  exact (IsRead.fileUrl hP host (IsMade.nil.addPieces hP hAllowed.pieces)).withRest _

theorem read_parseFileRoot (from? : Option Url) (hText : IsAllowed allowed text) :
    (parseFileRoot from? text).IsRead P := by
  unfold parseFileRoot
  dsimp only
  refine (IsRead.fileUrl hP _ (IsMade.addPieces hP ?_ hText.splitPath.pieces)).withRest _
  split
  · split
    · next hDrive => exact IsMade.nil.cons (hP.drive hDrive) (isDots_drive hDrive)
    · exact .nil
  · exact .nil

theorem read_parseFileRelative {from? : Option Url} (hFrom : ∀ b ∈ from?, b.IsRead P)
    (hText : IsAllowed allowed text) : (parseFileRelative from? text).IsRead P := by
  have hPieces := hText.splitPath.pieces
  have hAlone := (IsRead.fileUrl hP none (IsMade.nil.addPieces hP hPieces)).withRest
    (splitPath text).2
  unfold parseFileRelative
  dsimp only
  split
  · exact hAlone
  · next b => exact (hFrom b rfl).withEnd (hFrom b rfl).query nofun
  · next b _ => exact (hFrom b rfl).withRest _
  · next b _ => exact (hFrom b rfl).withFragment _
  · next b _ _ _ =>
    have hb : b.IsRead P := hFrom b rfl
    split
    · exact hAlone
    · refine (hb.withPath hP (IsMade.fileNamesFrom hP ?_ hPieces)).withRest _
      obtain ⟨names, hPath, -, hMade⟩ := hb.path
      cases names with
      | nil => simpa [names?, hPath] using hMade
      | cons name more => simpa [names?, hPath] using hMade

theorem read_parseFile {from? : Option Url} (hFrom : ∀ b ∈ from?, b.IsRead P)
    (hText : IsAllowed allowed text) (h : parseFile from? text = .ok u) : u.IsRead P := by
  unfold parseFile at h
  dsimp only at h
  have hDrop : text.dropWhile isBreak ⊆ text := (List.dropWhile_sublist _).subset
  split at h
  · cases h
    exact read_parseFileRelative hP hFrom (by simp [IsAllowed])
  · next first rest hFirst =>
    rw [hFirst] at hDrop
    have hRest : rest ⊆ text := List.Subset.trans (List.subset_cons_self _ _) hDrop
    have hBehind : rest.dropWhile isBreak ⊆ text :=
      List.Subset.trans (List.dropWhile_sublist _).subset hRest
    split at h
    · cases h
      exact read_parseFileRelative hP hFrom (hText.mono hDrop)
    split at h
    · cases h
      exact read_parseFileRoot hP from? (by simp [IsAllowed])
    · next second tail hSecond =>
      rw [hSecond] at hBehind
      split at h
      · have hTail : tail ⊆ text := List.Subset.trans (List.subset_cons_self _ _) hBehind
        exact read_parseFileAuthority hP (hText.mono hTail) h
      · cases h
        exact read_parseFileRoot hP from? (hText.mono hRest)

/-- What is read as the URL of a file in a base that is read. -/
theorem read_parseAgainst {from? : Option Url} {input : String}
    (hFrom : ∀ b ∈ from?, b.scheme = "file" → b.IsRead P) (hInput : IsAllowed allowed input.toList)
    (h : parseAgainst from? input = .ok u) (hScheme : u.scheme = "file") : u.IsRead P := by
  have hWritten : IsAllowed allowed (trimEnds input.toList) := hInput.mono (sublist_trimEnds _).subset
  have hKind : SchemeKind.ofScheme "file" = .file := rfl
  unfold parseAgainst at h
  dsimp only at h
  split at h
  · next scheme _ _ =>
    have hFile := ofScheme_of_parseWithScheme h hScheme
    have hBehind : IsAllowed allowed ((trimEnds input.toList).dropWhile (· != ':')).tail :=
      hWritten.mono ((List.tail_sublist _).trans (List.dropWhile_sublist _)).subset
    unfold parseWithScheme at h
    simp only [hFile] at h
    refine read_parseFile hP (fun b hb => ?_) hBehind h
    obtain ⟨hMem, hSame⟩ := Option.filter_eq_some_iff.1 hb
    exact hFrom b hMem (by simpa using hSame)
  · cases h
  · next b _ =>
    split at h
    · cases h
      exact (hFrom b rfl hScheme).withFragment _
    · cases h
    · split at h
      · next hFile =>
        refine read_parseFile hP (fun b hb => ?_) hWritten h
        obtain rfl := Option.some.inj hb
        exact hFrom _ rfl (kind_eq_file hFile)
      · next hOther =>
        rw [scheme_parseRelative h] at hScheme
        exact absurd (hScheme ▸ hKind) hOther

end Reading

/-! ## Reading back -/

/-- The text of the host, behind which the path starts, reads as the host. -/
def KeepsHost (u : Url) : Prop :=
  ∀ host ∈ u.host?, takeFileHost (host.text.toList ++ ['/']) = .ok (some host, ['/'])

/-- The path starts with a name that is not a drive. -/
def IsDriveless (u : Url) : Prop :=
  ∀ first ∈ u.names?.bind List.head?, isDrive first.toList = false

namespace IsRead

/-- The text of a URL that is read: its host, its names, and the rest. -/
theorem toList_text (h : u.IsRead P) (hNames : u.path = .segments names) :
    u.text.toList = "file://".toList ++ (((u.host?.map UrlHost.text).getD "").toList ++
      (namesText names ++ u.restText)) := by
  have hHost : ({ host := u.host? } : UrlAuthority).text = (u.host?.map UrlHost.text).getD "" := by
    simp [UrlAuthority.text]
  rw [toList_text_of_file h.scheme h.authority hNames, hHost]

theorem each (h : u.IsRead P) (hNames : u.path = .segments names) : ∀ name ∈ names, P name := by
  obtain ⟨_, hPath, -, hMade⟩ := h.path
  cases hNames.symm.trans hPath
  exact fun name hName => hMade.each name (List.mem_reverse.2 hName)

theorem front (h : u.IsRead P) (hNames : u.path = .segments names) : trimNames names = names := by
  obtain ⟨_, hPath, hTrim, -⟩ := h.path
  cases hNames.symm.trans hPath
  exact hTrim

theorem isLocal (h : u.IsRead P) (hP : ∀ name, P name → IsWord name)
    (hNames : u.path = .segments names) : ({ u with authority := some {} } : Url).IsLocal names :=
  ⟨h.scheme, rfl, hNames, h.front hNames, fun name hName => hP name (h.each hNames name hName),
    h.query, h.fragment⟩

/-- Its names are steady, unless the path starts with a drive. -/
theorem steady (h : u.IsRead P) (hP : ∀ name, P name → IsWord name) (hDrive : u.IsDriveless)
    (hNames : u.path = .segments names) : ∀ name ∈ names, IsSteady name := by
  obtain ⟨first, rest, rfl⟩ := List.exists_cons_of_ne_nil (h.isLocal hP hNames).ne_nil
  have hFirst : isDrive first.toList = false := hDrive first (by simp [names?, hNames])
  intro name hName
  refine ⟨hP name (h.each hNames name hName), ?_⟩
  obtain ⟨_, hPath, -, hMade⟩ := h.path
  cases hNames.symm.trans hPath
  rcases hMade.orderly with hStill | ⟨drive, hLast, hColon⟩
  · exact hStill name (List.mem_reverse.2 hName)
  · obtain rfl : first = drive := by simpa using hLast
    obtain ⟨letter, hLetter, hText⟩ := exists_of_isColonDrive hColon
    simp [hText, isDrive, isDriveMark, hLetter] at hFirst

theorem lt_of_getLast?_text (h : u.IsRead P) (hP : ∀ name, P name → IsWord name) :
    ∀ c ∈ u.text.toList.getLast?, 0x20 < c.toNat := by
  obtain ⟨names, hPath, -⟩ := h.path
  have hLocal := h.isLocal hP hPath
  obtain ⟨first, rest, rfl⟩ := List.exists_cons_of_ne_nil hLocal.ne_nil
  have hBehind : namesText (first :: rest) ++ u.restText =
      '/' :: (first.toList ++ namesText rest ++ u.restText) := by
    simp [namesText]
  intro c hc
  rw [h.toList_text hPath, hBehind, ← List.append_assoc, List.getLast?_append_cons,
    ← hBehind] at hc
  rcases List.mem_append.1 (List.mem_of_getLast? hc) with hc | hc
  · rcases hLocal.of_mem_namesText hc with rfl | hWritten
    · decide
    · exact escapesBlanks_path.lt hWritten
  · exact hLocal.lt_of_mem_restText hc

/-- Behind a host, the names are read one by one, too. -/
theorem parseFileAuthority_host (h : u.IsRead P) (hP : ∀ name, P name → IsWord name)
    (hKept : u.KeepsHost) (hDrive : u.IsDriveless) (hPath : u.path = .segments names)
    (hHost : u.host? = some host) :
    parseFileAuthority (host.text.toList ++ (namesText names ++ u.restText)) = .ok u := by
  have hLocal := h.isLocal hP hPath
  have hSteady := h.steady hP hDrive hPath
  obtain ⟨first, rest, rfl⟩ := List.exists_cons_of_ne_nil hLocal.ne_nil
  obtain ⟨hFirst, hRest⟩ := List.forall_mem_cons.1 hSteady
  have hFront : isDrive first.toList = false := hDrive first (by simp [names?, hPath])
  have hBehind : namesText (first :: rest) ++ u.restText =
      '/' :: (first.toList ++ namesText rest ++ u.restText) := by
    simp [namesText]
  have hSplit : splitPath (namesText (first :: rest) ++ u.restText) =
      (namesText (first :: rest), u.restText) :=
    splitPath_append (fun c hc => hLocal.endsPath_of_mem hc) (head?_restText u)
  have hPieces : SchemeKind.file.pieces (namesText (first :: rest)).tail =
      (first :: rest).map String.toList :=
    pieces_append_namesText hFirst.isPiece fun name hName => (hRest name hName).isPiece
  have hHead : ∀ piece ∈ ((first :: rest).map String.toList).head?, isDrive piece = false := by
    rintro piece hPiece
    cases hPiece
    exact hFront
  have hReaches := reachesDrive_still (still_of_steady hSteady) (.inr hHead : [] ≠ [] ∨ _)
  have hNames : addPieces .file [] ((first :: rest).map String.toList) = first :: rest :=
    addPieces_steady hSteady (.inr (by simpa using hFront))
  have hSelf : u = { Url.fileUrl (some host) (first :: rest) with
      query := u.query, fragment := u.fragment } := by
    rw [Url.fileUrl, hLocal.front, ← hHost, ← h.authority, ← hPath, ← h.scheme]
  have hWithRest : Url.withRest (Url.fileUrl (some host) (first :: rest)) u.restText = u :=
    (hLocal.withRest_restText rfl).trans hSelf.symm
  have hSlash : ∃ c ∈ host.text.toList ++ ['/'], SchemeKind.file.isSlash c = true :=
    ⟨'/', by simp, by decide⟩
  obtain ⟨hTake, -⟩ := takeFileHost_append hSlash (hKept host hHost)
    (first.toList ++ namesText rest ++ u.restText)
  rw [List.append_assoc, List.singleton_append, ← hBehind] at hTake
  rw [parseFileAuthority, hTake]
  simp only [bind, Except.bind, pure, Except.pure, hSplit, hPieces, hReaches, hNames,
    Bool.false_eq_true, if_false, hWithRest]

/-- The text of a URL that is read is read back as the URL, whatever URL it is read against. -/
theorem parseAgainst_text (h : u.IsRead P) (hP : ∀ name, P name → IsWord name)
    (hKept : u.KeepsHost) (hDrive : u.IsDriveless) (from? : Option Url) :
    parseAgainst from? u.text = .ok u := by
  obtain ⟨names, hPath, -⟩ := h.path
  have hText := h.toList_text hPath
  cases hHost : u.host? with
  | none =>
    have hAuthority : u.authority = some {} := by rw [h.authority, hHost]
    have hLocal := h.isLocal hP hPath
    have hSelf : ({ u with authority := some {} } : Url) = u := by rw [← hAuthority]
    rw [hSelf] at hLocal
    exact IsSettled.parseAgainst_text
      ⟨names, hLocal, fun name hName => (h.steady hP hDrive hPath name hName).still⟩ from?
  | some host =>
    rw [hHost, Option.map_some, Option.getD_some] at hText
    rw [parseAgainst_fileText hText (h.lt_of_getLast?_text hP),
      h.parseFileAuthority_host hP hKept hDrive hPath hHost]

end IsRead

end ModuleLoader.Url
