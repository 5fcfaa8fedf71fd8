import ModuleLoader.Proofs.Url.File
import ModuleLoader.Proofs.Url.Names

/-! The URLs of local files.  If no name of the path stands for a directory, the text of such a URL
is read back as the URL, and that is so for everything that the parser makes of a text without tabs
and newlines. -/

namespace ModuleLoader.Url

/-- The URL of a local file, each part of which is written with the escapes that it needs. -/
structure IsLocal (u : Url) (names : List String) : Prop where
  scheme : u.scheme = "file"
  authority : u.authority = some {}
  path : u.path = .segments names
  front : trimNames names = names
  words : ∀ name ∈ names, IsWord name
  query : ∀ query ∈ u.query, ∀ c ∈ query.toList, isWritten escapesInSpecialQuery c = true
  fragment : ∀ fragment ∈ u.fragment, ∀ c ∈ fragment.toList, isWritten escapesInFragment c = true

/-- The URL of a local file in whose path no name stands for a directory. -/
def IsSettled (u : Url) : Prop := ∃ names, u.IsLocal names ∧ ∀ name ∈ names, isDots name = false

/-- The text of the query and the fragment with their marks. -/
def restText (u : Url) : List Char :=
  (match u.query with
    | none => []
    | some query => '?' :: query.toList) ++
  (match u.fragment with
    | none => []
    | some fragment => '#' :: fragment.toList)

variable {base u v : Url} {names : List String} {text rest : List Char} {c : Char}

/-! ## The text -/

theorem trimEnds_eq (hHead : ∀ c ∈ text.head?, 0x20 < c.toNat)
    (hLast : ∀ c ∈ text.getLast?, 0x20 < c.toNat) : trimEnds text = text := by
  have hKept : ∀ {text : List Char}, (∀ c ∈ text.head?, 0x20 < c.toNat) →
      text.dropWhile (fun c => decide (c.toNat ≤ 0x20)) = text := by
    intro text hText
    cases text with
    | nil => rfl
    | cons c rest =>
      have hc := hText c rfl
      exact List.dropWhile_cons_of_neg (by simpa using hc)
  simp only [trimEnds]
  rw [hKept hHead, hKept (by simpa using hLast), List.reverse_reverse]

theorem dropBreaks_of_lt (h : ∀ c ∈ text, 0x20 < c.toNat) : dropBreaks text = text :=
  List.filter_eq_self.2 fun c hc => by simp [isBreak_of_lt (h c hc)]

/-- The text of the URL of a file: its authority, its names, and the rest. -/
theorem toList_text_of_file {authority : UrlAuthority} (hScheme : u.scheme = "file")
    (hAuthority : u.authority = some authority) (hPath : u.path = .segments names) :
    u.text.toList = "file://".toList ++ (authority.text.toList ++
      (namesText names ++ u.restText)) := by
  have hNames : (names.map ("/" ++ ·)).flatMap String.toList = namesText names := by
    rw [List.flatMap_map, namesText]
    simp
  have hBefore : u.textBeforeQuery.toList =
      "file://".toList ++ (authority.text.toList ++ namesText names) := by
    simp only [textBeforeQuery, dotBeforePath, hScheme, hAuthority, hPath, UrlPath.toText,
      String.toList_append, String.toList_join, hNames]
    simp
  rw [text, String.toList_append, String.toList_append, hBefore, restText]
  cases u.query <;> cases u.fragment <;> simp

namespace IsLocal

theorem ne_nil (h : u.IsLocal names) : names ≠ [] := by
  rintro rfl
  exact absurd h.front (by decide)

theorem toList_text (h : u.IsLocal names) :
    u.text.toList = "file://".toList ++ (namesText names ++ u.restText) := by
  have hEmpty : ({} : UrlAuthority).text = "" := by decide
  rw [toList_text_of_file h.scheme h.authority h.path, hEmpty]
  rfl

theorem of_mem_namesText (h : u.IsLocal names) (hc : c ∈ namesText names) :
    c = '/' ∨ isWritten escapesInPath c = true := by
  obtain ⟨name, hName, hc⟩ := List.mem_flatMap.1 hc
  exact (List.mem_cons.1 hc).imp_right ((h.words name hName).written c)

theorem endsPath_of_mem (h : u.IsLocal names) (hc : c ∈ namesText names) : endsPath c = false := by
  rcases h.of_mem_namesText hc with rfl | hWritten
  · decide
  · simp [endsPath, ne_of_isWritten hWritten (show escapesInPath '?' = true by decide),
      ne_of_isWritten hWritten (show escapesInPath '#' = true by decide)]

theorem lt_of_mem_restText (h : u.IsLocal names) (hc : c ∈ u.restText) : 0x20 < c.toNat := by
  rw [restText, List.mem_append] at hc
  rcases hc with hc | hc
  · cases hQuery : u.query with
    | none => simp [hQuery] at hc
    | some query =>
      simp only [hQuery, List.mem_cons] at hc
      rcases hc with rfl | hc
      · decide
      · exact escapesBlanks_query.lt (h.query query hQuery c hc)
  · cases hFragment : u.fragment with
    | none => simp [hFragment] at hc
    | some fragment =>
      simp only [hFragment, List.mem_cons] at hc
      rcases hc with rfl | hc
      · decide
      · exact escapesBlanks_fragment.lt (h.fragment fragment hFragment c hc)

theorem lt_of_mem_text (h : u.IsLocal names) (hc : c ∈ u.text.toList) : 0x20 < c.toNat := by
  have hFile : ∀ c ∈ "file://".toList, 0x20 < c.toNat :=
    List.all_iff_forall_prop.1 (by decide)
  rw [h.toList_text, List.mem_append, List.mem_append] at hc
  rcases hc with hc | hc | hc
  · exact hFile c hc
  · rcases h.of_mem_namesText hc with rfl | hWritten
    · decide
    · exact escapesBlanks_path.lt hWritten
  · exact h.lt_of_mem_restText hc

/-- The query and the fragment are read as they are. -/
theorem withRest_restText (h : u.IsLocal names) (hv : v.scheme = "file") :
    withRest v u.restText = { v with query := u.query, fragment := u.fragment } := by
  have hSpecial : (SchemeKind.ofScheme "file").isSpecial = true := by decide
  have hHash : ∀ query ∈ u.query, ∀ c ∈ query.toList, (c != '#') = true := by
    intro query hQuery c hc
    simpa using ne_of_isWritten (h.query query hQuery c hc) (by decide)
  unfold withRest
  rw [dropBreaks_of_lt fun c hc => h.lt_of_mem_restText hc, restText]
  cases hQuery : u.query with
  | none =>
    cases hFragment : u.fragment with
    | none => simp
    | some fragment => simp [encode_of_isWritten (h.fragment fragment hFragment)]
  | some query =>
    have hEncode := encode_of_isWritten (h.query query hQuery)
    have hTake : ∀ tail : List Char, (query.toList ++ '#' :: tail).takeWhile (· != '#') =
        query.toList := by
      intro tail
      rw [List.takeWhile_append_of_pos (hHash query hQuery),
        List.takeWhile_cons_of_neg (by simp), List.append_nil]
    have hDrop : ∀ tail : List Char, (query.toList ++ '#' :: tail).dropWhile (· != '#') =
        '#' :: tail := by
      intro tail
      rw [List.dropWhile_append_of_pos (hHash query hQuery),
        List.dropWhile_cons_of_neg (by simp)]
    cases hFragment : u.fragment with
    | none =>
      have hTakeAll := List.takeWhile_eq_self_iff.2 (hHash query hQuery)
      have hDropAll := List.dropWhile_eq_nil_iff.2 (hHash query hQuery)
      simp [hv, hSpecial, hTakeAll, hDropAll, hEncode]
    | some fragment =>
      simp [hv, hSpecial, hTake, hDrop, hEncode, encode_of_isWritten (h.fragment fragment hFragment)]

end IsLocal

theorem head?_restText (u : Url) : ∀ c ∈ u.restText.head?, endsPath c = true := by
  intro c hc
  rw [restText] at hc
  cases hQuery : u.query <;> cases hFragment : u.fragment <;>
    simp only [hQuery, hFragment, List.nil_append, List.cons_append, List.head?_nil,
      List.head?_cons, Option.mem_def, Option.some.injEq, reduceCtorEq] at hc <;>
    · subst hc
      decide

theorem splitPath_append (hText : ∀ c ∈ text, endsPath c = false)
    (hRest : ∀ c ∈ rest.head?, endsPath c = true) : splitPath (text ++ rest) = (text, rest) := by
  have hKept : ∀ c ∈ text, (!endsPath c) = true := fun c hc => by simp [hText c hc]
  cases rest with
  | nil =>
    rw [List.append_nil, splitPath, List.takeWhile_eq_self_iff.2 hKept,
      List.dropWhile_eq_nil_iff.2 hKept]
  | cons c rest =>
    have hc : endsPath c = true := hRest c rfl
    rw [splitPath, List.takeWhile_append_of_pos hKept, List.dropWhile_append_of_pos hKept]
    simp [hc]

theorem splitPath_eq (h : ∀ c ∈ text, endsPath c = false) : splitPath text = (text, []) := by
  have hSplit : splitPath (text ++ []) = (text, []) := splitPath_append h (by simp)
  rwa [List.append_nil] at hSplit

/-- Whatever completes a reference, behind two slashes that start the URL of a file there is its
authority. -/
theorem parseAgainst_fileText {from? : Option Url} {input : String}
    (hText : input.toList = "file://".toList ++ rest)
    (hLast : ∀ c ∈ input.toList.getLast?, 0x20 < c.toNat) :
    parseAgainst from? input = parseFileAuthority rest := by
  have hHead : ∀ c ∈ input.toList.head?, 0x20 < c.toNat := by
    intro c hc
    obtain rfl : 'f' = c := by simpa [hText] using hc
    decide
  have hTrim : trimEnds input.toList = input.toList := trimEnds_eq hHead hLast
  have hBreaks : dropBreaks input.toList = "file://".toList ++ dropBreaks rest := by
    rw [hText, dropBreaks_append (by decide)]
  unfold parseAgainst
  dsimp only
  rw [hTrim, hBreaks, hText]
  rfl

/-- The names of a local file are read one by one. -/
theorem IsLocal.parseFileAuthority (h : u.IsLocal names) :
    parseFileAuthority (namesText names ++ u.restText) = .ok (withRest (fileUrl none
      (addPieces .file [] (SchemeKind.file.pieces (namesText names)))) u.restText) := by
  obtain ⟨name, more, hNames⟩ := List.exists_cons_of_ne_nil h.ne_nil
  have hSlash : namesText names ++ u.restText = '/' :: (name.toList ++
      (namesText more ++ u.restText)) := by
    simp [hNames, namesText]
  have hSplit := splitPath_append (fun c hc => h.endsPath_of_mem hc) (head?_restText u)
  have hHost : takeFileHost (namesText names ++ u.restText) =
      .ok (none, namesText names ++ u.restText) := by
    rw [hSlash]
    rfl
  simp only [Url.parseFileAuthority, hHost, hSplit, bind, Except.bind, pure, Except.pure]

theorem IsLocal.parse_text (h : u.IsLocal names) :
    parse u.text = .ok (withRest (fileUrl none (addPieces .file []
      (SchemeKind.file.pieces (namesText names)))) u.restText) := by
  have hLast : ∀ c ∈ u.text.toList.getLast?, 0x20 < c.toNat := fun c hc =>
    h.lt_of_mem_text (List.mem_of_getLast? hc)
  rw [parse, parseAgainst_fileText h.toList_text hLast, h.parseFileAuthority]

/-- The text of a settled URL is read back as the URL, whatever URL it is read against. -/
theorem IsSettled.parseAgainst_text (h : u.IsSettled) (from? : Option Url) :
    parseAgainst from? u.text = .ok u := by
  obtain ⟨names, hLocal, hStill⟩ := h
  have hSteady : ∀ name ∈ names, IsSteady name := fun name hName =>
    ⟨hLocal.words name hName, hStill name hName⟩
  have hFront : trimNames ("" :: names) = names := hLocal.front
  have hLast : ∀ c ∈ u.text.toList.getLast?, 0x20 < c.toNat := fun c hc =>
    hLocal.lt_of_mem_text (List.mem_of_getLast? hc)
  rw [parseAgainst_fileText hLocal.toList_text hLast, hLocal.parseFileAuthority,
    addPieces_names hSteady, fileUrl, hFront, hLocal.withRest_restText rfl]
  obtain ⟨scheme, authority, path, query, fragment⟩ := u
  obtain rfl : scheme = "file" := hLocal.scheme
  obtain rfl : authority = some {} := hLocal.authority
  obtain rfl : path = .segments names := hLocal.path
  rfl

theorem IsSettled.parse_text (h : u.IsSettled) : parse u.text = .ok u := h.parseAgainst_text none

/-! ## What is read

Tabs and newlines are left out here: one behind a drive keeps dots apart that are not read as
directories. -/

/-- The URL of a local file is settled. -/
def IsRegular (u : Url) : Prop := u.scheme = "file" → u.host? = none → u.IsSettled

/-- The text has no tab and no newline. -/
def IsUnbroken (text : List Char) : Prop := ∀ c ∈ text, isBreak c = false

theorem IsUnbroken.dropBreaks (h : IsUnbroken text) : dropBreaks text = text :=
  List.filter_eq_self.2 fun c hc => by simp [h c hc]

theorem IsUnbroken.mono (h : IsUnbroken text) (hSub : rest ⊆ text) : IsUnbroken rest :=
  fun c hc => h c (hSub hc)

theorem IsUnbroken.dropWhile (h : IsUnbroken text) : text.dropWhile isBreak = text := by
  cases text with
  | nil => rfl
  | cons c rest => exact List.dropWhile_cons_of_neg (by simp [h c])

theorem IsUnbroken.splitPath (h : IsUnbroken text) : IsUnbroken (splitPath text).1 :=
  h.mono (List.takeWhile_sublist _).subset

theorem IsUnbroken.steady_addPieces {done : List String} (h : IsUnbroken text)
    (hDone : ∀ name ∈ done, IsSteady name) :
    ∀ name ∈ addPieces .file done (SchemeKind.file.pieces text), IsSteady name :=
  Url.steady_addPieces hDone fun _ => isPiece_of_mem_pieces h

theorem IsSettled.withPath (h : u.IsSettled) (hNames : ∀ name ∈ names, IsSteady name) :
    ({ u with path := .segments (trimNames names) } : Url).IsSettled := by
  obtain ⟨old, hLocal, -⟩ := h
  have hTrim := steady_trimNames hNames
  exact ⟨trimNames names, ⟨hLocal.scheme, hLocal.authority, rfl, trimNames_trimNames names,
    fun name hName => (hTrim name hName).toIsWord, hLocal.query, hLocal.fragment⟩,
    fun name hName => (hTrim name hName).still⟩

theorem settled_fileUrl (hNames : ∀ name ∈ names, IsSteady name) :
    (fileUrl none names).IsSettled := by
  have hTrim := steady_trimNames hNames
  exact ⟨trimNames names, ⟨rfl, rfl, rfl, trimNames_trimNames names,
    fun name hName => (hTrim name hName).toIsWord, by simp [fileUrl], by simp [fileUrl]⟩,
    fun name hName => (hTrim name hName).still⟩

theorem IsSettled.withEnd {query fragment : Option String} (h : u.IsSettled)
    (hQuery : ∀ text ∈ query, ∀ c ∈ text.toList, isWritten escapesInSpecialQuery c = true)
    (hFragment : ∀ text ∈ fragment, ∀ c ∈ text.toList, isWritten escapesInFragment c = true) :
    ({ u with query, fragment } : Url).IsSettled := by
  obtain ⟨names, hLocal, hStill⟩ := h
  exact ⟨names, ⟨hLocal.scheme, hLocal.authority, hLocal.path, hLocal.front, hLocal.words, hQuery,
    hFragment⟩, hStill⟩

theorem written_fragment (text : List Char) :
    ∀ other ∈ some (String.ofList (encode escapesInFragment text)), ∀ c ∈ other.toList,
      isWritten escapesInFragment c = true := by
  intro other hOther c hc
  cases hOther
  rw [String.toList_ofList] at hc
  exact isWritten_of_mem_encode sparesPercent_fragment hc

theorem written_query (text : List Char) :
    ∀ other ∈ some (String.ofList (encode escapesInSpecialQuery text)), ∀ c ∈ other.toList,
      isWritten escapesInSpecialQuery c = true := by
  intro other hOther c hc
  cases hOther
  rw [String.toList_ofList] at hc
  exact isWritten_of_mem_encode sparesPercent_query hc

theorem IsSettled.withFragment (h : u.IsSettled) (text : List Char) :
    (withFragment u text).IsSettled := by
  have ⟨names, hLocal, _⟩ := h
  exact h.withEnd hLocal.query (written_fragment _)

/-- Behind the path of a file, the query and the fragment are written with escapes. -/
theorem withRest_written (hScheme : u.scheme = "file") (rest : List Char) :
    ∃ query fragment, withRest u rest = { u with query, fragment } ∧
      (∀ text ∈ query, ∀ c ∈ text.toList, isWritten escapesInSpecialQuery c = true) ∧
      ∀ text ∈ fragment, ∀ c ∈ text.toList, isWritten escapesInFragment c = true := by
  have hKind : (SchemeKind.ofScheme u.scheme).isSpecial = true := by
    rw [hScheme]
    decide
  unfold withRest
  simp only [hKind, if_true]
  split
  · split
    · exact ⟨_, _, rfl, written_query _, written_fragment _⟩
    · exact ⟨_, _, rfl, written_query _, nofun⟩
  · exact ⟨_, _, rfl, nofun, written_fragment _⟩
  · exact ⟨_, _, rfl, nofun, nofun⟩

theorem IsSettled.withRest (h : u.IsSettled) (rest : List Char) : (withRest u rest).IsSettled := by
  have ⟨names, hLocal, _⟩ := h
  obtain ⟨query, fragment, hRest, hQuery, hFragment⟩ := withRest_written hLocal.scheme rest
  rw [hRest]
  exact h.withEnd hQuery hFragment

/-- What stands in front of a slash is the host, whatever is behind. -/
theorem takeFileHost_append {host : Option UrlHost}
    (hSlash : ∃ c ∈ text, SchemeKind.file.isSlash c = true)
    (hTake : takeFileHost text = .ok (host, rest)) (more : List Char) :
    takeFileHost (text ++ more) = .ok (host, rest ++ more) ∧ rest ≠ [] := by
  have hShort : (text.takeWhile fun c => !SchemeKind.file.isSlash c && !endsPath c).length <
      text.length := by
    obtain ⟨c, hc, hSlash⟩ := hSlash
    by_contra hLong
    have hPrefix : text.takeWhile (fun c => !SchemeKind.file.isSlash c && !endsPath c) <+: text :=
      List.takeWhile_prefix _
    have hWhole := hPrefix.eq_of_length_le (by omega)
    have hKept := List.takeWhile_eq_self_iff.1 hWhole c hc
    simp [hSlash] at hKept
  have hFront : (text ++ more).takeWhile
      (fun c => !SchemeKind.file.isSlash c && !endsPath c) =
        text.takeWhile fun c => !SchemeKind.file.isSlash c && !endsPath c := by
    rw [List.takeWhile_append, if_neg (by omega)]
  have hDrop : text.drop
      (text.takeWhile fun c => !SchemeKind.file.isSlash c && !endsPath c).length ≠ [] := by
    rw [Ne, List.drop_eq_nil_iff]
    omega
  have hSome : text ≠ [] := by
    rintro rfl
    simp at hShort
  unfold takeFileHost at hTake ⊢
  simp only [hFront, List.drop_append_of_le_length (Nat.le_of_lt hShort), bind, Except.bind, pure,
    Except.pure] at hTake ⊢
  split at hTake
  · next hDrive =>
    cases hTake
    rw [if_pos hDrive]
    exact ⟨rfl, hSome⟩
  · next hDrive =>
    rw [if_neg hDrive]
    split at hTake
    · next hEmpty =>
      cases hTake
      rw [if_pos hEmpty]
      exact ⟨rfl, hDrop⟩
    · next hEmpty =>
      rw [if_neg hEmpty]
      split at hTake
      · cases hTake
      · next found hFound =>
        cases hTake
        exact ⟨rfl, hDrop⟩

theorem settled_parseFileAuthority (hText : IsUnbroken text) (h : parseFileAuthority text = .ok u)
    (hHost : u.host? = none) : u.IsSettled := by
  obtain ⟨host, rest, path, hRest, hPath, rfl⟩ := eq_of_parseFileAuthority h
  rw [withRest_host?, fileUrl_host?] at hHost
  subst hHost
  have hUnbroken : IsUnbroken path :=
    hText.mono (hPath.trans ((splitPath_sublist rest).trans hRest)).subset
  exact (settled_fileUrl (hUnbroken.steady_addPieces (by simp))).withRest _

theorem settled_parseFileRoot {from? : Option Url} (hText : IsUnbroken text)
    (hHost : (parseFileRoot from? text).host? = none) :
    (parseFileRoot from? text).IsSettled := by
  unfold parseFileRoot at hHost ⊢
  dsimp only at hHost ⊢
  rw [withRest_host?, fileUrl_host?] at hHost
  rw [hHost]
  refine (settled_fileUrl (hText.splitPath.steady_addPieces ?_)).withRest _
  intro name hName
  split at hName
  · split at hName
    · next hDrive =>
      rw [List.mem_singleton.1 hName]
      exact steady_of_isColonDrive hDrive
    · cases hName
  · cases hName

theorem steady_fileNamesFrom {pieces : List (List Char)} (hNames : ∀ name ∈ names, IsSteady name)
    (hPieces : ∀ piece ∈ pieces, IsPiece piece) :
    ∀ name ∈ fileNamesFrom names pieces, IsSteady name := by
  unfold fileNamesFrom
  split
  · exact steady_addPieces (by simp) hPieces
  · next last done hReverse =>
    have hDone : ∀ name ∈ last :: done, IsSteady name := by
      rw [← hReverse]
      simpa using hNames
    obtain ⟨hLast, hDone⟩ := List.forall_mem_cons.1 hDone
    split
    · next hDrive =>
      split
      · exact steady_addPieces (by simpa using hLast) hPieces
      · exact steady_addBehindDrive hDone hDrive hPieces
    · exact steady_addPieces hDone hPieces

theorem settled_parseFileRelative {from? : Option Url} (hFrom : ∀ b ∈ from?, b.IsRegular)
    (hScheme : ∀ b ∈ from?, b.scheme = "file") (hText : IsUnbroken text)
    (hHost : (parseFileRelative from? text).host? = none) :
    (parseFileRelative from? text).IsSettled := by
  have hAlone : (withRest (fileUrl none (addPieces .file []
      (SchemeKind.file.pieces (splitPath text).1))) (splitPath text).2).IsSettled :=
    (settled_fileUrl (hText.splitPath.steady_addPieces (by simp))).withRest _
  have hBase : ∀ b, from? = some b → b.host? = none → b.IsSettled := fun b hb hNone =>
    hFrom b hb (hScheme b hb) hNone
  unfold parseFileRelative at hHost ⊢
  revert hHost
  dsimp only
  split
  · exact fun _ => hAlone
  · next b =>
    intro hHost
    have hb := hBase b rfl hHost
    have ⟨names, hLocal, _⟩ := hb
    exact hb.withEnd hLocal.query nofun
  · next b _ =>
    intro hHost
    rw [withRest_host?] at hHost
    exact (hBase b rfl hHost).withRest _
  · next b _ => exact fun hHost => (hBase b rfl hHost).withFragment _
  · next b _ _ _ =>
    split
    · exact fun _ => hAlone
    · intro hHost
      rw [withRest_host?] at hHost
      have hb := hBase b rfl hHost
      have ⟨names, hLocal, hStill⟩ := hb
      have hSteady : ∀ name ∈ names, IsSteady name := fun name hName =>
        ⟨hLocal.words name hName, hStill name hName⟩
      rw [names?_eq_of_path hLocal.path hLocal.ne_nil, Option.getD_some]
      refine (hb.withPath (steady_fileNamesFrom hSteady fun _ => ?_)).withRest _
      exact isPiece_of_mem_pieces hText.splitPath

theorem settled_parseFile {from? : Option Url} (hFrom : ∀ b ∈ from?, b.IsRegular)
    (hScheme : ∀ b ∈ from?, b.scheme = "file") (hText : IsUnbroken text)
    (h : parseFile from? text = .ok u) (hHost : u.host? = none) : u.IsSettled := by
  unfold parseFile at h
  dsimp only at h
  rw [hText.dropWhile] at h
  cases text with
  | nil =>
    cases h
    exact settled_parseFileRelative hFrom hScheme hText hHost
  | cons first rest =>
    dsimp only at h
    split at h
    · cases h
      exact settled_parseFileRelative hFrom hScheme hText hHost
    · have hRest : IsUnbroken rest := hText.mono (List.subset_cons_self _ _)
      rw [hRest.dropWhile] at h
      cases rest with
      | nil =>
        cases h
        exact settled_parseFileRoot hRest hHost
      | cons second tail =>
        dsimp only at h
        split at h
        · exact settled_parseFileAuthority (hRest.mono (List.subset_cons_self _ _)) h hHost
        · cases h
          exact settled_parseFileRoot hRest hHost

theorem scheme_parseAuthority {kind : SchemeKind} {scheme : String}
    (h : parseAuthority kind scheme text = .ok u) : u.scheme = scheme := by
  unfold parseAuthority at h
  simp only [bind, Except.bind, pure, Except.pure, throw, throwThe, MonadExceptOf.throw] at h
  repeat' split at h
  all_goals cases h
  all_goals simp

theorem scheme_parseRelative {kind : SchemeKind} (h : parseRelative kind base text = .ok u) :
    u.scheme = base.scheme := by
  unfold parseRelative at h
  dsimp only at h
  repeat' split at h
  all_goals first
    | exact scheme_parseAuthority h
    | · cases h
        simp

theorem sublist_trimEnds (text : List Char) : (trimEnds text).Sublist text := by
  have hFront := List.dropWhile_sublist (l := text) fun c => decide (c.toNat ≤ 0x20)
  have hBack := (List.dropWhile_sublist (l := (text.dropWhile fun c =>
    decide (c.toNat ≤ 0x20)).reverse) fun c => decide (c.toNat ≤ 0x20)).reverse
  rw [List.reverse_reverse] at hBack
  exact hBack.trans hFront

theorem kind_eq_file {scheme : String} (h : SchemeKind.ofScheme scheme = .file) :
    scheme = "file" := by
  unfold SchemeKind.ofScheme at h
  split at h
  · assumption
  · split at h <;> cases h

/-- No scheme but that of files leads to the URL of a file. -/
theorem scheme_parseWithScheme {from? : Option Url} {scheme : String}
    (hOther : SchemeKind.ofScheme scheme ≠ .file) (h : parseWithScheme from? scheme text = .ok u) :
    u.scheme = scheme := by
  unfold parseWithScheme at h
  dsimp only at h
  split at h
  · next hFile => exact absurd hFile hOther
  · split at h
    · next b hb =>
      have hSame : b.scheme = scheme := by
        have hFilter := Option.filter_eq_some_iff.1 hb
        simp only [Bool.and_eq_true, beq_iff_eq] at hFilter
        exact hFilter.2.1
      rw [scheme_parseRelative h, hSame]
    · exact scheme_parseAuthority h
  · split at h
    · exact scheme_parseAuthority h
    all_goals
      cases h
      simp

/-- The URL of a file is read with the scheme of files. -/
theorem ofScheme_of_parseWithScheme {from? : Option Url} {scheme : String}
    (h : parseWithScheme from? scheme text = .ok u) (hScheme : u.scheme = "file") :
    SchemeKind.ofScheme scheme = .file := by
  by_contra hOther
  rw [scheme_parseWithScheme hOther h] at hScheme
  exact hOther (by rw [hScheme]; rfl)

theorem settled_parseWithScheme {from? : Option Url} {scheme : String}
    (hFrom : ∀ b ∈ from?, b.IsRegular) (hText : IsUnbroken text)
    (h : parseWithScheme from? scheme text = .ok u) (hScheme : u.scheme = "file")
    (hHost : u.host? = none) : u.IsSettled := by
  have hKind := ofScheme_of_parseWithScheme h hScheme
  unfold parseWithScheme at h
  simp only [hKind] at h
  refine settled_parseFile (fun b hb => ?_) (fun b hb => ?_) hText h hHost
  · exact hFrom b (Option.filter_eq_some_iff.1 hb).1
  · simpa using (Option.filter_eq_some_iff.1 hb).2

/-- What is read as a local file in a regular base is settled. -/
theorem regular_parseAgainst {from? : Option Url} {input : String}
    (hFrom : ∀ b ∈ from?, b.IsRegular) (hInput : IsUnbroken input.toList)
    (h : parseAgainst from? input = .ok u) : u.IsRegular := by
  intro hScheme hHost
  have hWritten : IsUnbroken (trimEnds input.toList) := hInput.mono (sublist_trimEnds _).subset
  have hKind : SchemeKind.ofScheme "file" = .file := rfl
  unfold parseAgainst at h
  dsimp only at h
  rw [hWritten.dropBreaks] at h
  split at h
  · next scheme _ _ =>
    have hBehind : IsUnbroken ((trimEnds input.toList).dropWhile (· != ':')).tail :=
      (hWritten.mono (List.dropWhile_sublist _).subset).mono (List.tail_sublist _).subset
    exact settled_parseWithScheme hFrom hBehind h hScheme hHost
  · cases h
  · next b _ =>
    have hb : b.IsRegular := hFrom b rfl
    split at h
    · cases h
      exact (hb hScheme hHost).withFragment _
    · cases h
    · split at h
      · next hFile =>
        refine settled_parseFile (by simpa using hb) ?_ hWritten h hHost
        simpa using kind_eq_file hFile
      · next hOther =>
        rw [scheme_parseRelative h] at hScheme
        exact absurd (hScheme ▸ hKind) hOther

theorem regular_parse {input : String} (hInput : IsUnbroken input.toList)
    (h : parse input = .ok u) : u.IsRegular := by
  have hAgainst : parseAgainst none input = .ok u := h
  exact regular_parseAgainst (by simp) hInput hAgainst

end ModuleLoader.Url
