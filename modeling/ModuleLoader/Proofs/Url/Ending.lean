import ModuleLoader.Proofs.Resolution
import ModuleLoader.Proofs.Url.Made
import ModuleLoader.Proofs.Url.Relative
import ModuleLoader.Proofs.Url.Size

/-! A reference with an ending, such as the extension of a file.  The ending stands behind the last
name of the path, unless that name is empty or a drive that is the whole path. -/

namespace ModuleLoader.Url

/-- The text is written as it is behind any name, and what it ends is neither a drive nor a
directory. -/
structure IsEnding (ending : String) : Prop extends IsWord ending where
  unmarked : ∀ c ∈ ending.toList, c ≠ ':' ∧ c ≠ '|'
  long : 2 < ending.toList.length
  still : ∀ name, isDots (name ++ ending) = false

variable {base u : Url} {ending name reference : String} {names done : List String}
  {piece text rest : List Char} {pieces front : List (List Char)} {c : Char}

theorem isEnding_source (h : ending ∈ TypeScript.extensions) : IsEnding ("." ++ ending) := by
  have hAll : ∀ ending ∈ TypeScript.extensions,
      (∀ c ∈ ("." ++ ending).toList, isWritten escapesInPath c = true ∧
        SchemeKind.file.isSlash c = false ∧ c ≠ ':' ∧ c ≠ '|') ∧
      2 < ("." ++ ending).toList.length ∧
      ∀ name ∈ dotNames, ¬("." ++ ending).toList <:+ name.toList := by decide +kernel
  obtain ⟨hEach, hLong, hStill⟩ := hAll ending h
  refine ⟨⟨fun c hc => (hEach c hc).1, fun c hc => (hEach c hc).2.1⟩,
    fun c hc => (hEach c hc).2.2, hLong, fun name => ?_⟩
  rw [← Bool.not_eq_true, isDots_iff]
  intro hMem
  exact hStill _ hMem ⟨name.toList, by rw [← String.toList_append]⟩

theorem writtenName_ne_empty (h : text ≠ []) : writtenName text ≠ "" := by
  intro hEmpty
  have hLength := length_le_writtenName text
  rw [hEmpty, String.toList_empty, List.length_nil, Nat.le_zero, List.length_eq_zero_iff] at hLength
  exact h hLength

/-- At the front of a path, what is not a drive is a name, or two if it is kept apart from a drive. -/
theorem pushName_front (hDrive : isDrive (dropBreaks piece) = false) :
    pushName .file [] piece =
      if breaksBehindDrive piece then
        [writtenName ((dropBreaks piece).drop 2), String.ofList ((dropBreaks piece).take 2)]
      else [writtenName (dropBreaks piece)] := by
  unfold pushName
  dsimp only
  rw [if_pos (by simp)]
  split
  · next letter mark hName =>
    have hMark : isDriveMark letter mark = false := by simpa [hName, isDrive] using hDrive
    have hTogether : breaksBehindDrive piece = false := by
      rw [← Bool.not_eq_true]
      intro hBreaks
      obtain ⟨letter, rest, -, hRest, hPiece⟩ := dropBreaks_of_breaksBehindDrive hBreaks
      rw [hName, List.cons.injEq, List.cons.injEq] at hPiece
      exact hRest hPiece.2.2.symm
    simp [hMark, hTogether]
  · rfl

theorem pushName_nil (h : dropBreaks piece = []) (hPush : pushName .file done piece = name :: names) :
    name = "" := by
  have hEmpty : writtenName [] = "" := rfl
  cases done with
  | cons last rest =>
    simp only [pushName, h, hEmpty] at hPush
    exact (List.cons.inj hPush).1.symm
  | nil =>
    have hTogether : ¬breaksBehindDrive piece = true := by
      intro hBreaks
      obtain ⟨letter, rest, -, -, hPiece⟩ := dropBreaks_of_breaksBehindDrive hBreaks
      cases h.symm.trans hPiece
    rw [pushName_front (by rw [h]; rfl), if_neg hTogether, h] at hPush
    exact (List.cons.inj hPush).1.symm

theorem pushName_drive (h : isDrive (dropBreaks piece) = true)
    (hPush : pushName .file [] piece = name :: names) : names = [] ∧ isColonDrive name = true := by
  obtain ⟨letter, mark, hName, hMark⟩ := isDrive_iff.1 h
  have hDrive : pushName .file [] piece = [String.ofList [letter, ':']] := by
    simp [pushName, hName, hMark]
  cases hDrive.symm.trans hPush
  exact ⟨rfl, by simpa [isColonDrive] using (Bool.and_eq_true_iff.1 hMark).1⟩

theorem lastPiece_of_still (h : isDots (writtenName (dropBreaks piece)) = false) :
    lastPiece .file done piece = pushName .file done piece := by
  obtain ⟨hHere, hUp⟩ := Bool.or_eq_false_iff.1 h
  simp [lastPiece, passPiece, hHere, hUp]

/-- A last name that is neither empty nor a drive alone is pushed as it is. -/
theorem pushName_of_lastPiece (hName : name ≠ "") (hLone : names ≠ [] ∨ isColonDrive name = false)
    (hLast : lastPiece .file done piece = name :: names) :
    pushName .file done piece = name :: names ∧
      (done ≠ [] ∨ isDrive (dropBreaks piece) = false) := by
  have hDots : isDots (writtenName (dropBreaks piece)) = false := by
    rw [← Bool.not_eq_true]
    intro hDots
    have hOpen : (isDoubleDot (writtenName (dropBreaks piece)) ||
        isSingleDot (writtenName (dropBreaks piece))) = true := by
      rwa [isDots, Bool.or_comm] at hDots
    rw [lastPiece, if_pos hOpen] at hLast
    exact hName (List.cons.inj hLast).1.symm
  rw [lastPiece_of_still hDots] at hLast
  refine ⟨hLast, ?_⟩
  by_contra hFront
  obtain ⟨hDone, hDrive⟩ : done = [] ∧ isDrive (dropBreaks piece) = true := by
    simpa [not_or] using hFront
  rw [hDone] at hLast
  obtain ⟨rfl, hColon⟩ := pushName_drive hDrive hLast
  simp [hColon] at hLone

theorem addPieces_cons_concat (first : List Char) (rest : List (List Char)) (last : List Char) :
    addPieces .file done (first :: (rest ++ [last])) =
      addPieces .file (passPiece .file done first) (rest ++ [last]) := by
  cases rest <;> rfl

theorem exists_of_addBehindDrive (done : List String) (drive : String) (first : List Char)
    (rest : List (List Char)) : ∃ done', ∀ last,
      addBehindDrive done drive (first :: (rest ++ [last])) =
        addPieces .file done' (rest ++ [last]) := by
  cases rest with
  | nil => exact ⟨_, fun _ => rfl⟩
  | cons next rest => exact ⟨_, fun _ => rfl⟩

/-- Empty names at the front are lost, whatever the last name is. -/
theorem exists_of_trimNames {all : List String} (hName : name ≠ "")
    (hTrim : trimNames all = names ++ [name]) :
    ∃ init, all = init ++ [name] ∧ (names ≠ [] → init ≠ []) ∧
      ∀ last, last ≠ "" → trimNames (init ++ [last]) = names ++ [last] := by
  have hWhole := List.takeWhile_append_dropWhile (p := String.isEmpty) (l := all)
  unfold trimNames at hTrim
  cases hDrop : all.dropWhile String.isEmpty with
  | nil =>
    simp only [hDrop] at hTrim
    have hEnd := congrArg List.getLast? hTrim
    simp only [List.getLast?_append, List.getLast?_singleton, Option.some_or] at hEnd
    exact absurd (Option.some.inj hEnd).symm hName
  | cons first rest =>
    simp only [hDrop] at hTrim
    have hFirst : ¬first.isEmpty = true := by
      have hNot := List.head?_dropWhile_not String.isEmpty all
      simpa [hDrop] using hNot
    refine ⟨all.takeWhile String.isEmpty ++ names, ?_, fun hNames => by simp [hNames], ?_⟩
    · rw [List.append_assoc, ← hTrim, ← hDrop, hWhole]
    · intro last hLast
      have hHead : (names ++ [last]).dropWhile String.isEmpty = names ++ [last] := by
        cases names with
        | nil => exact List.dropWhile_cons_of_neg (by simpa using hLast)
        | cons name' names =>
          rw [List.cons_append, List.cons.injEq] at hTrim
          exact List.dropWhile_cons_of_neg (hTrim.1 ▸ hFirst)
      rw [List.append_assoc, trimNames, List.dropWhile_append_of_pos fun _ hMem =>
        List.mem_takeWhile_imp hMem, hHead]
      split
      · next hNil => simp at hNil
      · rfl

theorem lastPiece_of_addPieces (h : addPieces .file done [piece] = names ++ [name]) :
    lastPiece .file done piece = name :: names.reverse := by
  simpa [addPieces] using congrArg List.reverse h

theorem slash_not_mem_of_pieces (h : SchemeKind.file.pieces text = [piece]) : '/' ∉ text := by
  intro hMem
  have hWhole := Text.flatMap_splitOn '/' (text.map fun c =>
    if SchemeKind.file.isSlash c then '/' else c)
  rw [show Text.splitOn '/' _ = [piece] from h, List.flatMap_singleton, List.cons.injEq] at hWhole
  have hPiece : '/' ∈ piece := hWhole.2 ▸ List.mem_map.2 ⟨'/', hMem, by decide⟩
  exact absurd (of_mem_pieces (h ▸ List.mem_singleton_self piece) hPiece).2 (by decide)

theorem startsWithDrive_of_isDrive (h : isDrive text = true) : startsWithDrive text = true := by
  obtain ⟨letter, mark, rfl, hMark⟩ := isDrive_iff.1 h
  exact hMark

/-- A text that is a drive is read as a drive alone. -/
theorem not_isDrive_of_addPieces (hName : name ≠ "") (hLone : names ≠ [] ∨ isColonDrive name = false)
    (hTrim : trimNames (addPieces .file [] (SchemeKind.file.pieces text)) = names ++ [name]) :
    ¬isDrive (dropBreaks text) = true := by
  intro hDrive
  obtain ⟨letter, mark, hText, hMark⟩ := isDrive_iff.1 hDrive
  have hWhole : ∀ c ∈ text, SchemeKind.file.isSlash c = false := by
    intro c hc
    by_cases hBreak : isBreak c = true
    · have hAll : ∀ c ∈ ['\t', '\n', '\r'], SchemeKind.file.isSlash c = false := by decide
      exact hAll c (by simpa [isBreak, or_assoc] using hBreak)
    · have hMem : c ∈ dropBreaks text := List.mem_filter.2 ⟨hc, by simpa using hBreak⟩
      exact (isWord_drive hMark).whole c (by rwa [String.toList_ofList, ← hText])
  obtain ⟨init, hInit, hSome, -⟩ := exists_of_trimNames hName hTrim
  rw [pieces_of_whole hWhole] at hInit
  have hFront : init ≠ [] ∨ isColonDrive name = false := hLone.imp_left hSome
  obtain ⟨-, hNot⟩ := pushName_of_lastPiece hName (by simpa using hFront)
    (lastPiece_of_addPieces hInit)
  simp [hDrive] at hNot

/-- Without a slash there is no path behind the host, unless the text is a drive. -/
theorem takeFileHost_of_whole {host : Option UrlHost}
    (h : ∀ c ∈ text, SchemeKind.file.isSlash c = false) (hMarks : ∀ c ∈ text, endsPath c = false)
    (hTake : takeFileHost text = .ok (host, rest)) :
    (host = none ∧ rest = text ∧ isDrive (dropBreaks text) = true) ∨ rest = [] := by
  have hFront : text.takeWhile (fun c => !SchemeKind.file.isSlash c && !endsPath c) = text :=
    List.takeWhile_eq_self_iff.2 fun c hc => by simp [h c hc, hMarks c hc]
  unfold takeFileHost at hTake
  simp only [hFront, List.drop_length, bind, Except.bind, pure, Except.pure] at hTake
  split at hTake
  · next hDrive =>
    cases hTake
    exact .inl ⟨rfl, rfl, hDrive⟩
  split at hTake
  · cases hTake
    exact .inr rfl
  split at hTake
  · cases hTake
  · cases hTake
    exact .inr rfl

/-- A path of one slash has an empty name. -/
theorem parseFileRoot_nil (hName : name ≠ "") (hLone : names ≠ [] ∨ isColonDrive name = false) :
    (parseFileRoot (some base) []).path ≠ .segments (names ++ [name]) := by
  intro hPath
  unfold parseFileRoot at hPath
  rw [splitPath_eq (by simp)] at hPath
  dsimp only at hPath
  rw [withRest_path] at hPath
  obtain ⟨init, hInit, hSome, -⟩ := exists_of_trimNames hName (UrlPath.segments.inj hPath)
  have hFront : init ≠ [] ∨ isColonDrive name = false := hLone.imp_left hSome
  obtain ⟨hPush, -⟩ := pushName_of_lastPiece hName (by simpa using hFront)
    (lastPiece_of_addPieces hInit)
  exact hName (pushName_nil rfl hPush)

theorem front_of_path (h : Resolution.isPath reference = true) (hSlash : '/' ∈ reference.toList)
    (ending : String) :
    ((∃ tail, reference.toList = '/' :: tail) ∨
      ∃ tail, reference.toList = '.' :: tail ∧ '/' ∈ tail) ∧
    Resolution.isPath (reference ++ ending) = true := by
  unfold Resolution.isPath at h ⊢
  rw [String.toList_append]
  split at h
  · next tail hText => exact ⟨.inl ⟨tail, hText⟩, by simp [hText]⟩
  · next tail hText => exact ⟨.inr ⟨_, hText, by simp⟩, by simp [hText]⟩
  · next tail hText => exact ⟨.inr ⟨_, hText, by simp⟩, by simp [hText]⟩
  · next hText => simp [hText] at hSlash
  · next hText => simp [hText] at hSlash
  · cases h

/-- A path that starts with a dot is read in the directory of the base. -/
theorem parseFileRelative_dot {tail : List Char} (h : ∀ c ∈ '.' :: tail, endsPath c = false) :
    parseFileRelative (some base) ('.' :: tail) =
      { base with
        path := .segments (trimNames (fileNamesFrom (base.names?.getD [])
          (SchemeKind.file.pieces ('.' :: tail))))
        query := none
        fragment := none } := by
  have hDrop : dropBreaks ('.' :: tail) = '.' :: dropBreaks tail := by
    rw [dropBreaks, List.filter_cons_of_pos (by decide)]
    rfl
  unfold parseFileRelative
  rw [splitPath_eq h]
  simp only [hDrop, startsWithDrive_dot]
  rfl

theorem rest_parseFileAuthority (hMarks : ∀ c ∈ text, endsPath c = false)
    (hu : parseFileAuthority text = .ok u) : u.query = none ∧ u.fragment = none := by
  obtain ⟨host, rest, path, hRest, -, rfl⟩ := eq_of_parseFileAuthority hu
  rw [splitPath_eq fun c hc => hMarks c (hRest.subset hc)]
  exact ⟨rfl, rfl⟩

theorem rest_parseFileRoot (hMarks : ∀ c ∈ text, endsPath c = false) :
    (parseFileRoot (some base) text).query = none ∧
      (parseFileRoot (some base) text).fragment = none := by
  unfold parseFileRoot
  rw [splitPath_eq hMarks]
  exact ⟨rfl, rfl⟩

/-- An ending behind the last name is an ending of the text, if nothing is behind the path. -/
theorem text_append (hPath : u.path = .segments (names ++ [name])) (hQuery : u.query = none)
    (hFragment : u.fragment = none) (ending : String) :
    ({ u with path := .segments (names ++ [name ++ ending]) } : Url).text = u.text ++ ending := by
  obtain ⟨scheme, authority, path, query, fragment⟩ := u
  obtain rfl : path = .segments (names ++ [name]) := hPath
  obtain rfl : query = none := hQuery
  obtain rfl : fragment = none := hFragment
  have hDot : ∀ name name', dotBeforePath
      { scheme, authority, path := .segments (names ++ [name]) } = dotBeforePath
        { scheme, authority, path := .segments (names ++ [name']) } := by
    intro name name'
    cases names with
    | nil => simp [dotBeforePath]
    | cons first rest =>
      by_cases hFirst : first = ""
      · subst hFirst
        cases authority <;> cases rest <;> rfl
      · cases authority <;> cases rest <;> simp [dotBeforePath, hFirst]
  rw [text, textBeforeQuery, hDot _ name]
  simp [text, textBeforeQuery, UrlPath.toText, String.append_assoc]

namespace IsEnding

variable (h : IsEnding ending)
include h

theorem dropBreaks_append (text : List Char) :
    dropBreaks (text ++ ending.toList) = dropBreaks text ++ ending.toList := by
  rw [dropBreaks, List.filter_append, ← dropBreaks, ← dropBreaks, h.isPiece.dropBreaks]

theorem writtenName_append (text : List Char) :
    writtenName (text ++ ending.toList) = writtenName text ++ ending := by
  rw [Url.writtenName_append, writtenName_toList h.written]

theorem exists_pieces (text : List Char) : ∃ front last,
    SchemeKind.file.pieces text = front ++ [last] ∧
      SchemeKind.file.pieces (text ++ ending.toList) = front ++ [last ++ ending.toList] := by
  have hMap := map_of_whole h.whole
  have hSplit := Text.splitOn_append (slash_not_mem_of_whole h.whole) (text.map fun c =>
    if SchemeKind.file.isSlash c then '/' else c)
  rwa [← hMap, ← List.map_append, hMap] at hSplit

theorem isDrive_append (text : List Char) : isDrive (text ++ ending.toList) = false := by
  have hLong := h.long
  unfold isDrive
  split
  · next hEq =>
    have hLength := congrArg List.length hEq
    rw [List.length_append, List.length_cons, List.length_singleton] at hLength
    omega
  · rfl

theorem exists_cons : ∃ first second more, ending.toList = first :: second :: more ∧
    isBreak first = false ∧ isBreak second = false ∧ first ≠ ':' ∧ second ≠ ':' := by
  have hLong := h.long
  rcases hText : ending.toList with _ | ⟨first, _ | ⟨second, more⟩⟩
  · simp [hText] at hLong
  · simp [hText] at hLong
  · have hFirst : first ∈ ending.toList := by simp [hText]
    have hSecond : second ∈ ending.toList := by simp [hText]
    exact ⟨first, second, more, rfl, (h.isPiece first hFirst).2, (h.isPiece second hSecond).2,
      (h.unmarked first hFirst).1, (h.unmarked second hSecond).1⟩

theorem dropWhile_append (text : List Char) :
    (text ++ ending.toList).dropWhile isBreak = text.dropWhile isBreak ++ ending.toList := by
  obtain ⟨first, second, more, hEnding, hFirst, -⟩ := h.exists_cons
  rw [List.dropWhile_append]
  split
  · next hEmpty =>
    rw [List.isEmpty_iff.1 hEmpty, hEnding, List.dropWhile_cons_of_neg (by simp [hFirst]),
      List.nil_append]
  · rfl

/-! ## The last name -/

theorem breaksBehindDrive_append (hDrive : isDrive (dropBreaks piece) = false) :
    breaksBehindDrive (piece ++ ending.toList) = breaksBehindDrive piece := by
  obtain ⟨first, second, more, hEnding, hFirst, hSecond, hColon, hColon'⟩ := h.exists_cons
  unfold breaksBehindDrive
  rw [h.dropWhile_append]
  cases hPiece : piece.dropWhile isBreak with
  | nil =>
    have hBehind : (second :: more).dropWhile isBreak = second :: more :=
      List.dropWhile_cons_of_neg (by simp [hSecond])
    simp [hEnding, hBehind, hColon']
  | cons letter behind =>
    simp only [List.cons_append, h.dropWhile_append]
    rcases hBehind : behind.dropWhile isBreak with _ | ⟨mark, _ | ⟨next, tail⟩⟩
    · simp [hEnding, hColon]
    · by_cases hMark : mark = ':'
      · simp [hEnding, hMark, hFirst]
      · simp [hMark]
    · by_cases hMark : mark = ':'
      · subst hMark
        have hMore : dropBreaks (tail ++ ending.toList) ≠ [] := by
          rw [h.dropBreaks_append, hEnding]
          simp
        have hName := dropBreaks_of_dropWhile hPiece
        rw [dropBreaks_of_dropWhile hBehind] at hName
        simp only [List.cons_append, List.isEmpty_eq_false_iff.2 hMore, Bool.not_false,
          Bool.and_true]
        cases hNext : isBreak next with
        | false => simp
        | true =>
          have hTail : dropBreaks (next :: tail) = dropBreaks tail := by simp [dropBreaks, hNext]
          rw [hTail] at hName
          cases hMoreNames : dropBreaks tail with
          | nil =>
            rw [hName, hMoreNames] at hDrive
            have hLetter : letter.isAlpha = false := by simpa [isDrive, isDriveMark] using hDrive
            simp [hLetter]
          | cons c rest => simp
      · simp [hMark]

theorem pushName_append (hSome : dropBreaks piece ≠ [])
    (hDrive : done ≠ [] ∨ isDrive (dropBreaks piece) = false) : ∃ name rest, name ≠ "" ∧
      pushName .file done piece = name :: rest ∧
      pushName .file done (piece ++ ending.toList) = (name ++ ending) :: rest := by
  have hName := writtenName_ne_empty hSome
  cases hDone : done with
  | cons last rest =>
    refine ⟨_, last :: rest, hName, by simp [pushName], ?_⟩
    simp [pushName, h.dropBreaks_append, h.writtenName_append]
  | nil =>
    have hDrive : isDrive (dropBreaks piece) = false := by simpa [hDone] using hDrive
    have hLonger : isDrive (dropBreaks (piece ++ ending.toList)) = false := by
      rw [h.dropBreaks_append, h.isDrive_append]
    rw [pushName_front hDrive, pushName_front hLonger, h.breaksBehindDrive_append hDrive,
      h.dropBreaks_append]
    by_cases hBreaks : breaksBehindDrive piece = true
    · obtain ⟨letter, rest, -, hRest, hPiece⟩ := dropBreaks_of_breaksBehindDrive hBreaks
      refine ⟨_, _, writtenName_ne_empty hRest, by rw [if_pos hBreaks, hPiece]; rfl, ?_⟩
      rw [if_pos hBreaks, hPiece, ← h.writtenName_append]
      rfl
    · refine ⟨_, [], hName, by rw [if_neg hBreaks], ?_⟩
      rw [if_neg hBreaks, h.writtenName_append]

/-- The ending stands behind the last name, unless that is empty or a drive alone. -/
theorem lastPiece_append (hName : name ≠ "") (hLone : names ≠ [] ∨ isColonDrive name = false)
    (hLast : lastPiece .file done piece = name :: names) :
    lastPiece .file done (piece ++ ending.toList) = (name ++ ending) :: names := by
  obtain ⟨hPush, hDrive⟩ := pushName_of_lastPiece hName hLone hLast
  have hSome : dropBreaks piece ≠ [] := fun hNil => hName (pushName_nil hNil hPush)
  have hLonger : isDots (writtenName (dropBreaks (piece ++ ending.toList))) = false := by
    rw [h.dropBreaks_append, h.writtenName_append, h.still]
  obtain ⟨name', rest, -, hShort, hLong⟩ := h.pushName_append hSome hDrive
  cases hShort.symm.trans hPush
  rw [lastPiece_of_still hLonger, hLong]

/-! ## The path -/

theorem addPieces_append (hName : name ≠ "") (hLone : names ≠ [] ∨ isColonDrive name = false)
    (hAdd : addPieces .file done (front ++ [piece]) = names ++ [name]) :
    addPieces .file done (front ++ [piece ++ ending.toList]) = names ++ [name ++ ending] := by
  induction front generalizing done with
  | nil =>
    have hLonger := h.lastPiece_append hName (by simpa using hLone) (lastPiece_of_addPieces hAdd)
    simp [addPieces, hLonger]
  | cons first rest ih =>
    rw [List.cons_append, addPieces_cons_concat] at hAdd ⊢
    exact ih hAdd

theorem reachesDrive_append (hName : name ≠ "") (hLone : names ≠ [] ∨ isColonDrive name = false)
    (hAdd : addPieces .file done (front ++ [piece]) = names ++ [name]) :
    reachesDrive done (front ++ [piece ++ ending.toList]) = reachesDrive done (front ++ [piece]) := by
  induction front generalizing done with
  | nil =>
    obtain ⟨-, hDrive⟩ := pushName_of_lastPiece hName (by simpa using hLone)
      (lastPiece_of_addPieces hAdd)
    rcases hDrive with hDone | hDrive
    · simp [reachesDrive, List.isEmpty_eq_false_iff.2 hDone]
    · simp [reachesDrive, hDrive, h.dropBreaks_append, h.isDrive_append]
  | cons first rest ih =>
    rw [List.cons_append, addPieces_cons_concat] at hAdd
    rw [List.cons_append, List.cons_append, reachesDrive, reachesDrive, ih hAdd]

/-- A relative path has at least two pieces. -/
theorem fileNamesFrom_append {others : List String} (hFront : front ≠ []) (hName : name ≠ "")
    (hLone : names ≠ [] ∨ isColonDrive name = false)
    (hAdd : fileNamesFrom others (front ++ [piece]) = names ++ [name]) :
    fileNamesFrom others (front ++ [piece ++ ending.toList]) = names ++ [name ++ ending] := by
  obtain ⟨first, rest, rfl⟩ := List.exists_cons_of_ne_nil hFront
  have hBehind : ∀ (done : List String) drive, addBehindDrive done drive (first :: rest ++ [piece]) =
      names ++ [name] → addBehindDrive done drive (first :: rest ++ [piece ++ ending.toList]) =
        names ++ [name ++ ending] := by
    intro done drive hAdd
    obtain ⟨done', hBehind⟩ := exists_of_addBehindDrive done drive first rest
    rw [List.cons_append, hBehind] at hAdd ⊢
    exact h.addPieces_append hName hLone hAdd
  unfold fileNamesFrom at hAdd ⊢
  cases hOthers : others.reverse with
  | nil =>
    rw [hOthers] at hAdd
    exact h.addPieces_append hName hLone hAdd
  | cons last done =>
    simp only [hOthers] at hAdd ⊢
    split
    · next hDrive =>
      rw [if_pos hDrive] at hAdd
      split
      · next hDone =>
        rw [if_pos hDone] at hAdd
        exact h.addPieces_append hName hLone hAdd
      · next hDone =>
        rw [if_neg hDone] at hAdd
        exact hBehind done last hAdd
    · next hDrive =>
      rw [if_neg hDrive] at hAdd
      exact h.addPieces_append hName hLone hAdd

/-! ## The text of a path -/

/-- What the pieces of a text are read as, before and behind an ending. -/
theorem trimNames_append {read : List (List Char) → List String} (hName : name ≠ "")
    (hLone : names ≠ [] ∨ isColonDrive name = false)
    (hRead : ∀ front piece init, SchemeKind.file.pieces text = front ++ [piece] →
      (init ≠ [] ∨ isColonDrive name = false) → read (front ++ [piece]) = init ++ [name] →
        read (front ++ [piece ++ ending.toList]) = init ++ [name ++ ending])
    (hTrim : trimNames (read (SchemeKind.file.pieces text)) = names ++ [name]) :
    trimNames (read (SchemeKind.file.pieces (text ++ ending.toList))) = names ++ [name ++ ending] := by
  obtain ⟨front, piece, hShort, hLong⟩ := h.exists_pieces text
  obtain ⟨init, hInit, hSome, hLast⟩ := exists_of_trimNames hName hTrim
  rw [hShort] at hInit
  have hEnding : name ++ ending ≠ "" := by
    intro hEmpty
    exact hName (String.append_eq_empty_iff.1 hEmpty).1
  rw [hLong, hRead front piece init hShort (hLone.imp_left hSome) hInit, hLast _ hEnding]

theorem isDriveMark_of_mem (hc : c ∈ ending.toList) (letter : Char) :
    isDriveMark letter c = false := by
  simp [isDriveMark, h.unmarked c hc]

theorem startsWithDrive_append (hDrive : isDrive text = false) :
    startsWithDrive (text ++ ending.toList) = startsWithDrive text := by
  obtain ⟨first, second, more, hEnding, -⟩ := h.exists_cons
  have hFirst : ∀ letter, isDriveMark letter first = false :=
    h.isDriveMark_of_mem (by simp [hEnding])
  have hSecond : ∀ letter, isDriveMark letter second = false :=
    h.isDriveMark_of_mem (by simp [hEnding])
  rw [hEnding]
  rcases text with _ | ⟨letter, _ | ⟨mark, _ | ⟨next, rest⟩⟩⟩
  · cases more <;> simp [startsWithDrive, hSecond]
  · simp [startsWithDrive, hFirst]
  · have hMark : isDriveMark letter mark = false := hDrive
    simp [startsWithDrive, hMark]
  · rfl

theorem endsPath_append (hMarks : ∀ c ∈ text, endsPath c = false) :
    ∀ c ∈ text ++ ending.toList, endsPath c = false := by
  intro c hc
  rcases List.mem_append.1 hc with hc | hc
  · exact hMarks c hc
  · simp [endsPath, ne_of_isWritten (h.written c hc) (show escapesInPath '?' = true by decide),
      ne_of_isWritten (h.written c hc) (show escapesInPath '#' = true by decide)]

theorem trimNames_addPieces_append (hName : name ≠ "")
    (hLone : names ≠ [] ∨ isColonDrive name = false)
    (hTrim : trimNames (addPieces .file done (SchemeKind.file.pieces text)) = names ++ [name]) :
    trimNames (addPieces .file done (SchemeKind.file.pieces (text ++ ending.toList))) =
      names ++ [name ++ ending] :=
  h.trimNames_append hName hLone
    (fun _ _ _ _ hLone hAdd => h.addPieces_append hName hLone hAdd) hTrim

theorem reachesDrive_pieces (hName : name ≠ "") (hLone : names ≠ [] ∨ isColonDrive name = false)
    (hTrim : trimNames (addPieces .file done (SchemeKind.file.pieces text)) = names ++ [name]) :
    reachesDrive done (SchemeKind.file.pieces (text ++ ending.toList)) =
      reachesDrive done (SchemeKind.file.pieces text) := by
  obtain ⟨front, piece, hShort, hLong⟩ := h.exists_pieces text
  obtain ⟨init, hInit, hSome, -⟩ := exists_of_trimNames hName hTrim
  rw [hShort] at hInit
  rw [hShort, hLong, h.reachesDrive_append hName (hLone.imp_left hSome) hInit]

theorem parseFileRelative_append {tail : List Char} (hSlash : '/' ∈ tail)
    (hMarks : ∀ c ∈ '.' :: tail, endsPath c = false) (hName : name ≠ "")
    (hLone : names ≠ [] ∨ isColonDrive name = false)
    (hPath : (parseFileRelative (some base) ('.' :: tail)).path = .segments (names ++ [name])) :
    parseFileRelative (some base) ('.' :: (tail ++ ending.toList)) =
      { parseFileRelative (some base) ('.' :: tail) with
        path := .segments (names ++ [name ++ ending]) } := by
  have hMarks' : ∀ c ∈ '.' :: (tail ++ ending.toList), endsPath c = false :=
    h.endsPath_append hMarks
  rw [parseFileRelative_dot hMarks] at hPath
  rw [parseFileRelative_dot hMarks', parseFileRelative_dot hMarks, ← List.cons_append,
    h.trimNames_append hName hLone ?_ (UrlPath.segments.inj hPath)]
  intro front piece init hPieces hLone hAdd
  refine h.fileNamesFrom_append ?_ hName hLone hAdd
  rintro rfl
  exact slash_not_mem_of_pieces hPieces (List.mem_cons_of_mem _ hSlash)

theorem parseFileRoot_append (hMarks : ∀ c ∈ text, endsPath c = false) (hName : name ≠ "")
    (hLone : names ≠ [] ∨ isColonDrive name = false)
    (hPath : (parseFileRoot (some base) text).path = .segments (names ++ [name])) :
    parseFileRoot (some base) (text ++ ending.toList) =
      { parseFileRoot (some base) text with path := .segments (names ++ [name ++ ending]) } := by
  have hStarts : startsWithDrive (dropBreaks (text ++ ending.toList)) =
      startsWithDrive (dropBreaks text) := by
    rw [h.dropBreaks_append, h.startsWithDrive_append]
    rw [← Bool.not_eq_true]
    intro hDrive
    have hStarts := startsWithDrive_of_isDrive hDrive
    unfold parseFileRoot at hPath
    simp only [splitPath_eq hMarks, hStarts, if_true, Option.bind_none, withRest_path] at hPath
    exact not_isDrive_of_addPieces hName hLone (UrlPath.segments.inj hPath) hDrive
  unfold parseFileRoot at hPath ⊢
  rw [splitPath_eq hMarks] at hPath ⊢
  rw [splitPath_eq (h.endsPath_append hMarks)]
  dsimp only [hStarts] at hPath ⊢
  rw [withRest_path] at hPath
  simp only [hStarts]
  have hTrim := h.trimNames_addPieces_append hName hLone (UrlPath.segments.inj hPath)
  rw [fileUrl, hTrim]
  rfl

theorem parseFileAuthority_append (hMarks : ∀ c ∈ text, endsPath c = false) (hName : name ≠ "")
    (hLone : names ≠ [] ∨ isColonDrive name = false) (hu : parseFileAuthority text = .ok u)
    (hPath : u.path = .segments (names ++ [name])) :
    parseFileAuthority (text ++ ending.toList) =
      .ok { u with path := .segments (names ++ [name ++ ending]) } := by
  unfold parseFileAuthority at hu ⊢
  simp only [bind, Except.bind, pure, Except.pure] at hu ⊢
  cases hTake : takeFileHost text with
  | error reason => simp [hTake] at hu
  | ok found =>
    obtain ⟨host, rest⟩ := found
    have hMarks' : ∀ c ∈ rest, endsPath c = false := fun c hc =>
      hMarks c ((sublist_of_takeFileHost hTake).subset hc)
    simp only [hTake, splitPath_eq hMarks'] at hu
    have hSlash : ∃ c ∈ text, SchemeKind.file.isSlash c = true := by
      by_contra hNone
      have hWhole : ∀ c ∈ text, SchemeKind.file.isSlash c = false := by simpa using hNone
      rcases takeFileHost_of_whole hWhole hMarks hTake with ⟨rfl, rfl, hDrive⟩ | rfl
      · cases hu
        rw [withRest_path] at hPath
        exact not_isDrive_of_addPieces hName hLone (UrlPath.segments.inj hPath) hDrive
      · have hOpen : [""] = names ++ [name] := by
          cases host <;>
            · cases hu
              rw [withRest_path] at hPath
              exact UrlPath.segments.inj hPath
        have hEnd := congrArg List.getLast? hOpen
        rw [List.getLast?_concat, List.getLast?_singleton] at hEnd
        exact hName (Option.some.inj hEnd).symm
    obtain ⟨hLonger, hRest⟩ := takeFileHost_append hSlash hTake ending.toList
    simp only [hLonger, splitPath_eq (h.endsPath_append hMarks')]
    cases host with
    | none =>
      cases hu
      rw [withRest_path] at hPath
      rw [fileUrl, h.trimNames_addPieces_append hName hLone (UrlPath.segments.inj hPath)]
      rfl
    | some host =>
      obtain ⟨first, tail, rfl⟩ := List.exists_cons_of_ne_nil hRest
      cases hu
      rw [withRest_path] at hPath
      have hTrim := UrlPath.segments.inj hPath
      have hReaches : reachesDrive [] (SchemeKind.file.pieces (first :: tail ++ ending.toList).tail) =
          reachesDrive [] (SchemeKind.file.pieces (first :: tail).tail) :=
        h.reachesDrive_pieces hName hLone hTrim
      have hLongTrim : trimNames (addPieces .file []
          (SchemeKind.file.pieces (first :: tail ++ ending.toList).tail)) =
            names ++ [name ++ ending] := h.trimNames_addPieces_append hName hLone hTrim
      simp only [hReaches, fileUrl, hLongTrim]
      rfl

theorem parseFile_append
    (hFront : (∃ tail, text = '/' :: tail) ∨ ∃ tail, text = '.' :: tail ∧ '/' ∈ tail)
    (hMarks : ∀ c ∈ text, endsPath c = false) (hName : name ≠ "")
    (hLone : names ≠ [] ∨ isColonDrive name = false)
    (hu : parseFile (some base) text = .ok u) (hPath : u.path = .segments (names ++ [name])) :
    parseFile (some base) (text ++ ending.toList) =
        .ok { u with path := .segments (names ++ [name ++ ending]) } ∧
      u.query = none ∧ u.fragment = none := by
  have hSlash : SchemeKind.file.isSlash '/' = true ∧ SchemeKind.file.isSlash '.' = false := by
    decide
  have hShown : ∀ c ∈ ['/', '.'], ∀ tail, (c :: tail).dropWhile isBreak = c :: tail := by
    intro c hc tail
    have hAll : ∀ c ∈ ['/', '.'], isBreak c = false := by decide
    exact List.dropWhile_cons_of_neg (by simp [hAll c hc])
  unfold parseFile at hu ⊢
  rcases hFront with ⟨tail, rfl⟩ | ⟨tail, rfl, hMem⟩
  · have hMarks' : ∀ c ∈ tail, endsPath c = false := fun c hc =>
      hMarks c (List.mem_cons_of_mem _ hc)
    simp only [List.cons_append, hShown _ (show '/' ∈ ['/', '.'] by simp), hSlash, Bool.not_true,
      Bool.false_eq_true, if_false, h.dropWhile_append] at hu ⊢
    cases hDrop : tail.dropWhile isBreak with
    | nil =>
      simp only [hDrop] at hu
      cases hu
      exact absurd hPath (parseFileRoot_nil hName hLone)
    | cons second behind =>
      have hBehind : ∀ c ∈ behind, endsPath c = false := by
        intro c hc
        have hMem : c ∈ tail.dropWhile isBreak := hDrop ▸ List.mem_cons_of_mem _ hc
        exact hMarks' c ((List.dropWhile_sublist _).subset hMem)
      simp only [hDrop, List.cons_append] at hu ⊢
      split at hu
      · next hDouble =>
        rw [if_pos hDouble]
        exact ⟨h.parseFileAuthority_append hBehind hName hLone hu hPath,
          rest_parseFileAuthority hBehind hu⟩
      · next hSingle =>
        cases hu
        rw [if_neg hSingle, h.parseFileRoot_append hMarks' hName hLone hPath]
        exact ⟨rfl, rest_parseFileRoot hMarks'⟩
  · simp only [List.cons_append, hShown _ (show '.' ∈ ['/', '.'] by simp), hSlash, Bool.not_false,
      if_true] at hu ⊢
    cases hu
    rw [h.parseFileRelative_append hMem hMarks hName hLone hPath, parseFileRelative_dot hMarks]
    exact ⟨rfl, rfl, rfl⟩

/-- An ending behind a path stands behind the last name of what the path means, and nothing else does. -/
theorem join_append (hScheme : base.scheme = "file") (hPath : Resolution.isPath reference = true)
    (hSlash : '/' ∈ reference.toList) (hMarks : ∀ c ∈ reference.toList, endsPath c = false)
    (hTrim : trimEnds reference.toList = reference.toList) (hJoin : join base reference = .ok u)
    (hNames : u.path = .segments (names ++ [name])) (hName : name ≠ "")
    (hLone : names ≠ [] ∨ isColonDrive name = false) :
    (∃ v, join base (reference ++ ending) = .ok v ∧
      v.path = .segments (names ++ [name ++ ending]) ∧ v.text = u.text ++ ending) ∧
      u.query = none ∧ u.fragment = none := by
  obtain ⟨hFront, hPath'⟩ := front_of_path hPath hSlash ending
  have hTrim' : trimEnds (reference ++ ending).toList = reference.toList ++ ending.toList := by
    rw [String.toList_append]
    refine trimEnds_eq ?_ ?_
    · rcases hFront with ⟨tail, hText⟩ | ⟨tail, hText, -⟩ <;>
        · rw [hText]
          simp
    · intro c hc
      have hSome : ending.toList ≠ [] := List.ne_nil_of_length_pos (by have := h.long; omega)
      rw [List.getLast?_append_of_ne_nil _ hSome] at hc
      exact escapesBlanks_path.lt (h.written c (List.mem_of_getLast? hc))
  rw [join_of_isPath hScheme hPath, hTrim] at hJoin
  rw [join_of_isPath hScheme hPath', hTrim']
  split at hJoin
  · cases hJoin
  · obtain ⟨hLonger, hQuery, hFragment⟩ :=
      h.parseFile_append hFront hMarks hName hLone hJoin hNames
    exact ⟨⟨_, hLonger, rfl, text_append hNames hQuery hFragment ending⟩, hQuery, hFragment⟩

end IsEnding

end ModuleLoader.Url
