import ModuleLoader.Proofs.Url.Settled

/-! Relative paths.  A path of steps that stay, go up or go down is read as a walk from the directory
of the base, and if the walk ends at a local file, that is what the path means. -/

namespace ModuleLoader.Url

variable {base u : Url} {last step reference : String} {names done directory steps : List String}
  {c : Char}

/-- The names that the steps of a relative path lead to from a directory. -/
def walk (directory : List String) : List String → List String
  | [] => directory
  | step :: rest =>
    if step = "." then walk directory rest
    else if step = ".." then walk directory.dropLast rest
    else walk (directory ++ [writtenName step.toList]) rest

/-- The step goes down by a name which is not that of a drive. -/
structure IsDown (step : String) : Prop where
  piece : IsPiece step.toList
  plain : ∀ c ∈ step.toList, endsPath c = false
  still : isDots (writtenName step.toList) = false
  loose : isFixed (writtenName step.toList) = false

/-- The step stays, goes up or goes down. -/
def IsStep (step : String) : Prop := step = "." ∨ step = ".." ∨ IsDown step

theorem IsDown.ne_dot (h : IsDown step) : step ≠ "." := by
  rintro rfl
  exact absurd h.still (by decide)

theorem IsDown.ne_dots (h : IsDown step) : step ≠ ".." := by
  rintro rfl
  exact absurd h.still (by decide)

theorem IsDown.isDrive (h : IsDown step) : isDrive step.toList = false := by
  rw [← Bool.not_eq_true]
  intro hDrive
  have hFixed := h.loose
  obtain ⟨letter, mark, hStep, hMark⟩ := isDrive_iff.1 hDrive
  rw [hStep, writtenName_drive hMark, isFixed, String.toList_ofList] at hFixed
  exact absurd hMark (by simp [hFixed])

theorem removeLast_eq_tail (h : ∀ name ∈ done, isFixed name = false) :
    removeLast done = done.tail := by
  cases done with
  | nil => rfl
  | cons name rest => simp [removeLast, h name]

theorem walk_cons (directory : List String) (step : String) (rest : List String) :
    walk directory (step :: rest) = walk (walk directory [step]) rest := by
  simp only [walk]
  split
  · rfl
  · split <;> rfl

/-- A step of a walk is a piece that is read. -/
theorem passPiece_walk (hDirectory : ∀ name ∈ directory, isFixed name = false) (h : IsStep step) :
    passPiece .file directory.reverse step.toList = (walk directory [step]).reverse ∧
      ∀ name ∈ walk directory [step], isFixed name = false := by
  rcases h with rfl | rfl | h
  · exact ⟨rfl, hDirectory⟩
  · have hReverse : ∀ name ∈ directory.reverse, isFixed name = false := by
      simpa using hDirectory
    refine ⟨?_, fun name hName => hDirectory name (List.dropLast_subset _ hName)⟩
    have hPass : passPiece .file directory.reverse "..".toList = removeLast directory.reverse := rfl
    rw [hPass, removeLast_eq_tail hReverse, List.tail_reverse]
    rfl
  · have hWalk : walk directory [step] = directory ++ [writtenName step.toList] := by
      simp [walk, h.ne_dot, h.ne_dots]
    rw [hWalk]
    constructor
    · rw [passPiece_still ⟨h.piece, h.still⟩ (.inr h.isDrive)]
      simp
    · intro name hName
      rcases List.mem_append.1 hName with hName | hName
      · exact hDirectory name hName
      · rw [List.mem_singleton.1 hName]
        exact h.loose

/-- The steps of a path that ends in a name are read as a walk. -/
theorem addPieces_walk (hDirectory : ∀ name ∈ directory, isFixed name = false)
    (hSteps : ∀ step ∈ steps, IsStep step) (hLast : ∀ step ∈ steps.getLast?, IsDown step) :
    addPieces .file directory.reverse (steps.map String.toList) = walk directory steps := by
  induction steps generalizing directory with
  | nil => simp [addPieces, walk]
  | cons step rest ih =>
    obtain ⟨hStep, hRest⟩ := List.forall_mem_cons.1 hSteps
    obtain ⟨hPass, hNext⟩ := passPiece_walk hDirectory hStep
    cases rest with
    | nil =>
      have hDown : IsDown step := hLast step rfl
      have hDots : (isDoubleDot (writtenName step.toList) ||
          isSingleDot (writtenName step.toList)) = false := by
        simpa [isDots, and_comm] using hDown.still
      simp only [List.map_cons, List.map_nil, addPieces, lastPiece, hDown.piece.dropBreaks, hDots,
        Bool.false_eq_true, if_false, hPass, List.reverse_reverse]
    | cons next rest =>
      rw [walk_cons]
      simp only [List.map_cons, addPieces] at ih ⊢
      rw [hPass]
      exact ih hNext hRest (by simpa using hLast)

/-- The steps start at the directory of the base and end in a name. -/
structure IsRelative (steps : List String) : Prop where
  each : ∀ step ∈ steps, IsStep step
  start : steps.head? = some "." ∨ steps.head? = some ".."
  ending : ∀ step ∈ steps.getLast?, IsDown step

/-- The reference is a relative path by the given steps, with the query and the fragment of a local
file behind it, from a local file in the directory to that file. -/
structure IsWay (base : Url) (directory : List String) (last : String) (steps : List String)
    (u : Url) (reference : String) : Prop where
  scheme : base.scheme = "file"
  authority : base.authority = some {}
  path : base.path = .segments (directory ++ [last])
  loose : ∀ name ∈ directory ++ [last], isFixed name = false
  relative : IsRelative steps
  reached : u.IsLocal (walk directory steps)
  text : reference = "/".intercalate steps ++ String.ofList u.restText
  /-- A blank at the end would get lost. -/
  closed : ∀ c ∈ reference.toList.getLast?, 0x20 < c.toNat

theorem toList_intercalate (step : String) (rest : List String) :
    ("/".intercalate (step :: rest)).toList = step.toList ++ namesText rest := by
  induction rest generalizing step with
  | nil => simp [namesText]
  | cons next rest ih =>
    have hCons : namesText (next :: rest) = '/' :: (next.toList ++ namesText rest) := rfl
    rw [String.intercalate_cons_cons, String.toList_append, String.toList_append, ih, hCons,
      List.append_assoc]
    rfl

theorem IsStep.isPiece (h : IsStep step) : IsPiece step.toList := by
  rcases h with rfl | rfl | h
  · simp [IsPiece, SchemeKind.isSlash, SchemeKind.isSpecial, isBreak]
  · simp [IsPiece, SchemeKind.isSlash, SchemeKind.isSpecial, isBreak]
  · exact h.piece

theorem IsStep.endsPath (h : IsStep step) : ∀ c ∈ step.toList, endsPath c = false := by
  rcases h with rfl | rfl | h
  · exact List.all_iff_forall_prop.1 (by decide)
  · exact List.all_iff_forall_prop.1 (by decide)
  · exact h.plain

/-- A path that starts with a dot has neither a scheme nor a drive at its front. -/
theorem startsWithDrive_dot (rest : List Char) : startsWithDrive ('.' :: rest) = false := by
  have hMark : ∀ mark, isDriveMark '.' mark = false := fun _ => rfl
  unfold startsWithDrive
  split
  · next hEq =>
    cases hEq
    exact hMark _
  · next hEq =>
    cases hEq
    rw [hMark]
    rfl
  · rfl

theorem isColonDrive_of_isFixed {name : String} (h : isFixed name = false) :
    isColonDrive name = false := by
  rw [← Bool.not_eq_true]
  intro hDrive
  obtain ⟨letter, hLetter, rfl⟩ := exists_of_isColonDrive hDrive
  simp [isFixed, isDriveMark, hLetter] at h

/-- In a file, a text that starts neither with a slash nor with a scheme or a drive is read in the
directory of the file. -/
theorem join_of_relative {first : Char} {tail : List Char} (hScheme : base.scheme = "file")
    (hPath : base.path = .segments names) (hText : reference.toList = first :: tail)
    (hFirst : SchemeKind.file.isSlash first = false ∧ endsPath first = false)
    (hUnbroken : IsUnbroken reference.toList)
    (hTrim : trimEnds reference.toList = reference.toList)
    (hNone : scheme? reference.toList = none)
    (hDrive : startsWithDrive reference.toList = false) :
    join base reference = .ok (withRest
      { base with
        path := .segments (trimNames (fileNamesFrom (base.names?.getD [])
          (SchemeKind.file.pieces (splitPath reference.toList).1))) }
      (splitPath reference.toList).2) := by
  have hEnds : first ≠ '?' ∧ first ≠ '#' := by simpa [endsPath] using hFirst.2
  have hKind : SchemeKind.ofScheme base.scheme = .file := by
    rw [hScheme]
    rfl
  have hJoin : join base reference = parseFile (some base) reference.toList := by
    unfold join parseAgainst
    simp only [hTrim, hUnbroken.dropBreaks, hNone, hPath, hKind]
    split
    · next hHash =>
      rw [hText] at hHash
      exact absurd (List.cons.inj hHash).1 hEnds.2
    · next hPlain _ => cases hPlain
    · rfl
  have hRelative : parseFile (some base) reference.toList =
      .ok (parseFileRelative (some base) reference.toList) := by
    unfold parseFile
    rw [hUnbroken.dropWhile, hText]
    simp [hFirst.1]
  rw [hJoin, hRelative, parseFileRelative]
  simp only [hUnbroken.dropBreaks, hDrive]
  split
  · next hNone => cases hNone
  · next hNil => cases hText.symm.trans hNil
  · next hMark => exact absurd (List.cons.inj (hText.symm.trans hMark)).1 hEnds.1
  · next hMark => exact absurd (List.cons.inj (hText.symm.trans hMark)).1 hEnds.2
  · next hSome _ _ _ =>
    cases hSome
    rfl

namespace IsWay

variable (h : IsWay base directory last steps u reference)
include h

/-- The text of a relative path is that of its steps, and the rest of the URL. -/
theorem exists_path : ∃ path, reference.toList = path ++ u.restText ∧
    SchemeKind.file.pieces path = steps.map String.toList ∧
    (∀ c ∈ path, isBreak c = false ∧ endsPath c = false) ∧ ∃ tail, path = '.' :: tail := by
  obtain ⟨first, rest, hSteps⟩ : ∃ first rest, steps = first :: rest := by
    rcases h.relative.start with hHead | hHead <;>
      exact ⟨_, List.head?_eq_some_iff.1 hHead⟩
  obtain ⟨hFirst, hRest⟩ := List.forall_mem_cons.1 (hSteps ▸ h.relative.each)
  refine ⟨first.toList ++ namesText rest, ?_, ?_, fun c hc => ?_, ?_⟩
  · rw [h.text, String.toList_append, hSteps, toList_intercalate, String.toList_ofList]
  · rw [hSteps, List.map_cons]
    exact pieces_append_namesText hFirst.isPiece fun step hStep => (hRest step hStep).isPiece
  · rcases List.mem_append.1 hc with hc | hc
    · exact ⟨(hFirst.isPiece c hc).2, hFirst.endsPath c hc⟩
    · obtain ⟨step, hStep, hc⟩ := List.mem_flatMap.1 hc
      rcases List.mem_cons.1 hc with rfl | hc
      · decide
      · exact ⟨((hRest step hStep).isPiece c hc).2, (hRest step hStep).endsPath c hc⟩
  · have hHead : first = "." ∨ first = ".." := by simpa [hSteps] using h.relative.start
    rcases hHead with rfl | rfl <;> exact ⟨_, rfl⟩

theorem fileNamesFrom_eq :
    fileNamesFrom (base.names?.getD []) (steps.map String.toList) = walk directory steps := by
  have hDirectory : ∀ name ∈ directory, isFixed name = false := fun name hName =>
    h.loose name (List.mem_append_left _ hName)
  have hLast : isColonDrive last = false := isColonDrive_of_isFixed (h.loose last (by simp))
  rw [names?_eq_of_path h.path (by simp), Option.getD_some, fileNamesFrom, List.reverse_append,
    List.reverse_singleton, List.singleton_append]
  simp only [hLast, Bool.false_eq_true, if_false]
  exact addPieces_walk hDirectory h.relative.each h.relative.ending

/-- A relative path means the file that its steps lead to. -/
theorem join_eq : join base reference = .ok u := by
  obtain ⟨path, hText, hPieces, hChars, tail, hTail⟩ := h.exists_path
  have hUnbroken : IsUnbroken reference.toList := by
    intro c hc
    rw [hText, List.mem_append] at hc
    exact hc.elim (fun hc => (hChars c hc).1) fun hc =>
      isBreak_of_lt (h.reached.lt_of_mem_restText hc)
  have hSplit : splitPath reference.toList = (path, u.restText) := by
    rw [hText]
    exact splitPath_append (fun c hc => (hChars c hc).2) (head?_restText u)
  have hFront : reference.toList = '.' :: (tail ++ u.restText) := by
    rw [hText, hTail, List.cons_append]
  have hNone : scheme? reference.toList = none := by
    rw [hFront]
    rfl
  have hDrive : startsWithDrive reference.toList = false := by
    rw [hFront]
    exact startsWithDrive_dot _
  have hTrim : trimEnds reference.toList = reference.toList := by
    refine trimEnds_eq (fun c hc => ?_) h.closed
    rw [hFront, List.head?_cons, Option.mem_def, Option.some.injEq] at hc
    rw [← hc]
    decide
  rw [join_of_relative h.scheme h.path hFront (by decide) hUnbroken hTrim hNone hDrive, hSplit]
  dsimp only
  rw [hPieces, h.fileNamesFrom_eq, h.reached.front, h.reached.withRest_restText
    (v := { base with path := .segments (walk directory steps) }) h.scheme]
  obtain ⟨scheme, authority, walked, query, fragment⟩ := u
  obtain rfl : scheme = "file" := h.reached.scheme
  obtain rfl : authority = some {} := h.reached.authority
  obtain rfl : walked = .segments (walk directory steps) := h.reached.path
  rw [h.scheme, h.authority]

end IsWay

end ModuleLoader.Url
