import ModuleLoader.Proofs.ImportScan.Scan

/-! What the scanner reports of any text.  A specifier that it reports stands behind the head of a
declaration, between a quote and the next one, of either kind. -/

namespace ModuleLoader.ImportScan

open Text

variable {search : Search} {total skip : Nat} {atStart : Bool} {f : Found} {quote : Char}
variable {text line front tail specifier place body : List Char}

/-! ## Up to a character -/

section Stops

variable {p : Char → Bool} {stop : Char} {rest rest' : List Char}

/-- The first character of a text that is not of a kind. -/
theorem exists_stop (p : Char → Bool) (text : List Char) : (∀ c ∈ text, p c = true) ∨
    ∃ front stop rest, text = front ++ stop :: rest ∧ p stop = false ∧ ∀ c ∈ front, p c = true := by
  induction text with
  | nil => exact .inl (List.forall_mem_nil _)
  | cons c text ih =>
    cases hc : p c with
    | false => exact .inr ⟨[], c, text, rfl, hc, List.forall_mem_nil _⟩
    | true =>
      rcases ih with hAll | ⟨front, stop, rest, rfl, hStop, hFront⟩
      · exact .inl (List.forall_mem_cons.2 ⟨hc, hAll⟩)
      · exact .inr ⟨c :: front, stop, rest, rfl, hStop, List.forall_mem_cons.2 ⟨hc, hFront⟩⟩

theorem takeWhile_append_stop (hStop : p stop = false) (text rest : List Char) :
    (text ++ stop :: rest).takeWhile p = text.takeWhile p := by
  induction text with
  | nil => simp [hStop]
  | cons c text ih => simp only [List.cons_append, List.takeWhile_cons, ih]

theorem takeWhile_stop (hFront : ∀ c ∈ front, p c = true) (hStop : p stop = false) :
    (front ++ stop :: rest).takeWhile p = front := by
  rw [takeWhile_append_stop hStop, List.takeWhile_eq_self_iff.2 hFront]

theorem dropWhile_stop (hFront : ∀ c ∈ front, p c = true) (hStop : p stop = false) :
    (front ++ stop :: rest).dropWhile p = stop :: rest := by
  rw [List.dropWhile_append_of_pos hFront, List.dropWhile_cons_of_neg (by simp [hStop])]

theorem eq_of_append_cons {c : Char} (h : text ++ c :: rest = front ++ c :: rest') (hText : c ∉ text)
    (hFront : c ∉ front) : text = front ∧ rest = rest' := by
  have hCut : ∀ part : List Char, c ∉ part → ∀ rest,
      (part ++ c :: rest).takeWhile (· != c) = part := by
    intro part hPart rest
    refine takeWhile_stop (fun d hd => ?_) (by simp)
    exact bne_iff_ne.2 fun hEq => hPart (hEq ▸ hd)
  have hSame : text = front := by rw [← hCut text hText rest, h, hCut front hFront]
  subst hSame
  exact ⟨rfl, (List.cons.inj (List.append_cancel_left h)).2⟩

end Stops

/-! ## Finds -/

/-- What a scan finds, it finds somewhere in the text. -/
theorem exists_of_mem_scanFrom (h : f ∈ scanFrom search total atStart skip text) :
    ∃ front line tail, text = front ++ line ∧ search line = some (tail, f.specifier) := by
  induction text generalizing atStart skip with
  | nil => cases skip <;> cases h
  | cons c rest ih =>
    have hLater : ∀ {atStart skip}, f ∈ scanFrom search total atStart skip rest →
        ∃ front line tail, c :: rest = front ++ line ∧ search line = some (tail, f.specifier) := by
      intro atStart skip hMem
      obtain ⟨front, line, tail, rfl, hLine⟩ := ih hMem
      exact ⟨c :: front, line, tail, rfl, hLine⟩
    cases skip with
    | succ skip => exact hLater h
    | zero =>
      rw [scanFrom] at h
      split at h
      · next tail specifier hSome =>
        rcases List.mem_cons.1 h with rfl | hMem
        · cases atStart with
          | false => cases hSome
          | true => exact ⟨[], c :: rest, tail, rfl, hSome⟩
        · exact hLater hMem
      · exact hLater h

theorem mem_staticImports {source s : String} : s ∈ staticImports source ↔
    ∃ f, (f ∈ scan importAt? source.toList ∨ f ∈ scan exportAt? source.toList) ∧
      String.ofList f.specifier = s := by
  simp only [staticImports, List.mem_map, distinct_eq_eraseDups, List.mem_eraseDups, List.mem_merge]
  constructor
  · rintro ⟨_, ⟨f, hf, rfl⟩, hs⟩
    exact ⟨f, hf, hs⟩
  · rintro ⟨f, hf, hs⟩
    exact ⟨_, ⟨f, hf, rfl⟩, hs⟩

/-- The text ends with one of the words behind which a specifier stands, and gaps. -/
def EndsHead (text : List Char) : Prop :=
  ∃ front word gaps, text = front ++ word ++ gaps ∧
    (word = "import".toList ∨ word = "from".toList) ∧ ∀ c ∈ gaps, isGap c = true

theorem EndsHead.append (h : EndsHead text) (front : List Char) : EndsHead (front ++ text) := by
  obtain ⟨before, word, gaps, rfl, hWord, hGaps⟩ := h
  exact ⟨front ++ before, word, gaps, by simp only [List.append_assoc], hWord, hGaps⟩

/-- The specifier is read in the line behind the quote, at the end of the head of a declaration. -/
def IsRead (line : List Char) (quote : Char) (tail specifier : List Char) : Prop :=
  quotedSpecifier? (quote :: tail) = some specifier ∧
    ∃ head, line = head ++ quote :: tail ∧ EndsHead head

theorem endsHead_of_isImportClause {clause : List Char} (h : isImportClause clause = true) :
    EndsHead ("import".toList ++ clause) := by
  rw [isImportClause, Bool.or_eq_true] at h
  rcases h with hAll | hNamed
  · exact ⟨[], "import".toList, clause, rfl, .inl rfl, List.all_eq_true.1 hAll⟩
  · obtain ⟨gaps, hReverse, hGaps⟩ := exists_skipGaps clause.reverse
    split at hNamed
    · next sep names hText =>
      have hClause : clause = (names.reverse ++ [sep]) ++ "from".toList ++ gaps.reverse := by
        rw [hText] at hReverse
        rw [← List.reverse_inj, hReverse]
        simp
      rw [hClause]
      refine ⟨"import".toList ++ (names.reverse ++ [sep]), "from".toList, gaps.reverse, ?_, .inr rfl,
        fun c hc => hGaps c (List.mem_reverse.1 hc)⟩
      simp only [List.append_assoc]
    · cases hNamed

theorem isRead_of_importAt? (h : importAt? line = some (tail, specifier)) :
    ∃ quote, IsRead line quote tail specifier := by
  simp only [importAt?, Option.bind_eq_bind, Option.bind_eq_some_iff] at h
  obtain ⟨rest, hRest, found, hFound, h⟩ := h
  obtain ⟨gaps, hLine, -⟩ := eq_of_after? hRest
  rcases exists_stop (!isQuote ·) rest with hAll | ⟨clause, quote, behind, rfl, hQuote, hFree⟩
  · rw [List.takeWhile_eq_self_iff.2 hAll, List.drop_length] at hFound
    cases hFound
  · simp only [takeWhile_stop hFree hQuote, List.drop_left] at hFound h
    split at h
    · next hClause =>
      cases h
      refine ⟨quote, hFound, gaps ++ ("import".toList ++ clause), ?_,
        (endsHead_of_isImportClause hClause).append gaps⟩
      rw [hLine]
      simp only [List.append_assoc, List.drop_one, List.tail_cons]
    · cases h

/-- Behind a name, `from` may be the end of the name or the next word. -/
theorem exists_of_mem_behindAlias (h : place ∈ behindAlias text) :
    ∃ name rest, text = name ++ rest ∧ (∀ c ∈ name, isName c = true) ∧
      (place = trimStart rest ∨
        ∃ front, name = front ++ "from".toList ∧ place = "from".toList ++ rest) := by
  have hText : text = text.takeWhile isName ++ text.drop (text.takeWhile isName).length :=
    (List.prefix_iff_eq_append.1 (List.takeWhile_prefix _)).symm
  refine ⟨_, _, hText, fun c hc => List.mem_takeWhile_imp hc, ?_⟩
  simp only [behindAlias] at h
  split at h
  · cases h
  · rcases List.mem_cons.1 h with hPlace | hShared
    · exact .inl hPlace
    · split at hShared
      · next first more hName =>
        refine .inr ⟨(first :: more).reverse, ?_, List.mem_singleton.1 hShared⟩
        rw [← List.reverse_inj, hName]
        simp
      · cases hShared

theorem exists_of_mem_behindNames (h : place ∈ behindNames text) :
    (∃ list rest, text = '\x7b' :: (list ++ '\x7d' :: rest) ∧ '\x7d' ∉ list ∧
        place = trimStart rest) ∨
      ∃ rest, text = '*' :: rest ∧ (place = trimStart rest ∨
        ∃ tail, trimStart rest = "as".toList ++ tail ∧ place ∈ behindAlias (trimStart tail)) := by
  unfold behindNames at h
  split at h
  · next rest =>
    refine .inr ⟨rest, rfl, ?_⟩
    simp only [behindStar] at h
    rcases List.mem_cons.1 h with hPlace | hNamed
    · exact .inl hPlace
    · cases hAs : after? "as".toList (trimStart rest) with
      | none =>
        rw [hAs] at hNamed
        cases hNamed
      | some tail =>
        simp only [hAs, Option.bind_eq_bind, Option.bind_some] at hNamed
        split at hNamed
        · exact .inr ⟨tail, after?_eq_some_iff.1 hAs, hNamed⟩
        · cases hNamed
  · next rest =>
    rcases exists_stop (· != '\x7d') rest with hAll | ⟨list, stop, tail, rfl, hStop, hList⟩
    · rw [List.dropWhile_eq_nil_iff.2 hAll] at h
      cases h
    · rw [dropWhile_stop hList hStop] at h
      obtain rfl : stop = '\x7d' := by simpa using hStop
      exact .inl ⟨list, tail, rfl, fun hMem => by simpa using hList _ hMem, List.mem_singleton.1 h⟩
  · cases h

theorem suffix_trimStart (text : List Char) : trimStart text <:+ text := List.dropWhile_suffix _

theorem suffix_of_mem_behindAlias (h : place ∈ behindAlias text) : place <:+ text := by
  obtain ⟨name, rest, rfl, -, rfl | ⟨front, rfl, rfl⟩⟩ := exists_of_mem_behindAlias h
  · exact (suffix_trimStart rest).trans (List.suffix_append name rest)
  · rw [List.append_assoc]
    exact List.suffix_append front _

theorem suffix_of_mem_behindNames (h : place ∈ behindNames text) : place <:+ text := by
  rcases exists_of_mem_behindNames h with ⟨list, rest, rfl, -, rfl⟩ | ⟨rest, rfl, hStar⟩
  · have hRest : rest <:+ '\x7b' :: (list ++ '\x7d' :: rest) :=
      ⟨'\x7b' :: (list ++ ['\x7d']), by simp⟩
    exact (suffix_trimStart rest).trans hRest
  · refine List.IsSuffix.trans ?_ (List.suffix_cons '*' rest)
    rcases hStar with rfl | ⟨tail, hTail, hAlias⟩
    · exact suffix_trimStart rest
    · have hAs : tail <:+ rest := (hTail ▸ List.suffix_append _ tail).trans (suffix_trimStart rest)
      exact (suffix_of_mem_behindAlias hAlias).trans ((suffix_trimStart tail).trans hAs)

theorem isRead_of_fromAt? (h : fromAt? line = some (tail, specifier)) :
    ∃ quote, IsRead line quote tail specifier := by
  simp only [fromAt?, Option.bind_eq_bind, Option.bind_eq_some_iff, Option.pure_def,
    Option.some.injEq, Prod.mk.injEq] at h
  obtain ⟨rest, hRest, found, hFound, hTail, rfl⟩ := h
  obtain ⟨gaps, hGaps, hAll⟩ := exists_skipGaps rest
  cases hSkip : skipGaps rest with
  | nil =>
    rw [hSkip] at hFound
    cases hFound
  | cons quote more =>
    rw [hSkip] at hFound hTail hGaps
    cases hTail
    refine ⟨quote, hFound, "from".toList ++ gaps, ?_, [], _, gaps, rfl, .inr rfl, hAll⟩
    rw [after?_eq_some_iff.1 hRest, hGaps, List.append_assoc]
    rfl

theorem isRead_of_exportAt? (h : exportAt? line = some (tail, specifier)) :
    ∃ quote, IsRead line quote tail specifier := by
  simp only [exportAt?, Option.bind_eq_bind, Option.bind_eq_some_iff] at h
  obtain ⟨rest, hRest, hFound⟩ := h
  obtain ⟨place, hPlace, hFrom⟩ := List.exists_of_findSome?_eq_some hFound
  obtain ⟨quote, hRead, head, rfl, hHead⟩ := isRead_of_fromAt? hFrom
  obtain ⟨gaps, hLine, -⟩ := eq_of_after? hRest
  obtain ⟨gaps', hRest', -⟩ := exists_skipGaps rest
  obtain ⟨names, hNames⟩ := suffix_of_mem_behindNames hPlace
  refine ⟨quote, hRead, gaps ++ "export".toList ++ gaps' ++ names ++ head, ?_, hHead.append _⟩
  rw [hLine, hRest', ← hNames]
  simp only [List.append_assoc]

/-- A reported specifier stands behind the head of a declaration, between a quote and the next
one. -/
theorem exists_of_mem_staticImports {source s : String} (h : s ∈ staticImports source) :
    ∃ front quote tail, source.toList = front ++ quote :: tail ∧ EndsHead front ∧
      quotedSpecifier? (quote :: tail) = some s.toList := by
  obtain ⟨f, hFound, rfl⟩ := mem_staticImports.1 h
  obtain ⟨before, line, tail, hText, quote, hRead, head, rfl, hHead⟩ :
      ∃ before line tail, source.toList = before ++ line ∧
        ∃ quote, IsRead line quote tail f.specifier := by
    rcases hFound with hFound | hFound
    · obtain ⟨before, line, tail, hText, hLine⟩ := exists_of_mem_scanFrom hFound
      exact ⟨before, line, tail, hText, isRead_of_importAt? hLine⟩
    · obtain ⟨before, line, tail, hText, hLine⟩ := exists_of_mem_scanFrom hFound
      exact ⟨before, line, tail, hText, isRead_of_exportAt? hLine⟩
  refine ⟨before ++ head, quote, tail, ?_, hHead.append before, ?_⟩
  · rw [hText, List.append_assoc]
  · rw [String.toList_ofList, hRead]

/-! ## Literals -/

section Literals

variable {literal rest rest' : List Char} {closing : Char}

theorem quotedSpecifier?_of_literal (hQuote : isQuote quote = true) (hLine : '\n' ∉ literal)
    (hSome : literal.takeWhile (!isQuote ·) ≠ []) (rest : List Char) :
    quotedSpecifier? (quote :: (literal ++ quote :: rest)) =
      some (literal.takeWhile (!isQuote ·)) := by
  refine quotedSpecifier?_eq_some_iff.2 ⟨hQuote, hSome, fun c hc => ⟨?_, ?_⟩, ?_⟩
  · simpa using List.mem_takeWhile_imp hc
  · rintro rfl
    exact hLine ((List.takeWhile_sublist _).subset hc)
  · rcases exists_stop (!isQuote ·) literal with hAll | ⟨body, closing, more, rfl, hClosing, hBody⟩
    · exact ⟨quote, rest, by rw [List.takeWhile_eq_self_iff.2 hAll], hQuote⟩
    · refine ⟨closing, more ++ quote :: rest, ?_, by simpa using hClosing⟩
      rw [takeWhile_stop hBody hClosing, List.append_assoc, List.cons_append]

/-- Where a literal stands, what is read is the part of it in front of the first quote, and the
whole of it exactly if the quote that ends it is of the same kind as the first one. -/
theorem read_of_literal (hQuote : isQuote quote = true) (hBody : ∀ c ∈ body, isQuote c = false)
    (hClosing : isQuote closing = true)
    (hText : body ++ closing :: rest = literal ++ quote :: rest') (hOwn : quote ∉ literal) :
    body = literal.takeWhile (!isQuote ·) ∧ (closing = quote ↔ body = literal) ∧
      (body = literal ↔ ∀ c ∈ literal, isQuote c = false) := by
  have hRead : body = literal.takeWhile (!isQuote ·) := by
    have hSame := congrArg (List.takeWhile (!isQuote ·)) hText
    rw [takeWhile_append_stop (by simp [hClosing]), takeWhile_append_stop (by simp [hQuote])] at hSame
    rw [← hSame, eq_comm, List.takeWhile_eq_self_iff]
    simpa using hBody
  refine ⟨hRead, ⟨?_, ?_⟩, ?_⟩
  · rintro rfl
    refine (eq_of_append_cons hText (fun hMem => ?_) hOwn).1
    cases (hBody _ hMem).symm.trans hClosing
  · rintro rfl
    exact (List.cons.inj (List.append_cancel_left hText)).1
  · rw [hRead, List.takeWhile_eq_self_iff]
    simp

end Literals

end ModuleLoader.ImportScan
