import Mathlib.Data.Bool.AllAny
import Mathlib.Data.List.TakeWhile
import ModuleLoader.Proofs.ImportScan.Line

/-! What the scanner makes of the start of a line. -/

namespace ModuleLoader.Text

theorem after?_append (word text : List Char) : after? word (word ++ text) = some text :=
  after?_eq_some_iff.2 rfl

/-- A character that is not in the word ends the search for it. -/
theorem after?_append_of_not_mem {word : List Char} {c : Char} (hc : c ∉ word)
    (text rest : List Char) :
    after? word (text ++ c :: rest) = (after? word text).map (· ++ c :: rest) := by
  induction word generalizing text with
  | nil => rfl
  | cons w word ih =>
    rw [List.mem_cons, not_or] at hc
    cases text with
    | nil => simp [after?, Ne.symm hc.1]
    | cons d text =>
      by_cases hd : w = d
      · simp [after?, hd, ih hc.2]
      · simp [after?, hd]

end ModuleLoader.Text

namespace ModuleLoader.ImportScan

open Text

variable {c quote : Char} {front text rest clause body : List Char}

/-! ## Characters -/

theorem isClause_of_isName (h : isName c = true) : isClause c = true := by simp [isClause, h]

theorem isClause_of_isBlank (h : isBlank c = true) : isClause c = true := by simp [isClause, h]

theorem isBlank_of_isGap (h : isGap c = true) : isBlank c = true := by
  simp only [isGap, Bool.or_eq_true, beq_iff_eq] at h
  rcases h with rfl | rfl <;> decide

theorem isClause_of_isGap (h : isGap c = true) : isClause c = true :=
  isClause_of_isBlank (isBlank_of_isGap h)

theorem isQuote_of_isClause (h : isClause c = true) : isQuote c = false := by
  rw [← Bool.not_eq_true]
  intro hQuote
  simp only [isQuote, Bool.or_eq_true, beq_iff_eq] at hQuote
  rcases hQuote with rfl | rfl <;> exact absurd h (by decide +kernel)

theorem isGap_of_isQuote (h : isQuote quote = true) : isGap quote = false := by
  rw [← Bool.not_eq_true]
  intro hGap
  have := isQuote_of_isClause (isClause_of_isGap hGap)
  rw [h] at this
  cases this

/-- The numbers of all blanks, and of some other characters that stand in no name. -/
def blankNumbers : List Nat :=
  List.range 0x21 ++ List.range' 0x2000 11 ++
    [0x85, 0xA0, 0x1680, 0x2028, 0x2029, 0x202F, 0x205F, 0x3000]

theorem isName_of_isBlank (h : isBlank c = true) : isName c = false := by
  have hMem : c.toNat ∈ blankNumbers := by
    simp only [isBlank, Bool.or_eq_true, Bool.and_eq_true, decide_eq_true_eq, beq_iff_eq] at h
    simp only [blankNumbers, List.mem_append, List.mem_range, List.mem_range'_1, List.mem_cons,
      List.not_mem_nil]
    omega
  have hEach : ∀ n ∈ blankNumbers, isName (Char.ofNat n) = false := by decide +kernel
  have hc := hEach c.toNat hMem
  rwa [Char.ofNat_toNat] at hc

theorem skipGaps_append (h : ∀ c ∈ text, isGap c = true) (rest : List Char) :
    skipGaps (text ++ rest) = skipGaps rest :=
  List.dropWhile_append_of_pos h

theorem skipGaps_cons (h : isGap c = false) (rest : List Char) :
    skipGaps (c :: rest) = c :: rest :=
  List.dropWhile_cons_of_neg (by simp [h])

/-- What comes behind a character that is no gap is not touched. -/
theorem skipGaps_append_cons (h : isGap c = false) (text rest : List Char) :
    skipGaps (text ++ c :: rest) = skipGaps text ++ c :: rest := by
  induction text with
  | nil => exact skipGaps_cons h rest
  | cons d text ih =>
    cases hd : isGap d with
    | true => simpa [skipGaps, hd] using ih
    | false => rw [List.cons_append, skipGaps_cons hd, skipGaps_cons hd, List.cons_append]

theorem exists_skipGaps (text : List Char) :
    ∃ gaps, text = gaps ++ skipGaps text ∧ ∀ c ∈ gaps, isGap c = true :=
  ⟨text.takeWhile isGap, List.takeWhile_append_dropWhile.symm, fun _ => List.mem_takeWhile_imp⟩

/-! ## Quotes -/

/-- A specifier is what stands between a quote and the next one, of either kind. -/
theorem quotedSpecifier?_eq_some_iff : quotedSpecifier? (quote :: text) = some body ↔
    isQuote quote = true ∧ body ≠ [] ∧ (∀ c ∈ body, isQuote c = false ∧ c ≠ '\n') ∧
      ∃ closing rest, text = body ++ closing :: rest ∧ isQuote closing = true := by
  let stays : Char → Bool := fun c => !isQuote c && c != '\n'
  have hRead : quotedSpecifier? (quote :: text) =
      if isQuote quote && !(text.takeWhile stays).isEmpty &&
        (text.drop (text.takeWhile stays).length).head?.any isQuote then
        some (text.takeWhile stays) else none := rfl
  rw [hRead]
  constructor
  · intro h
    split at h
    · next hFound =>
      cases h
      simp only [Bool.and_eq_true, Bool.not_eq_true', List.isEmpty_eq_false_iff] at hFound
      obtain ⟨⟨hQuote, hSome⟩, hNext⟩ := hFound
      obtain ⟨closing, hClosing, hEnd⟩ := (Option.any_eq_true _ _).1 hNext
      obtain ⟨rest, hRest⟩ := List.head?_eq_some_iff.1 hClosing
      refine ⟨hQuote, hSome, fun c hc => ?_, closing, rest, ?_, hEnd⟩
      · simpa [stays] using List.mem_takeWhile_imp hc
      · rw [← hRest]
        exact (List.prefix_iff_eq_append.1 (List.takeWhile_prefix stays)).symm
    · cases h
  · rintro ⟨hQuote, hSome, hBody, closing, rest, rfl, hClosing⟩
    have hTake : (body ++ closing :: rest).takeWhile stays = body := by
      rw [List.takeWhile_append_of_pos, List.takeWhile_cons_of_neg, List.append_nil]
      · simp [stays, hClosing]
      · intro c hc
        simp [stays, hBody c hc]
    simp [hTake, hQuote, hSome, hClosing]

/-- The specifier of a declaration is what is read between its quotes. -/
theorem Declaration.quotedSpecifier?_eq (d : Declaration) (rest : List Char) :
    quotedSpecifier? (d.quote :: (d.behind ++ rest)) = some d.specifier := by
  refine quotedSpecifier?_eq_some_iff.2 ⟨d.quoted, d.ne_nil, d.plain, d.quote,
    d.ending.text ++ rest, ?_, d.quoted⟩
  rw [behind, List.append_assoc, List.cons_append]

/-! ## Imports -/

theorem isClause_of_isImportClause (h : isImportClause clause = true) (hc : c ∈ clause) :
    isClause c = true := by
  obtain ⟨gaps, hReverse, hGaps⟩ := exists_skipGaps clause.reverse
  rw [isImportClause, Bool.or_eq_true] at h
  rcases h with hAll | hNamed
  · exact isClause_of_isGap (List.all_eq_true.1 hAll c hc)
  rw [← List.mem_reverse, hReverse, List.mem_append] at hc
  rcases hc with hc | hc
  · exact isClause_of_isGap (hGaps c hc)
  split at hNamed
  · next sep names hText =>
    rw [hText] at hc
    simp only [Bool.and_eq_true, Bool.or_eq_true, beq_iff_eq, List.all_eq_true] at hNamed
    obtain ⟨⟨hSep, -⟩, hNames⟩ := hNamed
    simp only [List.mem_cons] at hc
    rcases hc with rfl | rfl | rfl | rfl | rfl | hc
    · decide
    · decide
    · decide
    · decide
    · rcases hSep with hSep | rfl
      · exact isClause_of_isGap hSep
      · decide
    · exact hNames c hc
  · cases hNamed

theorem eq_of_after? {word : List Char} (h : after? word (skipGaps text) = some rest) :
    ∃ gaps, text = gaps ++ word ++ rest ∧ ∀ c ∈ gaps, isGap c = true := by
  obtain ⟨gaps, hText, hGaps⟩ := exists_skipGaps text
  refine ⟨gaps, ?_, hGaps⟩
  rw [List.append_assoc, ← after?_eq_some_iff.1 h]
  exact hText

/-- Up to the first quote of a line the scanner looks at what stands there, and from the quote on for a
specifier. -/
theorem importAt?_append (hFront : ∀ c ∈ front, isQuote c = false) (hQuote : isQuote quote = true)
    (rest : List Char) :
    importAt? (front ++ quote :: rest) =
      (after? "import".toList (skipGaps front)).bind fun clause =>
        (quotedSpecifier? (quote :: rest)).bind fun specifier =>
          if isImportClause clause then some (rest, specifier) else none := by
  have hNot : quote ∉ "import".toList := by
    intro hMem
    have hEach : ∀ c ∈ "import".toList, isQuote c = false :=
      List.all_iff_forall_prop.1 (by decide)
    rw [hEach quote hMem] at hQuote
    cases hQuote
  rw [importAt?, skipGaps_append_cons (isGap_of_isQuote hQuote), after?_append_of_not_mem hNot]
  cases hClause : after? "import".toList (skipGaps front) with
  | none => rfl
  | some clause =>
    have hFree : ∀ c ∈ clause, isQuote c = false := by
      intro c hc
      obtain ⟨gaps, hText, -⟩ := eq_of_after? hClause
      exact hFront c (by simp [hText, hc])
    have hTake : (clause ++ quote :: rest).takeWhile (!isQuote ·) = clause := by
      rw [List.takeWhile_append_of_pos (by simpa using hFree),
        List.takeWhile_cons_of_neg (by simp [hQuote]), List.append_nil]
    simp [hTake]

/-- A character that no list of imports has ends the search for a specifier. -/
theorem importAt?_of_mem
    (h : ∀ rest ∈ after? "import".toList (skipGaps text), ∃ c ∈ rest.takeWhile (!isQuote ·),
      isClause c = false) : importAt? text = none := by
  rw [importAt?]
  cases hRest : after? "import".toList (skipGaps text) with
  | none => rfl
  | some rest =>
    obtain ⟨c, hc, hOut⟩ := h rest hRest
    have hNot : isImportClause (rest.takeWhile (!isQuote ·)) = false := by
      rw [← Bool.not_eq_true]
      intro hClause
      rw [isClause_of_isImportClause hClause hc] at hOut
      cases hOut
    cases hSpecifier : quotedSpecifier? (rest.drop (rest.takeWhile (!isQuote ·)).length) <;>
      simp [hNot, hSpecifier]

theorem importAt?_append_of_not_clause (hFront : ∀ c ∈ front, isQuote c = false)
    (hOut : isClause c = false) (hQuote : isQuote c = false) (rest : List Char) :
    importAt? (front ++ c :: rest) = none := by
  have hGap : isGap c = false := by
    rw [← Bool.not_eq_true]
    intro hGap
    rw [isClause_of_isGap hGap] at hOut
    cases hOut
  have hWord : c ∉ "import".toList := by
    intro hMem
    have hEach : ∀ d ∈ "import".toList, isClause d = true :=
      List.all_iff_forall_prop.1 (by decide)
    rw [hEach c hMem] at hOut
    cases hOut
  refine importAt?_of_mem fun clause hClause => ⟨c, ?_, hOut⟩
  rw [skipGaps_append_cons hGap, after?_append_of_not_mem hWord] at hClause
  obtain ⟨start, hStart, rfl⟩ := Option.map_eq_some_iff.1 hClause
  have hFree : ∀ d ∈ start, (!isQuote d) = true := by
    intro d hd
    obtain ⟨gaps, hText, -⟩ := eq_of_after? hStart
    simp [hFront d (by simp [hText, hd])]
  rw [List.takeWhile_append_of_pos hFree, List.takeWhile_cons_of_pos (by simp [hQuote])]
  simp

/-- Only what the declaration itself imports can be found at the start of a line in front of its
specifier. -/
theorem Declaration.importAt?_cases (d : Declaration) (hFront : ∀ c ∈ front, isQuote c = false)
    (rest : List Char) :
    importAt? (front ++ d.quote :: (d.behind ++ rest)) = none ∨
      importAt? (front ++ d.quote :: (d.behind ++ rest)) = some (d.behind ++ rest, d.specifier) := by
  rw [importAt?_append hFront d.quoted, d.quotedSpecifier?_eq]
  cases hClause : after? "import".toList (skipGaps front) with
  | none => exact .inl rfl
  | some clause =>
    cases hImport : isImportClause clause with
    | false => exact .inl (by simp [hImport])
    | true => exact .inr (by simp [hImport])

theorem isImportClause_from (hSome : clause ≠ []) (hAll : ∀ c ∈ clause, isClause c = true) :
    isImportClause (clause ++ " from ".toList) = true := by
  have hReverse : (clause ++ " from ".toList).reverse =
      ' ' :: 'm' :: 'o' :: 'r' :: 'f' :: ' ' :: clause.reverse := by
    simp
  have hSkip : skipGaps (' ' :: 'm' :: 'o' :: 'r' :: 'f' :: ' ' :: clause.reverse) =
      'm' :: 'o' :: 'r' :: 'f' :: ' ' :: clause.reverse := rfl
  rw [isImportClause, hReverse, hSkip, Bool.or_eq_true]
  right
  simp only [Bool.and_eq_true, Bool.not_eq_true', List.isEmpty_eq_false_iff, ne_eq,
    List.reverse_eq_nil_iff, List.all_eq_true, List.mem_reverse]
  exact ⟨⟨by decide, hSome⟩, hAll⟩

theorem importAt?_of_clause {indent : List Char} (hIndent : ∀ c ∈ indent, isGap c = true)
    (hClause : isImportClause clause = true) (h : quotedSpecifier? (quote :: text) = some body) :
    importAt? (indent ++ "import".toList ++ clause ++ quote :: text) = some (text, body) := by
  have hFront : ∀ c ∈ indent ++ "import".toList ++ clause, isQuote c = false := by
    intro c hc
    refine isQuote_of_isClause ?_
    rw [List.mem_append, List.mem_append] at hc
    rcases hc with (hc | hc) | hc
    · exact isClause_of_isGap (hIndent c hc)
    · have hWord : ∀ d ∈ "import".toList, isClause d = true :=
        List.all_iff_forall_prop.1 (by decide)
      exact hWord c hc
    · exact isClause_of_isImportClause hClause hc
  have hSkip : skipGaps (indent ++ "import".toList ++ clause) = "import".toList ++ clause := by
    rw [List.append_assoc, skipGaps_append hIndent]
    rfl
  rw [importAt?_append hFront (quotedSpecifier?_eq_some_iff.1 h).1, h, hSkip, after?_append]
  simp [hClause]

theorem isClause_of_isListed (h : isListed c = true) : isClause c = true := by
  simp only [isListed, Bool.or_eq_true, beq_iff_eq] at h
  rcases h with (hName | rfl) | hBlank
  · exact isClause_of_isName hName
  · decide +kernel
  · exact isClause_of_isBlank hBlank

theorem Name.isClause_asWhole (name : Name) : ∀ c ∈ name.asWhole, isClause c = true := by
  have hStar : ∀ c ∈ "* as ".toList, isClause c = true :=
    List.all_iff_forall_prop.1 (by decide)
  intro c hc
  exact (List.mem_append.1 hc).elim (hStar c) fun hc => isClause_of_isName (name.named c hc)

theorem NameList.isClause_inBraces (list : NameList) : ∀ c ∈ list.inBraces, isClause c = true := by
  intro c hc
  rw [inBraces, List.cons_append, List.mem_cons, List.mem_append, List.mem_singleton] at hc
  rcases hc with rfl | hc | rfl
  · decide
  · exact isClause_of_isListed (list.listed c hc)
  · decide

theorem Taken.isClause_text (taken : Taken) : ∀ c ∈ taken.text, isClause c = true := by
  have hComma : ∀ c ∈ ", ".toList, isClause c = true :=
    List.all_iff_forall_prop.1 (by decide)
  have hName : ∀ name : Name, ∀ c ∈ name.text, isClause c = true :=
    fun name c hc => isClause_of_isName (name.named c hc)
  cases taken with
  | default name => exact hName name
  | whole name => exact name.isClause_asWhole
  | names list => exact list.isClause_inBraces
  | defaultAndNames name list =>
    simp only [Taken.text, List.forall_mem_append]
    exact ⟨⟨hName name, hComma⟩, list.isClause_inBraces⟩
  | defaultAndWhole name other =>
    simp only [Taken.text, List.forall_mem_append]
    exact ⟨⟨hName name, hComma⟩, other.isClause_asWhole⟩

theorem Clause.importAt?_eq_some (clause : Clause) {indent : List Char}
    (hIndent : ∀ c ∈ indent, isGap c = true) (hImports : ∀ passed, clause ≠ .passes passed)
    (h : quotedSpecifier? (quote :: text) = some body) :
    importAt? (indent ++ clause.text ++ quote :: text) = some (text, body) := by
  cases clause with
  | passes passed => exact absurd rfl (hImports passed)
  | bare =>
    have hBlank : isImportClause [' '] = true := by decide
    unfold Clause.text importing
    simpa using importAt?_of_clause hIndent hBlank h
  | takes taken =>
    have hFrom : isImportClause (' ' :: taken.text ++ " from ".toList) = true := by
      refine isImportClause_from (List.cons_ne_nil _ _) fun c hc => ?_
      rcases List.mem_cons.1 hc with rfl | hc
      · decide
      · exact taken.isClause_text c hc
    unfold Clause.text importing
    simpa using importAt?_of_clause hIndent hFrom h

theorem Declaration.importAt?_eq_some (d : Declaration) {indent : List Char}
    (hIndent : ∀ c ∈ indent, isGap c = true) (h : ∀ passed, d.clause ≠ .passes passed)
    (rest : List Char) :
    importAt? (indent ++ d.clause.text ++ d.quote :: (d.behind ++ rest)) =
      some (d.behind ++ rest, d.specifier) :=
  d.clause.importAt?_eq_some hIndent h (d.quotedSpecifier?_eq rest)

/-! ## Exports -/

theorem behindNames_of_head? (h : ∀ c ∈ text.head?, c ≠ '*' ∧ c ≠ '\x7b') :
    behindNames text = [] := by
  unfold behindNames
  split
  · exact absurd rfl (h '*' rfl).1
  · exact absurd rfl (h '\x7b' rfl).2
  · rfl

/-- A character that starts no list of exports ends the search for one. -/
theorem exportAt?_append (hFront : ∀ c ∈ front, c ≠ '*' ∧ c ≠ '\x7b') (hc : c ≠ '*' ∧ c ≠ '\x7b')
    (hGap : isGap c = false) (hWord : c ∉ "export".toList) (rest : List Char) :
    exportAt? (front ++ c :: rest) = none := by
  rw [exportAt?, skipGaps_append_cons hGap, after?_append_of_not_mem hWord]
  cases hText : after? "export".toList (skipGaps front) with
  | none => rfl
  | some text =>
    obtain ⟨gaps, hEq, -⟩ := eq_of_after? hText
    obtain ⟨gaps', hEq', -⟩ := exists_skipGaps text
    have hHead : ∀ d ∈ (skipGaps text ++ c :: rest).head?, d ≠ '*' ∧ d ≠ '\x7b' := by
      intro d hd
      cases hSkip : skipGaps text with
      | nil =>
        rw [hSkip] at hd
        cases hd
        exact hc
      | cons e more =>
        rw [hSkip] at hd
        cases hd
        exact hFront d (by rw [hEq, hEq', hSkip]; simp)
    have hNames : behindNames (skipGaps (text ++ c :: rest)) = [] := by
      rw [skipGaps_append_cons hGap]
      exact behindNames_of_head? hHead
    simp [hNames]

theorem fromAt?_eq (h : quotedSpecifier? (quote :: text) = some body) :
    fromAt? ("from ".toList ++ quote :: text) = some (text, body) := by
  have hAfter : after? "from".toList ("from ".toList ++ quote :: text) =
      some (' ' :: quote :: text) :=
    after?_append "from".toList (' ' :: quote :: text)
  have hSkip : skipGaps (' ' :: quote :: text) = quote :: text :=
    skipGaps_cons (isGap_of_isQuote (quotedSpecifier?_eq_some_iff.1 h).1) _
  rw [fromAt?, hAfter]
  simp only [Option.bind_eq_bind, Option.bind_some, hSkip, h]
  rfl

theorem trimStart_from (rest : List Char) :
    trimStart (" from ".toList ++ rest) = "from ".toList ++ rest := rfl

theorem behindNames_inBraces (list : NameList) (rest : List Char) :
    behindNames (list.inBraces ++ rest) = [trimStart rest] := by
  have hOpen : ∀ c ∈ list.text, (c != '\x7d') = true := by
    intro c hc
    rw [bne_iff_ne]
    rintro rfl
    exact absurd (list.listed _ hc) (by decide +kernel)
  have hClose : (list.text ++ ['\x7d'] ++ rest).dropWhile (· != '\x7d') = '\x7d' :: rest := by
    rw [List.append_assoc, List.dropWhile_append_of_pos hOpen]
    rfl
  rw [NameList.inBraces, List.cons_append, List.cons_append]
  simp only [behindNames, hClose]

theorem behindAlias_name (name : Name) (rest : List Char) :
    ∃ more, behindAlias (name.text ++ (" from ".toList ++ rest)) =
      ("from ".toList ++ rest) :: more := by
  have hSpace : isName ' ' = false := isName_of_isBlank (by decide)
  have hName : (name.text ++ (" from ".toList ++ rest)).takeWhile isName = name.text := by
    rw [List.takeWhile_append_of_pos name.named]
    have hStop : (' ' :: ("from ".toList ++ rest)).takeWhile isName = [] :=
      List.takeWhile_cons_of_neg (by simp [hSpace])
    exact (congrArg (name.text ++ ·) hStop).trans (List.append_nil _)
  have hSome : name.text.isEmpty = false := List.isEmpty_eq_false_iff.2 name.ne_nil
  simp only [behindAlias, hName, hSome, List.drop_left, trimStart_from]
  exact ⟨_, rfl⟩

theorem trimStart_name (name : Name) (rest : List Char) :
    trimStart (name.text ++ rest) = name.text ++ rest := by
  obtain ⟨first, more, hText⟩ := List.exists_cons_of_ne_nil name.ne_nil
  have hFirst : isBlank first = false := by
    rw [← Bool.not_eq_true]
    intro hBlank
    have hName := name.named first (by simp [hText])
    rw [isName_of_isBlank hBlank] at hName
    cases hName
  rw [hText, List.cons_append]
  exact List.dropWhile_cons_of_neg (by simp [hFirst])

theorem behindStar_as (text : List Char) :
    behindStar (" as ".toList ++ text) =
      ("as ".toList ++ text) :: behindAlias (trimStart (' ' :: text)) := by
  have hTrim : trimStart (" as ".toList ++ text) = "as ".toList ++ text := rfl
  have hAs : after? "as".toList ("as ".toList ++ text) = some (' ' :: text) := rfl
  have hLength : ("as ".toList ++ text).length < (" as ".toList ++ text).length := by
    rw [List.length_append, List.length_append]
    exact Nat.add_lt_add_right (by decide) _
  have hBlank : isBlank ' ' = true := by decide
  simp only [behindStar, hTrim, hAs, Option.bind_eq_bind, Option.bind_some, hLength, decide_true,
    List.head?_cons, Option.any_some, hBlank, Bool.and_self, if_true, Option.getD_some]

theorem behindNames_as (name : Name) (rest : List Char) :
    ∃ more, behindNames (name.asWhole ++ (" from ".toList ++ rest)) =
      ("as ".toList ++ (name.text ++ (" from ".toList ++ rest))) ::
        ("from ".toList ++ rest) :: more := by
  obtain ⟨more, hAlias⟩ := behindAlias_name name rest
  have hTrim : trimStart (' ' :: (name.text ++ (" from ".toList ++ rest))) =
      name.text ++ (" from ".toList ++ rest) := trimStart_name name _
  refine ⟨more, ?_⟩
  have hStar := behindStar_as (name.text ++ (" from ".toList ++ rest))
  rw [hTrim, hAlias] at hStar
  rw [Name.asWhole, List.append_assoc]
  exact hStar

/-- The specifier is found behind whatever an export passes on. -/
theorem Passed.findSome?_behindNames (passed : Passed)
    (h : quotedSpecifier? (quote :: text) = some body) :
    (behindNames (passed.text ++ (" from ".toList ++ quote :: text))).findSome? fromAt? =
      some (text, body) := by
  cases passed with
  | all =>
    have hStar : ∃ more, behindNames ('*' :: (" from ".toList ++ quote :: text)) =
        ("from ".toList ++ quote :: text) :: more := ⟨_, rfl⟩
    obtain ⟨more, hNames⟩ := hStar
    rw [Passed.text, List.singleton_append, hNames, List.findSome?_cons, fromAt?_eq h]
  | allAs name =>
    obtain ⟨more, hNames⟩ := behindNames_as name (quote :: text)
    have hNone : ∀ text, fromAt? ("as ".toList ++ text) = none := fun _ => rfl
    rw [Passed.text, hNames, List.findSome?_cons, hNone]
    simp only [List.findSome?_cons, fromAt?_eq h]
  | names list =>
    rw [Passed.text, behindNames_inBraces, trimStart_from, List.findSome?_cons, fromAt?_eq h]

theorem exportAt?_exporting {indent : List Char} (hIndent : ∀ c ∈ indent, isGap c = true)
    (text : List Char) :
    exportAt? (indent ++ exporting text) = (behindNames (skipGaps text)).findSome? fromAt? := by
  have hWord : after? "export".toList (skipGaps (exporting text)) = some (' ' :: text) := rfl
  rw [exportAt?, skipGaps_append hIndent, hWord]
  rfl

theorem Passed.clause_text_append (passed : Passed) (rest : List Char) :
    (Clause.passes passed).text ++ rest =
      exporting (passed.text ++ (" from ".toList ++ rest)) := by
  rw [Clause.text]
  unfold exporting
  simp only [List.append_assoc]

theorem Passed.exportAt?_eq_some (passed : Passed) {indent : List Char}
    (hIndent : ∀ c ∈ indent, isGap c = true) (h : quotedSpecifier? (quote :: text) = some body) :
    exportAt? (indent ++ (Clause.passes passed).text ++ quote :: text) = some (text, body) := by
  have hSkip : ∀ text, skipGaps (passed.text ++ text) = passed.text ++ text := by
    intro text
    cases passed <;> rfl
  rw [List.append_assoc, passed.clause_text_append, exportAt?_exporting hIndent, hSkip,
    passed.findSome?_behindNames h]

theorem Declaration.exportAt?_eq_some (d : Declaration) {indent : List Char}
    (hIndent : ∀ c ∈ indent, isGap c = true) {passed : Passed} (h : d.clause = .passes passed)
    (rest : List Char) :
    exportAt? (indent ++ d.clause.text ++ d.quote :: (d.behind ++ rest)) =
      some (d.behind ++ rest, d.specifier) := by
  rw [h]
  exact passed.exportAt?_eq_some hIndent (d.quotedSpecifier?_eq rest)

end ModuleLoader.ImportScan
