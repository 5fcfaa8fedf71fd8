import ModuleLoader.Proofs.ImportScan.Reported

/-! What the scanner makes of the literals of declarations, in any text.  It takes a quote of either
kind for the end of a literal, so a specifier is reported as a whole exactly if the other kind of
quote is not in it. -/

namespace ModuleLoader.ImportScan

open Text

variable {search : Search} {total skip : Nat} {atStart : Bool} {quote : Char}
variable {text line front lead tail specifier place body part : List Char}

/-! ## Lines of a text -/

theorem endsLine_concat (atStart : Bool) (text : List Char) (c : Char) :
    endsLine atStart (text ++ [c]) = (c == '\n') := by
  rw [endsLine, List.foldl_concat]

theorem exists_newline (h : endsLine true (front ++ part) = true) (hSome : part ≠ []) :
    ∃ start, part = start ++ ['\n'] := by
  obtain ⟨start, c, rfl⟩ := part.eq_nil_or_concat.resolve_left hSome
  rw [List.concat_eq_append, ← List.append_assoc, endsLine_concat, beq_iff_eq] at h
  exact ⟨start, by rw [List.concat_eq_append, h]⟩

/-- What is cut off in front of a line, and does not reach it. -/
theorem suffix_of_append (h : '\n' :: line <:+ part ++ text) (hPart : '\n' ∉ part) :
    '\n' :: line <:+ text := by
  induction part with
  | nil => exact h
  | cons c part ih =>
    rw [List.mem_cons, not_or] at hPart
    rcases List.suffix_cons_iff.1 h with hEq | hSuffix
    · exact absurd (List.cons.inj hEq).1 hPart.1
    · exact ih hSuffix hPart.2

/-- Blanks may reach into a line. -/
theorem suffix_trimStart_or (h : '\n' :: line <:+ text) :
    '\n' :: line <:+ trimStart text ∨ trimStart text = trimStart line := by
  induction text with
  | nil => simp at h
  | cons c text ih =>
    rcases List.suffix_cons_iff.1 h with hEq | hSuffix
    · cases hEq
      exact .inr rfl
    · cases hBlank : isBlank c with
      | true =>
        have hTrim : trimStart (c :: text) = trimStart text := by simp [trimStart, hBlank]
        rw [hTrim]
        exact ih hSuffix
      | false =>
        have hTrim : trimStart (c :: text) = c :: text := by simp [trimStart, hBlank]
        rw [hTrim]
        exact .inl h

/-- A specifier that is read in front of a line ends in front of it. -/
theorem length_of_read (h : '\n' :: line <:+ tail)
    (hRead : quotedSpecifier? (quote :: tail) = some specifier) :
    line.length + specifier.length + 1 ≤ tail.length := by
  obtain ⟨-, -, hPlain, closing, rest, rfl, hClosing⟩ := quotedSpecifier?_eq_some_iff.1 hRead
  have hNewline : '\n' ∉ specifier ++ [closing] := by
    rw [List.mem_append, List.mem_singleton, not_or]
    refine ⟨fun hMem => (hPlain _ hMem).2 rfl, ?_⟩
    rintro rfl
    cases hClosing
  have hSplit : specifier ++ closing :: rest = (specifier ++ [closing]) ++ rest := by simp
  rw [hSplit] at h
  have hLength := (suffix_of_append h hNewline).length_le
  simp only [List.length_cons, List.length_append] at hLength ⊢
  omega

/-! ## Declarations anywhere in a text -/

/-- A declaration is found if what is found before it ends before it, or is the same. -/
theorem mem_scanFrom {whole : List Char} (hLine : search line = some (tail, specifier))
    (hSome : line ≠ []) (hEnds : endsLine true whole = true)
    (hBefore : ∀ done start, whole = done ++ (start ++ ['\n']) → endsLine true done = true →
      ∀ found, search (start ++ '\n' :: line) = some found →
        found = (tail, specifier) ∨ line.length + found.2.length + 1 ≤ found.1.length)
    (done : List Char) (hWhole : whole = done ++ front) (hSkip : skip ≤ front.length) :
    ⟨total - tail.length, specifier⟩ ∈
      scanFrom search total (endsLine true done) skip (front ++ line) := by
  -- On what is left in front of the line: what is still to skip ends there.
  induction front generalizing done skip with
  | nil =>
    obtain ⟨c, rest, rfl⟩ := List.exists_cons_of_ne_nil hSome
    obtain rfl : skip = 0 := Nat.le_zero.1 hSkip
    rw [List.append_nil] at hWhole
    subst hWhole
    rw [List.nil_append, scanFrom, hEnds]
    simp [hLine]
  | cons c front ih =>
    have hLater : ∀ {skip}, skip ≤ front.length → ⟨total - tail.length, specifier⟩ ∈
        scanFrom search total (c == '\n') skip (front ++ line) := by
      intro skip hSkip
      rw [← endsLine_concat true done c]
      exact ih (done ++ [c]) (by rw [hWhole, List.append_assoc]; rfl) hSkip
    cases skip with
    | succ skip => exact hLater (Nat.le_of_succ_le_succ hSkip)
    | zero =>
      rw [List.cons_append, scanFrom]
      cases hStart : endsLine true done with
      | false => exact hLater (Nat.zero_le _)
      | true =>
        cases hSearch : search (c :: (front ++ line)) with
        | none => exact hLater (Nat.zero_le _)
        | some found =>
          obtain ⟨start, hPart⟩ := exists_newline (hWhole ▸ hEnds) (List.cons_ne_nil c front)
          have hText : c :: (front ++ line) = start ++ '\n' :: line := by
            rw [← List.cons_append, hPart]
            simp
          rw [hText] at hSearch
          rw [hPart] at hWhole
          rcases hBefore done start hWhole hStart found hSearch with rfl | hLength
          · exact List.mem_cons_self
          · refine List.mem_cons_of_mem _ (hLater ?_)
            rw [List.length_append]
            omega

/-! ## Imports -/

section Imports

variable {found : List Char × List Char} {start : List Char}

theorem read_of_importAt? (hFront : ∀ c ∈ front, isQuote c = false) (hQuote : isQuote quote = true)
    (h : importAt? (front ++ quote :: text) = some found) :
    found.1 = text ∧ quotedSpecifier? (quote :: text) = some found.2 := by
  rw [importAt?_append hFront hQuote] at h
  obtain ⟨clause, -, hClause⟩ := Option.bind_eq_some_iff.1 h
  obtain ⟨specifier, hSpecifier, hFound⟩ := Option.bind_eq_some_iff.1 hClause
  split at hFound
  · cases hFound
    exact ⟨rfl, hSpecifier⟩
  · cases hFound

/-- An import that starts in front of a line ends there, or with the first quote of the line. -/
theorem importAt?_before (hLead : ∀ c ∈ lead, isQuote c = false)
    (hRead : quotedSpecifier? (quote :: text) = some body)
    (h : importAt? (start ++ '\n' :: (lead ++ quote :: text)) = some found) :
    found = (text, body) ∨
      (lead ++ quote :: text).length + found.2.length + 1 ≤ found.1.length := by
  rcases exists_stop (!isQuote ·) start with hAll | ⟨before, first, rest, rfl, hFirst, hBefore⟩
  · have hFront : ∀ c ∈ start ++ '\n' :: lead, isQuote c = false := by
      rw [List.forall_mem_append, List.forall_mem_cons]
      exact ⟨by simpa using hAll, rfl, hLead⟩
    have hSplit : start ++ '\n' :: (lead ++ quote :: text) =
        (start ++ '\n' :: lead) ++ quote :: text := by simp
    rw [hSplit] at h
    obtain ⟨hTail, hBody⟩ := read_of_importAt? hFront (quotedSpecifier?_eq_some_iff.1 hRead).1 h
    exact .inl (Prod.ext hTail (Option.some.inj (hBody.symm.trans hRead)))
  · rw [List.append_assoc, List.cons_append] at h
    obtain ⟨hTail, hBody⟩ := read_of_importAt? (by simpa using hBefore) (by simpa using hFirst) h
    rw [hTail]
    exact .inr (length_of_read (List.suffix_append rest _) hBody)

end Imports

/-! ## Exports -/

section Exports

variable {found : List Char × List Char} {start : List Char}

/-- What `from` stands behind is on the line of its specifier. -/
theorem exists_of_fromAt? (h : fromAt? place = some found) :
    ∃ head quote, place = (head ++ [quote]) ++ found.1 ∧ '\n' ∉ head ++ [quote] ∧
      quotedSpecifier? (quote :: found.1) = some found.2 := by
  simp only [fromAt?, Option.bind_eq_bind, Option.bind_eq_some_iff, Option.pure_def,
    Option.some.injEq] at h
  obtain ⟨rest, hRest, specifier, hRead, rfl⟩ := h
  obtain ⟨gaps, hGaps, hAll⟩ := exists_skipGaps rest
  cases hSkip : skipGaps rest with
  | nil =>
    rw [hSkip] at hRead
    cases hRead
  | cons quote more =>
    rw [hSkip] at hRead hGaps
    refine ⟨"from".toList ++ gaps, quote, ?_, ?_, hRead⟩
    · rw [after?_eq_some_iff.1 hRest, hGaps]
      simp
    · rw [List.mem_append, List.mem_append, List.mem_singleton]
      rintro ((hMem | hMem) | rfl)
      · exact absurd hMem (by decide)
      · exact newline_not_mem_indent hAll hMem
      · cases (quotedSpecifier?_eq_some_iff.1 hRead).1

/-- `from` stands in front of the line, where the line does not start with it. -/
theorem suffix_of_fromAt? (hLine : fromAt? (trimStart line) = none) (h : '\n' :: line <:+ text)
    (hFrom : fromAt? (trimStart text) = some found) : '\n' :: line <:+ trimStart text := by
  refine (suffix_trimStart_or h).resolve_right fun hEq => ?_
  rw [hEq, hLine] at hFrom
  cases hFrom

theorem takeWhile_isName_exporting (text : List Char) :
    (exporting text).takeWhile isName = "export".toList := by
  have hSpace : isName ' ' = false := isName_of_isBlank (by decide)
  have hWord : ∀ c ∈ "export".toList, isName c = true := by decide +kernel
  have hSplit : exporting text = "export".toList ++ ' ' :: text := rfl
  rw [hSplit, takeWhile_append_stop hSpace, List.takeWhile_eq_self_iff.2 hWord]

theorem behindAlias_exporting (text : List Char) :
    behindAlias (exporting text) = [trimStart text] := by
  have hSplit : exporting text = "export".toList ++ ' ' :: text := rfl
  rw [behindAlias, takeWhile_isName_exporting, hSplit, List.drop_left]
  rfl

/-- No `from` behind an alias is looked for across a line that exports names. -/
theorem suffix_of_mem_behindAlias_fromAt? (hLine : trimStart line = exporting text)
    (hText : fromAt? (trimStart text) = none) (h : '\n' :: line <:+ body)
    (hPlace : place ∈ behindAlias (trimStart body)) (hFrom : fromAt? place = some found) :
    '\n' :: line <:+ place := by
  have hNone : fromAt? (trimStart line) = none := by
    rw [hLine]
    rfl
  rcases suffix_trimStart_or h with hTrim | hTrim
  · obtain ⟨name, rest, hBody, hName, hRest⟩ := exists_of_mem_behindAlias hPlace
    have hNewline : '\n' ∉ name := fun hMem => by
      have hNot : isName '\n' = false := isName_of_isBlank (by decide)
      rw [hName _ hMem] at hNot
      cases hNot
    rw [hBody] at hTrim
    have hSuffix := suffix_of_append hTrim hNewline
    rcases hRest with rfl | ⟨-, -, rfl⟩
    · exact suffix_of_fromAt? hNone hSuffix hFrom
    · exact hSuffix.trans (List.suffix_append _ rest)
  · rw [hTrim, hLine, behindAlias_exporting, List.mem_singleton] at hPlace
    rw [hPlace, hText] at hFrom
    cases hFrom

/-- Every list of exports that is opened at the start of a line is closed in the text. -/
def ListsClosed (text : List Char) : Prop :=
  ∀ before indent gaps list,
    text = before ++ (indent ++ "export".toList ++ gaps ++ '\x7b' :: list) →
      endsLine true before = true → (∀ c ∈ indent, isGap c = true) →
        (∀ c ∈ gaps, isGap c = true) → '\x7d' ∈ list

/-- A list of exports that is opened right at the start is closed in the text. -/
def ClosesList (start : List Char) : Prop :=
  ∀ indent gaps list, start = indent ++ "export".toList ++ gaps ++ '\x7b' :: list →
    (∀ c ∈ indent, isGap c = true) → (∀ c ∈ gaps, isGap c = true) → '\x7d' ∈ list

theorem ListsClosed.closesList {before start : List Char} (h : ListsClosed (before ++ start ++ ['\n']))
    (hEnds : endsLine true before = true) : ClosesList start := by
  rintro indent gaps list rfl hIndent hGaps
  have hClosed := h before indent gaps (list ++ ['\n']) (by simp) hEnds hIndent hGaps
  simpa using hClosed

theorem listsClosed_of_not_mem (h : '\x7b' ∉ text) : ListsClosed text := by
  rintro before indent gaps list rfl
  simp at h

theorem suffix_of_mem_behindNames_fromAt? (hLine : trimStart line = exporting text)
    (hText : fromAt? (trimStart text) = none)
    (hClosed : ∀ list, start = '\x7b' :: list → '\x7d' ∈ list)
    (hPlace : place ∈ behindNames (start ++ '\n' :: line)) (hFrom : fromAt? place = some found) :
    '\n' :: line <:+ place := by
  have hNone : fromAt? (trimStart line) = none := by
    rw [hLine]
    rfl
  rcases exists_of_mem_behindNames hPlace with
    ⟨list, rest, hNames, hList, rfl⟩ | ⟨rest, hNames, hStar⟩
  · cases start with
    | nil => cases (List.cons.inj hNames).1
    | cons c more =>
      -- The list ends at the first closing brace, which stands in front of the line.
      obtain ⟨rfl, hMore⟩ := List.cons.inj hNames
      obtain ⟨closed, behind, rfl, hFree⟩ := List.eq_append_cons_of_mem (hClosed more rfl)
      have hCut : closed ++ '\x7d' :: (behind ++ '\n' :: line) = list ++ '\x7d' :: rest := by
        rw [← hMore]
        simp
      obtain ⟨-, rfl⟩ := eq_of_append_cons hCut hFree hList
      exact suffix_of_fromAt? hNone (List.suffix_append behind _) hFrom
  · cases start with
    | nil => cases (List.cons.inj hNames).1
    | cons c more =>
      obtain ⟨rfl, hMore⟩ := List.cons.inj hNames
      have hSuffix : '\n' :: line <:+ rest := ⟨more, hMore⟩
      rcases hStar with rfl | ⟨tail, hTail, hAlias⟩
      · exact suffix_of_fromAt? hNone hSuffix hFrom
      · have hAs : '\n' :: line <:+ "as".toList ++ tail := by
          rw [← hTail]
          refine (suffix_trimStart_or hSuffix).resolve_right fun hEq => ?_
          rw [hEq, hLine] at hTail
          exact absurd (List.cons.inj hTail).1 (by decide)
        have hBehind := suffix_of_append hAs (by decide)
        exact suffix_of_mem_behindAlias_fromAt? hLine hText hBehind hAlias hFrom

/-- An export that starts in front of a line ends there, if no list that it opens reaches into the
line. -/
theorem exportAt?_before (hLine : trimStart line = exporting text)
    (hText : fromAt? (trimStart text) = none) (hClosed : ClosesList start)
    (h : exportAt? (start ++ '\n' :: line) = some found) :
    line.length + found.2.length + 1 ≤ found.1.length := by
  have hGap : isGap '\n' = false := by decide
  rw [exportAt?, skipGaps_append_cons hGap, after?_append_of_not_mem (by decide)] at h
  cases hRest : after? "export".toList (skipGaps start) with
  | none =>
    rw [hRest] at h
    cases h
  | some rest =>
    simp only [hRest, Option.map_some, Option.bind_eq_bind, Option.bind_some,
      skipGaps_append_cons hGap] at h
    obtain ⟨place, hPlace, hFrom⟩ := List.exists_of_findSome?_eq_some h
    have hList : ∀ list, skipGaps rest = '\x7b' :: list → '\x7d' ∈ list := by
      intro list hList
      obtain ⟨indent, hStart, hIndent⟩ := eq_of_after? hRest
      obtain ⟨gaps, hGaps, hAll⟩ := exists_skipGaps rest
      refine hClosed indent gaps list ?_ hIndent hAll
      rw [hStart, hGaps, hList]
      simp only [List.append_assoc]
    have hSuffix := suffix_of_mem_behindNames_fromAt? hLine hText hList hPlace hFrom
    obtain ⟨head, quote, hSplit, hHead, hRead⟩ := exists_of_fromAt? hFrom
    rw [hSplit] at hSuffix
    exact length_of_read (suffix_of_append hSuffix hHead) hRead

theorem Passed.exportAt?_before (passed : Passed) {indent : List Char}
    (hIndent : ∀ c ∈ indent, isGap c = true)
    (hLine : line = indent ++ (Clause.passes passed).text ++ text) (hClosed : ClosesList start)
    (h : exportAt? (start ++ '\n' :: line) = some found) :
    line.length + found.2.length + 1 ≤ found.1.length := by
  have hTrim : trimStart line = exporting (passed.text ++ (" from ".toList ++ text)) := by
    rw [hLine, List.append_assoc, passed.clause_text_append]
    exact List.dropWhile_append_of_pos fun c hc => isBlank_of_isGap (hIndent c hc)
  have hNone : fromAt? (trimStart (passed.text ++ (" from ".toList ++ text))) = none := by
    cases passed <;> rfl
  exact ImportScan.exportAt?_before hTrim hNone hClosed h

end Exports

/-! ## Literals of declarations -/

section Scan

variable {source indent : List Char} (hEnds : endsLine true front = true)
variable (hIndent : ∀ c ∈ indent, isGap c = true)
include hEnds hIndent

theorem Clause.mem_scan (clause : Clause) (hImports : ∀ passed, clause ≠ .passes passed)
    (hSource : source = front ++ (indent ++ clause.text ++ quote :: text))
    (hRead : quotedSpecifier? (quote :: text) = some body) :
    ⟨source.length - text.length, body⟩ ∈ scan importAt? source := by
  subst hSource
  refine mem_scanFrom (clause.importAt?_eq_some hIndent hImports hRead) (by simp) hEnds ?_ [] rfl
    (Nat.zero_le _)
  intro done start _ _ found hFound
  exact importAt?_before (clause.isQuote_front hIndent) hRead hFound

theorem Passed.mem_scan (passed : Passed) (hClosed : ListsClosed front)
    (hSource : source = front ++ (indent ++ (Clause.passes passed).text ++ quote :: text))
    (hRead : quotedSpecifier? (quote :: text) = some body) :
    ⟨source.length - text.length, body⟩ ∈ scan exportAt? source := by
  subst hSource
  refine mem_scanFrom (passed.exportAt?_eq_some hIndent hRead) (by simp) hEnds ?_ [] rfl
    (Nat.zero_le _)
  intro done start hFront hDone found hFound
  have hWhole : front = done ++ start ++ ['\n'] := by
    rw [hFront]
    simp
  exact .inr (passed.exportAt?_before hIndent rfl ((hWhole ▸ hClosed).closesList hDone) hFound)

end Scan

/-- The literal of a declaration that starts a line of its own.  The quote of the other kind may be in
it. -/
structure Literal (source : List Char) where
  front : List Char
  indent : List Char
  clause : Clause
  quote : Char
  text : List Char
  rest : List Char
  source_eq : source = front ++ (indent ++ clause.text ++ quote :: (text ++ quote :: rest))
  starts : endsLine true front = true
  gaps : ∀ c ∈ indent, isGap c = true
  quoted : isQuote quote = true
  own : quote ∉ text
  line : '\n' ∉ text

/-- The part of the literal in front of the first quote that is in it. -/
def Literal.read {source : List Char} (literal : Literal source) : List Char :=
  literal.text.takeWhile (!isQuote ·)

/-- To the scanner a list of exports that is left open goes on behind the literal. -/
def Literal.InOpenList {source : List Char} (literal : Literal source) : Prop :=
  (∃ passed, literal.clause = .passes passed) ∧ ¬ListsClosed literal.front

/-- What stands in front of the first quote of a literal is reported. -/
theorem Literal.read_mem {source : String} (literal : Literal source.toList)
    (hOpen : ¬literal.InOpenList) (hSome : literal.read ≠ []) :
    String.ofList literal.read ∈ staticImports source := by
  have hRead := quotedSpecifier?_of_literal literal.quoted literal.line hSome literal.rest
  refine mem_staticImports.2
    ⟨⟨source.toList.length - (literal.text ++ literal.quote :: literal.rest).length, literal.read⟩,
      ?_, rfl⟩
  cases hClause : literal.clause with
  | passes passed =>
    have hClosed : ListsClosed literal.front := by
      by_contra hNot
      exact hOpen ⟨⟨passed, hClause⟩, hNot⟩
    have hSource := literal.source_eq
    rw [hClause] at hSource
    exact .inr (passed.mem_scan literal.starts literal.gaps hClosed hSource hRead)
  | bare | takes =>
    exact .inl (literal.clause.mem_scan literal.starts literal.gaps (by simp [hClause])
      literal.source_eq hRead)

/-- The literal itself is reported exactly if no quote is in it. -/
theorem Literal.text_mem_iff {source : String} (literal : Literal source.toList)
    (hOpen : ¬literal.InOpenList) : String.ofList literal.text ∈ staticImports source ↔
      literal.text ≠ [] ∧ ∀ c ∈ literal.text, isQuote c = false := by
  constructor
  · intro hMem
    obtain ⟨-, quote, tail, -, -, hRead⟩ := exists_of_mem_staticImports hMem
    rw [String.toList_ofList] at hRead
    obtain ⟨-, hSome, hPlain, -⟩ := quotedSpecifier?_eq_some_iff.1 hRead
    exact ⟨hSome, fun c hc => (hPlain c hc).1⟩
  · rintro ⟨hSome, hFree⟩
    have hWhole : literal.read = literal.text := by
      rw [Literal.read, List.takeWhile_eq_self_iff]
      simpa using hFree
    rw [← hWhole] at hSome ⊢
    exact literal.read_mem hOpen hSome

/-- A reported specifier stands behind the head of a declaration, between a quote and the next one of
either kind, so it may be the start of a literal only: the two quotes are the same exactly if it is
the whole literal.  Of a declaration on its own line, the whole literal is reported exactly if it is
not empty and the quote of the other kind is not in it; else the part in front of that quote is, if
there is any. -/
theorem staticImports_delimited (source : String) :
    (∀ s ∈ staticImports source, ∃ front opening closing rest,
      source.toList = front ++ opening :: (s.toList ++ closing :: rest) ∧ EndsHead front ∧
        isQuote opening = true ∧ isQuote closing = true ∧ s.toList ≠ [] ∧
        (∀ c ∈ s.toList, isQuote c = false ∧ c ≠ '\n') ∧
        ∀ literal rest', s.toList ++ closing :: rest = literal ++ opening :: rest' →
          opening ∉ literal →
            s.toList = literal.takeWhile (!isQuote ·) ∧
              (closing = opening ↔ s.toList = literal) ∧
              (s.toList = literal ↔ ∀ c ∈ literal, isQuote c = false)) ∧
    ∀ literal : Literal source.toList, ¬literal.InOpenList →
      (String.ofList literal.text ∈ staticImports source ↔
        literal.text ≠ [] ∧ ∀ c ∈ literal.text, isQuote c = false) ∧
      (literal.read ≠ [] → String.ofList literal.read ∈ staticImports source) := by
  refine ⟨fun s hs => ?_, fun literal hOpen =>
    ⟨literal.text_mem_iff hOpen, literal.read_mem hOpen⟩⟩
  obtain ⟨front, opening, tail, hSource, hHead, hRead⟩ := exists_of_mem_staticImports hs
  obtain ⟨hOpening, hSome, hPlain, closing, rest, rfl, hClosing⟩ :=
    quotedSpecifier?_eq_some_iff.1 hRead
  refine ⟨front, opening, closing, rest, hSource, hHead, hOpening, hClosing, hSome, hPlain, ?_⟩
  intro literal rest' hText hOwn
  exact read_of_literal hOpening (fun c hc => (hPlain c hc).1) hClosing hText hOwn

/-- An import whose literal has the quote of the other kind in it, and an export. -/
def mixedQuotes : String := "import a from \"b'c\";\nexport * from 'd';\n"

theorem staticImports_delimited_mixed :
    "d" ∈ staticImports mixedQuotes ∧ "b" ∈ staticImports mixedQuotes ∧
      "b'c" ∉ staticImports mixedQuotes := by
  let name : Name := ⟨['a'], by decide, List.all_iff_forall_prop.1 (by decide +kernel)⟩
  let imported : Literal mixedQuotes.toList :=
    { front := [], indent := [], clause := .takes (.default name), quote := '"'
      text := "b'c".toList, rest := ";\nexport * from 'd';\n".toList
      source_eq := rfl, starts := rfl, gaps := List.forall_mem_nil _, quoted := rfl
      own := by decide, line := by decide }
  let exported : Literal mixedQuotes.toList :=
    { front := "import a from \"b'c\";\n".toList, indent := [], clause := .passes .all
      quote := '\'', text := ['d'], rest := ";\n".toList
      source_eq := rfl, starts := by decide, gaps := List.forall_mem_nil _, quoted := rfl
      own := by decide, line := by decide }
  have hImported : ¬imported.InOpenList := by
    rintro ⟨⟨_, hPasses⟩, -⟩
    cases hPasses
  have hExported : ¬exported.InOpenList :=
    fun hOpen => hOpen.2 (listsClosed_of_not_mem (by decide))
  obtain ⟨-, hLiterals⟩ := staticImports_delimited mixedQuotes
  obtain ⟨hWhole, hPart⟩ := hLiterals imported hImported
  refine ⟨(hLiterals exported hExported).1.2 ⟨by decide, ?_⟩, hPart (by decide), ?_⟩
  · exact List.forall_mem_singleton.2 (by decide)
  · intro hMem
    exact absurd ((hWhole.1 hMem).2 '\'' (by decide)) (by decide)

/-- A reported specifier need not stand between two quotes of one kind. -/
theorem staticImports_truncated :
    staticImports "import \"it's\";\n" = ["it"] ∧
      ¬∀ source : String, ∀ s ∈ staticImports source, ∃ front quote rest,
        isQuote quote = true ∧ source.toList = front ++ quote :: (s.toList ++ quote :: rest) := by
  have hImports : scan importAt? "import \"it's\";\n".toList = [⟨8, "it".toList⟩] := by
    decide +kernel
  have hExports : scan exportAt? "import \"it's\";\n".toList = [] := by decide +kernel
  have hFound : staticImports "import \"it's\";\n" = ["it"] := by
    rw [staticImports, hImports, hExports, List.merge_right]
    decide
  refine ⟨hFound, fun hAll => ?_⟩
  obtain ⟨front, quote, rest, hQuote, hSource⟩ := hAll _ "it" (by rw [hFound]; simp)
  have hInfix : quote :: ("it".toList ++ [quote]) <:+: "import \"it's\";\n".toList :=
    ⟨front, rest, by rw [hSource]; simp⟩
  simp only [isQuote, Bool.or_eq_true, beq_iff_eq] at hQuote
  rcases hQuote with rfl | rfl
  · exact absurd hInfix (by decide +kernel)
  · exact absurd hInfix (by decide +kernel)

end ModuleLoader.ImportScan
