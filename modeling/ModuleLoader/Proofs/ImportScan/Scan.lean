import ModuleLoader.Proofs.ImportScan.Match
import ModuleLoader.Proofs.Text.Split

/-! What the scanner finds in a module that is written line by line: the specifiers of its
declarations. -/

namespace ModuleLoader.ImportScan

open Text

/-- How a scan looks for a declaration at the start of a line. -/
abbrev Search := List Char → Option (List Char × List Char)

variable {search : Search} {total : Nat} {atStart : Bool} {text text' rest : List Char}

/-! ## Scanning -/

/-- The last character of the text is a newline; where the text is empty, what was before it says
so. -/
def endsLine (atStart : Bool) (text : List Char) : Bool := text.foldl (fun _ c => c == '\n') atStart

/-- No line that starts in the text holds what is searched for. -/
def Silent (search : Search) (rest : List Char) : Bool → List Char → Prop
  | _, [] => True
  | atStart, c :: text =>
    (atStart = true → search (c :: (text ++ rest)) = none) ∧ Silent search rest (c == '\n') text

theorem silent_append : Silent search rest atStart (text ++ text') ↔
    Silent search (text' ++ rest) atStart text ∧
      Silent search rest (endsLine atStart text) text' := by
  induction text generalizing atStart with
  | nil => simp [Silent, endsLine]
  | cons c text ih =>
    have hEnds : endsLine atStart (c :: text) = endsLine (c == '\n') text := rfl
    simp only [List.cons_append, Silent, ih, hEnds, List.append_assoc, and_assoc]

theorem silent_inside (hLine : '\n' ∉ text) : Silent search rest false text := by
  induction text with
  | nil => trivial
  | cons c text ih =>
    rw [List.mem_cons, not_or] at hLine
    refine ⟨nofun, ?_⟩
    rw [beq_eq_false_iff_ne.2 (Ne.symm hLine.1)]
    exact ih hLine.2

theorem silent_line (hLine : '\n' ∉ text) (hStart : search (text ++ rest) = none) :
    Silent search rest atStart text := by
  cases text with
  | nil => trivial
  | cons c text =>
    rw [List.mem_cons, not_or] at hLine
    refine ⟨fun _ => hStart, ?_⟩
    rw [beq_eq_false_iff_ne.2 (Ne.symm hLine.1)]
    exact silent_inside hLine.2

theorem silent_of_suffix (h : ∀ back, back <:+ text → search (back ++ rest) = none) :
    Silent search rest atStart text := by
  induction text generalizing atStart with
  | nil => trivial
  | cons c text ih =>
    refine ⟨fun _ => h (c :: text) (List.suffix_refl _), ih fun back hBack => ?_⟩
    exact h back (hBack.trans (List.suffix_cons c text))

/-- Nothing is found up to the end of a line if nothing starts in front of its last part. -/
theorem silent_append_line {front line : List Char} (hLine : '\n' ∉ line)
    (h : ∀ part, part <:+ front → search (part ++ (line ++ rest)) = none) :
    Silent search rest atStart (front ++ line) :=
  silent_append.2 ⟨silent_of_suffix h, silent_line hLine (h [] List.nil_suffix)⟩

theorem scanFrom_skip : scanFrom search total atStart text.length (text ++ rest) =
    scanFrom search total (endsLine atStart text) 0 rest := by
  induction text generalizing atStart with
  | nil => rfl
  | cons c text ih => exact ih

theorem scanFrom_silent (h : Silent search rest atStart text) :
    scanFrom search total atStart 0 (text ++ rest) =
      scanFrom search total (endsLine atStart text) 0 rest := by
  induction text generalizing atStart with
  | nil => rfl
  | cons c text ih =>
    obtain ⟨hStart, hText⟩ := h
    rw [List.cons_append, scanFrom]
    cases atStart with
    | false => exact ih hText
    | true =>
      simp only [if_true, hStart rfl]
      exact ih hText

/-- A scan finds nothing in such a text. -/
theorem Silent.exists_scanFrom (h : Silent search rest atStart text) (total : Nat) :
    ∃ ends, scanFrom search total atStart 0 (text ++ rest) =
      scanFrom search total ends 0 rest := ⟨_, scanFrom_silent h⟩

theorem Ending.newline_not_mem (ending : Ending) : '\n' ∉ ending.text := by
  intro hMem
  rcases ending.closed _ hMem with hEq | ⟨-, hNe⟩
  · cases hEq
  · exact hNe rfl

theorem Declaration.quote_ne (d : Declaration) : d.quote ≠ '\n' := by
  intro hEq
  have hQuoted := d.quoted
  rw [hEq] at hQuoted
  exact absurd hQuoted (by decide)

/-- What a scan keeps of a declaration, where `rest` stands behind it. -/
def Declaration.found (d : Declaration) (total : Nat) (rest : List Char) : Found :=
  ⟨total - (d.behind ++ rest).length, d.specifier⟩

/-- A declaration that is found is kept, and the scan goes on behind it. -/
theorem Declaration.scanFrom_some (d : Declaration) {front : List Char}
    (h : search (front ++ d.quote :: (d.behind ++ rest)) = some (d.behind ++ rest, d.specifier)) :
    ∃ ends, scanFrom search total true 0 (front ++ d.quote :: (d.behind ++ rest)) =
      d.found total rest :: scanFrom search total ends 0 rest := by
  -- The scan skips what is left of the declaration behind its first character.
  obtain ⟨c, skipped, hFirst⟩ : ∃ c skipped,
      front ++ d.quote :: (d.specifier ++ [d.quote]) = c :: skipped :=
    List.exists_cons_of_ne_nil (by simp)
  have hText : front ++ d.quote :: (d.behind ++ rest) =
      c :: (skipped ++ (d.ending.text ++ rest)) :=
    calc
      front ++ d.quote :: (d.behind ++ rest) =
          front ++ d.quote :: (d.specifier ++ [d.quote]) ++ (d.ending.text ++ rest) := by
        simp [behind]
      _ = c :: (skipped ++ (d.ending.text ++ rest)) := by rw [hFirst, List.cons_append]
  have hCount : (skipped ++ (d.ending.text ++ rest)).length + d.specifier.length + 1 -
      (d.behind ++ rest).length = skipped.length := by
    simp only [behind, List.length_append, List.length_cons]
    omega
  have hQuote : endsLine (c == '\n') skipped = false := by
    have hSplit : c :: skipped = (front ++ d.quote :: d.specifier) ++ [d.quote] := by
      rw [← hFirst]
      simp
    calc
      endsLine (c == '\n') skipped = endsLine true (c :: skipped) := rfl
      _ = (d.quote == '\n') := by rw [hSplit, endsLine, List.foldl_concat]
      _ = false := beq_eq_false_iff_ne.2 d.quote_ne
  refine ⟨endsLine false d.ending.text, ?_⟩
  rw [hText] at h ⊢
  rw [scanFrom]
  simp only [if_true, h, hCount, scanFrom_skip, hQuote]
  rw [scanFrom_silent (silent_inside d.ending.newline_not_mem)]
  rfl

/-! ## Declarations -/

theorem newline_not_mem_indent {indent : List Char} (h : ∀ c ∈ indent, isGap c = true) :
    '\n' ∉ indent := fun hMem => absurd (h _ hMem) (by decide)

theorem Name.newline_not_mem (name : Name) : '\n' ∉ name.text := by
  intro hMem
  have hName := name.named _ hMem
  rw [isName_of_isBlank (by decide)] at hName
  cases hName

theorem Name.newline_not_mem_asWhole (name : Name) : '\n' ∉ name.asWhole := by
  have hStar : '\n' ∉ "* as ".toList := by decide
  intro hMem
  exact (List.mem_append.1 hMem).elim hStar name.newline_not_mem

theorem Declaration.newline_not_mem_behind (d : Declaration) : '\n' ∉ d.behind := by
  rw [behind, List.mem_append, List.mem_cons, not_or, not_or]
  exact ⟨fun hMem => (d.plain _ hMem).2 rfl, d.quote_ne.symm, d.ending.newline_not_mem⟩

theorem ne_of_isListed {c : Char} (h : isListed c = true) : c ≠ '*' ∧ c ≠ '\x7b' := by
  constructor <;> rintro rfl <;> exact absurd h (by decide +kernel)

/-- No list of exports starts behind the brace that opens a list. -/
theorem NameList.ne_of_mem (list : NameList) {c : Char} (h : c ∈ list.text ++ ['\x7d']) :
    c ≠ '*' ∧ c ≠ '\x7b' := by
  rcases List.mem_append.1 h with hc | hc
  · exact ne_of_isListed (list.listed c hc)
  · rw [List.mem_singleton.1 hc]
    decide

/-- A quote starts no list of exports. -/
theorem exportAt?_quote {front : List Char} {quote : Char}
    (hFront : ∀ c ∈ front, c ≠ '*' ∧ c ≠ '\x7b') (hQuote : isQuote quote = true)
    (rest : List Char) : exportAt? (front ++ quote :: rest) = none := by
  simp only [isQuote, Bool.or_eq_true, beq_iff_eq] at hQuote
  rcases hQuote with rfl | rfl <;>
    exact exportAt?_append hFront (by decide) (by decide) (by decide) rest

/-- What an import takes starts on one line, and no list of exports starts in what follows. -/
theorem Taken.exists_parts (taken : Taken) : ∃ head back, taken.text = head ++ back ∧
    '\n' ∉ head ∧ ∀ c ∈ back, c ≠ '*' ∧ c ≠ '\x7b' := by
  have hComma : '\n' ∉ ", ".toList := by decide
  cases taken with
  | default name =>
    exact ⟨name.text, [], (List.append_nil _).symm, name.newline_not_mem, by simp⟩
  | whole name =>
    exact ⟨name.asWhole, [], (List.append_nil _).symm, name.newline_not_mem_asWhole, by simp⟩
  | names list => exact ⟨['\x7b'], _, rfl, by simp, fun _ => list.ne_of_mem⟩
  | defaultAndNames name list =>
    refine ⟨name.text ++ (", ".toList ++ ['\x7b']), _, ?_, ?_, fun _ => list.ne_of_mem⟩
    · simp [Taken.text, NameList.inBraces]
    · simp [name.newline_not_mem]
  | defaultAndWhole name other =>
    refine ⟨_, [], (List.append_nil _).symm, ?_, by simp⟩
    rw [Taken.text, List.mem_append, List.mem_append, not_or, not_or]
    exact ⟨⟨name.newline_not_mem, hComma⟩, other.newline_not_mem_asWhole⟩

theorem Passed.isClause_text (passed : Passed) : ∀ c ∈ passed.text, isClause c = true := by
  cases passed with
  | all => exact fun c hc => by rw [List.mem_singleton.1 hc]; decide
  | allAs name => exact name.isClause_asWhole
  | names list => exact list.isClause_inBraces

theorem Clause.isClause_text (clause : Clause) : ∀ c ∈ clause.text, isClause c = true := by
  have hImport : ∀ c ∈ "import ".toList, isClause c = true :=
    List.all_iff_forall_prop.1 (by decide)
  have hExport : ∀ c ∈ "export ".toList, isClause c = true :=
    List.all_iff_forall_prop.1 (by decide)
  have hFrom : ∀ c ∈ " from ".toList, isClause c = true :=
    List.all_iff_forall_prop.1 (by decide)
  cases clause with
  | bare => exact hImport
  | takes taken =>
    unfold Clause.text importing
    rw [List.forall_mem_append, List.forall_mem_append]
    exact ⟨hImport, taken.isClause_text, hFrom⟩
  | passes passed =>
    unfold Clause.text exporting
    rw [List.forall_mem_append, List.forall_mem_append]
    exact ⟨hExport, passed.isClause_text, hFrom⟩

/-- In front of a specifier an import scan finds nothing but the specifier. -/
theorem Declaration.scanFrom_front (d : Declaration) {front : List Char}
    (hFront : ∀ c ∈ front, isQuote c = false) (total : Nat) (atStart : Bool) :
    ∃ found ends, (found = [] ∨ found = [d.found total rest]) ∧
      scanFrom importAt? total atStart 0 (front ++ d.quote :: (d.behind ++ rest)) =
        found ++ scanFrom importAt? total ends 0 rest := by
  induction front generalizing atStart with
  | nil =>
    have hStart : importAt? (d.quote :: (d.behind ++ rest)) = none :=
      importAt?_append hFront d.quoted _
    have hSilent : Silent importAt? rest atStart (d.quote :: d.behind) := by
      refine ⟨fun _ => hStart, ?_⟩
      rw [beq_eq_false_iff_ne.2 d.quote_ne]
      exact silent_inside d.newline_not_mem_behind
    exact ⟨[], _, .inl rfl, scanFrom_silent hSilent⟩
  | cons c front ih =>
    have hRest := fun atStart => ih (fun c hc => hFront c (List.mem_cons_of_mem _ hc)) atStart
    cases atStart with
    | false => exact hRest (c == '\n')
    | true =>
      rcases d.importAt?_cases hFront rest with hNone | hSome
      · obtain ⟨found, ends, hFound, hScan⟩ := hRest (c == '\n')
        refine ⟨found, ends, hFound, ?_⟩
        rw [List.cons_append] at hNone ⊢
        rw [scanFrom]
        simp only [if_true, hNone]
        exact hScan
      · obtain ⟨ends, hScan⟩ := d.scanFrom_some hSome
        exact ⟨[d.found total rest], ends, .inr rfl, hScan⟩

theorem Ending.newline_not_mem_closed (ending : Ending) : '\n' ∉ ';' :: ending.text :=
  fun hMem => (List.mem_cons.1 hMem).elim (by decide) ending.newline_not_mem

section Lines

variable {indent : List Char} (hIndent : ∀ c ∈ indent, isGap c = true)
include hIndent

theorem exportAt?_importing (text : List Char) : exportAt? (indent ++ importing text) = none := by
  rw [exportAt?, skipGaps_append hIndent]
  rfl

/-- No export starts on the line of an import. -/
theorem silent_importing {text : List Char} (hLine : '\n' ∉ text) :
    Silent exportAt? rest true (indent ++ importing text) := by
  refine silent_line ?_ ?_
  · unfold importing
    rw [List.mem_append, List.mem_append, not_or, not_or]
    exact ⟨newline_not_mem_indent hIndent, by decide, hLine⟩
  · rw [List.append_assoc]
    exact exportAt?_importing hIndent (text ++ rest)

theorem isClause_exporting {text : List Char} (h : ∀ c ∈ text, isClause c = true) :
    ∀ c ∈ indent ++ exporting text, isClause c = true := by
  have hWord : ∀ c ∈ "export ".toList, isClause c = true :=
    List.all_iff_forall_prop.1 (by decide)
  intro c hc
  rcases List.mem_append.1 hc with hc | hc
  · exact isClause_of_isGap (hIndent c hc)
  · exact (List.mem_append.1 hc).elim (hWord c) (h c)

theorem Clause.isQuote_front (clause : Clause) :
    ∀ c ∈ indent ++ clause.text, isQuote c = false := by
  intro c hc
  refine isQuote_of_isClause ?_
  rcases List.mem_append.1 hc with hGap | hClause
  · exact isClause_of_isGap (hIndent c hGap)
  · exact clause.isClause_text c hClause

/-- No export is found in an import. -/
theorem Declaration.silent_of_import (d : Declaration) (h : ∀ passed, d.clause ≠ .passes passed) :
    Silent exportAt? rest true (indent ++ d.text) := by
  have hQuote : '\n' ∉ d.quote :: d.behind :=
    fun hMem => (List.mem_cons.1 hMem).elim d.quote_ne.symm d.newline_not_mem_behind
  cases hClause : d.clause with
  | passes passed => exact absurd hClause (h passed)
  | bare =>
    have hText : d.text = importing (d.quote :: d.behind) := by
      rw [Declaration.text, hClause]
      rfl
    rw [hText]
    exact silent_importing hIndent hQuote
  | takes taken =>
    obtain ⟨head, back, hTaken, hHead, hBack⟩ := taken.exists_parts
    have hText : indent ++ d.text = indent ++ importing head ++
        (back ++ (" from ".toList ++ d.quote :: d.behind)) := by
      rw [Declaration.text, hClause, Clause.text, hTaken]
      unfold importing
      simp only [List.append_assoc]
    have hFrom : ∀ c ∈ " from ".toList, c ≠ '*' ∧ c ≠ '\x7b' :=
      List.all_iff_forall_prop.1 (by decide)
    have hLine : '\n' ∉ " from ".toList ++ d.quote :: d.behind := by
      rw [List.mem_append, not_or]
      exact ⟨by decide, hQuote⟩
    rw [hText]
    refine silent_append.2 ⟨silent_importing hIndent hHead,
      silent_append_line hLine fun part hPart => ?_⟩
    rw [List.append_assoc, ← List.append_assoc]
    refine exportAt?_quote (fun c hc => ?_) d.quoted _
    exact (List.mem_append.1 hc).elim (fun hPartOf => hBack c (hPart.subset hPartOf)) (hFrom c)

/-! ## Lists of exports from the module itself -/

theorem silent_import_of_locals (list : NameList) (ending : Ending) :
    Silent importAt? rest true (indent ++ exporting (list.inBraces ++ ';' :: ending.text)) := by
  have hText : indent ++ exporting (list.inBraces ++ ';' :: ending.text) =
      indent ++ exporting list.inBraces ++ ';' :: ending.text := by
    unfold exporting
    simp only [List.append_assoc]
  rw [hText]
  refine silent_append_line ending.newline_not_mem_closed fun part hPart => ?_
  refine importAt?_append_of_not_clause (fun c hc => ?_) (by decide +kernel) (by decide) _
  exact isQuote_of_isClause (isClause_exporting hIndent list.isClause_inBraces c (hPart.subset hc))

theorem silent_export_of_locals (list : NameList) (ending : Ending) :
    Silent exportAt? rest true (indent ++ exporting (list.inBraces ++ ';' :: ending.text)) := by
  have hText : indent ++ exporting (list.inBraces ++ ';' :: ending.text) =
      indent ++ exporting ['\x7b'] ++ (list.text ++ ['\x7d'] ++ ';' :: ending.text) := by
    unfold exporting NameList.inBraces
    simp only [List.append_assoc, List.cons_append, List.nil_append]
  have hStart : exportAt? (indent ++ exporting (list.inBraces ++ (';' :: ending.text ++ rest))) =
      none := by
    have hSkip : ∀ text, skipGaps (list.inBraces ++ text) = list.inBraces ++ text := fun _ => rfl
    rw [exportAt?_exporting hIndent, hSkip, behindNames_inBraces]
    rfl
  have hLine : '\n' ∉ indent ++ exporting ['\x7b'] := by
    unfold exporting
    rw [List.mem_append, not_or]
    exact ⟨newline_not_mem_indent hIndent, by decide⟩
  rw [hText]
  refine silent_append.2 ⟨silent_line hLine ?_,
    silent_append_line ending.newline_not_mem_closed fun part hPart => ?_⟩
  · rw [← hStart]
    unfold exporting NameList.inBraces
    simp only [List.append_assoc, List.cons_append, List.nil_append]
  · refine exportAt?_append (fun c hc => ?_) (by decide) (by decide) (by decide) _
    exact list.ne_of_mem (hPart.subset hc)

end Lines

/-! ## Other lines -/

theorem isOther_append {indent : List Char} (hIndent : ∀ c ∈ indent, isGap c = true)
    (line : List Char) : isOther (indent ++ line) = isOther line := by
  have hContains : (indent ++ line).contains '\n' = line.contains '\n' := by
    rw [Bool.eq_iff_iff]
    simp [newline_not_mem_indent hIndent]
  rw [isOther, skipGaps_append hIndent, hContains]
  rfl

section Other

variable {line : List Char} (hRest : ∀ c ∈ rest.head?, c = '\n')
include hRest

/-- A word without newlines is looked for in the line alone. -/
theorem after?_line {word : List Char} (hWord : '\n' ∉ word) (line : List Char) :
    after? word (skipGaps (line ++ rest)) = (after? word (skipGaps line)).map (· ++ rest) := by
  cases rest with
  | nil => simp
  | cons c rest =>
    obtain rfl : c = '\n' := hRest c rfl
    rw [skipGaps_append_cons (by decide), after?_append_of_not_mem hWord]

theorem head?_skipGaps_line (line : List Char) :
    (skipGaps (line ++ rest)).head? = (skipGaps line).head?.or rest.head? := by
  cases rest with
  | nil => simp
  | cons c rest =>
    obtain rfl : c = '\n' := hRest c rfl
    rw [skipGaps_append_cons (by decide), List.head?_append]

theorem importAt?_of_isOther (h : isOther line = true) : importAt? (line ++ rest) = none := by
  simp only [isOther, Bool.and_eq_true] at h
  refine importAt?_of_mem fun text hText => ?_
  rw [after?_line hRest (by decide)] at hText
  obtain ⟨own, hOwn, rfl⟩ := Option.map_eq_some_iff.1 hText
  have hAny := h.1.2
  rw [hOwn, Option.all_some, List.any_eq_true] at hAny
  obtain ⟨c, hc, hOut⟩ := hAny
  refine ⟨c, ?_, by simpa using hOut⟩
  rw [List.takeWhile_append]
  split
  · exact List.mem_append_left _ ((List.takeWhile_prefix _).subset hc)
  · exact hc

theorem exportAt?_of_isOther (h : isOther line = true) : exportAt? (line ++ rest) = none := by
  simp only [isOther, Bool.and_eq_true] at h
  rw [exportAt?, after?_line hRest (by decide)]
  cases hOwn : after? "export".toList (skipGaps line) with
  | none => rfl
  | some own =>
    have hHead := h.2
    rw [hOwn, Option.all_some] at hHead
    have hNames : behindNames (skipGaps (own ++ rest)) = [] := by
      refine behindNames_of_head? fun c hc => ?_
      rw [head?_skipGaps_line hRest, Option.mem_def, Option.or_eq_some_iff] at hc
      rcases hc with hc | ⟨-, hc⟩
      · simpa [hc] using hHead
      · obtain rfl := hRest c hc
        decide
    simp [hNames]

theorem silent_of_isOther (h : isOther line = true) :
    Silent importAt? rest true line ∧ Silent exportAt? rest true line := by
  have hLine : '\n' ∉ line := by
    simp only [isOther, Bool.and_eq_true] at h
    simpa using h.1.1
  exact ⟨silent_line hLine (importAt?_of_isOther hRest h),
    silent_line hLine (exportAt?_of_isOther hRest h)⟩

end Other

end ModuleLoader.ImportScan
