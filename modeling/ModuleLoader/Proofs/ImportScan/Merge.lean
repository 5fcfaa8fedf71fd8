import ModuleLoader.Proofs.ImportScan.Scan
import ModuleLoader.Proofs.Text.Split

/-! The static imports of a module that is written line by line are the specifiers of its
declarations, and those of the statements of the module. -/

namespace ModuleLoader.ImportScan

open Text
open TypeScript (Item Program OutputOptions)

/-! ## Two scans -/

/-- What two scans find, and all that they find together in the order of the text: each of them is
found by one scan or by both. -/
inductive Shared : List Found → List Found → List Found → Prop where
  | nil : Shared [] [] []
  | left {f : Found} {all imports exports : List Found} (hLast : ∀ g ∈ all, f.offset < g.offset)
      (hRest : Shared all imports exports) : Shared (f :: all) (f :: imports) exports
  | right {f : Found} {all imports exports : List Found} (hLast : ∀ g ∈ all, f.offset < g.offset)
      (hRest : Shared all imports exports) : Shared (f :: all) imports (f :: exports)
  | both {f : Found} {all imports exports : List Found} (hLast : ∀ g ∈ all, f.offset < g.offset)
      (hRest : Shared all imports exports) : Shared (f :: all) (f :: imports) (f :: exports)

variable {search : Search} {total : Nat} {atStart : Bool} {rest : List Char}
variable {f : Found} {all imports exports : List Found}

/-- The finds of two scans by their places. -/
abbrev merged (imports exports : List Found) : List Found :=
  imports.merge exports fun a b => a.offset ≤ b.offset

theorem Shared.subset (h : Shared all imports exports) : imports ⊆ all ∧ exports ⊆ all := by
  induction h with
  | nil => exact ⟨List.Subset.refl _, List.Subset.refl _⟩
  | left _ _ ih =>
    exact ⟨List.cons_subset_cons _ ih.1, List.subset_cons_of_subset _ ih.2⟩
  | right _ _ ih =>
    exact ⟨List.subset_cons_of_subset _ ih.1, List.cons_subset_cons _ ih.2⟩
  | both _ _ ih => exact ⟨List.cons_subset_cons _ ih.1, List.cons_subset_cons _ ih.2⟩

theorem merged_left (h : ∀ g ∈ exports, f.offset ≤ g.offset) :
    merged (f :: imports) exports = f :: merged imports exports := by
  cases exports with
  | nil => simp [merged]
  | cons g exports =>
    have hLe : f.offset ≤ g.offset := h g List.mem_cons_self
    simp [merged, hLe]

theorem merged_right (h : ∀ g ∈ imports, f.offset < g.offset) :
    merged imports (f :: exports) = f :: merged imports exports := by
  cases imports with
  | nil => simp [merged]
  | cons g imports =>
    have hLt : f.offset < g.offset := h g List.mem_cons_self
    simp [merged, hLt]

/-- What both scans find stands twice in their finds, next to itself, which is not seen in the
distinct specifiers. -/
theorem Shared.distinct_append (h : Shared all imports exports) (front : List (List Char)) :
    distinct (front ++ (merged imports exports).map Found.specifier) =
      distinct (front ++ all.map Found.specifier) := by
  induction h generalizing front with
  | nil => rw [merged, List.nil_merge]
  | @left f all imports exports hLast hRest ih =>
    rw [merged_left fun g hg => (hLast g (hRest.subset.2 hg)).le]
    simpa using ih (front ++ [f.specifier])
  | @right f all imports exports hLast hRest ih =>
    rw [merged_right fun g hg => hLast g (hRest.subset.1 hg)]
    simpa using ih (front ++ [f.specifier])
  | @both f all imports exports hLast hRest ih =>
    have hFirst : ∀ g ∈ f :: exports, f.offset ≤ g.offset := by
      intro g hg
      rcases List.mem_cons.1 hg with rfl | hg
      · exact le_refl _
      · exact (hLast g (hRest.subset.2 hg)).le
    rw [merged_left hFirst, merged_right fun g hg => hLast g (hRest.subset.1 hg)]
    simp only [List.map_cons, distinct_append_double]
    simpa using ih (front ++ [f.specifier])

/-! ## A line -/

/-- What is found in a line, where `rest` stands behind it. -/
def Content.found (content : Content) (total : Nat) (rest : List Char) : List Found :=
  match content with
  | .declaration d => [d.found total rest]
  | .locals .. | .other .. => []

theorem Content.map_found (content : Content) (total : Nat) (rest : List Char) :
    (content.found total rest).map Found.specifier = content.specifier?.toList := by
  cases content <;> rfl

/-- What is found in a line is found behind its first character and before its last. -/
theorem Content.offset_of_found {content : Content} (h : f ∈ content.found total rest)
    (hTotal : content.text.length + rest.length ≤ total) :
    f.offset + rest.length < total ∧
      total ≤ f.offset + content.text.length + rest.length := by
  cases content with
  | declaration d =>
    obtain rfl := List.mem_singleton.1 h
    have hBehind : d.behind.length = d.specifier.length + (d.ending.text.length + 1) := by
      simp [Declaration.behind]
    have hText : d.text.length = d.clause.text.length + (d.behind.length + 1) := by
      simp [Declaration.text]
    simp only [Content.text, Declaration.found, List.length_append] at hTotal ⊢
    omega
  | locals list ending => cases h
  | other line hOther => cases h

theorem scanFrom_newline (h : ∀ text, search ('\n' :: text) = none) :
    scanFrom search total atStart 0 ('\n' :: rest) = scanFrom search total true 0 rest := by
  cases atStart with
  | false => rfl
  | true => simp [scanFrom, h]

theorem importAt?_newline (text : List Char) : importAt? ('\n' :: text) = none := rfl

theorem exportAt?_newline (text : List Char) : exportAt? ('\n' :: text) = none := rfl

/-- What the two scans find in a line, and what they find behind it. -/
theorem Line.shared (line : Line) (hRest : ∀ c ∈ rest.head?, c = '\n') (total : Nat) :
    ∃ atImport atExport, ∀ all,
      (∀ f ∈ line.content.found total rest, ∀ g ∈ all, f.offset < g.offset) →
      Shared all (scanFrom importAt? total atImport 0 rest)
        (scanFrom exportAt? total atExport 0 rest) →
      Shared (line.content.found total rest ++ all)
        (scanFrom importAt? total true 0 (line.text ++ rest))
        (scanFrom exportAt? total true 0 (line.text ++ rest)) := by
  obtain ⟨indent, hIndent, content⟩ := line
  cases content with
  | declaration d =>
    have hText : indent ++ d.text ++ rest =
        indent ++ d.clause.text ++ d.quote :: (d.behind ++ rest) := by
      simp only [Declaration.text, List.append_assoc, List.cons_append]
    have hLast : ∀ all : List Found,
        (∀ f ∈ [d.found total rest], ∀ g ∈ all, f.offset < g.offset) →
        ∀ g ∈ all, (d.found total rest).offset < g.offset :=
      fun all h => h _ (List.mem_singleton_self _)
    by_cases hClause : ∃ passed, d.clause = .passes passed
    · obtain ⟨passed, hPassed⟩ := hClause
      obtain ⟨atExport, hExport⟩ := d.scanFrom_some (d.exportAt?_eq_some hIndent hPassed rest)
      obtain ⟨found, atImport, hFound, hImport⟩ :=
        d.scanFrom_front (Clause.isQuote_front hIndent d.clause) total true
      refine ⟨atImport, atExport, fun all hAll hShared => ?_⟩
      rw [Line.text, Content.text, hText, hExport, hImport]
      rcases hFound with rfl | rfl
      · exact .right (hLast all hAll) hShared
      · exact .both (hLast all hAll) hShared
    · rw [not_exists] at hClause
      obtain ⟨atImport, hImport⟩ := d.scanFrom_some (d.importAt?_eq_some hIndent hClause rest)
      obtain ⟨atExport, hExport⟩ := (d.silent_of_import hIndent hClause).exists_scanFrom total
      refine ⟨atImport, atExport, fun all hAll hShared => ?_⟩
      rw [Line.text, Content.text, hExport, hText, hImport]
      exact .left (hLast all hAll) hShared
  | locals list ending =>
    obtain ⟨atImport, hImport⟩ :=
      (silent_import_of_locals hIndent list ending).exists_scanFrom total
    obtain ⟨atExport, hExport⟩ :=
      (silent_export_of_locals hIndent list ending).exists_scanFrom total
    refine ⟨atImport, atExport, fun all _ hShared => ?_⟩
    rw [Line.text, Content.text, hImport, hExport]
    exact hShared
  | other line hOther =>
    have hOther' := (isOther_append hIndent line).trans hOther
    obtain ⟨atImport, hImport⟩ := (silent_of_isOther hRest hOther').1.exists_scanFrom total
    obtain ⟨atExport, hExport⟩ := (silent_of_isOther hRest hOther').2.exists_scanFrom total
    refine ⟨atImport, atExport, fun all _ hShared => ?_⟩
    rw [Line.text, Content.text, hImport, hExport]
    exact hShared

/-! ## All lines -/

/-- The lines behind another one. -/
def behind (lines : List Line) : List Char := lines.flatMap fun line => '\n' :: line.text

theorem head?_behind (lines : List Line) : ∀ c ∈ (behind lines).head?, c = '\n' := by
  cases lines with
  | nil => simp [behind]
  | cons line lines =>
    intro c hc
    cases hc
    rfl

theorem exists_shared (lines : List Line) (total : Nat) (atImport atExport : Bool)
    (hTotal : (behind lines).length ≤ total + 1) :
    ∃ all, Shared all (scanFrom importAt? total atImport 0 (behind lines))
        (scanFrom exportAt? total atExport 0 (behind lines)) ∧
      all.map Found.specifier = lines.filterMap (·.content.specifier?) ∧
      ∀ f ∈ all, total + 1 ≤ f.offset + (behind lines).length := by
  induction lines generalizing atImport atExport with
  | nil => exact ⟨[], .nil, rfl, by simp⟩
  | cons line lines ih =>
    have hText : behind (line :: lines) = '\n' :: (line.text ++ behind lines) := rfl
    have hLength : (behind (line :: lines)).length =
        line.indent.length + line.content.text.length + (behind lines).length + 1 := by
      simp [hText, Line.text, Nat.add_assoc]
    rw [hText, scanFrom_newline importAt?_newline, scanFrom_newline exportAt?_newline, ← hText]
    obtain ⟨atImport, atExport, hLine⟩ := line.shared (head?_behind lines) total
    obtain ⟨all, hAll, hSpecifiers, hOffsets⟩ := ih atImport atExport (by omega)
    have hOwn := fun f (hf : f ∈ line.content.found total (behind lines)) =>
      Content.offset_of_found hf (by omega)
    refine ⟨line.content.found total (behind lines) ++ all, hLine all ?_ hAll, ?_, ?_⟩
    · intro f hf g hg
      have := hOwn f hf
      have := hOffsets g hg
      omega
    · rw [List.map_append, Content.map_found, hSpecifiers]
      cases hSpecifier : line.content.specifier? <;> simp [hSpecifier]
    · intro f hf
      rcases List.mem_append.1 hf with hf | hf
      · have := hOwn f hf
        omega
      · have := hOffsets f hf
        omega

/-! ## The text -/

theorem newline_textOf (line : Line) (lines : List Line) :
    '\n' :: (textOf (line :: lines)).toList = behind (line :: lines) := by
  rw [textOf, String.toList_ofList]
  induction lines generalizing line with
  | nil => simp [behind]
  | cons next lines ih =>
    have hNext := ih next
    rw [List.map_cons, List.map_cons, List.intercalate_cons_cons, ← List.map_cons]
    rw [List.append_assoc, List.singleton_append, hNext]
    rfl

theorem scan_textOf (h : ∀ text, search ('\n' :: text) = none) (lines : List Line) :
    scan search (textOf lines).toList =
      scanFrom search (textOf lines).toList.length true 0 (behind lines) := by
  cases lines with
  | nil => rfl
  | cons line lines => rw [← newline_textOf, scanFrom_newline h, scan]

theorem declared_cons (line : Line) (lines : List Line) : declared (line :: lines) =
    (line.content.specifier?.map String.ofList).toList ++ declared lines := by
  rw [declared, List.filterMap_cons]
  cases line.content.specifier? <;> rfl

theorem Declaration.Is.specifier? {d : Declaration} {item : Item} (h : d.Is item) :
    item.specifier? = some (String.ofList d.specifier) := by
  cases item with
  | importFrom isType phase clause source =>
    obtain ⟨-, rfl, hSource⟩ := h
    simp [Item.specifier?, hSource]
  | exportAll isType name source =>
    obtain ⟨-, rfl, hSource⟩ := h
    simp [Item.specifier?, hSource]
  | exportNames isType names source =>
    cases source with
    | none => exact h.elim
    | some source =>
      obtain ⟨-, rfl, hSource⟩ := h
      simp [Item.specifier?, hSource]
  | link name text => exact h.elim
  | code isExport text => exact h.elim
  | erased e => exact h.elim

/-- The specifiers of statements that are those of the lines. -/
theorem Reads.filterMap_specifier? {lines : List Line} {items : List Item}
    (h : Reads lines items) : items.filterMap Item.specifier? = declared lines := by
  induction h with
  | nil => rfl
  | @declaration line lines d item items hLine hItem hRest ih =>
    have hSpecifier : item.specifier? = some (String.ofList d.specifier) := hItem.specifier?
    rw [List.filterMap_cons, hSpecifier, ih, declared_cons, hLine]
    rfl
  | @other line lines found items hLine hFound hRest ih =>
    have hNone : found.filterMap Item.specifier? = [] :=
      List.filterMap_eq_nil_iff.2 hFound
    rw [List.filterMap_append, hNone, ih, declared_cons, hLine]
    rfl

theorem distinct_declared (lines : List Line) :
    (distinct (lines.filterMap (·.content.specifier?))).map String.ofList =
      (declared lines).eraseDups := by
  rw [← distinct_map fun _ _ hSame => String.ofList_injective hSame, List.map_filterMap,
    distinct_eq_eraseDups]
  rfl

/-- The scanner finds the distinct specifiers of the declarations, in the order of the first of each.
They are those that the statements of the module import from. -/
theorem staticImports_textOf (lines : List Line) :
    staticImports (textOf lines) = (declared lines).eraseDups ∧
      ∀ (p : Program) (o : OutputOptions), Reads lines (p.outputItems o) →
        p.specifiers o = staticImports (textOf lines) := by
  have hStatic : staticImports (textOf lines) = (declared lines).eraseDups := by
    have hTotal : (behind lines).length ≤ (textOf lines).toList.length + 1 := by
      cases lines with
      | nil => exact Nat.zero_le _
      | cons line lines => rw [← newline_textOf, List.length_cons]
    obtain ⟨all, hShared, hAll, -⟩ := exists_shared lines _ true true hTotal
    have hDistinct := hShared.distinct_append []
    rw [List.nil_append, List.nil_append, hAll] at hDistinct
    rw [← distinct_declared, ← hDistinct, staticImports, scan_textOf importAt?_newline,
      scan_textOf exportAt?_newline]
  refine ⟨hStatic, fun p o hReads => ?_⟩
  rw [Program.specifiers, hReads.filterMap_specifier?, distinct_eq_eraseDups, hStatic]

/-- An import of a default by the name `from` and of names, where a line of the list between the
braces starts with `import`, an export of a value, and an export of the same module. -/
def brokenList : List Line :=
  let name : Name := ⟨"from".toList, by decide, List.all_iff_forall_prop.1 (by decide +kernel)⟩
  let list : NameList :=
    ⟨" a,\nimport as b ".toList, List.all_iff_forall_prop.1 (by decide +kernel)⟩
  let declaration (clause : Clause) (quote : Char) (quoted : isQuote quote = true) : Content :=
    .declaration ⟨clause, quote, quoted, ['x'], by decide, List.forall_mem_singleton.2 (by decide),
      ⟨[';'], List.forall_mem_singleton.2 (.inl rfl)⟩⟩
  [⟨[], nofun, declaration (.takes (.defaultAndNames name list)) '"' rfl⟩,
    ⟨[], nofun, .other "export default b;".toList (by decide +kernel)⟩,
    ⟨[' '], List.forall_mem_singleton.2 rfl, declaration (.passes .all) '\'' rfl⟩]

theorem staticImports_brokenList :
    ∃ (p : Program) (o : OutputOptions),
      Program.ofText? ⟨false, false⟩ (textOf brokenList) = some p ∧
        Reads brokenList (p.outputItems o) ∧ p.specifiers o = staticImports (textOf brokenList) ∧
        staticImports (textOf brokenList) = ["x"] := by
  let o : OutputOptions := ⟨false, false, "", "", .keep, false, false⟩
  let names : List TypeScript.ImportedName := [⟨"a", "a", false⟩, ⟨"import", "b", false⟩]
  let taken : Item := .importFrom false "" (some ⟨some "from", none, some names⟩) ⟨"x", ""⟩
  let value : Item := .code true "\nexport default b;".toList
  let passed : Item := .exportAll false none ⟨"x", ""⟩
  have hItems : (Program.ofText? ⟨false, false⟩ (textOf brokenList)).map
      (·.outputItems o) = some [taken, value, passed] := by decide +kernel
  obtain ⟨p, hRead, hOutput⟩ := Option.map_eq_some_iff.1 hItems
  have hValue : ∀ item ∈ [value], item.specifier? = none := by simp [value, Item.specifier?]
  have hReads : Reads brokenList [taken, value, passed] :=
    .declaration rfl ⟨nofun, rfl, rfl⟩ <| .other rfl hValue <|
      .declaration rfl ⟨⟨_, rfl⟩, rfl, rfl⟩ .nil
  rw [← hOutput] at hReads
  obtain ⟨hStatic, hSpecifiers⟩ := staticImports_textOf brokenList
  exact ⟨p, o, hRead, hReads, hSpecifiers p o hReads, hStatic.trans (by decide)⟩

end ModuleLoader.ImportScan
