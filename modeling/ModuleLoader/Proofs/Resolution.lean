import ModuleLoader.Proofs.File.System
import ModuleLoader.Proofs.Url.File

/-! What a path or the URL of a file means in a file.  The loader searches the directory for sources
and finds what four questions for one file each would find, if the directory is the one that the URL
names: it is another one if that name is no text. -/

namespace ModuleLoader

namespace Resolution

open File

variable {d path file : FilePath} {name stem ending : FileName} {u v : Url} {fs : FileSystem}

/-- The four files that a path without an extension may stand for. -/
def sources (path : FilePath) : List FilePath :=
  TypeScript.extensions.filterMap fun ending => path.adding? (Text.Utf8.ofString ending)

theorem extensions_plain : ∀ ending ∈ TypeScript.extensions,
    FilePath.slash ∉ Text.Utf8.ofString ending ∧ FilePath.dot ∉ Text.Utf8.ofString ending ∧
      Text.Utf8.ofString ending ≠ [] := by decide

theorem extensions_inj : ∀ text ∈ TypeScript.extensions, ∀ other ∈ TypeScript.extensions,
    Text.Utf8.ofString text = Text.Utf8.ofString other → text = other := by decide

theorem isExtension_iff : TypeScript.isExtension ending = true ↔
    ∃ text ∈ TypeScript.extensions, Text.Utf8.ofString text = ending := by
  simp [TypeScript.isExtension]

theorem isName_source {text : String} (hStem : FilePath.IsName stem)
    (hText : text ∈ TypeScript.extensions) :
    FilePath.IsName (stem ++ FilePath.dot :: Text.Utf8.ofString text) :=
  FilePath.isName_adding hStem.not_slash hStem.ne_nil (extensions_plain text hText).1
    (extensions_plain text hText).2.2

theorem sources_eq (hParent : path.parent? = some d) (hName : path.fileName? = some stem) :
    sources path = TypeScript.extensions.map fun ending =>
      d.join ⟨stem ++ FilePath.dot :: Text.Utf8.ofString ending⟩ := by
  simp [sources, FilePath.adding?, hParent, hName]

theorem isAbsolute_of_mem_sources (hPath : path.isAbsolute = true) (h : file ∈ sources path) :
    file.isAbsolute = true := by
  obtain ⟨ending, hEnding, hFile⟩ := List.mem_filterMap.1 h
  unfold FilePath.adding? at hFile
  split at hFile
  · next d stem hParent hName =>
    cases hFile
    have hSource := isName_source (FilePath.isName_of_fileName? hName) hEnding
    exact FilePath.isAbsolute_join (FilePath.isAbsolute_of_parent? hPath hParent) hSource.not_slash
  · cases hFile

/-- The name is the stem with an extension of TypeScript files behind it. -/
def isSourceOf (stem name : FileName) : Bool :=
  let (front, ending) := FilePath.splitExtension name
  front == stem && ending.any TypeScript.isExtension

theorem isSourceOf_iff (hStem : stem ≠ []) : isSourceOf stem name = true ↔
    ∃ text ∈ TypeScript.extensions, name = stem ++ FilePath.dot :: Text.Utf8.ofString text := by
  constructor
  · intro h
    obtain ⟨hFront, hEnding⟩ := Bool.and_eq_true_iff.1 h
    obtain ⟨ending, hSome, hExtension⟩ := (Option.any_eq_true _ _).1 hEnding
    obtain ⟨text, hText, rfl⟩ := isExtension_iff.1 hExtension
    have hSplit : FilePath.splitExtension name = (stem, some (Text.Utf8.ofString text)) :=
      Prod.ext (beq_iff_eq.1 hFront) hSome
    exact ⟨text, hText, (FilePath.splitExtension_eq_some_iff.1 hSplit).1⟩
  · rintro ⟨text, hText, rfl⟩
    have hSplit := FilePath.splitExtension_eq_some_iff.2
      ⟨rfl, hStem, (extensions_plain text hText).2.1⟩
    simp only [isSourceOf, hSplit, beq_self_eq_true, Bool.true_and, Option.any_some]
    exact isExtension_iff.2 ⟨text, hText, rfl⟩

theorem candidates_eq (hParent : path.parent? = some d) (hStem : path.fileName? = some stem)
    (hText : d.IsText) : candidates fs path =
      (((fs.list d).filter (isSourceOf stem)).map fun name => d.join ⟨name⟩).filter fs.isFile := by
  simp only [candidates, hParent, hStem, hText.ofString_text]
  rfl

/-- The search in the directory of a path finds those of its sources that are files. -/
theorem perm_candidates (hfs : fs.root.IsProper) (hPath : path.isAbsolute = true)
    (hText : ∀ d, path.parent? = some d → d.IsText) :
    (candidates fs path).Perm ((sources path).filter fs.isFile) := by
  rcases hParent : path.parent? with _ | d
  · simp [candidates, sources, FilePath.adding?, hParent]
  rcases hStem : path.fileName? with _ | stem
  · simp [candidates, sources, FilePath.adding?, hParent, hStem]
  have hd : d.isAbsolute = true := FilePath.isAbsolute_of_parent? hPath hParent
  have hSome : d.bytes ≠ [] := FilePath.ne_nil_of_isAbsolute hd
  have hStemName := FilePath.isName_of_fileName? hStem
  have hName : ∀ name, isSourceOf stem name = true → FilePath.IsName name := by
    intro name hSource
    obtain ⟨text, hMem, rfl⟩ := (isSourceOf_iff hStemName.ne_nil).1 hSource
    exact isName_source hStemName hMem
  rw [candidates_eq hParent hStem (hText d hParent), sources_eq hParent hStem]
  refine (List.perm_ext_iff_of_nodup ?_ ?_).2 fun file => ?_
  · refine .filter _ (.map_on ?_ ((FileSystem.nodup_list hfs d).filter _))
    intro name hMem other hOther hJoin
    exact FilePath.join_name_inj hSome (hName name (List.mem_filter.1 hMem).2).not_slash
      (hName other (List.mem_filter.1 hOther).2).not_slash hJoin
  · refine .filter _ (.map_on ?_ (by decide))
    intro text hMem other hOther hJoin
    have hSame := FilePath.join_name_inj hSome (isName_source hStemName hMem).not_slash
      (isName_source hStemName hOther).not_slash hJoin
    exact extensions_inj text hMem other hOther (List.cons.inj (List.append_cancel_left hSame)).2
  · simp only [List.mem_filter, List.mem_map]
    constructor
    · rintro ⟨⟨name, ⟨-, hSource⟩, rfl⟩, hFile⟩
      obtain ⟨text, hMem, rfl⟩ := (isSourceOf_iff hStemName.ne_nil).1 hSource
      exact ⟨⟨text, hMem, rfl⟩, hFile⟩
    · rintro ⟨⟨text, hMem, rfl⟩, hFile⟩
      have hSource := (isSourceOf_iff hStemName.ne_nil).2 ⟨text, hMem, rfl⟩
      have hListed := FileSystem.mem_list_of_isFile_join hd (hName _ hSource) hFile
      exact ⟨⟨_, ⟨hListed, hSource⟩, rfl⟩, hFile⟩

/-! ## What a reference means -/

/-- The URL has no extension and leaves its path open, and of the four sources of its path `file` is
the only one that is a file. -/
structure IsSource (fs : FileSystem) (u : Url) (file : FilePath) : Prop where
  bare : extension? u = none
  unclosed : endsInSlash u = false
  only : ∃ path, u.toFilePath? = some path ∧ (sources path).filter fs.isFile = [file]

/-- The directory of the file that the URL names, if it names one, is a text. -/
def IsLegible (u : Url) : Prop :=
  ∀ path d, u.toFilePath? = some path → path.parent? = some d → d.IsText

theorem IsSource.isAbsolute (h : IsSource fs u file) : file.isAbsolute = true := by
  obtain ⟨path, hPath, hOnly⟩ := h.only
  have hMem : file ∈ (sources path).filter fs.isFile := by simp [hOnly]
  exact isAbsolute_of_mem_sources (Url.isAbsolute_of_toFilePath? hPath) (List.mem_filter.1 hMem).1

theorem IsSource.unique {other : FilePath} (h : IsSource fs u file) (hOther : IsSource fs u other) :
    file = other := by
  obtain ⟨path, hPath, hOnly⟩ := h.only
  obtain ⟨path', hPath', hOnly'⟩ := hOther.only
  cases hPath.symm.trans hPath'
  exact List.singleton_inj.1 (hOnly.symm.trans hOnly')

theorem candidates_eq_singleton_iff (hfs : fs.root.IsProper) (hLegible : IsLegible u)
    (hPath : u.toFilePath? = some path) :
    candidates fs path = [file] ↔ (sources path).filter fs.isFile = [file] := by
  have hPerm := perm_candidates hfs (Url.isAbsolute_of_toFilePath? hPath) (hLegible path · hPath)
  rw [← List.perm_singleton, ← List.perm_singleton]
  exact ⟨hPerm.symm.trans, hPerm.trans⟩

theorem probe?_eq_some_iff (hfs : fs.root.IsProper) (hLegible : IsLegible u)
    (hBare : extension? u = none) (hUnclosed : endsInSlash u = false) :
    probe? fs u = some v ↔ ∃ file, IsSource fs u file ∧ Url.ofFilePath? file = some v := by
  cases hPath : u.toFilePath? with
  | none =>
    have hNone : probe? fs u = none := by simp [probe?, hPath]
    simp only [hNone, reduceCtorEq, false_iff]
    rintro ⟨file, ⟨-, -, path, hSome, -⟩, -⟩
    cases hPath.symm.trans hSome
  | some path =>
    have hProbe : probe? fs u = some v ↔
        ∃ file, candidates fs path = [file] ∧ Url.ofFilePath? file = some v := by
      simp only [probe?, hPath, Option.bind_eq_bind, Option.bind_some]
      split
      · next only hOnly => simp [hOnly]
      · next hOther =>
        simp only [reduceCtorEq, false_iff]
        rintro ⟨only, hOnly, -⟩
        exact hOther only hOnly
    rw [hProbe]
    simp only [candidates_eq_singleton_iff hfs hLegible hPath]
    constructor
    · rintro ⟨file, hOnly, hUrl⟩
      exact ⟨file, ⟨hBare, hUnclosed, path, hPath, hOnly⟩, hUrl⟩
    · rintro ⟨file, ⟨-, -, other, hOther, hOnly⟩, hUrl⟩
      cases hPath.symm.trans hOther
      exact ⟨file, hOnly, hUrl⟩

/-- A URL stands for itself if the search for a file, where there is one, finds nothing. -/
theorem classify_of_probe?_none (fs : FileSystem)
    (hNone : extension? u = none → endsInSlash u = false → probe? fs u = none) :
    classify fs u =
      ⟨u.text, if (extension? u).any TypeScript.isExtension then .dynamic else .module⟩ := by
  have hFound : (if (extension? u).isNone && u.scheme == "file" && !endsInSlash u then
      probe? fs u else none) = none := by
    split
    · next hOpen =>
      simp only [Bool.and_eq_true, Option.isNone_iff_eq_none, Bool.not_eq_true'] at hOpen
      exact hNone hOpen.1.1 hOpen.2
    · rfl
  simp only [classify, hFound]

/-- A URL stands for its source, if it has one, and otherwise for itself. -/
theorem classify_cases (hfs : fs.root.IsProper) (hScheme : u.scheme = "file")
    (hLegible : IsLegible u) :
    (∃ file v, IsSource fs u file ∧ Url.ofFilePath? file = some v ∧
      classify fs u = ⟨v.text, .dynamic⟩) ∨
    ((¬∃ file, IsSource fs u file) ∧ classify fs u =
      ⟨u.text, if (extension? u).any TypeScript.isExtension then .dynamic else .module⟩) := by
  by_cases hSource : ∃ file, IsSource fs u file
  · obtain ⟨file, hFile⟩ := hSource
    obtain ⟨v, hUrl⟩ := Url.exists_ofFilePath? hFile.isAbsolute
    have hProbe := (probe?_eq_some_iff hfs hLegible hFile.bare hFile.unclosed).2 ⟨file, hFile, hUrl⟩
    exact .inl ⟨file, v, hFile, hUrl, by
      simp [classify, hFile.bare, hFile.unclosed, hScheme, hProbe]⟩
  · refine .inr ⟨hSource, classify_of_probe?_none fs fun hBare hUnclosed => ?_⟩
    rw [Option.eq_none_iff_forall_ne_some]
    intro v hProbe
    obtain ⟨file, hFile, -⟩ := (probe?_eq_some_iff hfs hLegible hBare hUnclosed).1 hProbe
    exact hSource ⟨file, hFile⟩

theorem resolve_of_join {σ : Type} {builtins : List String} {packages : Option (PackageResolver σ)}
    {specifier : String} {parent : Url} (hBuiltin : isBuiltin builtins specifier = false)
    (hFile : isPath specifier = true ∨ isFileUrl specifier = true)
    (hJoin : Url.join parent specifier = .ok u) :
    resolve builtins packages fs specifier parent = pure (.ok (classify fs u)) := by
  simp [resolve, locate, hBuiltin, hFile, hJoin]

/-- A path, or the URL of a file, is TypeScript if its URL has an extension of TypeScript, or if it
has none and exactly one of the four files with such an extension in its place is there.  Nothing
else in the file system, and no resolver for packages, has a say in it, and no case is an error. -/
theorem resolve_file {builtins : List String} {fs : FileSystem} {specifier : String}
    {parent u : Url} (hfs : fs.root.IsProper) (hParent : parent.scheme = "file")
    (hBuiltin : isBuiltin builtins specifier = false)
    (hFile : isPath specifier = true ∨ isFileUrl specifier = true)
    (hJoin : Url.join parent specifier = .ok u) (hLegible : IsLegible u) :
    ∃ m, (∀ {σ : Type} (packages : Option (PackageResolver σ)),
        resolve builtins packages fs specifier parent = pure (.ok m)) ∧
      (m.format = .dynamic ↔
        (extension? u).any TypeScript.isExtension = true ∨ ∃ file, IsSource fs u file) ∧
      ((extension? u).any TypeScript.isExtension = true → m.url = u.text) ∧
      (∀ file, IsSource fs u file → ∃ v, Url.ofFilePath? file = some v ∧ m.url = v.text) ∧
      (m.format ≠ .dynamic → m = ⟨u.text, .module⟩) := by
  refine ⟨classify fs u, fun packages => resolve_of_join hBuiltin hFile hJoin, ?_⟩
  rcases classify_cases hfs (Url.scheme_of_join hParent hFile hJoin) hLegible with
    ⟨file, v, hSource, hUrl, hClass⟩ | ⟨hSource, hClass⟩
  · rw [hClass, hSource.bare]
    refine ⟨by simpa using ⟨file, hSource⟩, by simp, fun other hOther => ?_, by simp⟩
    exact ⟨v, hSource.unique hOther ▸ hUrl, rfl⟩
  · rw [hClass]
    refine ⟨?_, fun _ => rfl, fun file hFile => absurd ⟨file, hFile⟩ hSource, ?_⟩
    · simp [hSource]
    · intro hFormat
      split at hFormat
      · exact absurd rfl hFormat
      · next hPlain => rw [if_neg hPlain]

end Resolution

namespace Sample

open File

/-- A document next to a source and its declarations, with a directory named like another source. -/
def sources : FileSystem :=
  ((({} : FileSystem).put (.ofString "/src/a[b].ts") (.file [])).put (.ofString "/src/a[b].d.ts")
    (.file [])).put (.ofString "/src/a[b].tsx") .emptyDirectory

/-- A source in a directory whose name is a replacement character. -/
def replaced : FileSystem := ({} : FileSystem).put (.ofString "/src/\uFFFD/a.ts") (.file [])

/-- The URL of what the names lead to from the directory of sources. -/
def sourceUrl (names : List String) : Url :=
  { scheme := "file", authority := some {}, path := .segments ("src" :: names) }

end Sample

namespace Resolution

open File

/-- Brackets stand for themselves; the declarations and the directory do not count. -/
theorem resolve_file_brackets :
    ∃ m, resolve nodeBuiltins (none : Option (PackageResolver Unit)) Sample.sources "./a[b]"
      (Sample.sourceUrl ["main.ts"]) = pure (.ok m) ∧ m.format = .dynamic ∧
        m.url = "file:///src/a[b].ts" := by
  have hProper : Sample.sources.root.IsProper :=
    .put Node.isProper_emptyDirectory _
      (.put (.file _) _ (.put (.file _) _ Node.isProper_emptyDirectory))
  have hJoin : Url.join (Sample.sourceUrl ["main.ts"]) "./a[b]" =
      .ok (Sample.sourceUrl ["a[b]"]) := by decide +kernel
  have hPath : (Sample.sourceUrl ["a[b]"]).toFilePath? = some (.ofString "/src/a[b]") := by
    decide +kernel
  have hLegible : IsLegible (Sample.sourceUrl ["a[b]"]) := by
    intro path d hSome hParent
    cases hPath.symm.trans hSome
    have hDirectory : (FilePath.ofString "/src/a[b]").parent? = some (.ofString "/src") := by
      decide +kernel
    cases hDirectory.symm.trans hParent
    exact ⟨"/src", rfl⟩
  have hSource : IsSource Sample.sources (Sample.sourceUrl ["a[b]"]) (.ofString "/src/a[b].ts") :=
    ⟨rfl, rfl, _, hPath, by decide +kernel⟩
  obtain ⟨m, hResolve, hFormat, -, hUrl, -⟩ :=
    resolve_file hProper rfl (show isBuiltin nodeBuiltins "./a[b]" = false by decide)
      (.inl (by decide)) hJoin hLegible
  obtain ⟨v, hv, hText⟩ := hUrl _ hSource
  have hName : Url.ofFilePath? (.ofString "/src/a[b].ts") = some (Sample.sourceUrl ["a[b].ts"]) := by
    decide +kernel
  cases hName.symm.trans hv
  exact ⟨m, hResolve none, hFormat.2 (.inr ⟨_, hSource⟩), hText.trans (by decide +kernel)⟩

/-- A directory that is no text is searched under the name that it is shown by. -/
theorem dynamic_without_source :
    Sample.replaced.root.IsProper ∧
      Url.join (Sample.sourceUrl ["main.ts"]) "./%FF/a" = .ok (Sample.sourceUrl ["%FF", "a"]) ∧
      extension? (Sample.sourceUrl ["%FF", "a"]) = none ∧
      (¬∃ file, IsSource Sample.replaced (Sample.sourceUrl ["%FF", "a"]) file) ∧
      resolve nodeBuiltins (none : Option (PackageResolver Unit)) Sample.replaced "./%FF/a"
        (Sample.sourceUrl ["main.ts"]) = pure (.ok ⟨"file:///src/%EF%BF%BD/a.ts", .dynamic⟩) := by
  have hJoin : Url.join (Sample.sourceUrl ["main.ts"]) "./%FF/a" =
      .ok (Sample.sourceUrl ["%FF", "a"]) := by decide +kernel
  refine ⟨.put (.file _) _ Node.isProper_emptyDirectory, hJoin, rfl, ?_, ?_⟩
  · rintro ⟨file, -, -, path, hPath, hOnly⟩
    have hNone : ((Sample.sourceUrl ["%FF", "a"]).toFilePath?.map fun path =>
        (sources path).filter Sample.replaced.isFile) = some [] := by decide +kernel
    rw [hPath, Option.map_some, hOnly] at hNone
    cases hNone
  · rw [resolve_of_join (by decide) (.inl (by decide)) hJoin]
    have hClass : classify Sample.replaced (Sample.sourceUrl ["%FF", "a"]) =
        ⟨"file:///src/%EF%BF%BD/a.ts", .dynamic⟩ := by decide +kernel
    rw [hClass]

end Resolution

end ModuleLoader
