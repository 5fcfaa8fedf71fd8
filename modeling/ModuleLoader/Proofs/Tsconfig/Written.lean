import ModuleLoader.Proofs.File.Names
import ModuleLoader.Proofs.Json.Written
import ModuleLoader.Proofs.Tsconfig.Dialect
import ModuleLoader.Proofs.Tsconfig.Fields

/-! Options as they are written.  Whatever a configuration in an absolute directory says, the
options that it gives are written as a configuration that gives them again in every directory, if
they can be written: JSON has no strings for paths that are no texts. -/

namespace ModuleLoader.Tsconfig

open OptionValue (Means)

/-! ### Values -/

/-- A type of values that options are written with. -/
class WrittenValue (α : Type) [OptionValue α] where
  write : α → Json
  /-- The value does not depend on the directory that it is read in. -/
  IsFixed : α → Prop
  means_write : ∀ {a}, IsFixed a → ∀ directory, Means directory (write a) a
  fits_write : ∀ a, (write a).Fits 0

open WrittenValue (write IsFixed)

/-- The names are distinct, and the one that a value is written with, in lower case, is one of the
value. -/
structure Named.IsFaithful (α : Type) [Named α] : Prop where
  distinct : ((Named.names (α := α)).map Prod.fst).Nodup
  own : ∀ a : α, (String.ofList ((Named.name a).toList.map Char.toLower), a) ∈ Named.names

@[reducible] def WrittenValue.ofNames {α : Type} [Named α] (h : Named.IsFaithful α) :
    @WrittenValue α (.ofNames h.distinct) :=
  let _ : OptionValue α := .ofNames h.distinct
  { write := CompilerOptions.named
    IsFixed := fun _ => True
    means_write := fun {a} _ _ => ⟨Named.name a, rfl, h.own a⟩
    fits_write := fun a => .string (Named.name a) 0 }

theorem isFaithful_scriptTarget : Named.IsFaithful ScriptTarget :=
  ⟨by decide, fun a => by cases a <;> decide⟩

theorem isFaithful_moduleKind : Named.IsFaithful ModuleKind :=
  ⟨by decide, fun a => by cases a <;> decide⟩

theorem isFaithful_moduleResolution : Named.IsFaithful ModuleResolution :=
  ⟨by decide, fun a => by cases a <;> decide⟩

theorem isFaithful_jsxEmit : Named.IsFaithful JsxEmit :=
  ⟨by decide, fun a => by cases a <;> decide⟩

instance : WrittenValue ScriptTarget := .ofNames isFaithful_scriptTarget

instance : WrittenValue ModuleKind := .ofNames isFaithful_moduleKind

instance : WrittenValue ModuleResolution := .ofNames isFaithful_moduleResolution

instance : WrittenValue JsxEmit := .ofNames isFaithful_jsxEmit

instance : WrittenValue Bool where
  write := .boolean
  IsFixed _ := True
  means_write _ _ := rfl
  fits_write b := .boolean b 0

instance : WrittenValue String where
  write := .string
  IsFixed _ := True
  means_write _ _ := rfl
  fits_write text := .string text 0

instance : WrittenValue FilePath where
  write path := .string path.text
  IsFixed path := path.IsText ∧ path.isAbsolute = true
  means_write := fun {path} hFixed directory => by
    refine ⟨path.text, rfl, ?_⟩
    rw [hFixed.1.ofString_text, FilePath.join_of_isAbsolute hFixed.2]
  fits_write path := .string path.text 0

/-- Absent values are written as null, and so nothing else may be. -/
@[reducible] def WrittenValue.ofOption {α : Type} [OptionValue α] [WrittenValue α]
    (h : ∀ a : α, write a ≠ .null) : WrittenValue (Option α) where
  write := CompilerOptions.orNull write
  IsFixed a := ∀ b, a = some b → IsFixed b
  means_write := fun {a} hFixed directory => by
    cases a with
    | none => exact .inl ⟨rfl, rfl⟩
    | some b => exact .inr ⟨h b, b, rfl, WrittenValue.means_write (hFixed b rfl) directory⟩
  fits_write a := by
    cases a with
    | none => exact .null 0
    | some b => exact WrittenValue.fits_write b

instance : WrittenValue (Option ModuleResolution) := .ofOption fun _ h => by cases h

instance : WrittenValue (Option JsxEmit) := .ofOption fun _ h => by cases h

instance : WrittenValue (Option String) := .ofOption fun _ h => by cases h

instance : WrittenValue (Option FilePath) := .ofOption fun _ h => by cases h

instance (key : OptionKey) : WrittenValue key.Value :=
  match key with
  | .target => inferInstanceAs (WrittenValue ScriptTarget)
  | .module => inferInstanceAs (WrittenValue ModuleKind)
  | .moduleResolution => inferInstanceAs (WrittenValue (Option ModuleResolution))
  | .jsx => inferInstanceAs (WrittenValue (Option JsxEmit))
  | .jsxFactory | .jsxFragmentFactory | .jsxImportSource =>
    inferInstanceAs (WrittenValue (Option String))
  | .allowJs | .skipLibCheck | .strict | .allowSyntheticDefaultImports | .experimentalDecorators
  | .emitDecoratorMetadata | .verbatimModuleSyntax | .noEmitOnError =>
    inferInstanceAs (WrittenValue Bool)
  | .baseUrl | .rootDir => inferInstanceAs (WrittenValue (Option FilePath))

namespace CompilerOptions

/-- The paths of the options. -/
def HasPath (o : CompilerOptions) (path : FilePath) : Prop :=
  o.baseUrl = some path ∨ o.rootDir = some path

/-- The paths of the options are texts. -/
def IsWritable (o : CompilerOptions) : Prop := ∀ path, o.HasPath path → path.IsText

/-- The options are as a configuration in an absolute directory gives them. -/
structure IsNormal (o : CompilerOptions) : Prop where
  absolute : ∀ path, o.HasPath path → path.isAbsolute = true
  sorted : Json.IsSorted o.extra
  foreign : ∀ field ∈ o.extra, field.1 ∉ OptionKey.names
  /-- The other options are values that are read from their own texts, two levels below the
  whole. -/
  fits : ∀ field ∈ o.extra, field.2.Fits (Json.depthLimit - 2)

/-- The fields that the interpreted options are written as. -/
def written (o : CompilerOptions) : List (String × Json) :=
  OptionKey.all.map fun key => (key.name, write (key.get o))

variable {o p : CompilerOptions} {fields : List (String × Json)}

theorem pathOrNull_eq_ok {path : Option FilePath} (h : ∀ p, path = some p → p.IsText) :
    pathOrNull path = .ok (write path) := by
  cases path with
  | none => rfl
  | some p =>
    simp only [pathOrNull, pathJson, (h p rfl).text?_eq]
    rfl

theorem pathOrNull_eq_error {path : FilePath} (h : ¬path.IsText) :
    pathOrNull (some path) = .error "path contains invalid UTF-8 characters" := by
  simp only [pathOrNull, pathJson, FilePath.text?_of_not_isText h]

/-- Options whose paths are texts are written with all their fields. -/
theorem IsWritable.toJson?_eq (h : o.IsWritable) :
    o.toJson? = .ok (.ofFields (o.extra ++ o.written)) := by
  rw [toJson?, pathOrNull_eq_ok fun path hPath => h path (.inl hPath),
    pathOrNull_eq_ok fun path hPath => h path (.inr hPath)]
  rfl

/-- Other options cannot be written. -/
theorem toJson?_of_not_isWritable (h : ¬o.IsWritable) :
    o.toJson? = .error "path contains invalid UTF-8 characters" := by
  by_cases hBase : ∃ path, o.baseUrl = some path ∧ ¬path.IsText
  · obtain ⟨path, hPath, hNot⟩ := hBase
    rw [toJson?, hPath, pathOrNull_eq_error hNot]
    rfl
  · have hRead : pathOrNull o.baseUrl = .ok (write o.baseUrl) :=
      pathOrNull_eq_ok fun path hPath => not_not.1 fun hNot => hBase ⟨path, hPath, hNot⟩
    obtain ⟨path, hPath, hNot⟩ : ∃ path, o.HasPath path ∧ ¬path.IsText := by
      simpa [IsWritable] using h
    have hRoot : o.rootDir = some path :=
      hPath.resolve_left fun hSome => hBase ⟨path, hSome, hNot⟩
    rw [toJson?, hRead, hRoot, pathOrNull_eq_error hNot]
    rfl

theorem toJson?_eq_ok_iff {json : Json} : o.toJson? = .ok json ↔
    o.IsWritable ∧ json = .ofFields (o.extra ++ o.written) := by
  constructor
  · intro hJson
    by_cases h : o.IsWritable
    · rw [h.toJson?_eq] at hJson
      cases hJson
      exact ⟨h, rfl⟩
    · rw [toJson?_of_not_isWritable h] at hJson
      cases hJson
  · rintro ⟨h, rfl⟩
    exact h.toJson?_eq

theorem keys_written (o : CompilerOptions) : o.written.map Prod.fst = OptionKey.names := rfl

theorem ext_of_get (h : ∀ key : OptionKey, key.get o = key.get p) (hExtra : o.extra = p.extra) :
    o = p := by
  cases o
  cases p
  rw [CompilerOptions.mk.injEq]
  exact ⟨h .target, h .module, h .moduleResolution, h .jsx, h .jsxFactory, h .jsxFragmentFactory,
    h .jsxImportSource, h .allowJs, h .skipLibCheck, h .strict, h .allowSyntheticDefaultImports,
    h .experimentalDecorators, h .emitDecoratorMetadata, h .verbatimModuleSyntax, h .noEmitOnError,
    h .baseUrl, h .rootDir, hExtra⟩

namespace IsNormal

variable (h : o.IsNormal)

include h

theorem isFixed (hText : o.IsWritable) (key : OptionKey) : IsFixed (key.get o) := by
  have hPath : ∀ path, o.HasPath path → IsFixed path := fun path hPath =>
    ⟨hText path hPath, h.absolute path hPath⟩
  cases key with
  | baseUrl => exact fun path hBase => hPath path (.inl hBase)
  | rootDir => exact fun path hRoot => hPath path (.inr hRoot)
  | _ => first | exact trivial | exact fun _ _ => trivial

theorem nodup_keys : ((o.extra ++ o.written).map Prod.fst).Nodup := by
  rw [List.map_append, keys_written, List.nodup_append]
  refine ⟨h.sorted.nodup_keys, by decide, ?_⟩
  rintro key hKey name hName rfl
  obtain ⟨field, hField, rfl⟩ := List.mem_map.1 hKey
  exact h.foreign field hField hName

theorem lookup_toJson (hFields : o.toJson? = .ok (.object fields)) (key : OptionKey) :
    fields.lookup key.name = some (write (key.get o)) := by
  rw [Json.lookup_of_ofFields (toJson?_eq_ok_iff.1 hFields).2.symm h.nodup_keys]
  refine OrderedMap.lookup_of_mem h.nodup_keys (List.mem_append_right _ ?_)
  exact List.mem_map_of_mem (by cases key <;> decide)

theorem filter_toJson (hFields : o.toJson? = .ok (.object fields)) :
    fields.filter (·.1 ∉ OptionKey.names) = o.extra := by
  refine Json.filter_of_ofFields_append (p := (· ∉ OptionKey.names))
    (toJson?_eq_ok_iff.1 hFields).2.symm h.sorted ?_ ?_
  · exact fun field hField => decide_eq_true (h.foreign field hField)
  · intro field hField
    have hName : field.1 ∈ OptionKey.names := keys_written o ▸ List.mem_map_of_mem hField
    simpa using hName

/-- The options are written as a value that is read from its own text, one level below the whole. -/
theorem fits_toJson : (Json.ofFields (o.extra ++ o.written)).Fits (Json.depthLimit - 1) := by
  obtain ⟨fields, hFields⟩ : ∃ fields, Json.ofFields (o.extra ++ o.written) = .object fields :=
    ⟨_, rfl⟩
  rw [hFields]
  refine .object (Json.isSorted_of_ofFields hFields) fun field hField => ?_
  rcases List.mem_append.1 (Json.mem_of_mem_ofFields hFields hField) with hExtra | hWritten
  · exact h.fits field hExtra
  · obtain ⟨key, -, rfl⟩ := List.mem_map.1 hWritten
    exact (WrittenValue.fits_write (key.get o)).mono (Nat.zero_le _)

/-- What the options are written as stands for them, in every directory. -/
theorem readConfig_eq_ok (hFields : o.toJson? = .ok (.object fields))
    {text : String} (hObject : optionObject? text = some fields) (directory : FilePath) :
    readConfig text directory = .ok o := by
  have hMeans : ∀ (key : OptionKey) json, fields.lookup key.name = some json →
      Means directory json (key.get o) := by
    intro key json hJson
    obtain rfl := Option.some.inj ((h.lookup_toJson hFields key).symm.trans hJson)
    exact WrittenValue.means_write (h.isFixed (toJson?_eq_ok_iff.1 hFields).1 key) directory
  obtain ⟨p, hRead⟩ := (exists_readConfig_of_object hObject directory).2
    fun key json hJson => ⟨key.get o, hMeans key json hJson⟩
  have hReads := reads_of_object hObject hRead
  have hSame : p = o := by
    refine ext_of_get (fun key => ?_) (hReads.extra.trans (h.filter_toJson hFields))
    have hJson := h.lookup_toJson hFields key
    exact means_unique (hReads.given key _ hJson) (hMeans key _ hJson)
  rw [hRead, hSame]

end IsNormal

end CompilerOptions

/-! ### Texts -/

open Json (Document)

/-- A JSON text is left as it is. -/
theorem plain_of_ofText? {text : List Char} {d : Document} (h : Document.ofText? text = some d) :
    plain text = text := by
  obtain ⟨ts, hTokens, hDocument⟩ := Option.bind_eq_some_iff.1 h
  obtain ⟨ps, hLaidOut, rfl, hKept, rfl⟩ := exists_layout (Json.spread_of_tokens? hTokens)
  rw [plain_textOf hLaidOut (Document.isChain_of_ofTokens? hDocument), hKept]

variable {directory path : FilePath} {text : String} {o : CompilerOptions}
  {fields : List (String × Json)}

theorem fits_of_readPart {part : Document} {value : Json} (h : readPart part = .ok value)
    (hPart : part.IsIntegral) : value.Fits (Json.depthLimit - 1) := by
  unfold readPart at h
  split at h
  · cases h
  · next hDepth =>
    split at h
    · next found hFound =>
      cases h
      exact (Json.fits_of_ofDocument? part hPart _ hFound).mono (by omega)
    · cases h

theorem fits_of_optionFields
    (hNumbers : ∀ d, Document.ofText? (plain text.toList) = some d → d.IsIntegral)
    (h : optionFields text = .ok fields) : (Json.object fields).Fits (Json.depthLimit - 1) := by
  rcases eq_nil_or_optionObject? h with rfl | hObject
  · exact .object .nil (by simp)
  · obtain ⟨d, hDocument, hOptions⟩ := exists_document hObject
    obtain ⟨part, hPart, hTokens⟩ := exists_readPart hOptions
    exact fits_of_readPart hPart ((hNumbers d hDocument).mono hTokens)

/-- The options of a configuration are read from its fields. -/
theorem exists_reads (h : readConfig text directory = .ok o) :
    ∃ fields, optionFields text = .ok fields ∧ Reads directory fields o := by
  rw [readConfig_eq] at h
  cases hFields : optionFields text with
  | error e => simp [hFields, bind, Except.bind] at h
  | ok fields =>
    cases hApply : applyFields {} fields with
    | error e => simp [hFields, hApply, bind, Except.bind] at h
    | ok p =>
      obtain rfl : p.locate directory = o := by
        simpa [hFields, hApply, bind, Except.bind, pure, Except.pure] using h
      exact ⟨fields, rfl,
        (applied_of_applyFields (nodup_keys_of_optionFields hFields) hApply).reads directory⟩

/-- Every path of the options is the directory's view of a path that is a text. -/
theorem Reads.exists_join (h : Reads directory fields o) (hPath : o.HasPath path) :
    ∃ s, path = directory.join (.ofString s) := by
  have hKey : ∀ (name : String) (a : Option FilePath),
      (∀ json, fields.lookup name = some json → Means directory json a) →
      (fields.lookup name = none → a = none) → a = some path →
        ∃ s, path = directory.join (.ofString s) := by
    intro name a hGiven hAbsent hSome
    cases hFound : fields.lookup name with
    | none => simp [hAbsent hFound] at hSome
    | some json =>
      obtain ⟨-, rfl⟩ | ⟨-, b, rfl, s, -, rfl⟩ := hGiven json hFound
      · cases hSome
      · cases hSome
        exact ⟨s, rfl⟩
  exact hPath.elim (hKey "baseUrl" _ (h.given .baseUrl) (h.absent .baseUrl))
    (hKey "rootDir" _ (h.given .rootDir) (h.absent .rootDir))

/-- In a directory whose path is a text all paths are texts. -/
theorem isWritable_of_readConfig (hDirectory : directory.IsText)
    (h : readConfig text directory = .ok o) : o.IsWritable := by
  obtain ⟨fields, -, hReads⟩ := exists_reads h
  intro path hPath
  obtain ⟨s, rfl⟩ := hReads.exists_join hPath
  exact hDirectory.join ⟨s, rfl⟩

/-- The options of a configuration in an absolute directory are read from their own text. -/
theorem isNormal_of_reads (hDirectory : directory.isAbsolute = true) (h : Reads directory fields o)
    (hFits : (Json.object fields).Fits (Json.depthLimit - 1)) : o.IsNormal := by
  obtain ⟨hSorted, hFields⟩ := hFits.of_object
  refine ⟨fun path hPath => ?_, ?_, ?_, ?_⟩
  · obtain ⟨s, rfl⟩ := h.exists_join hPath
    exact FilePath.isAbsolute_join_of_not hDirectory _
  · exact h.extra ▸ List.Pairwise.filter _ hSorted
  · intro field hField
    rw [h.extra] at hField
    exact of_decide_eq_true (List.mem_filter.1 hField).2
  · intro field hField
    rw [h.extra] at hField
    exact hFields field (List.mem_filter.1 hField).1

theorem optionObject?_of_document {key : List Char} {part : Document}
    (hText : Document.ofText? text.toList = some (.object [(key, part)]))
    (hKey : Json.unescape? key = some "compilerOptions") (hDepth : part.depth < Json.depthLimit)
    (hPart : Json.ofDocument? part = some (.object fields)) : optionObject? text = some fields := by
  have hRead : readPart part = .ok (.object fields) := by
    rw [readPart, if_neg (Nat.not_lt.2 hDepth), hPart]
  have hParts : optionParts [(key, part)] = .ok [part] := by
    simp [optionParts, hKey, bind, Except.bind, pure, Except.pure]
  have hOptions : optionsValue (.object [(key, part)]) = .ok (some (.object fields)) := by
    simp [optionsValue, hParts, hRead, bind, Except.bind, pure, Except.pure]
  simp only [optionObject?, plain_of_ofText? hText, hText, hOptions]

/-- The configuration that consists of written options. -/
def configurationOf (options : Json) : Json := .object [("compilerOptions", options)]

/-- The options that an absolute directory's configuration gives, if its numbers are integers of 64
bits, can be written if their paths are texts, as they are whenever the path of the directory is one.
What they are written as gives them again, in every directory and however it is spelt. -/
theorem readConfig_configuration (hDirectory : directory.isAbsolute = true)
    (hNumbers : ∀ d, Document.ofText? (plain text.toList) = some d → d.IsIntegral)
    (h : readConfig text directory = .ok o) :
    (directory.IsText → o.IsWritable) ∧
    (¬o.IsWritable → o.toJson? = .error "path contains invalid UTF-8 characters") ∧
    (o.IsWritable → ∃ json, o.toJson? = .ok json ∧ ∀ other,
      readConfig (configurationOf json).text other = .ok o ∧
      ∀ spelt key part, Document.ofText? spelt.toList = some (.object [(key, part)]) →
        Json.unescape? key = some "compilerOptions" → Json.ofDocument? part = some json →
        part.depth < Json.depthLimit → readConfig spelt other = .ok o) := by
  obtain ⟨fields, hFields, hReads⟩ := exists_reads h
  have hNormal := isNormal_of_reads hDirectory hReads (fits_of_optionFields hNumbers hFields)
  refine ⟨fun hText => isWritable_of_readConfig hText h, CompilerOptions.toJson?_of_not_isWritable,
    fun hWritable => ⟨_, hWritable.toJson?_eq, fun other => ?_⟩⟩
  have hJson := hNormal.fits_toJson
  have hSpelt : ∀ spelt key part, Document.ofText? spelt.toList = some (.object [(key, part)]) →
      Json.unescape? key = some "compilerOptions" →
      Json.ofDocument? part = some (.ofFields (o.extra ++ o.written)) →
      part.depth < Json.depthLimit → readConfig spelt other = .ok o := by
    intro spelt key part hText hKey hPart hDepth
    exact hNormal.readConfig_eq_ok hWritable.toJson?_eq
      (optionObject?_of_document hText hKey hDepth hPart) other
  refine ⟨hSpelt _ (Json.spellingOf "compilerOptions") _ ?_ (Json.unescape?_spellingOf _)
    hJson.ofDocument? (Nat.lt_of_le_of_lt hJson.depth_le (by decide)), hSpelt⟩
  have hWhole : (configurationOf (.ofFields (o.extra ++ o.written))).Fits Json.depthLimit := by
    refine .object (List.pairwise_singleton _ _) fun field hField => ?_
    obtain rfl := List.mem_singleton.1 hField
    exact hJson
  rw [Json.text, String.toList_ofList]
  exact hWhole.ofText?

/-- A name in another case, a relative path, and marks of comments and closing marks in strings. -/
theorem readConfig_configuration_mixed :
    ∃ text o, readConfig text (.ofString "/a") = .ok o ∧ o.target = .es2015 ∧
      o.baseUrl = some (.ofString "/a/src") ∧ o.extra.map Prod.fst = ["//", "lib"] ∧
      ∃ json, o.toJson? = .ok json ∧
        readConfig (configurationOf json).text (.ofString "b") = .ok o := by
  let text := "\x7b\"compilerOptions\":\x7b\"target\":\"ES6\",\"lib\":[-0,\",]/*\"]," ++
    "\"baseUrl\":\"src\",\"//\":18446744073709551615,\x7d\x7d"
  have hTokens : (Document.ofText? (plain text.toList)).map (·.tokens.filter Json.Token.isWord) =
      some [.number "-0".toList, .number "18446744073709551615".toList] := by decide +kernel
  have hNumbers : ∀ d, Document.ofText? (plain text.toList) = some d → d.IsIntegral := by
    intro d hd spelling hSpelling
    have hMem : .number spelling ∈ d.tokens.filter Json.Token.isWord :=
      List.mem_filter.2 ⟨hSpelling, rfl⟩
    rw [hd, Option.map_some, Option.some.injEq] at hTokens
    rw [hTokens, List.mem_pair, Json.Token.number.injEq, Json.Token.number.injEq] at hMem
    rcases hMem with rfl | rfl
    · exact .inr ⟨0, by decide, rfl⟩
    · exact .inl ⟨18446744073709551615, by decide, by decide +kernel⟩
  have hRun : (readConfig text (.ofString "/a")).toOption.any (fun o =>
      o.target = .es2015 ∧ o.baseUrl = some (.ofString "/a/src") ∧
        o.extra.map Prod.fst = ["//", "lib"]) = true := by decide +kernel
  cases hRead : readConfig text (.ofString "/a") with
  | error e =>
    rw [hRead] at hRun
    cases hRun
  | ok o =>
    rw [hRead] at hRun
    obtain ⟨hTarget, hBase, hExtra⟩ := of_decide_eq_true hRun
    obtain ⟨hWritable, -, hAgain⟩ := readConfig_configuration (by decide) hNumbers hRead
    obtain ⟨json, hJson, hGives⟩ := hAgain (hWritable ⟨_, rfl⟩)
    exact ⟨text, o, hRead, hTarget, hBase, hExtra, json, hJson, (hGives (.ofString "b")).1⟩

/-- A relative path in a directory whose name is no text: the options cannot be written, and no
configuration in a directory whose path is a text gives them again. -/
theorem configuration_without_text :
    ∃ text directory o, directory.isAbsolute = true ∧
      (∀ d, Document.ofText? (plain text.toList) = some d → d.IsIntegral) ∧
      readConfig text directory = .ok o ∧ o.baseUrl = some (directory.join (.ofString "src")) ∧
      o.toJson? = .error "path contains invalid UTF-8 characters" ∧
      ∀ again other, other.IsText → readConfig again other ≠ .ok o := by
  let text := "\x7b\"compilerOptions\":\x7b\"baseUrl\":\"src\"\x7d\x7d"
  let directory : FilePath := ⟨[FilePath.slash, 0xFF]⟩
  have hTokens : (Document.ofText? (plain text.toList)).map (·.tokens.filter Json.Token.isWord) =
      some [] := by decide +kernel
  have hNumbers : ∀ d, Document.ofText? (plain text.toList) = some d → d.IsIntegral := by
    intro d hd spelling hSpelling
    have hMem : .number spelling ∈ d.tokens.filter Json.Token.isWord :=
      List.mem_filter.2 ⟨hSpelling, rfl⟩
    rw [hd, Option.map_some, Option.some.injEq] at hTokens
    rw [hTokens] at hMem
    cases hMem
  have hRun : (readConfig text directory).toOption.any (fun o =>
      o.baseUrl = some (directory.join (.ofString "src"))) = true := by decide +kernel
  have hNoText : ¬(directory.join (.ofString "src")).IsText := fun hText =>
    absurd hText.ofString_text (by decide +kernel)
  cases hRead : readConfig text directory with
  | error e =>
    rw [hRead] at hRun
    cases hRun
  | ok o =>
    rw [hRead] at hRun
    have hBase := of_decide_eq_true hRun
    have hPath : o.HasPath (directory.join (.ofString "src")) := .inl hBase
    refine ⟨text, directory, o, by decide, hNumbers, hRead, hBase,
      CompilerOptions.toJson?_of_not_isWritable fun h => hNoText (h _ hPath), ?_⟩
    exact fun again other hOther hAgain =>
      hNoText (isWritable_of_readConfig hOther hAgain _ hPath)

end ModuleLoader.Tsconfig
