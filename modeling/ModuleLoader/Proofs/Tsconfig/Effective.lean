import ModuleLoader.Tsconfig.Search

/-! What transpilation takes from configuration files: everything except the options that it sets
itself.  Two files that differ in valid values of those give the same effective options, and so do
two trees of files with such differences in the files that a search may find. -/

namespace ModuleLoader.Tsconfig

open File

/-- The text is a name of a value, in any case. -/
def IsNameOf (α : Type) [Named α] (text : String) : Prop :=
  String.ofList (text.toList.map Char.toLower) ∈ (Named.names (α := α)).map Prod.fst

/-- The keys of the options that `effective` sets, whatever they were. -/
def overriddenKeys : List String :=
  ["target", "module", "strict", "skipLibCheck", "allowSyntheticDefaultImports"]

def isOverridden (field : String × Json) : Bool := overriddenKeys.contains field.1

/-- A valid value for the option of an overridden key. -/
inductive ValidOverridden : String × Json → Prop
  | target {name : String} : IsNameOf ScriptTarget name → ValidOverridden ("target", .string name)
  | module {name : String} : IsNameOf ModuleKind name → ValidOverridden ("module", .string name)
  | strict (b : Bool) : ValidOverridden ("strict", .boolean b)
  | skipLibCheck (b : Bool) : ValidOverridden ("skipLibCheck", .boolean b)
  | allowSyntheticDefaultImports (b : Bool) :
    ValidOverridden ("allowSyntheticDefaultImports", .boolean b)

/-- All overridden options among the fields have valid values. -/
def ValidFields (fields : List (String × Json)) : Prop :=
  ∀ field ∈ fields, isOverridden field = true → ValidOverridden field

/-! ### One configuration -/

section Fields

variable {o p : CompilerOptions} {fields others : List (String × Json)} {key : String} {value : Json}

theorem ofName_of_isNameOf {α : Type} [Named α] {text : String} (h : IsNameOf α text) :
    ∃ value : α, ofName text = .ok value := by
  cases hLookup : (Named.names (α := α)).lookup (String.ofList (text.toList.map Char.toLower)) with
  | some value => exact ⟨value, by simp only [ofName, hLookup]⟩
  | none =>
    obtain ⟨entry, hEntry, hName⟩ := List.mem_map.1 h
    exact absurd hName.symm (by simpa using List.lookup_eq_none_iff.1 hLookup entry hEntry)

/-- A valid value for an overridden option is accepted and has no effect. -/
theorem effective_applyField_of_valid (o : CompilerOptions) (h : ValidOverridden (key, value)) :
    ∃ p, applyField o key value = .ok p ∧ p.effective = o.effective := by
  cases h with
  | @target name hName =>
    obtain ⟨v, hv⟩ := ofName_of_isNameOf hName
    refine ⟨{ o with target := v }, ?_, rfl⟩
    change (ofName name >>= fun v => pure { o with target := v }) = _
    rw [hv]
    rfl
  | @module name hName =>
    obtain ⟨v, hv⟩ := ofName_of_isNameOf hName
    refine ⟨{ o with module := v }, ?_, rfl⟩
    change (ofName name >>= fun v => pure { o with module := v }) = _
    rw [hv]
    rfl
  | strict b => exact ⟨{ o with strict := b }, rfl, rfl⟩
  | skipLibCheck b => exact ⟨{ o with skipLibCheck := b }, rfl, rfl⟩
  | allowSyntheticDefaultImports b =>
    exact ⟨{ o with allowSyntheticDefaultImports := b }, rfl, rfl⟩

theorem effective_bind_congr {α : Type} (read : Except ConfigError α)
    {set other : α → CompilerOptions} (h : ∀ a, (set a).effective = (other a).effective) :
    (read >>= fun a => pure (set a)).map CompilerOptions.effective =
      (read >>= fun a => pure (other a)).map CompilerOptions.effective := by
  cases read with
  | error e => rfl
  | ok a => exact congrArg Except.ok (h a)

/-- What a field does to the effective options depends on them only. -/
theorem effective_applyField (o : CompilerOptions) (key : String) (value : Json) :
    (applyField o key value).map CompilerOptions.effective =
      (applyField o.effective key value).map CompilerOptions.effective := by
  unfold applyField
  split <;> first
    | exact effective_bind_congr _ fun _ => rfl
    | rfl

theorem effective_applyField_congr (h : o.effective = p.effective) (key : String) (value : Json) :
    (applyField o key value).map CompilerOptions.effective =
      (applyField p key value).map CompilerOptions.effective := by
  rw [effective_applyField o, effective_applyField p, h]

theorem effective_applyFields_congr (fields : List (String × Json))
    (h : o.effective = p.effective) :
    (applyFields o fields).map CompilerOptions.effective =
      (applyFields p fields).map CompilerOptions.effective := by
  induction fields generalizing o p with
  | nil => exact congrArg Except.ok h
  | cons field rest ih =>
    obtain ⟨key, value⟩ := field
    have hField := effective_applyField_congr h key value
    simp only [applyFields, bind, Except.bind]
    cases ho : applyField o key value with
    | error e =>
      cases hp : applyField p key value with
      | error e' => simpa [ho, hp, Except.map] using hField
      | ok q => simp [ho, hp, Except.map] at hField
    | ok q =>
      cases hp : applyField p key value with
      | error e => simp [ho, hp, Except.map] at hField
      | ok q' => exact ih (by simpa [ho, hp, Except.map] using hField)

/-- Valid values of overridden options have no effect. -/
theorem effective_applyFields_filter (o : CompilerOptions) (h : ValidFields fields) :
    (applyFields o fields).map CompilerOptions.effective =
      (applyFields o (fields.filter fun field => !isOverridden field)).map
        CompilerOptions.effective := by
  induction fields generalizing o with
  | nil => rfl
  | cons field rest ih =>
    obtain ⟨key, value⟩ := field
    have hRest : ValidFields rest := fun field hField => h field (.tail _ hField)
    by_cases hKey : isOverridden (key, value) = true
    · obtain ⟨p, hp, hEffective⟩ := effective_applyField_of_valid o (h _ (.head _) hKey)
      simp only [applyFields, hp, bind, Except.bind, hKey, Bool.not_true, Bool.false_eq_true,
        not_false_eq_true, List.filter_cons_of_neg]
      rw [effective_applyFields_congr rest hEffective]
      exact ih o hRest
    · simp only [applyFields, bind, Except.bind, hKey, Bool.not_false, List.filter_cons_of_pos]
      cases applyField o key value with
      | error e => rfl
      | ok p => exact ih p hRest

end Fields

/-! ### The text of a configuration -/

/-- The fields of the compiler options in the text of a configuration. -/
def optionFields (text : String) : Except ConfigError (List (String × Json)) :=
  match Json.Document.ofText? (plain text.toList) with
  | none => .error .malformed
  | some document => do
    match ← optionsValue document with
    | none | some .null => return []
    | some (.object fields) => return fields
    | some value => throw (.wrongType (describe value) "struct CompilerOptions")

theorem readConfig_eq (text : String) (directory : FilePath) :
    readConfig text directory = do
      let fields ← optionFields text
      let options ← applyFields {} fields
      return options.locate directory := by
  unfold readConfig optionFields
  cases Json.Document.ofText? (plain text.toList) with
  | none => rfl
  | some document =>
    cases h : optionsValue document with
    | error e => simp only [h, bind, Except.bind]
    | ok value =>
      simp only [h, bind, Except.bind]
      rcases value with _ | value
      · rfl
      · cases value <;> rfl

/-- Two texts that are the same, or whose compiler options are the same except for valid values of
overridden options. -/
def TextsAlike (text other : String) : Prop :=
  text = other ∨
    ∃ fields others, optionFields text = .ok fields ∧ optionFields other = .ok others ∧
      ValidFields fields ∧ ValidFields others ∧
      (fields.filter fun field => !isOverridden field) =
        others.filter fun field => !isOverridden field

theorem map_effective_readConfig (text : String) (directory : FilePath) :
    (readConfig text directory).map CompilerOptions.effective = do
      let fields ← optionFields text
      let options ← (applyFields {} fields).map CompilerOptions.effective
      return options.locate directory := by
  rw [readConfig_eq]
  cases optionFields text with
  | error e => rfl
  | ok fields =>
    simp only [bind, Except.bind]
    cases applyFields {} fields <;> rfl

/-- Texts that are alike give the same effective options, or fail for the same reason. -/
theorem effective_readConfig_of_alike {text other : String} (h : TextsAlike text other)
    (directory : FilePath) :
    (readConfig text directory).map CompilerOptions.effective =
      (readConfig other directory).map CompilerOptions.effective := by
  obtain rfl | ⟨fields, others, hFields, hOthers, hValid, hValid', hRest⟩ := h
  · rfl
  · have hApplied : (applyFields {} fields).map CompilerOptions.effective =
        (applyFields {} others).map CompilerOptions.effective := by
      rw [effective_applyFields_filter {} hValid, hRest, ← effective_applyFields_filter {} hValid']
    simp only [map_effective_readConfig, hFields, hOthers, bind, Except.bind, hApplied]

/-! ### The configuration of a session -/

/-- The contents of two files, which cannot be read for the same reason, or have alike texts. -/
def ContentsAlike : Except Fault String → Except Fault String → Prop
  | .ok text, .ok other => TextsAlike text other
  | .error fault, .error other => fault = other
  | _, _ => False

/-- Two trees of files whose configuration files, as far as a search from `start` may find them,
are alike. -/
def ConfigsAlike (start : FilePath) (fs other : FileSystem) : Prop :=
  ∀ directory ∈ start.ancestors,
    fs.isFile (directory.join configName) = other.isFile (directory.join configName) ∧
      ContentsAlike (fs.readText (directory.join configName))
        (other.readText (directory.join configName))

variable {start : FilePath} {fs other : FileSystem}

theorem ConfigsAlike.findConfig?_eq (h : ConfigsAlike start fs other) :
    findConfig? fs start = findConfig? other start := by
  have hFiles : ∀ path ∈ start.ancestors.map (·.join configName),
      fs.isFile path = other.isFile path := by
    intro path hPath
    obtain ⟨directory, hDirectory, rfl⟩ := List.mem_map.1 hPath
    exact (h directory hDirectory).1
  simp only [findConfig?, ← List.head?_filter, List.filter_congr hFiles]

/-- Alike configurations give the same effective options. -/
theorem ConfigsAlike.effective_loadOptions (h : ConfigsAlike start fs other) :
    (loadOptions fs start).effective = (loadOptions other start).effective := by
  unfold loadOptions
  rw [← h.findConfig?_eq]
  cases hFind : findConfig? fs start with
  | none => rfl
  | some path =>
    obtain ⟨directory, hDirectory, rfl⟩ := List.mem_map.1 (List.mem_of_find?_eq_some hFind)
    have hContents := (h directory hDirectory).2
    cases hText : fs.readText (directory.join configName) with
    | error fault =>
      cases hOther : other.readText (directory.join configName) with
      | error fault' => simp only [hText, hOther]
      | ok text' => simp only [ContentsAlike, hText, hOther] at hContents
    | ok text =>
      cases hOther : other.readText (directory.join configName) with
      | error fault' => simp only [ContentsAlike, hText, hOther] at hContents
      | ok text' =>
        simp only [ContentsAlike, hText, hOther] at hContents
        have hRead := effective_readConfig_of_alike hContents
          ((directory.join configName).parent?.getD (FilePath.ofString "."))
        simp only [hText, hOther]
        revert hRead
        cases readConfig text _ <;> cases readConfig text' _ <;> simp [Except.map]

end ModuleLoader.Tsconfig
