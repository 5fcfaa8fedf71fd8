import ModuleLoader.Proofs.Json.Document
import ModuleLoader.Proofs.Json.Fields
import ModuleLoader.Proofs.OrderedMap
import ModuleLoader.Proofs.Tsconfig.Effective

/-! What the fields of a configuration do, each by itself.  An option that the loader interprets is
known by its key, and takes the value that the field of this key stands for; all other fields are
kept as they are. -/

namespace ModuleLoader.Tsconfig

/-! ### Values -/

/-- A type of values that options can have. -/
class OptionValue (α : Type) where
  read : Json → Except ConfigError α
  /-- The value in a configuration of the directory. -/
  locate : FilePath → α → α
  /-- The JSON value stands for the value, in a configuration of the directory. -/
  Means : FilePath → Json → α → Prop
  means_iff : ∀ directory json a,
    Means directory json a ↔ ∃ b, read json = .ok b ∧ a = locate directory b

open OptionValue (Means)

theorem readString_eq_ok_iff {wanted text : String} {json : Json} :
    readString wanted json = .ok text ↔ json = .string text := by
  cases json <;> simp [readString]

theorem ofName_eq_ok_iff {α : Type} [Named α] (h : ((Named.names (α := α)).map Prod.fst).Nodup)
    {text : String} {a : α} :
    ofName text = .ok a ↔ (String.ofList (text.toList.map Char.toLower), a) ∈ Named.names := by
  generalize hLower : String.ofList (text.toList.map Char.toLower) = lower
  constructor
  · intro hOk
    cases hLookup : (Named.names (α := α)).lookup lower with
    | none => simp [ofName, hLower, hLookup] at hOk
    | some value =>
      obtain rfl : value = a := by simpa [ofName, hLower, hLookup] using hOk
      exact OrderedMap.mem_of_lookup hLookup
  · intro hMem
    simp [ofName, hLower, OrderedMap.lookup_of_mem h hMem]

/-- Values that are known by distinct names stand for themselves by these, in any case. -/
@[reducible] def OptionValue.ofNames {α : Type} [Named α]
    (h : ((Named.names (α := α)).map Prod.fst).Nodup) : OptionValue α where
  read := readName
  locate _ a := a
  Means _ json a := ∃ text, json = .string text ∧
    (String.ofList (text.toList.map Char.toLower), a) ∈ Named.names
  means_iff _ json a := by
    constructor
    · rintro ⟨text, rfl, hName⟩
      exact ⟨a, (ofName_eq_ok_iff h).2 hName, rfl⟩
    · rintro ⟨b, hRead, rfl⟩
      unfold readName at hRead
      cases hText : readString "a string" json with
      | error e => simp [hText, bind, Except.bind] at hRead
      | ok text =>
        rw [hText] at hRead
        exact ⟨text, readString_eq_ok_iff.1 hText, (ofName_eq_ok_iff h).1 hRead⟩

instance : OptionValue ScriptTarget := .ofNames (by decide)

instance : OptionValue ModuleKind := .ofNames (by decide)

instance : OptionValue ModuleResolution := .ofNames (by decide)

instance : OptionValue JsxEmit := .ofNames (by decide)

instance : OptionValue Bool where
  read := readBoolean
  locate _ b := b
  Means _ json b := json = .boolean b
  means_iff _ json b := by cases json <;> simp [readBoolean, eq_comm]

instance : OptionValue String where
  read := readString "a string"
  locate _ text := text
  Means _ json text := json = .string text
  means_iff _ json text := by simp [readString_eq_ok_iff]

/-- A path starts from the directory of the configuration. -/
instance : OptionValue FilePath where
  read := readPath
  locate directory path := directory.join path
  Means directory json path := ∃ text, json = .string text ∧ path = directory.join (.ofString text)
  means_iff directory json path := by
    cases json <;> simp [readPath, readString, Except.map]

theorem readOptional_of_ne {α : Type} (read : Json → Except ConfigError α) {json : Json}
    (h : json ≠ .null) : readOptional read json = (read json).map some := by
  cases json <;> first | rfl | exact absurd rfl h

/-- An option may be given as absent. -/
instance {α : Type} [OptionValue α] : OptionValue (Option α) where
  read := readOptional OptionValue.read
  locate directory := Option.map (OptionValue.locate directory)
  Means directory json a :=
    json = .null ∧ a = none ∨ json ≠ .null ∧ ∃ b, a = some b ∧ Means directory json b
  means_iff directory json a := by
    by_cases hNull : json = .null
    · subst hNull
      simp [readOptional]
    · rw [readOptional_of_ne _ hNull]
      simp only [hNull, false_and, false_or, ne_eq, not_false_eq_true, true_and,
        OptionValue.means_iff]
      cases OptionValue.read (α := α) json <;> simp [Except.map]

/-! ### Keys -/

/-- The options that the loader interprets. -/
inductive OptionKey where
  | target | module | moduleResolution | jsx | jsxFactory | jsxFragmentFactory | jsxImportSource
  | allowJs | skipLibCheck | strict | allowSyntheticDefaultImports | experimentalDecorators
  | emitDecoratorMetadata | verbatimModuleSyntax | noEmitOnError | baseUrl | rootDir
  deriving DecidableEq

namespace OptionKey

def name : OptionKey → String
  | .target => "target"
  | .module => "module"
  | .moduleResolution => "moduleResolution"
  | .jsx => "jsx"
  | .jsxFactory => "jsxFactory"
  | .jsxFragmentFactory => "jsxFragmentFactory"
  | .jsxImportSource => "jsxImportSource"
  | .allowJs => "allowJs"
  | .skipLibCheck => "skipLibCheck"
  | .strict => "strict"
  | .allowSyntheticDefaultImports => "allowSyntheticDefaultImports"
  | .experimentalDecorators => "experimentalDecorators"
  | .emitDecoratorMetadata => "emitDecoratorMetadata"
  | .verbatimModuleSyntax => "verbatimModuleSyntax"
  | .noEmitOnError => "noEmitOnError"
  | .baseUrl => "baseUrl"
  | .rootDir => "rootDir"

def all : List OptionKey :=
  [.target, .module, .moduleResolution, .jsx, .jsxFactory, .jsxFragmentFactory, .jsxImportSource,
    .allowJs, .skipLibCheck, .strict, .allowSyntheticDefaultImports, .experimentalDecorators,
    .emitDecoratorMetadata, .verbatimModuleSyntax, .noEmitOnError, .baseUrl, .rootDir]

def names : List String := all.map name

/-- The type of the values of an option. -/
@[reducible] def Value : OptionKey → Type
  | .target => ScriptTarget
  | .module => ModuleKind
  | .moduleResolution => Option ModuleResolution
  | .jsx => Option JsxEmit
  | .jsxFactory | .jsxFragmentFactory | .jsxImportSource => Option String
  | .allowJs | .skipLibCheck | .strict | .allowSyntheticDefaultImports | .experimentalDecorators
  | .emitDecoratorMetadata | .verbatimModuleSyntax | .noEmitOnError => Bool
  | .baseUrl | .rootDir => Option FilePath

instance (key : OptionKey) : OptionValue key.Value :=
  match key with
  | .target => inferInstanceAs (OptionValue ScriptTarget)
  | .module => inferInstanceAs (OptionValue ModuleKind)
  | .moduleResolution => inferInstanceAs (OptionValue (Option ModuleResolution))
  | .jsx => inferInstanceAs (OptionValue (Option JsxEmit))
  | .jsxFactory | .jsxFragmentFactory | .jsxImportSource =>
    inferInstanceAs (OptionValue (Option String))
  | .allowJs | .skipLibCheck | .strict | .allowSyntheticDefaultImports | .experimentalDecorators
  | .emitDecoratorMetadata | .verbatimModuleSyntax | .noEmitOnError =>
    inferInstanceAs (OptionValue Bool)
  | .baseUrl | .rootDir => inferInstanceAs (OptionValue (Option FilePath))

def get : (key : OptionKey) → CompilerOptions → key.Value
  | .target => CompilerOptions.target
  | .module => CompilerOptions.module
  | .moduleResolution => CompilerOptions.moduleResolution
  | .jsx => CompilerOptions.jsx
  | .jsxFactory => CompilerOptions.jsxFactory
  | .jsxFragmentFactory => CompilerOptions.jsxFragmentFactory
  | .jsxImportSource => CompilerOptions.jsxImportSource
  | .allowJs => CompilerOptions.allowJs
  | .skipLibCheck => CompilerOptions.skipLibCheck
  | .strict => CompilerOptions.strict
  | .allowSyntheticDefaultImports => CompilerOptions.allowSyntheticDefaultImports
  | .experimentalDecorators => CompilerOptions.experimentalDecorators
  | .emitDecoratorMetadata => CompilerOptions.emitDecoratorMetadata
  | .verbatimModuleSyntax => CompilerOptions.verbatimModuleSyntax
  | .noEmitOnError => CompilerOptions.noEmitOnError
  | .baseUrl => CompilerOptions.baseUrl
  | .rootDir => CompilerOptions.rootDir

def set : (key : OptionKey) → key.Value → CompilerOptions → CompilerOptions
  | .target, a, o => { o with target := a }
  | .module, a, o => { o with module := a }
  | .moduleResolution, a, o => { o with moduleResolution := a }
  | .jsx, a, o => { o with jsx := a }
  | .jsxFactory, a, o => { o with jsxFactory := a }
  | .jsxFragmentFactory, a, o => { o with jsxFragmentFactory := a }
  | .jsxImportSource, a, o => { o with jsxImportSource := a }
  | .allowJs, a, o => { o with allowJs := a }
  | .skipLibCheck, a, o => { o with skipLibCheck := a }
  | .strict, a, o => { o with strict := a }
  | .allowSyntheticDefaultImports, a, o => { o with allowSyntheticDefaultImports := a }
  | .experimentalDecorators, a, o => { o with experimentalDecorators := a }
  | .emitDecoratorMetadata, a, o => { o with emitDecoratorMetadata := a }
  | .verbatimModuleSyntax, a, o => { o with verbatimModuleSyntax := a }
  | .noEmitOnError, a, o => { o with noEmitOnError := a }
  | .baseUrl, a, o => { o with baseUrl := a }
  | .rootDir, a, o => { o with rootDir := a }

variable {key other : OptionKey} {o : CompilerOptions}

theorem name_mem_names (key : OptionKey) : key.name ∈ names :=
  List.mem_map_of_mem (by cases key <;> decide)

theorem name_inj (h : key.name = other.name) : key = other := by
  revert h
  cases key <;> cases other <;> decide

theorem get_set (key : OptionKey) (a : key.Value) (o : CompilerOptions) :
    key.get (key.set a o) = a := by
  cases key <;> rfl

theorem get_set_of_ne (o : CompilerOptions) (h : other ≠ key) (a : key.Value) :
    other.get (key.set a o) = other.get o := by
  cases key <;> cases other <;> first | rfl | exact absurd rfl h

theorem extra_set (o : CompilerOptions) (key : OptionKey) (a : key.Value) :
    (key.set a o).extra = o.extra := by
  cases key <;> rfl

theorem applyField_name (o : CompilerOptions) (key : OptionKey) (json : Json) :
    applyField o key.name json =
      (OptionValue.read (α := key.Value) json).map fun a => key.set a o := by
  have hBind : ∀ {α : Type} (read : Except ConfigError α) (f : α → CompilerOptions),
      (read >>= fun a => pure (f a)) = read.map f := by
    intro α read f
    cases read <;> rfl
  cases key <;> exact hBind _ _

/-- A field that the loader does not interpret is kept as it is. -/
theorem applyField_of_not_mem (o : CompilerOptions) {text : String} (h : text ∉ names)
    (json : Json) : applyField o text json = .ok { o with extra := o.extra ++ [(text, json)] } := by
  unfold applyField
  split <;> first | rfl | exact absurd (by decide) h

theorem get_withExtra (o : CompilerOptions) (extra : List (String × Json)) (key : OptionKey) :
    key.get { o with extra } = key.get o := by
  cases key <;> rfl

theorem get_locate (o : CompilerOptions) (directory : FilePath) (key : OptionKey) :
    key.get (o.locate directory) = OptionValue.locate directory (key.get o) := by
  cases key <;> first | rfl | exact (Option.map_id' (x := _)).symm

end OptionKey

/-! ### All fields of an object -/

section Fields

open OptionKey

variable {o p : CompilerOptions} {fields : List (String × Json)}

/-- The second options are the first ones after each field has had its own effect. -/
structure Applied (o : CompilerOptions) (fields : List (String × Json)) (p : CompilerOptions) :
    Prop where
  given : ∀ (key : OptionKey) json, fields.lookup key.name = some json →
    OptionValue.read json = .ok (key.get p)
  absent : ∀ key : OptionKey, fields.lookup key.name = none → key.get p = key.get o
  extra : p.extra = o.extra ++ fields.filter (·.1 ∉ names)

theorem Applied.nil (o : CompilerOptions) : Applied o [] o :=
  ⟨nofun, fun _ _ => rfl, (List.append_nil _).symm⟩

theorem lookup_cons_of_ne {key other : OptionKey} (h : other ≠ key) (json : Json) :
    ((key.name, json) :: fields).lookup other.name = fields.lookup other.name := by
  have hNe : other.name ≠ key.name := fun hName => h (name_inj hName)
  rw [List.lookup_cons, beq_false_of_ne hNe]

theorem Applied.interpreted {key : OptionKey} {json : Json} {a : key.Value}
    (hRead : OptionValue.read json = .ok a) (hKey : fields.lookup key.name = none)
    (h : Applied (key.set a o) fields p) : Applied o ((key.name, json) :: fields) p where
  given other found hFound := by
    by_cases hOther : other = key
    · subst hOther
      obtain rfl : json = found := by simpa using hFound
      rw [h.absent other hKey, get_set, hRead]
    · rw [lookup_cons_of_ne hOther] at hFound
      exact h.given other found hFound
  absent other hNone := by
    have hOther : other ≠ key := by
      rintro rfl
      simp at hNone
    rw [lookup_cons_of_ne hOther] at hNone
    rw [h.absent other hNone, get_set_of_ne o hOther]
  extra := by
    rw [h.extra, extra_set, List.filter_cons_of_neg (by simpa using name_mem_names key)]

theorem Applied.kept {text : String} {json : Json} (hText : text ∉ names)
    (h : Applied { o with extra := o.extra ++ [(text, json)] } fields p) :
    Applied o ((text, json) :: fields) p := by
  have hLookup : ∀ key : OptionKey,
      ((text, json) :: fields).lookup key.name = fields.lookup key.name := by
    intro key
    have hNe : key.name ≠ text := fun hName => hText (hName ▸ name_mem_names key)
    rw [List.lookup_cons, beq_false_of_ne hNe]
  refine ⟨fun key found hFound => ?_, fun key hNone => ?_, ?_⟩
  · exact h.given key found (hLookup key ▸ hFound)
  · rw [h.absent key (hLookup key ▸ hNone), get_withExtra]
  · rw [h.extra, List.append_assoc, List.filter_cons_of_pos (by simpa using hText),
      List.singleton_append]

theorem applied_of_applyFields (hKeys : (fields.map Prod.fst).Nodup)
    (h : applyFields o fields = .ok p) : Applied o fields p := by
  induction fields generalizing o with
  | nil =>
    cases h
    exact .nil _
  | cons field rest ih =>
    obtain ⟨text, json⟩ := field
    obtain ⟨hFirst, hRest⟩ := List.nodup_cons.1 hKeys
    by_cases hText : text ∈ names
    · obtain ⟨key, -, rfl⟩ := List.mem_map.1 hText
      rw [applyFields, applyField_name] at h
      cases hRead : OptionValue.read (α := key.Value) json with
      | error e => simp [hRead, Except.map, bind, Except.bind] at h
      | ok a =>
        rw [hRead] at h
        have hNone : rest.lookup key.name = none := OrderedMap.lookup_eq_none hFirst
        exact .interpreted hRead hNone (ih hRest h)
    · rw [applyFields, applyField_of_not_mem o hText] at h
      exact .kept hText (ih hRest h)

/-- Fields can be applied if each field of an interpreted option has a value for it. -/
theorem exists_applyFields (o : CompilerOptions) (fields : List (String × Json)) :
    (∃ p, applyFields o fields = .ok p) ↔
      ∀ (key : OptionKey) json, (key.name, json) ∈ fields →
        ∃ a, OptionValue.read (α := key.Value) json = .ok a := by
  induction fields generalizing o with
  | nil => exact ⟨fun _ => nofun, fun _ => ⟨o, rfl⟩⟩
  | cons field rest ih =>
    obtain ⟨text, json⟩ := field
    by_cases hText : text ∈ names
    · obtain ⟨key, -, rfl⟩ := List.mem_map.1 hText
      have hStep : (∃ p, applyFields o ((key.name, json) :: rest) = .ok p) ↔
          ∃ a, OptionValue.read (α := key.Value) json = .ok a ∧
            ∃ p, applyFields (key.set a o) rest = .ok p := by
        rw [applyFields, applyField_name]
        cases OptionValue.read (α := key.Value) json <;> simp [Except.map, bind, Except.bind]
      rw [hStep]
      constructor
      · rintro ⟨a, hRead, hRest⟩ other found hFound
        rcases List.mem_cons.1 hFound with hHead | hTail
        · obtain ⟨hName, rfl⟩ := Prod.mk.inj hHead
          cases name_inj hName
          exact ⟨a, hRead⟩
        · exact (ih _).1 hRest other found hTail
      · intro hAll
        obtain ⟨a, hRead⟩ := hAll key json List.mem_cons_self
        exact ⟨a, hRead, (ih _).2 fun other found hFound =>
          hAll other found (List.mem_cons_of_mem _ hFound)⟩
    · have hStep : applyFields o ((text, json) :: rest) =
          applyFields { o with extra := o.extra ++ [(text, json)] } rest := by
        rw [applyFields, applyField_of_not_mem o hText]
        rfl
      rw [hStep, ih]
      refine forall₂_congr fun key found => ?_
      have hNe : key.name ≠ text := fun hName => hText (hName ▸ name_mem_names key)
      simp [hNe]

end Fields

/-! ### Configurations -/

open File

variable {text : String} {fields : List (String × Json)} {directory : FilePath}

/-- The fields of the compiler options in the text of a configuration, if these are an object. -/
def optionObject? (text : String) : Option (List (String × Json)) :=
  match Json.Document.ofText? (plain text.toList) with
  | none => none
  | some document =>
    match optionsValue document with
    | .ok (some (.object fields)) => some fields
    | _ => none

theorem exists_document (h : optionObject? text = some fields) :
    ∃ document, Json.Document.ofText? (plain text.toList) = some document ∧
      optionsValue document = .ok (some (.object fields)) := by
  unfold optionObject? at h
  split at h
  · cases h
  · next document hDocument =>
    split at h
    · next hOptions =>
      cases h
      exact ⟨document, hDocument, hOptions⟩
    · cases h

/-- The fields of a configuration are those of an object, or there are none. -/
theorem eq_nil_or_optionObject? (h : optionFields text = .ok fields) :
    fields = [] ∨ optionObject? text = some fields := by
  unfold optionFields at h
  split at h
  · cases h
  · next document hDocument =>
    cases hOptions : optionsValue document with
    | error e => simp [hOptions, bind, Except.bind] at h
    | ok found =>
      rw [hOptions] at h
      simp only [bind, Except.bind] at h
      split at h
      · cases h
        exact .inl rfl
      · cases h
        exact .inl rfl
      · cases h
        exact .inr (by simp only [optionObject?, hDocument, hOptions])
      · cases h

theorem mem_of_optionParts {members : List (List Char × Json.Document)}
    {parts : List Json.Document} (h : optionParts members = .ok parts) {part : Json.Document}
    (hPart : part ∈ parts) : ∃ member ∈ members, member.2 = part := by
  induction members generalizing parts with
  | nil =>
    cases h
    cases hPart
  | cons member rest ih =>
    obtain ⟨key, value⟩ := member
    unfold optionParts at h
    cases hKey : Json.unescape? key with
    | none => simp [hKey] at h
    | some name =>
      cases hRest : optionParts rest with
      | error e => simp [hKey, hRest, bind, Except.bind] at h
      | ok others =>
        obtain rfl : (if name = "compilerOptions" then value :: others else others) = parts := by
          simpa [hKey, hRest, bind, Except.bind, pure, Except.pure] using h
        have hMem : part = value ∨ part ∈ others := by
          split at hPart
          · exact List.mem_cons.1 hPart
          · exact .inr hPart
        rcases hMem with rfl | hOther
        · exact ⟨_, List.mem_cons_self, rfl⟩
        · obtain ⟨member, hMember, hSame⟩ := ih hRest hOther
          exact ⟨member, List.mem_cons_of_mem _ hMember, hSame⟩

/-- The value of the compiler options is that of a part of the document. -/
theorem exists_readPart {document : Json.Document} {json : Json}
    (h : optionsValue document = .ok (some json)) :
    ∃ part, readPart part = .ok json ∧ part.tokens ⊆ document.tokens := by
  unfold optionsValue at h
  split at h
  · cases h
  · next part =>
    cases hPart : readPart part with
    | error e => simp [hPart, Except.map] at h
    | ok value =>
      obtain rfl : value = json := by simpa [hPart, Except.map] using h
      exact ⟨part, hPart, Json.Document.tokens_subset_array List.mem_cons_self⟩
  · next members =>
    cases hParts : optionParts members with
    | error e => simp [hParts, bind, Except.bind] at h
    | ok parts =>
      simp only [hParts, bind, Except.bind] at h
      split at h
      · cases h
      · next part =>
        cases hPart : readPart part with
        | error e => simp [hPart] at h
        | ok value =>
          obtain rfl : value = json := by simpa [hPart, pure, Except.pure] using h
          obtain ⟨member, hMember, rfl⟩ := mem_of_optionParts hParts List.mem_cons_self
          exact ⟨_, hPart, Json.Document.tokens_subset_object hMember⟩
      · cases h
  · cases h

theorem nodup_keys_of_object (h : optionObject? text = some fields) :
    (fields.map Prod.fst).Nodup := by
  obtain ⟨document, -, hOptions⟩ := exists_document h
  obtain ⟨part, hPart, -⟩ := exists_readPart hOptions
  unfold readPart at hPart
  split at hPart
  · cases hPart
  · cases hValue : Json.ofDocument? part with
    | none => simp [hValue] at hPart
    | some json =>
      obtain rfl : json = .object fields := by simpa [hValue] using hPart
      exact (Json.isSorted_of_ofDocument? hValue).nodup_keys

theorem nodup_keys_of_optionFields (h : optionFields text = .ok fields) :
    (fields.map Prod.fst).Nodup := by
  rcases eq_nil_or_optionObject? h with rfl | hObject
  · exact .nil
  · exact nodup_keys_of_object hObject

theorem readConfig_of_object (h : optionObject? text = some fields) (directory : FilePath) :
    readConfig text directory = (applyFields {} fields).map (·.locate directory) := by
  obtain ⟨document, hDocument, hOptions⟩ := exists_document h
  have hFields : optionFields text = .ok fields := by
    simp only [optionFields, hDocument, hOptions, bind, Except.bind]
    rfl
  rw [readConfig_eq, hFields]
  simp only [bind, Except.bind]
  cases applyFields {} fields <;> rfl

/-- A JSON value stands for one value at most. -/
theorem means_unique {α : Type} [OptionValue α] {json : Json} {a b : α}
    (ha : Means directory json a) (hb : Means directory json b) : a = b := by
  obtain ⟨a', hRead, rfl⟩ := (OptionValue.means_iff _ _ _).1 ha
  obtain ⟨b', hRead', rfl⟩ := (OptionValue.means_iff _ _ _).1 hb
  rw [hRead] at hRead'
  cases hRead'
  rfl

/-- The options are what the fields say, each for itself: the values that they stand for, the
defaults, and the fields that the loader does not interpret. -/
structure Reads (directory : FilePath) (fields : List (String × Json)) (o : CompilerOptions) :
    Prop where
  given : ∀ (key : OptionKey) json, fields.lookup key.name = some json →
    Means directory json (key.get o)
  absent : ∀ key : OptionKey, fields.lookup key.name = none → key.get o = key.get {}
  extra : o.extra = fields.filter (·.1 ∉ OptionKey.names)

theorem Applied.reads {p : CompilerOptions} (h : Applied {} fields p) (directory : FilePath) :
    Reads directory fields (p.locate directory) where
  given key json hJson := (OptionValue.means_iff _ _ _).2
    ⟨key.get p, h.given key json hJson, key.get_locate p directory⟩
  absent key hNone := by
    have hDefault : key.get (({} : CompilerOptions).locate directory) = key.get {} := rfl
    rw [OptionKey.get_locate, h.absent key hNone, ← OptionKey.get_locate, hDefault]
  extra := h.extra

theorem reads_of_object (h : optionObject? text = some fields) {o : CompilerOptions}
    (hRead : readConfig text directory = .ok o) : Reads directory fields o := by
  rw [readConfig_of_object h] at hRead
  cases hApply : applyFields {} fields with
  | error e => simp [hApply, Except.map] at hRead
  | ok p =>
    obtain rfl : p.locate directory = o := by simpa [hApply, Except.map] using hRead
    exact (applied_of_applyFields (nodup_keys_of_object h) hApply).reads directory

/-- Whether a text can be read does not depend on the directory. -/
theorem exists_readConfig_iff (h : optionObject? text = some fields) (directory : FilePath) :
    (∃ o, readConfig text directory = .ok o) ↔ ∃ o, applyFields {} fields = .ok o := by
  rw [readConfig_of_object h]
  cases applyFields {} fields <;> simp [Except.map]

theorem exists_readConfig_of_object (h : optionObject? text = some fields)
    (directory : FilePath) :
    (∃ o, readConfig text directory = .ok o) ↔
      ∀ (key : OptionKey) json, fields.lookup key.name = some json →
        ∃ a : key.Value, Means directory json a := by
  rw [exists_readConfig_iff h, exists_applyFields]
  refine forall₂_congr fun key json => ?_
  have hMeans : (∃ a : key.Value, Means directory json a) ↔
      ∃ a : key.Value, OptionValue.read json = .ok a := by
    simp only [OptionValue.means_iff]
    exact ⟨fun ⟨_, b, hb, _⟩ => ⟨b, hb⟩, fun ⟨b, hb⟩ => ⟨_, b, hb, rfl⟩⟩
  rw [hMeans]
  exact ⟨fun hAll hFound => hAll (OrderedMap.mem_of_lookup hFound),
    fun hAll hMem => hAll (OrderedMap.lookup_of_mem (nodup_keys_of_object h) hMem)⟩

/-- Where the nearest configuration is of no use, the defaults hold. -/
theorem loadOptions_eq_default {fs : FileSystem} {start path : FilePath}
    (hFind : findConfig? fs start = some path) (hText : fs.readText path = .ok text)
    (hError : ∀ other o, readConfig text other ≠ .ok o) : loadOptions fs start = {} := by
  simp only [loadOptions, hFind, hText]
  cases hRead : readConfig text _ with
  | error e => rfl
  | ok o => exact absurd hRead (hError _ o)

/-- A nearest configuration that is of no use hides those further up. -/
theorem loadOptions_of_error {fs : FileSystem} {start : FilePath} {below above : List FilePath}
    (hStart : start.ancestors = below ++ directory :: above)
    (hBelow : ∀ other ∈ below, fs.isFile (other.join configName) = false)
    (hFile : fs.isFile (directory.join configName) = true)
    (hText : fs.readText (directory.join configName) = .ok text)
    (hError : ∀ other o, readConfig text other ≠ .ok o) : loadOptions fs start = {} := by
  have hFind : findConfig? fs start = some (directory.join configName) := by
    rw [findConfig?, hStart, List.map_append, List.map_cons, List.find?_append,
      List.find?_eq_none.2 (by simpa using hBelow), Option.none_or, List.find?_cons_of_pos hFile]
  exact loadOptions_eq_default hFind hText hError

/-- Where two objects are the same, their options are. -/
theorem Reads.agree {others : List (String × Json)} {o p : CompilerOptions} {name : String}
    (h : Reads directory fields o) (h' : Reads directory others p)
    (hSame : fields.filter (·.1 ≠ name) = others.filter (·.1 ≠ name)) :
    (∀ key : OptionKey, key.name ≠ name → key.get o = key.get p) ∧
      o.extra.filter (·.1 ≠ name) = p.extra.filter (·.1 ≠ name) ∧
      (name ∈ OptionKey.names → o.extra = p.extra) := by
  have hExtra : o.extra.filter (·.1 ≠ name) = p.extra.filter (·.1 ≠ name) := by
    rw [h.extra, h'.extra, List.filter_comm, hSame, List.filter_comm]
  refine ⟨fun key hKey => ?_, hExtra, fun hName => ?_⟩
  · have hLookup : fields.lookup key.name = others.lookup key.name := by
      rw [← OrderedMap.lookup_filter (p := (· ≠ name)) (by simpa using hKey) fields, hSame,
        OrderedMap.lookup_filter (p := (· ≠ name)) (by simpa using hKey) others]
    cases hFound : fields.lookup key.name with
    | none => rw [h.absent key hFound, h'.absent key (hLookup ▸ hFound)]
    | some json =>
      exact means_unique (h.given key json hFound) (h'.given key json (hLookup ▸ hFound))
  · have hAll : ∀ all : List (String × Json),
        (all.filter (·.1 ∉ OptionKey.names)).filter (·.1 ≠ name) =
          all.filter (·.1 ∉ OptionKey.names) := by
      intro all
      refine List.filter_eq_self.2 fun field hField => decide_eq_true ?_
      rintro rfl
      simp [hName] at hField
    rwa [h.extra, h'.extra, hAll, hAll, ← h.extra, ← h'.extra] at hExtra

/-- If the compiler options in a text are an object, then the text can be read exactly if the values
of the interpreted keys that are there are fine.  These are then the options, the others have their
defaults, and the rest of the object is kept, so that no key has an effect on another one.  If the
text cannot be read, it gives the defaults, whatever there is further up. -/
theorem options_of_fields {text : String} {fields : List (String × Json)}
    (h : optionObject? text = some fields) (directory : FilePath) :
    ((∃ o, readConfig text directory = .ok o) ↔
      ∀ (key : OptionKey) json, fields.lookup key.name = some json →
        ∃ a : key.Value, Means directory json a) ∧
    (∀ o, readConfig text directory = .ok o →
      Reads directory fields o ∧
      (fields.lookup "moduleResolution" = none → o.moduleResolution = some .node10) ∧
      (fields.lookup "moduleResolution" = some .null → o.moduleResolution = none)) ∧
    (∀ other others name o p, optionObject? other = some others →
      fields.filter (·.1 ≠ name) = others.filter (·.1 ≠ name) →
      readConfig text directory = .ok o → readConfig other directory = .ok p →
      (∀ key : OptionKey, key.name ≠ name → key.get o = key.get p) ∧
        o.extra.filter (·.1 ≠ name) = p.extra.filter (·.1 ≠ name) ∧
        (name ∈ OptionKey.names → o.extra = p.extra)) ∧
    (∀ (fs : FileSystem) start below above, start.ancestors = below ++ directory :: above →
      (∀ other ∈ below, fs.isFile (other.join configName) = false) →
      fs.isFile (directory.join configName) = true →
      fs.readText (directory.join configName) = .ok text →
      (¬∃ o, readConfig text directory = .ok o) → loadOptions fs start = {}) := by
  have hReads : ∀ {o}, readConfig text directory = .ok o → Reads directory fields o :=
    fun hRead => reads_of_object h hRead
  refine ⟨exists_readConfig_of_object h directory, fun o hRead => ⟨hReads hRead, ?_, ?_⟩, ?_, ?_⟩
  · exact (hReads hRead).absent .moduleResolution
  · intro hNull
    have hMeans := (hReads hRead).given .moduleResolution .null hNull
    exact (hMeans.resolve_right fun hOther => hOther.1 rfl).2
  · intro other others name o p hOther hSame hRead hRead'
    exact (hReads hRead).agree (reads_of_object hOther hRead') hSame
  · intro fs start below above hStart hBelow hFile hText hFails
    refine loadOptions_of_error hStart hBelow hFile hText fun other o hRead => hFails ?_
    rw [exists_readConfig_iff h, ← exists_readConfig_iff h other]
    exact ⟨o, hRead⟩

/-- A name in another case, a null, and a path. -/
theorem options_of_fields_mixed :
    ∃ text fields o, optionObject? text = some fields ∧
      readConfig text (.ofString "/a") = .ok o ∧ Reads (.ofString "/a") fields o ∧
      o.moduleResolution = none ∧ o.target = .es2015 ∧ o.baseUrl = some (.ofString "/a/src") ∧
      o.allowJs = true := by
  let text := "\x7b\"compilerOptions\":\x7b\"target\":\"ES6\",\"moduleResolution\":null," ++
    "\"baseUrl\":\"src\"\x7d\x7d"
  have hObject : (optionObject? text).isSome = true := by decide +kernel
  have hRun : (readConfig text (.ofString "/a")).toOption.any (fun o =>
      o.moduleResolution = none ∧ o.target = .es2015 ∧ o.baseUrl = some (.ofString "/a/src") ∧
        o.allowJs = true) = true := by decide +kernel
  obtain ⟨fields, hFields⟩ := Option.isSome_iff_exists.1 hObject
  cases hRead : readConfig text (.ofString "/a") with
  | error e =>
    rw [hRead] at hRun
    cases hRun
  | ok o =>
    rw [hRead] at hRun
    obtain ⟨-, hReads, -⟩ := options_of_fields hFields (.ofString "/a")
    exact ⟨text, fields, o, hFields, hRead, (hReads o hRead).1, of_decide_eq_true hRun⟩

end ModuleLoader.Tsconfig
