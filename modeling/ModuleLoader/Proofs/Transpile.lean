import Mathlib.Data.List.Forall2
import ModuleLoader.Proofs.Tsconfig.Effective
import ModuleLoader.Transpile

/-! Calls for transpilation one after the other, each at its own time with the files as they are
then.  The first call for a file decides the root, the first call whose file can be read decides
the options, and no other call has a say in either.  The engine is a parameter; one that also keeps
a record of what it was given shows what it sees. -/

namespace ModuleLoader.Transpile

open File Tsconfig

/-- A call for the module at a URL, with the files at that time. -/
structure Call where
  files : FileSystem
  url : String

/-- The file of the call, if its URL is that of a file. -/
def Call.path? (c : Call) : Option FilePath := (Resolution.moduleFile c.url).toOption

/-- The file of the call and its text, if it can be read as text. -/
def Call.source? (c : Call) : Option (FilePath × String) := do
  let path ← c.path?
  let source ← (c.files.readText path).toOption
  return (path, source)

/-- The file of the call can be read as text. -/
def Call.isRead (c : Call) : Bool := c.source?.isSome

/-- The directory of the first file that is called for. -/
def firstRoot? (calls : List Call) : Option FilePath :=
  (calls.findSome? Call.path?).map directory

/-- The options that are found above the root when a file can be read for the first time. -/
def firstOptions? (calls : List Call) : Option CompilerOptions := do
  let first ← calls.find? Call.isRead
  let root ← firstRoot? calls
  return loadOptions first.files root

/-- What an engine is given for one module. -/
structure Invocation where
  source : String
  path : FilePath
  options : CompilerOptions

section Runs

variable {σ : Type}

/-- The engine that also keeps a record of its invocations. -/
def recording (engine : Engine σ) : Engine (σ × List Invocation) :=
  fun source path options (world, given) =>
    let (output, world) := engine source path options world
    (output, world, given ++ [⟨source, path, options⟩])

/-- The outcomes of calls that are made one after the other. -/
def transpileAll (engine : Engine σ) :
    List Call → StateM (SessionConfig × σ) (List (Except LoadError TranspiledModule))
  | [] => pure []
  | call :: rest => do
    let outcome ← transpile engine call.files call.url
    return outcome :: (← transpileAll engine rest)

theorem transpileAll_cons (engine : Engine σ) (call : Call) (rest : List Call)
    (state : SessionConfig × σ) :
    transpileAll engine (call :: rest) state =
      ((transpile engine call.files call.url state).1 ::
          (transpileAll engine rest (transpile engine call.files call.url state).2).1,
        (transpileAll engine rest (transpile engine call.files call.url state).2).2) := rfl

variable {engine : Engine σ} {config : SessionConfig} {world : σ} {call : Call} {calls : List Call}
  {path : FilePath} {source : String}

/-! ### One call -/

theorem toOption_eq_some_iff {ε α : Type} {e : Except ε α} {a : α} :
    e.toOption = some a ↔ e = .ok a := by
  cases e <;> simp [Except.toOption]

theorem source?_eq_some_iff : call.source? = some (path, source) ↔
    call.path? = some path ∧ call.files.readText path = .ok source := by
  simp only [Call.source?, Option.bind_eq_bind, Option.bind_eq_some_iff, Option.pure_def,
    Option.some.injEq, Prod.mk.injEq, toOption_eq_some_iff]
  constructor
  · rintro ⟨p, hPath, text, hText, rfl, rfl⟩
    exact ⟨hPath, hText⟩
  · rintro ⟨hPath, hText⟩
    exact ⟨path, hPath, source, hText, rfl, rfl⟩

/-- A call for no file changes nothing. -/
theorem transpile_of_no_path (engine : Engine σ) (config : SessionConfig) (world : σ)
    (h : call.path? = none) :
    (transpile engine call.files call.url (config, world)).2 = (config, world) := by
  cases hFile : Resolution.moduleFile call.url with
  | error e => simp only [transpile, hFile]
  | ok path => simp [Call.path?, hFile, Except.toOption] at h

/-- A call for a file that cannot be read may decide the root, and that is all. -/
theorem transpile_of_no_source (engine : Engine σ) (config : SessionConfig) (world : σ)
    (hPath : call.path? = some path) (h : call.source? = none) :
    (transpile engine call.files call.url (config, world)).2 =
      (config.setRoot (directory path), world) := by
  cases hText : call.files.readText path with
  | error fault => simp only [transpile, toOption_eq_some_iff.1 hPath, hText]
  | ok source => simp [source?_eq_some_iff.2 ⟨hPath, hText⟩] at h

/-- The root that is decided at the latest by a call for the file at a path. -/
def rootWith (config : SessionConfig) (path : FilePath) : FilePath :=
  config.root.getD (directory path)

/-- The options that are decided at the latest by such a call. -/
def optionsWith (config : SessionConfig) (fs : FileSystem) (path : FilePath) : CompilerOptions :=
  config.options.getD (loadOptions fs (rootWith config path))

/-- A call for a file that can be read hands it to the engine. -/
theorem transpile_of_source (engine : Engine σ) (config : SessionConfig) (world : σ)
    (h : call.source? = some (path, source)) :
    transpile engine call.files call.url (config, world) =
      let options := optionsWith config call.files path
      let made := engine source path options.effective world
      (accept call.url options.effective made.1, ⟨some (rootWith config path), some options⟩,
        made.2) := by
  obtain ⟨hPath, hText⟩ := source?_eq_some_iff.1 h
  simp only [transpile, toOption_eq_some_iff.1 hPath, hText]
  rfl

/-- The first call for a file decides the root, whether it succeeds or not. -/
theorem root_transpile (engine : Engine σ) (config : SessionConfig) (world : σ) (call : Call) :
    (transpile engine call.files call.url (config, world)).2.1.root =
      config.root.or (call.path?.map directory) := by
  cases hPath : call.path? with
  | none => simp [transpile_of_no_path engine config world hPath]
  | some path =>
    cases hSource : call.source? with
    | none =>
      simp [transpile_of_no_source engine config world hPath hSource, SessionConfig.setRoot]
    | some found =>
      obtain rfl : found.1 = path :=
        Option.some.inj ((source?_eq_some_iff.1 hSource).1.symm.trans hPath)
      simp [transpile_of_source engine config world hSource, rootWith]

/-- The first call whose file can be read decides the options. -/
theorem options_transpile (engine : Engine σ) (config : SessionConfig) (world : σ) (call : Call) :
    (transpile engine call.files call.url (config, world)).2.1.options =
      config.options.or (call.source?.map fun found =>
        loadOptions call.files (rootWith config found.1)) := by
  cases hSource : call.source? with
  | some found => simp [transpile_of_source engine config world hSource, optionsWith]
  | none =>
    cases hPath : call.path? with
    | none => simp [transpile_of_no_path engine config world hPath]
    | some path =>
      simp [transpile_of_no_source engine config world hPath hSource, SessionConfig.setRoot]

/-- What the engine is given in the call. -/
def Call.invocation? (c : Call) (config : SessionConfig) : Option Invocation :=
  c.source?.map fun (path, source) => ⟨source, path, (optionsWith config c.files path).effective⟩

/-- The record of an engine has no part in what a call does. -/
theorem transpile_recording (engine : Engine σ) (call : Call) (config : SessionConfig) (world : σ)
    (given : List Invocation) :
    transpile (recording engine) call.files call.url (config, world, given) =
      let (outcome, config', last) := transpile engine call.files call.url (config, world)
      (outcome, config', last, given ++ (call.invocation? config).toList) := by
  cases hSource : call.source? with
  | some found =>
    rw [transpile_of_source _ _ _ hSource, transpile_of_source _ _ _ hSource]
    simp only [Call.invocation?, hSource]
    rfl
  | none =>
    cases hFile : Resolution.moduleFile call.url with
    | error e => simp [transpile, hFile, Call.invocation?, hSource]
    | ok path =>
      cases hText : call.files.readText path with
      | error fault => simp [transpile, hFile, hText, Call.invocation?, hSource]
      | ok source =>
        have hPath := toOption_eq_some_iff.2 hFile
        simp [source?_eq_some_iff.2 ⟨hPath, hText⟩] at hSource

/-! ### What a history of calls has decided -/

/-- The configuration and the record that calls from the start of a session leave behind. -/
structure Decided (past : List Call) (config : SessionConfig) (given : List Invocation) : Prop where
  root : config.root = firstRoot? past
  options : config.options = firstOptions? past
  sources : given.map (fun n => (n.path, n.source)) = past.filterMap Call.source?
  alike : ∀ n ∈ given, config.options.map CompilerOptions.effective = some n.options

theorem firstRoot?_append (past calls : List Call) :
    firstRoot? (past ++ calls) = (firstRoot? past).or (firstRoot? calls) := by
  simp only [firstRoot?, List.findSome?_append]
  cases past.findSome? Call.path? <;> rfl

theorem firstRoot?_concat (past : List Call) (call : Call) :
    firstRoot? (past ++ [call]) = (firstRoot? past).or (call.path?.map directory) := by
  rw [firstRoot?_append]
  cases h : call.path? <;> simp [firstRoot?, h]

theorem isSome_firstRoot?_of_isRead {past : List Call} {first : Call}
    (h : past.find? Call.isRead = some first) : (firstRoot? past).isSome := by
  have hRead : first.source?.isSome := List.find?_some (p := Call.isRead) h
  obtain ⟨⟨path, source⟩, hSource⟩ := Option.isSome_iff_exists.1 hRead
  have hPath := (source?_eq_some_iff.1 hSource).1
  simp only [firstRoot?, Option.isSome_map, List.isSome_findSome?, List.any_eq_true]
  exact ⟨first, List.mem_of_find?_eq_some h, by simp [hPath]⟩

theorem firstOptions?_eq_none_iff {past : List Call} :
    firstOptions? past = none ↔ past.find? Call.isRead = none := by
  cases hFind : past.find? Call.isRead with
  | none => simp [firstOptions?, hFind]
  | some first =>
    obtain ⟨root, hRoot⟩ := Option.isSome_iff_exists.1 (isSome_firstRoot?_of_isRead hFind)
    simp [firstOptions?, hFind, hRoot]

/-- Once the options are decided, they stay. -/
theorem firstOptions?_append_of_some {past : List Call} {o : CompilerOptions}
    (h : firstOptions? past = some o) (calls : List Call) :
    firstOptions? (past ++ calls) = some o := by
  simp only [firstOptions?, Option.bind_eq_bind, Option.bind_eq_some_iff] at h ⊢
  obtain ⟨first, hFirst, root, hRoot, hLoad⟩ := h
  refine ⟨first, ?_, root, ?_, hLoad⟩
  · rw [List.find?_append, hFirst]
    rfl
  · rw [firstRoot?_append, hRoot]
    rfl

theorem firstOptions?_concat (past : List Call) (call : Call) :
    firstOptions? (past ++ [call]) = (firstOptions? past).or (call.source?.map fun found =>
      loadOptions call.files ((firstRoot? past).getD (directory found.1))) := by
  cases hPast : firstOptions? past with
  | some o => exact firstOptions?_append_of_some hPast [call]
  | none =>
    have hFind := firstOptions?_eq_none_iff.1 hPast
    cases hSource : call.source? with
    | none =>
      rw [Option.map_none, Option.or_none, firstOptions?_eq_none_iff, List.find?_append, hFind]
      simp [Call.isRead, hSource]
    | some found =>
      have hFirst : (past ++ [call]).find? Call.isRead = some call := by
        simp [List.find?_append, hFind, Call.isRead, hSource]
      have hPath := (source?_eq_some_iff.1 hSource).1
      simp [firstOptions?, hFirst, firstRoot?_concat, hPath]

/-- Before the first call, nothing is decided. -/
theorem decided_start : Decided [] {} [] where
  root := rfl
  options := rfl
  sources := rfl
  alike := by simp

/-- A call keeps what is decided and decides what it can. -/
theorem Decided.step {past : List Call} {given : List Invocation} (h : Decided past config given)
    (engine : Engine σ) (world : σ) (call : Call) :
    Decided (past ++ [call]) (transpile engine call.files call.url (config, world)).2.1
      (given ++ (call.invocation? config).toList) where
  root := by rw [root_transpile, firstRoot?_concat, h.root]
  options := by
    simp only [options_transpile, firstOptions?_concat, h.options, rootWith, h.root]
  sources := by
    rw [List.map_append, List.filterMap_append, h.sources]
    cases hSource : call.source? <;> simp [Call.invocation?, hSource]
  alike := by
    intro n hn
    rw [options_transpile]
    obtain hn | hn := List.mem_append.1 hn
    · obtain ⟨o, ho, hEffective⟩ := Option.map_eq_some_iff.1 (h.alike n hn)
      simp [ho, hEffective]
    · obtain ⟨found, hSource, rfl⟩ := Option.map_eq_some_iff.1 (Option.mem_toList.1 hn)
      simp [hSource, optionsWith]

/-- All calls together decide what the first ones do. -/
theorem Decided.run {past : List Call} {given : List Invocation} (h : Decided past config given)
    (engine : Engine σ) (world : σ) (calls : List Call) :
    ∃ outcomes config' last given',
      transpileAll (recording engine) calls (config, world, given) =
        (outcomes, config', last, given') ∧
      transpileAll engine calls (config, world) = (outcomes, config', last) ∧
      Decided (past ++ calls) config' given' := by
  induction calls generalizing past config world given with
  | nil => exact ⟨[], config, world, given, rfl, rfl, by simpa using h⟩
  | cons call rest ih =>
    have hStep := h.step engine world call
    cases hCall : transpile engine call.files call.url (config, world) with
    | mk outcome state =>
      obtain ⟨config₁, world₁⟩ := state
      rw [hCall] at hStep
      obtain ⟨outcomes, config', last, given', hRecorded, hRun, hDecided⟩ := ih hStep world₁
      refine ⟨outcome :: outcomes, config', last, given', ?_, ?_, by simpa using hDecided⟩
      · simp only [transpileAll_cons, transpile_recording, hCall, hRecorded]
      · simp only [transpileAll_cons, hCall, hRun]

/-! ### Files with alike configurations -/

/-- The same call in two trees of files, which have the same source for it and alike configurations
for the root. -/
structure Call.Alike (root : FilePath) (call other : Call) : Prop where
  url : call.url = other.url
  source : ∀ path ∈ call.path?, call.files.readText path = other.files.readText path
  configs : ConfigsAlike root call.files other.files

/-- Two configurations of a session that have the same effect on transpilation. -/
structure ConfigAgrees (config other : SessionConfig) : Prop where
  root : config.root = other.root
  options : config.options.map CompilerOptions.effective =
    other.options.map CompilerOptions.effective

variable {root : FilePath} {config' : SessionConfig} {other : Call} {others : List Call}

theorem Call.Alike.path?_eq (h : call.Alike root other) : call.path? = other.path? := by
  rw [Call.path?, Call.path?, h.url]

theorem Call.Alike.source?_eq (h : call.Alike root other) : call.source? = other.source? := by
  unfold Call.source?
  rw [← h.path?_eq]
  cases hPath : call.path? with
  | none => rfl
  | some path => simp only [Option.bind_eq_bind, Option.bind_some, h.source path hPath]

theorem effective_optionsWith (h : call.Alike root other) (hConfig : ConfigAgrees config config')
    (hRoot : rootWith config path = root) :
    (optionsWith config call.files path).effective =
      (optionsWith config' other.files path).effective := by
  have hRoot' : rootWith config' path = root := by rw [← hRoot, rootWith, rootWith, hConfig.root]
  have hOptions := hConfig.options
  rw [optionsWith, optionsWith, hRoot, hRoot']
  cases ho : config.options with
  | none =>
    cases ho' : config'.options with
    | none => exact h.configs.effective_loadOptions
    | some o' => simp [ho, ho'] at hOptions
  | some o =>
    cases ho' : config'.options with
    | none => simp [ho, ho'] at hOptions
    | some o' => simpa [ho, ho'] using hOptions

/-- Alike calls have the same outcome and do the same to the world. -/
theorem Call.Alike.step (h : call.Alike root other) (hConfig : ConfigAgrees config config')
    (hRoot : ∀ path ∈ call.path?, rootWith config path = root) (engine : Engine σ) (world : σ) :
    ∃ outcome next next' last,
      transpile engine call.files call.url (config, world) = (outcome, next, last) ∧
      transpile engine other.files other.url (config', world) = (outcome, next', last) ∧
      ConfigAgrees next next' := by
  cases hFile : Resolution.moduleFile call.url with
  | error e =>
    refine ⟨.error e, config, config', world, ?_, ?_, hConfig⟩
    · simp only [transpile, hFile]
    · simp only [transpile, ← h.url, hFile]
  | ok path =>
    have hPath : call.path? = some path := toOption_eq_some_iff.2 hFile
    have hRead := h.source path hPath
    cases hText : call.files.readText path with
    | error fault =>
      refine ⟨.error (.read path fault), config.setRoot (directory path),
        config'.setRoot (directory path), world, ?_, ?_, ?_, hConfig.options⟩
      · simp only [transpile, hFile, hText]
      · simp only [transpile, ← h.url, hFile, ← hRead, hText]
      · simp only [SessionConfig.setRoot, hConfig.root]
    | ok source =>
      have hSource : call.source? = some (path, source) := source?_eq_some_iff.2 ⟨hPath, hText⟩
      have hOptions := effective_optionsWith h hConfig (hRoot path hPath)
      refine ⟨_, _, ⟨some (rootWith config' path), some (optionsWith config' other.files path)⟩, _,
        transpile_of_source engine config world hSource, ?_, ?_, ?_⟩
      · rw [transpile_of_source engine config' world (h.source?_eq ▸ hSource), ← h.url]
        simp only [hOptions]
      · simp only [rootWith, hConfig.root]
      · simp only [Option.map_some, hOptions]

/-- The root that calls from a configuration work with, if one of them is for a file. -/
def rootOf? (config : SessionConfig) (calls : List Call) : Option FilePath :=
  config.root.or (firstRoot? calls)

theorem rootOf?_cons (engine : Engine σ) (config : SessionConfig) (world : σ) (call : Call)
    (rest : List Call) : rootOf? config (call :: rest) =
      rootOf? (transpile engine call.files call.url (config, world)).2.1 rest := by
  rw [rootOf?, rootOf?, root_transpile, Option.or_assoc]
  cases hPath : call.path? <;> simp [firstRoot?, hPath]

theorem rootWith_of_rootOf? {rest : List Call} (hRoot : ∀ r ∈ rootOf? config (call :: rest), r = root)
    (hPath : call.path? = some path) : rootWith config path = root := by
  apply hRoot
  cases h : config.root <;> simp [rootOf?, rootWith, firstRoot?, h, hPath]

/-- Alike calls have the same outcomes, do the same to the world, and give the engine the same. -/
theorem transpileAll_alike (hAlike : List.Forall₂ (Call.Alike root) calls others)
    (hConfig : ConfigAgrees config config') (hRoot : ∀ r ∈ rootOf? config calls, r = root)
    (engine : Engine σ) (world : σ) :
    ∃ outcomes next next' last,
      transpileAll engine calls (config, world) = (outcomes, next, last) ∧
      transpileAll engine others (config', world) = (outcomes, next', last) := by
  induction hAlike generalizing config config' world with
  | nil => exact ⟨[], config, config', world, rfl, rfl⟩
  | @cons call other rest others h _ ih =>
    have hWith : ∀ path ∈ call.path?, rootWith config path = root :=
      fun path hPath => rootWith_of_rootOf? hRoot hPath
    obtain ⟨outcome, next, next', last, hCall, hOther, hNext⟩ := h.step hConfig hWith engine world
    rw [rootOf?_cons engine config world, hCall] at hRoot
    obtain ⟨outcomes, end₁, end₂, final, hRest, hOthers⟩ := ih hNext hRoot last
    refine ⟨outcome :: outcomes, end₁, end₂, final, ?_, ?_⟩
    · simp only [transpileAll_cons, hCall, hRest]
    · simp only [transpileAll_cons, hOther, hOthers]

/-- Calls from the start of a session, each with the files as they are at its time.  The root is
the directory of the first file that is called for.  The engine gets exactly the sources that can
be read, always with the effective options that were found above the root when that happened first.
Files with alike configurations make no difference to any of this. -/
theorem invocations_of_calls (engine : Engine σ) (world : σ) (calls : List Call) :
    ∃ outcomes config last given,
      transpileAll (recording engine) calls ({}, world, []) = (outcomes, config, last, given) ∧
      transpileAll engine calls ({}, world) = (outcomes, config, last) ∧
      (∀ fs, config.rootPath fs = (firstRoot? calls).getD fs.working) ∧
      given.map (fun n => (n.path, n.source)) = calls.filterMap Call.source? ∧
      (∀ n ∈ given, (firstOptions? calls).map CompilerOptions.effective = some n.options) ∧
      ∀ root others, (∀ r ∈ firstRoot? calls, r = root) →
        List.Forall₂ (Call.Alike root) calls others →
        ∃ config', transpileAll (recording engine) others ({}, world, []) =
          (outcomes, config', last, given) := by
  obtain ⟨outcomes, config, last, given, hRecorded, hRun, hDecided⟩ :=
    decided_start.run engine world calls
  rw [List.nil_append] at hDecided
  refine ⟨outcomes, config, last, given, hRecorded, hRun, ?_, hDecided.sources, ?_, ?_⟩
  · intro fs
    rw [SessionConfig.rootPath, hDecided.root]
  · intro n hn
    rw [← hDecided.options]
    exact hDecided.alike n hn
  · intro root others hRoot hAlike
    have hStart : ConfigAgrees {} {} := ⟨rfl, rfl⟩
    obtain ⟨outcomes', next, next', last', hCalls, hOthers⟩ :=
      transpileAll_alike hAlike hStart hRoot (recording engine) (world, [])
    rw [hRecorded] at hCalls
    cases hCalls
    exact ⟨next', hOthers⟩

end Runs

namespace Sample

/-- A project with one module and the text of a configuration. -/
def project (config : String) : FileSystem where
  root := .directory [(Text.Utf8.ofString "p", .directory
    [(Text.Utf8.ofString "tsconfig.json", .file (Text.Utf8.ofString config)),
      (Text.Utf8.ofString "a.ts", .file (Text.Utf8.ofString "x"))])]

/-- A call for a file that is missing, and then one for the module. -/
def requests (config : String) : List Call :=
  [⟨project config, "file:///p/b.ts"⟩, ⟨project config, "file:///p/a.ts"⟩]

def old : String := "\x7b\"compilerOptions\":\x7b\"target\":\"ES5\"\x7d\x7d"

def checked : String := "\x7b\"compilerOptions\":\x7b\"strict\":true\x7d\x7d"

def echo : Engine Unit := fun source _ _ => pure { code := source }

/-- The text sets one option, and the check accepts its value. -/
def setsOnly (text key : String) (check : Json → Bool) : Bool :=
  match optionFields text with
  | .ok [(k, value)] => k == key && check value
  | _ => false

theorem exists_of_setsOnly {text key : String} {check : Json → Bool}
    (h : setsOnly text key check = true) :
    ∃ value, optionFields text = .ok [(key, value)] ∧ check value = true := by
  unfold setsOnly at h
  split at h
  · next k value hFields =>
    obtain ⟨hKey, hCheck⟩ := Bool.and_eq_true_iff.1 h
    exact ⟨value, by rw [hFields, eq_of_beq hKey], hCheck⟩
  · cases h

theorem textsAlike : TextsAlike old checked := by
  have hOld : setsOnly old "target" (fun value =>
      (readString "a string" value).toOption == some "ES5") = true := by decide +kernel
  have hChecked : setsOnly checked "strict" (fun value =>
      (readBoolean value).toOption == some true) = true := by decide +kernel
  obtain ⟨target, hFields, hTarget⟩ := exists_of_setsOnly hOld
  obtain ⟨strict, hOthers, hStrict⟩ := exists_of_setsOnly hChecked
  cases target with
  | string name =>
    cases strict with
    | boolean b =>
      obtain rfl : name = "ES5" := by simpa [readString, Except.toOption] using hTarget
      refine .inr ⟨_, _, hFields, hOthers, ?_, ?_, by simp [isOverridden, overriddenKeys]⟩
      · intro field hField _
        rw [List.mem_singleton.1 hField]
        exact .target (by unfold IsNameOf; decide +kernel)
      · intro field hField _
        rw [List.mem_singleton.1 hField]
        exact .strict b
    | _ => simp [readBoolean, Except.toOption] at hStrict
  | _ => simp [readString, Except.toOption] at hTarget

theorem configsAlike :
    ConfigsAlike (FilePath.ofString "/p") (project old) (project checked) := by
  have hAbove : (FilePath.ofString "/p").ancestors =
      [FilePath.ofString "/p", FilePath.ofString "/"] := by decide +kernel
  intro directory hDirectory
  rw [hAbove] at hDirectory
  obtain rfl | rfl : directory = FilePath.ofString "/p" ∨ directory = FilePath.ofString "/" := by
    simpa using hDirectory
  · have hOld : (project old).readText ((FilePath.ofString "/p").join configName) = .ok old := by
      decide +kernel
    have hChecked : (project checked).readText ((FilePath.ofString "/p").join configName) =
        .ok checked := by decide +kernel
    refine ⟨by decide +kernel, ?_⟩
    rw [hOld, hChecked]
    exact textsAlike
  · have hOld : (project old).readText ((FilePath.ofString "/").join configName) =
        .error .notFound := by decide +kernel
    have hChecked : (project checked).readText ((FilePath.ofString "/").join configName) =
        .error .notFound := by decide +kernel
    refine ⟨by decide +kernel, ?_⟩
    rw [hOld, hChecked]
    exact rfl

theorem requestsAlike : List.Forall₂ (Call.Alike (FilePath.ofString "/p")) (requests old)
    (requests checked) := by
  refine .cons ⟨rfl, ?_, configsAlike⟩ (.cons ⟨rfl, ?_, configsAlike⟩ .nil)
  · intro path hPath
    have hFirst : Call.path? ⟨project old, "file:///p/b.ts"⟩ = some (FilePath.ofString "/p/b.ts") :=
      by decide +kernel
    obtain rfl := Option.some.inj (hFirst.symm.trans hPath)
    decide +kernel
  · intro path hPath
    have hSecond : Call.path? ⟨project old, "file:///p/a.ts"⟩ =
        some (FilePath.ofString "/p/a.ts") := by decide +kernel
    obtain rfl := Option.some.inj (hSecond.symm.trans hPath)
    decide +kernel

end Sample

/-- A project that asks for an old target, and one that asks for strict checks: the engine sees no
difference, and the first call decides the root although it fails. -/
theorem invocations_of_calls_retargeted :
    ∃ outcomes config config' given,
      transpileAll (recording Sample.echo) (Sample.requests Sample.old) ({}, (), []) =
        (outcomes, config, (), given) ∧
      transpileAll (recording Sample.echo) (Sample.requests Sample.checked) ({}, (), []) =
        (outcomes, config', (), given) ∧
      config.rootPath {} = FilePath.ofString "/p" ∧
      given.map (fun n => (n.path, n.source)) = [(FilePath.ofString "/p/a.ts", "x")] := by
  obtain ⟨outcomes, config, last, given, hRecorded, -, hRoot, hSources, -, hAlike⟩ :=
    invocations_of_calls Sample.echo () (Sample.requests Sample.old)
  have hFirst : firstRoot? (Sample.requests Sample.old) = some (FilePath.ofString "/p") := by
    decide +kernel
  obtain ⟨config', hOthers⟩ :=
    hAlike (FilePath.ofString "/p") _ (by simp [hFirst]) Sample.requestsAlike
  refine ⟨outcomes, config, config', given, hRecorded, hOthers, ?_, ?_⟩
  · rw [hRoot, hFirst]
    rfl
  · rw [hSources]
    decide +kernel

end ModuleLoader.Transpile
