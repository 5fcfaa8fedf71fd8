import ModuleLoader.Proofs.Entry
import ModuleLoader.Proofs.Resolution
import ModuleLoader.Proofs.Session.Closure
import ModuleLoader.Proofs.Session.Gains
import ModuleLoader.Proofs.Session.Repose
import ModuleLoader.Proofs.Session.Upholding
import ModuleLoader.Proofs.Url.Relative

/-! The entry among the modules of its program.  A module that imports the entry by a relative path
is bound to the root itself, and the entry is evaluated once, as long as its URL is in its normal
form. -/

namespace ModuleLoader

open FilePath (dot)

variable {σ : Type} {x y : Instant σ} {env : Environment σ} {id root : ModuleId} {m : StaticModule}

/-- A specifier is bound to the one module that it can mean. -/
theorem Moment.Binds.get?_eq {table : OrderedMap ModuleId} {specifier : String}
    (h : x.Binds m table) (hMem : specifier ∈ m.dependencies)
    (hOnly : ∀ j, x.Means specifier m.url j → j = root) : table.get? specifier = some root := by
  obtain ⟨ids, hIds, rfl⟩ := h
  have hKey : specifier ∈ (m.dependencies.zip ids).map Prod.fst := by
    rw [List.map_fst_zip (Nat.le_of_eq hIds.length_eq)]
    exact hMem
  obtain ⟨j, hj⟩ := Option.isSome_iff_exists.1 (OrderedMap.contains_ofList hKey)
  rw [hj]
  obtain ⟨before, after, hEntries, -⟩ := List.lookup_eq_some_iff.1 hj
  have hEntry : (specifier, j) ∈ (OrderedMap.ofList (m.dependencies.zip ids)).entries := by
    rw [hEntries]
    simp
  have hZip := OrderedMap.mem_of_mem_entries_ofList hEntry
  rw [hOnly j (List.forall₂_zip hIds hZip)]

namespace Url.IsWay

variable {base u : Url} {directory steps : List String} {last reference : String}

theorem isPath (h : IsWay base directory last steps u reference) :
    Resolution.isPath reference = true := by
  obtain ⟨first, next, rest, hSteps, hFirst⟩ : ∃ first next rest,
      steps = first :: next :: rest ∧ (first = "." ∨ first = "..") := by
    rcases steps with _ | ⟨first, _ | ⟨next, rest⟩⟩
    · simpa using h.relative.start
    · have hDown : IsDown first := h.relative.ending first rfl
      simpa [hDown.ne_dot, hDown.ne_dots] using h.relative.start
    · exact ⟨first, next, rest, rfl, by simpa using h.relative.start⟩
  have hText : reference.toList = first.toList ++ '/' :: (next.toList ++ namesText rest ++
      u.restText) := by
    rw [h.text, hSteps, String.toList_append, toList_intercalate, String.toList_ofList]
    simp [namesText]
  unfold Resolution.isPath
  rcases hFirst with rfl | rfl <;> rw [hText] <;> rfl

end Url.IsWay

namespace Session

/-- Resolution takes the URL for that of a module, and finds no other file for it. -/
def IsFound (env : Environment σ) (u : Url) : Prop :=
  ∀ world, (Resolution.classify (env.files world) u).url = u.text

/-- A URL with an extension is that of a module. -/
theorem isFound_of_extension {u : Url} (h : (Resolution.extension? u).isSome = true) :
    IsFound env u := by
  intro world
  obtain ⟨extension, hExtension⟩ := Option.isSome_iff_exists.1 h
  simp [Resolution.classify, hExtension]

/-- All that a relative path to the root can mean is the root. -/
theorem eq_of_means {p u : Url} {directory steps : List String} {last specifier referrer : String}
    (hx : x.Lawful) (hTruthful : Truthful env x) (hm : x.state.static? root = some m)
    (hText : m.url = u.text) (hFound : IsFound env u) (hParse : Url.parse referrer = .ok p)
    (hWay : Url.IsWay p directory last steps u specifier)
    (hBuiltin : Resolution.isBuiltin env.builtins specifier = false) {j : ModuleId}
    (h : x.Means specifier referrer j) : j = root := by
  obtain ⟨r, hResolved, hGet⟩ := h
  obtain ⟨parent, world, hParent, hResolve⟩ := hTruthful _ _ _ hResolved
  rw [hParse] at hParent
  cases hParent
  rw [Resolution.resolve_of_join hBuiltin (.inl hWay.isPath) hWay.join_eq] at hResolve
  have hUrl : r.url = u.text := by
    rw [← Except.ok.inj hResolve]
    exact hFound world
  have hRoot := hx.cached root _ (static?_eq_some_iff.1 hm)
  rw [show (Module.static m).url = m.url from rfl, hText, ← hUrl, hGet] at hRoot
  exact Option.some.inj hRoot

/-! ## Evaluation -/

/-- The evaluation of the module is under way or over. -/
def HasBegun (m : StaticModule) : Prop := m.status = .evaluating ∨ m.status = .evaluated

theorem beyond_hasBegun : StaticModule.Beyond HasBegun where
  create _ _ _ h := by rcases h with h | h <;> cases h
  beginLinking m h := by
    unfold HasBegun StaticModule.beginLinking at h
    split at h
    · rcases h with h | h <;> cases h
    · exact h
  bindImports _ _ h := h
  failLinking _ _ h := by rcases h with h | h <;> cases h

theorem hasBegun_of_finishLinking (h : HasBegun m.finishLinking) : HasBegun m := by
  unfold HasBegun StaticModule.finishLinking at h
  split at h
  · dsimp only at h
    split at h
    · rcases h with h | h <;> cases h
    · exact h
  · exact h

theorem yields_events {α : Type} (action : Load σ α) :
    Yields action (fun _ y => x.events <+: y.events) x := by
  induction action generalizing x with
  | finish outcome =>
    cases outcome with
    | ok a => exact List.prefix_refl _
    | error e => trivial
  | outOfFuel => trivial
  | step change next ih => exact ⟨trivial, ih x.state (x := x.move (change x.state))⟩
  | report event next ih =>
    exact ⟨trivial, (ih (x := x.hear event)).mono fun _ y hy =>
      (List.prefix_append x.events [event]).trans hy⟩

theorem mem_evaluatedUrls {scope : EvaluationScope} (h : .evaluated m scope ∈ x.events) :
    m.url ∈ x.evaluatedUrls :=
  List.mem_map.2 ⟨(m, scope), List.mem_filterMap.2 ⟨_, h, rfl⟩, rfl⟩

theorem evaluationStep_of_not_hasBegun (hLinked : m.linking = .linked) (hNot : ¬HasBegun m) :
    m.evaluationStep = .ok .run ∨ ∃ e, m.evaluationStep = .error e := by
  unfold StaticModule.evaluationStep
  rw [if_neg (not_not_intro hLinked)]
  cases hStatus : m.status with
  | evaluating => exact absurd (.inl hStatus) hNot
  | evaluated => exact absurd (.inr hStatus) hNot
  | errored => exact .inr ⟨_, rfl⟩
  | uninstantiated | instantiating | instantiated => exact .inl rfl

/-- A module that is run is left to the host, unless an import of it fails. -/
theorem told_of_runModule (env : Environment σ) (run : ModuleId → Load σ Namespace)
    (load : String → Load σ Namespace) (m : StaticModule) :
    Yields (runModule env run load m) (fun _ y => ∃ scope, .evaluated m scope ∈ y.events) x := by
  refine Yields.bind (yields_events _) fun imports y _ => ?_
  rw [Yields, Action.meets_bind, Action.meets_tell]
  refine ⟨trivial, (yields_events _).mono fun _ z hz => ?_⟩
  exact ⟨_, hz.subset (List.mem_append_right _ (List.mem_singleton.2 rfl))⟩

/-- An evaluation that succeeds has left the module to the host, if it had not begun before. -/
theorem evaluated_of_evaluate (env : Environment σ) (fuel : Nat) (hm : x.state.static? id = some m)
    (hLinked : m.linking = .linked) (hNot : ¬HasBegun m) :
    Yields (evaluate env fuel id) (fun _ y => m.url ∈ y.evaluatedUrls) x := by
  cases fuel with
  | zero => trivial
  | succ fuel =>
    simp only [Yields, evaluate, Action.meets_bind, Action.meets_get, static?_eq_some_iff.1 hm,
      true_and]
    rcases evaluationStep_of_not_hasBegun hLinked hNot with hStep | ⟨e, hStep⟩
    · rw [hStep, Action.meets_ofExcept_ok]
      refine Yields.bind (yields_events _) fun _ y _ => ?_
      rw [Yields, Action.meets_bind, Action.meets_onFailure]
      refine (told_of_runModule env _ _ m.beginEvaluation).ends (fun e z _ => ?_) ?_
      · exact (yields_events _).mono fun _ _ _ => trivial
      · rintro _ z ⟨scope, hTold⟩
        exact (yields_events _).mono fun _ w hw =>
          mem_evaluatedUrls (m := m.beginEvaluation) (hw.subset hTold)
    · rw [hStep]
      trivial

/-! ## The entry of a program -/

/-- A program stands at a moment as its entry with the URL `u` wants it. -/
structure Entered (env : Environment σ) (u : Url) (root : ModuleId) (x : Instant σ) : Prop where
  /-- The root is the one module with the URL. -/
  only : ∀ id m, x.state.module? id = some m → (m.url = u.text ↔ id = root)
  /-- Whatever module of the program names the entry by a relative path is bound to the root. -/
  back : ∀ id m p directory last steps specifier, x.state.Leads root id →
    x.state.static? id = some m → specifier ∈ m.dependencies → Url.parse m.url = .ok p →
    Url.IsWay p directory last steps u specifier → IsFound env u →
    Resolution.isBuiltin env.builtins specifier = false →
    ∃ table, m.imports = some table ∧ table.get? specifier = some root
  /-- The entry is left to the host once at most, and once if the program succeeds. -/
  once : ∀ fuel, (∀ y ∈ (evaluate env fuel root).moments x, y.evaluatedUrls.count u.text ≤ 1) ∧
    ∀ exports y, (evaluate env fuel root).runFrom x = some (.ok exports, y) →
      y.evaluatedUrls.count u.text = 1

theorem entered_of_instantiate {entry : String} {u : Url} {fuel : Nat} {world : σ}
    {program : Instance} (hUrl : entryUrl entry env.baseUrl = .ok u)
    (hRun : (instantiate env fuel entry).runFrom (.fresh world) = some (.ok program, x)) :
    Entered env u program.root x := by
  obtain ⟨hx, v, m, hv, hm, hText, hLinked⟩ :=
    (loaded_instantiate env fuel entry (Moment.lawful_fresh world)).done_of_runFrom hRun
  rw [hUrl] at hv
  cases hv
  have hTruthful : Truthful env x :=
    ((lasting_truthful env).upholds_instantiate fuel entry _ (by simp [Truthful, Moment.fresh]))
      |>.of_runFrom hRun |>.1 _ rfl
  have hBars : (Moment.fresh world).Bars HasBegun x :=
    ((barring_instantiate beyond_hasBegun env fuel (fun _ => hasBegun_of_finishLinking)
      fun _ _ _ _ hBegun => by rcases hBegun with h | h <;> cases h).of_runFrom hRun).1 _ rfl
  have hNot : ¬HasBegun m := by
    intro hBegun
    obtain ⟨n, hn, -⟩ := hBars _ m hm hBegun
    simp [Moment.fresh, static?, module?] at hn
  constructor
  case only =>
    intro id n hn
    constructor
    · intro hSame
      exact hx.eq_of_url hn (static?_eq_some_iff.1 hm) (hSame.trans hText.symm)
    · rintro rfl
      rw [static?_eq_some_iff, hn] at hm
      cases hm
      exact hText
  case back =>
    intro id n p directory last steps specifier hLeads hn hMem hParse hWay hFound hBuiltin
    have hLinkedHere := hx.linked_of_leads hm hLinked hLeads hn
    obtain ⟨table, hTable⟩ := Option.isSome_iff_exists.1 ((hx.static id n hn).imports hLinkedHere)
    refine ⟨table, hTable, (hx.bound id n table hn hTable).get?_eq hMem fun j hj => ?_⟩
    exact eq_of_means hx hTruthful hm hText hFound hParse hWay hBuiltin hj
  case once =>
    intro fuel
    have hLawful : ∀ y ∈ (evaluate env fuel program.root).moments x, y.Lawful := fun y hy =>
      ((spares_evaluate env fuel program.root hx).later_of_mem hx hy).1
    refine ⟨fun y hy => List.nodup_iff_count_le_one.1 (hLawful y hy).once u.text, ?_⟩
    intro exports y hEnd
    have hMem := (evaluated_of_evaluate env fuel hm hLinked hNot).done_of_runFrom hEnd
    have hy := hLawful y (Action.mem_moments_of_runFrom hEnd)
    exact List.count_eq_one_of_mem hy.once (hText ▸ hMem)

/-- The URL of an entry in a regular base is in its normal form, unless the entry is an absolute
path that goes up.  A program that is loaded by it has one module with that URL, the root: it is what
every relative path to the entry is bound to, and it is evaluated once. -/
theorem entered_by_normal_url (env : Environment σ) {entry : String} {u : Url}
    (hBase : env.baseUrl.IsRegular)
    (hEntry : (FilePath.ofString entry).isAbsolute = true ∨ Url.IsUnbroken entry.toList)
    (hUrl : entryUrl entry env.baseUrl = .ok u) (hScheme : u.scheme = "file")
    (hHost : u.host? = none) :
    ((∃ v, Url.parse u.text = .ok v ∧ v.text = u.text) ↔
      ((FilePath.ofString entry).isAbsolute = true →
        [dot, dot] ∉ (FilePath.ofString entry).names)) ∧
    ∀ fuel world program x,
      (instantiate env fuel entry).runFrom (.fresh world) = some (.ok program, x) →
        Entered env u program.root x :=
  ⟨entryUrl_canonical_iff hBase hEntry hUrl hScheme hHost, fun _ _ _ _ hRun =>
    entered_of_instantiate hUrl hRun⟩

end Session

namespace Sample

open File

/-- Two files, and an empty directory beside them. -/
def pair : FileSystem where
  root := .directory
    [(Text.Utf8.ofString "main.ts", .file []), (Text.Utf8.ofString "a.ts", .file []),
      (Text.Utf8.ofString "sub", .directory [])]

/-- The two files import each other. -/
def pairDependencies (path : String) : List String :=
  match path with
  | "/main.ts" => ["./a.ts"]
  | "/a.ts" => ["./main.ts"]
  | _ => []

def pairEnvironment : Environment Unit :=
  { environment with
    files := fun _ => pair
    packages := none
    engine := some fun _ path _ =>
      pure { code := "", dependencies := some (pairDependencies path.text) } }

/-- The URL of a file in the root. -/
def fileAt (name : String) : Url :=
  { scheme := "file", authority := some {}, path := .segments [name] }

theorem regular_pairEnvironment : pairEnvironment.baseUrl.IsRegular := by
  have hUnbroken : Url.IsUnbroken "file:///".toList := by simp [Url.IsUnbroken, Url.isBreak]
  have hParse : Url.parse "file:///" = .ok pairEnvironment.baseUrl := by decide +kernel
  exact Url.regular_parse hUnbroken hParse

/-- From one file to the other there is a path. -/
theorem way_to_main : Url.IsWay (fileAt "a.ts") [] "a.ts" [".", "main.ts"] (fileAt "main.ts")
    "./main.ts" where
  scheme := rfl
  authority := rfl
  path := rfl
  loose := by decide
  relative := by
    have hDown : Url.IsDown "main.ts" :=
      ⟨List.all_iff_forall_prop.1 (by decide), List.all_iff_forall_prop.1 (by decide), by decide,
        by decide⟩
    exact ⟨by simp [Url.IsStep, hDown], .inl rfl, by simpa using hDown⟩
  reached := ⟨rfl, rfl, rfl, by decide,
    List.forall_mem_singleton.2
      ⟨List.all_iff_forall_prop.1 (by decide), List.all_iff_forall_prop.1 (by decide)⟩,
    nofun, nofun⟩
  text := by decide
  closed := by
    intro c hc
    obtain rfl : 's' = c := Option.some.inj hc
    decide

end Sample

namespace Session

open Sample

/-- Two files that import each other are two modules. -/
theorem entered_by_normal_url_cycle : ∃ program x m table,
    (instantiate pairEnvironment 9 "main.ts").runFrom (.fresh ()) = some (.ok program, x) ∧
      (∃ v, Url.parse "file:///main.ts" = .ok v ∧ v.text = "file:///main.ts") ∧
      x.state.modules.length = 2 ∧ x.state.static? 1 = some m ∧ m.imports = some table ∧
      table.get? "./main.ts" = some program.root := by
  have hText : (fileAt "main.ts").text = "file:///main.ts" := by decide
  have hUrl : entryUrl "main.ts" pairEnvironment.baseUrl = .ok (fileAt "main.ts") := by
    decide +kernel
  have hEntry : Url.IsUnbroken "main.ts".toList := by simp [Url.IsUnbroken, Url.isBreak]
  obtain ⟨hNormal, hEntered⟩ := entered_by_normal_url pairEnvironment regular_pairEnvironment
    (.inr hEntry) hUrl rfl rfl
  have hRun : Action.endsWith ((instantiate pairEnvironment 9 "main.ts").runFrom (.fresh ()))
      (fun program x => decide (x.state.modules.length = 2 ∧
        ((x.state.static? program.root).bind (·.imports)).map (·.values) = some [1] ∧
        (x.state.static? 1).map (fun m => (m.url, m.dependencies)) =
          some ("file:///a.ts", ["./main.ts"]))) = true := by decide +kernel
  obtain ⟨program, x, hEnd, hChecked⟩ := Action.exists_of_endsWith hRun
  obtain ⟨hLength, hRoot, hOther⟩ := of_decide_eq_true hChecked
  obtain ⟨table, hTable, hValues⟩ := Option.map_eq_some_iff.1 hRoot
  obtain ⟨root, hStatic, hImports⟩ := Option.bind_eq_some_iff.1 hTable
  obtain ⟨m, hm, hFacts⟩ := Option.map_eq_some_iff.1 hOther
  obtain ⟨hUrl, hDependencies⟩ := Prod.mk.inj hFacts
  have hLeads : x.state.Leads program.root 1 :=
    .single ⟨root, table, hStatic, hImports, by simp [hValues]⟩
  have hParse : Url.parse m.url = .ok (fileAt "a.ts") := by
    rw [hUrl]
    decide +kernel
  obtain ⟨table, hTable, hGet⟩ := (hEntered 9 () program x hEnd).back 1 m (fileAt "a.ts") [] _ _ _
    hLeads hm (by simp [hDependencies]) hParse way_to_main
    (isFound_of_extension (by decide +kernel)) (by decide +kernel)
  refine ⟨program, x, m, table, hEnd, ?_, hLength, hm, hTable, hGet⟩
  have hAgain := hNormal.2 fun hAbsolute => absurd hAbsolute (by decide +kernel)
  rwa [hText] at hAgain

/-- An entry with two dots in it is another module than the file that it names, which is loaded and
evaluated a second time. -/
theorem doubled_by_dots : ∃ u program x,
    entryUrl "/sub/../main.ts" pairEnvironment.baseUrl = .ok u ∧ u.text = "file:///sub/../main.ts" ∧
      Url.parse u.text = .ok (fileAt "main.ts") ∧ (fileAt "main.ts").text = "file:///main.ts" ∧
      (instantiate pairEnvironment 9 "/sub/../main.ts").runFrom (.fresh ()) =
        some (.ok program, x) ∧
      x.state.modules.map Module.url =
        ["file:///sub/../main.ts", "file:///a.ts", "file:///main.ts"] ∧
      program.root = 0 ∧
      (((x.state.static? 1).bind (·.imports)).bind fun table => table.get? "./main.ts") = some 2 ∧
      ∃ exports y, (evaluate pairEnvironment 9 program.root).runFrom x = some (.ok exports, y) ∧
        y.evaluatedUrls = ["file:///main.ts", "file:///a.ts", "file:///sub/../main.ts"] := by
  have hRun : Action.endsWith ((instantiate pairEnvironment 9 "/sub/../main.ts").runFrom
      (.fresh ())) (fun program x => decide (x.state.modules.map Module.url =
            ["file:///sub/../main.ts", "file:///a.ts", "file:///main.ts"] ∧ program.root = 0 ∧
          (((x.state.static? 1).bind (·.imports)).bind fun table => table.get? "./main.ts") =
            some 2) &&
        Action.endsWith ((evaluate pairEnvironment 9 program.root).runFrom x) fun _ y =>
          decide (y.evaluatedUrls =
            ["file:///main.ts", "file:///a.ts", "file:///sub/../main.ts"])) = true := by
    decide +kernel
  have hUrl : entryUrl "/sub/../main.ts" pairEnvironment.baseUrl =
      .ok { fileAt "main.ts" with path := .segments ["sub", "..", "main.ts"] } := by
    decide +kernel
  obtain ⟨program, x, hEnd, hChecked⟩ := Action.exists_of_endsWith hRun
  obtain ⟨hModules, hEvaluated⟩ := Bool.and_eq_true_iff.1 hChecked
  obtain ⟨hUrls, hRoot, hImport⟩ := of_decide_eq_true hModules
  obtain ⟨exports, y, hEvaluate, hOrder⟩ := Action.exists_of_endsWith hEvaluated
  exact ⟨_, program, x, hUrl, by decide, by decide +kernel, by decide, hEnd, hUrls, hRoot, hImport,
    exports, y, hEvaluate, of_decide_eq_true hOrder⟩

end Session

end ModuleLoader
