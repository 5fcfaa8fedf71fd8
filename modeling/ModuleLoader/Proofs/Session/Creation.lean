import ModuleLoader.Creation
import ModuleLoader.Proofs.Session.Invariant

/-! How modules come into a session.  Resolving a specifier and making a module leave all modules as
they were, and a module that is found is the one that the cache binds to its URL. -/

namespace ModuleLoader

variable {σ : Type} {x y z : Instant σ}

/-- The module declares no specifier twice. -/
def Module.DeclaresOnce (m : Module) : Prop := ∀ specifiers ∈ m.dependencies?, specifiers.Nodup

/-- Neither the engine nor the scanner of the environment names a specifier of a module twice. -/
structure Environment.NamesOnce (env : Environment σ) : Prop where
  engine : ∀ engine ∈ env.engine, ∀ source path options world,
    ∀ specifiers ∈ (engine source path options world).1.dependencies, specifiers.Nodup
  scanner : ∀ code, (env.dependencies code).Nodup

/-- The module can be what the environment makes for a URL, with the mark of an entry or without. -/
structure Environment.Makes (env : Environment σ) (url : String) (main : Bool) (m : Module) :
    Prop where
  kind : (∃ code dependencies, m = .static (.create url code dependencies main)) ∨
    ∃ exports, m = .synthetic (.ofNamespace url exports)
  once : env.NamesOnce → m.DeclaresOnce

theorem Environment.Makes.isNew {env : Environment σ} {url : String} {main : Bool} {m : Module}
    (h : env.Makes url main m) : m.IsNew url :=
  h.kind.imp_left fun ⟨code, dependencies, hm⟩ => ⟨code, dependencies, main, hm⟩

/-- A static module has the mark with which it was asked for. -/
theorem Environment.Makes.eq_create {env : Environment σ} {url : String} {main : Bool}
    {m : StaticModule} (h : env.Makes url main (.static m)) :
    ∃ code dependencies, m = .create url code dependencies main := by
  rcases h.kind with ⟨code, dependencies, hm⟩ | ⟨exports, hm⟩
  · cases hm
    exact ⟨code, dependencies, rfl⟩
  · cases hm

/-- The moments differ in the world and in the answers of the environment at most. -/
structure Moment.Still (x y : Instant σ) : Prop where
  modules : y.state.modules = x.state.modules
  cache : y.state.cache = x.state.cache
  evaluations : y.evaluations = x.evaluations

/-- From the first moment to the second one no module has been evaluated, and at most the modules
for which `may` holds have changed. -/
structure Moment.Frame (may : ModuleId → Prop) (x y : Instant σ) : Prop where
  same : ∀ id m, ¬may id → x.state.module? id = some m → y.state.module? id = some m
  evaluations : y.evaluations = x.evaluations

/-- The second moment is a lawful one that comes after the first one. -/
structure Moment.Extends (may : ModuleId → Prop) (x y : Instant σ) : Prop
    extends Moment.Frame may x y where
  lawful : y.Lawful
  later : x.Later y

theorem Moment.Still.frame (h : x.Still y) (may : ModuleId → Prop) : x.Frame may y :=
  ⟨fun id m _ hm => by simpa [Session.module?, h.modules] using hm, h.evaluations⟩

theorem Moment.Frame.trans {may : ModuleId → Prop} (h : x.Frame may y) (h' : y.Frame may z) :
    x.Frame may z :=
  ⟨fun id m hMay hm => h'.same id m hMay (h.same id m hMay hm),
    h'.evaluations.trans h.evaluations⟩

namespace Moment.Extends

variable {may may' : ModuleId → Prop}

theorem refl (hx : x.Lawful) : x.Extends may x :=
  ⟨⟨fun _ _ _ h => h, rfl⟩, hx, .refl x⟩

theorem trans (h : x.Extends may y) (h' : y.Extends may z) : x.Extends may z :=
  ⟨h.toFrame.trans h'.toFrame, h'.lawful, h.later.trans h'.later⟩

theorem mono (h : x.Extends may y) (hMay : ∀ id, may id → may' id) : x.Extends may' y :=
  ⟨⟨fun id m hNot => h.same id m fun hid => hNot (hMay id hid), h.evaluations⟩, h.lawful, h.later⟩

theorem static? (h : x.Extends may y) {id : ModuleId} {m : StaticModule} (hMay : ¬may id)
    (hm : x.state.static? id = some m) : y.state.static? id = some m := by
  rw [Session.static?_eq_some_iff] at hm ⊢
  exact h.same id _ hMay hm

end Moment.Extends

variable {α : Type} {stuck : Instant σ → Prop} {failed : LoadError → Instant σ → Prop}
  {done : α → Instant σ → Prop} {action : Load σ α}

theorem Action.Meets.lawful (h : action.Meets Change stuck failed done x) (hx : x.Lawful) :
    action.Meets Change (fun y => stuck y ∧ y.Lawful ∧ x.Later y)
      (fun e y => failed e y ∧ y.Lawful ∧ x.Later y) (fun a y => done a y ∧ y.Lawful ∧ x.Later y)
      x :=
  h.invariant (fun y => y.Lawful ∧ x.Later y) ⟨hx, .refl x⟩
    fun _ _ hStep hy => ⟨hStep.lawful hy.1, hy.2.trans (hStep.later hy.1)⟩

theorem Action.Meets.extends {may : ModuleId → Prop}
    (h : action.Meets Change stuck (fun e y => x.Frame may y ∧ failed e y)
      (fun a y => x.Frame may y ∧ done a y) x) (hx : x.Lawful) :
    action.Meets Change stuck (fun e y => x.Extends may y ∧ failed e y)
      (fun a y => x.Extends may y ∧ done a y) x := by
  refine (h.lawful hx).mono (fun _ _ h => h) (fun _ hy => hy.1) ?_ ?_
  · rintro e y ⟨⟨hFrame, hFailed⟩, hLawful, hLater⟩
    exact ⟨⟨hFrame, hLawful, hLater⟩, hFailed⟩
  · rintro a y ⟨⟨hFrame, hDone⟩, hLawful, hLater⟩
    exact ⟨⟨hFrame, hLawful, hLater⟩, hDone⟩

theorem Moment.Still.answer (h : x.Still y) {event : Event} (hEvent : event.evaluation? = none) :
    x.Still (y.hear event) := by
  refine ⟨h.modules, h.cache, ?_⟩
  rw [← h.evaluations]
  simp [Moment.evaluations, hEvent]

/-- What an action comes to is among the events once it is reported. -/
theorem meets_reporting (event : Except LoadError α → Event)
    (hEvent : ∀ outcome, (event outcome).evaluation? = none)
    (h : action.Meets Change stuck (fun _ y => x.Still y) (fun _ y => x.Still y) x) :
    (action.reporting event).Meets Change stuck
      (fun e y => x.Still y ∧ event (.error e) ∈ y.events)
      (fun a y => x.Still y ∧ event (.ok a) ∈ y.events) x := by
  rw [Action.meets_reporting]
  exact h.ends (fun e y hy => ⟨.answer (hEvent _), hy.answer (hEvent _), by simp⟩)
    fun a y hy => ⟨.answer (hEvent _), hy.answer (hEvent _), by simp⟩

namespace Session

theorem meets_ofWorld {action : StateM σ (Except LoadError α)} :
    (Load.ofWorld action).Meets Change stuck (fun _ y => x.Still y) (fun _ y => x.Still y) x := by
  simp only [Load.ofWorld, Action.meets_bind, Action.meets_modifyGet, Action.meets_ofExcept]
  exact ⟨.outside rfl fun _ => rfl, fun _ _ => ⟨rfl, rfl, rfl⟩, fun _ _ => ⟨rfl, rfl, rfl⟩⟩

theorem meets_resolve (env : Environment σ) (specifier : String) (parent : Option String)
    (packages : Option (PackageResolver σ)) :
    (resolve env specifier parent packages).Meets Change stuck
      (fun e y => x.Still y ∧ .resolved specifier parent (.error e) ∈ y.events)
      (fun r y => x.Still y ∧ .resolved specifier parent (.ok r) ∈ y.events) x := by
  unfold resolve
  refine meets_reporting (.resolved specifier parent) (fun _ => rfl) ?_
  cases parent with
  | none =>
    simp only [Action.meets_bind, Action.meets_pure]
    exact meets_ofWorld
  | some text =>
    cases hParse : Url.parse text with
    | error reason =>
      simp only [hParse, Action.meets_bind, Action.meets_throw]
      exact ⟨rfl, rfl, rfl⟩
    | ok u =>
      simp only [hParse, Action.meets_bind, Action.meets_pure]
      exact meets_ofWorld

/-- The URL that specifiers in a module start from. -/
def startUrl? (env : Environment σ) (parent : Option String) : Option Url :=
  parent.elim (some env.baseUrl) fun text => (Url.parse text).toOption

/-- In some world the specifier means the module, in the module at `parent`. -/
def Resolves (env : Environment σ) (specifier : String) (parent : Option String)
    (packages : Option (PackageResolver σ)) (r : ResolvedModule) : Prop :=
  ∃ p world, startUrl? env parent = some p ∧
    (Resolution.resolve env.builtins (packages <|> env.packages) (env.files world) specifier p
      world).1 = .ok r

/-- Where resolution leaves the world alone, it is only reported. -/
theorem runFrom_resolve {env : Environment σ} {specifier : String} {parent : Option String}
    {packages : Option (PackageResolver σ)} {p : Url} {r : ResolvedModule}
    (hParent : startUrl? env parent = some p)
    (hResolve : Resolution.resolve env.builtins (packages <|> env.packages)
      (env.files x.state.world) specifier p = pure (.ok r)) :
    (resolve env specifier parent packages).runFrom x =
      some (.ok r, x.hear (.resolved specifier parent (.ok r))) := by
  have hMeets : (resolve env specifier parent packages).Meets (fun _ _ => True) (fun _ => False)
      (fun _ _ => False) (fun found y => found = r ∧
        y = x.hear (.resolved specifier parent (.ok r))) x := by
    unfold resolve
    rw [Action.meets_reporting]
    cases parent with
    | none =>
      cases hParent
      simp only [Action.meets_bind, Action.meets_pure, Load.ofWorld, Action.meets_modifyGet,
        Action.meets_ofExcept, hResolve]
      exact ⟨trivial, fun found hFound => by cases hFound; exact ⟨trivial, rfl, rfl⟩,
        fun e hError => by cases hError⟩
    | some text =>
      have hParse : Url.parse text = .ok p := by
        cases hUrl : Url.parse text <;> simp_all [startUrl?, Except.toOption]
      simp only [hParse, Action.meets_bind, Action.meets_pure, Load.ofWorld,
        Action.meets_modifyGet, Action.meets_ofExcept, hResolve]
      exact ⟨trivial, fun found hFound => by cases hFound; exact ⟨trivial, rfl, rfl⟩,
        fun e hError => by cases hError⟩
  exact hMeets.runFrom_eq_ok

theorem eq_of_accept {url : String} {options : Tsconfig.CompilerOptions}
    {output : TranspileOutput} {unit : TranspiledModule}
    (h : Transpile.accept url options output = .ok unit) :
    unit = ⟨url, output.code, output.diagnostics, output.dependencies⟩ := by
  unfold Transpile.accept at h
  split at h
  · cases h
  · exact (Except.ok.inj h).symm

/-- A transpiled module carries the URL it was asked for, and what the engine has put out. -/
theorem eq_of_transpile {engine : Engine σ} {fs : File.FileSystem} {url : String}
    {config : Tsconfig.SessionConfig × σ} {unit : TranspiledModule}
    (h : (Transpile.transpile engine fs url config).1 = .ok unit) :
    ∃ source path options world output, (engine source path options world).1 = output ∧
      unit = ⟨url, output.code, output.diagnostics, output.dependencies⟩ := by
  obtain ⟨config, world⟩ := config
  simp only [Transpile.transpile] at h
  split at h
  · cases h
  split at h
  · cases h
  · exact ⟨_, _, _, _, _, rfl, eq_of_accept h⟩

theorem meets_transpile (env : Environment σ) (url : String) :
    (transpile env url).Meets Change stuck (fun _ y => x.Still y) (fun _ y => x.Still y) x := by
  unfold transpile
  split
  · exact ⟨rfl, rfl, rfl⟩
  · simp only [Action.meets_bind, Action.meets_modifyGet, Action.meets_ofExcept]
    exact ⟨.outside rfl fun _ => rfl, fun _ _ => ⟨rfl, rfl, rfl⟩, fun _ _ => ⟨rfl, rfl, rfl⟩⟩

theorem gives_transpile (env : Environment σ) (url : String) :
    (transpile env url).Gives fun unit => unit.url = url ∧
      (env.NamesOnce → ∀ specifiers ∈ unit.dependencies, specifiers.Nodup) := by
  unfold transpile
  cases hEngine : env.engine with
  | none => exact Action.gives_throw
  | some engine =>
    simp only [Action.gives_bind, Action.gives_modifyGet, Action.gives_ofExcept]
    intro s unit hUnit
    have hOk : (Transpile.transpile engine (env.files s.world) url (s.config, s.world)).1 =
        .ok unit := hUnit
    obtain ⟨source, path, options, world, _, rfl, rfl⟩ := eq_of_transpile hOk
    exact ⟨rfl, fun hOnce => hOnce.engine engine hEngine source path options world⟩

theorem gives_createModule (env : Environment σ) (r : ResolvedModule) (main : Bool) :
    (createModule env r main).Gives (env.Makes r.url main) := by
  refine Action.Gives.reporting _ ?_
  split
  · rw [Action.gives_bind]
    refine (gives_transpile env r.url).imp fun unit ⟨hUrl, hOnce⟩ => ?_
    refine Action.gives_pure.2 ⟨.inl ⟨_, _, by rw [hUrl]⟩, fun hNames specifiers hSpecifiers => ?_⟩
    cases Option.some.inj hSpecifiers
    cases hDependencies : unit.dependencies with
    | none => exact hNames.scanner unit.code
    | some found => exact hOnce hNames found hDependencies
  · rw [Action.gives_bind]
    refine Action.Gives.of_forall fun exports => Action.gives_pure.2 ⟨.inr ⟨exports, rfl⟩, ?_⟩
    exact fun _ _ hSpecifiers => by cases hSpecifiers

theorem meets_createModule (env : Environment σ) (r : ResolvedModule) (main : Bool) :
    (createModule env r main).Meets Change stuck
      (fun e y => x.Still y ∧ .created r (.error e) ∈ y.events)
      (fun m y => (x.Still y ∧ .created r (.ok m) ∈ y.events) ∧ env.Makes r.url main m) x := by
  refine Action.Meets.gives (meets_reporting (.created r) (fun _ => rfl) ?_)
    (gives_createModule env r main)
  split
  · simp only [Action.meets_bind, Action.meets_pure]
    exact meets_transpile env r.url
  · simp only [Action.meets_bind, Action.meets_pure]
    exact meets_ofWorld

theorem meets_cachedModule (env : Environment σ) (r : ResolvedModule) (main : Bool)
    (may : ModuleId → Prop) (hx : x.Lawful) :
    (cachedModule env r main).Meets Change stuck
      (fun e y => x.Extends may y ∧ .created r (.error e) ∈ y.events)
      (fun id y => x.Extends may y ∧ y.state.cache.get? r.url = some id) x := by
  refine Action.Meets.extends ?_ hx
  simp only [cachedModule, Action.meets_bind, Action.meets_modifyGet, Action.meets_get,
    Moment.state_move]
  refine ⟨.outside rfl fun url => by simp, Change.refl _, ?_⟩
  have hSlot := ModuleCache.isSlot_slot x.state.cache r.url
  rw [ModuleCache.record?_of_isSlot hSlot, ModuleCache.get?_slot]
  cases hGet : x.state.cache.get? r.url with
  | some id => exact ⟨⟨fun _ _ _ hm => hm, rfl⟩, by simpa using hGet⟩
  | none =>
    simp only [Action.meets_bind]
    refine (meets_createModule env r main).ends ?_ ?_
    · rintro e y ⟨hStill, hCreated⟩
      exact ⟨⟨(hStill.frame may).same, hStill.evaluations⟩, hCreated⟩
    · rintro m y ⟨⟨hStill, hCreated⟩, hMade⟩
      have hUnbound : y.state.cache.get? r.url = none := by simpa [hStill.cache] using hGet
      have hPlace : y.state.cache.IsSlot r.url (x.state.cache.slot r.url).1 := by
        rw [hStill.cache]
        exact hSlot
      rw [keepModule, Action.meets_modifyGet]
      refine ⟨.create hPlace hUnbound hCreated hMade.isNew,
        ⟨fun id n _ hn => ?_, hStill.evaluations⟩, ?_⟩
      · exact Session.module?_withModule_of_some _ _ ((hStill.frame may).same id n ‹_› hn)
      · simp [get?_withModule hPlace hUnbound]

/-- A module in the cache is found there, and nothing else happens. -/
theorem cachedModule_of_get? {r : ResolvedModule} {id : ModuleId} (env : Environment σ) (main : Bool)
    (hGet : x.state.cache.get? r.url = some id) :
    (cachedModule env r main).runFrom x = some (.ok id, x) := by
  have hMeets : (cachedModule env r main).Meets (fun _ _ => True)
      (fun _ => False) (fun _ _ => False) (fun found y => found = id ∧ y = x) x := by
    have hSlot := ModuleCache.isSlot_slot x.state.cache r.url
    have hSame := ModuleCache.slot_of_get? hGet
    rw [hSame] at hSlot
    simp only [cachedModule, Action.meets_bind, Action.meets_modifyGet, Action.meets_get,
      Moment.state_move, hSame, ModuleCache.record?_of_isSlot hSlot, hGet, Action.meets_pure]
    exact ⟨trivial, trivial, trivial, rfl⟩
  exact hMeets.runFrom_eq_ok

theorem meets_moduleFor (env : Environment σ) (specifier referrer : String)
    (may : ModuleId → Prop) (hx : x.Lawful) :
    (moduleFor env specifier referrer).Meets Change stuck
      (fun _ y => x.Extends may y ∧ y.Fails specifier referrer)
      (fun id y => x.Extends may y ∧ y.Means specifier referrer id) x := by
  rw [moduleFor, Action.meets_bind]
  have hResolve : (resolve env specifier (some referrer)).Meets Change stuck
      (fun e y => x.Extends may y ∧ .resolved specifier (some referrer) (.error e) ∈ y.events)
      (fun r y => x.Extends may y ∧ .resolved specifier (some referrer) (.ok r) ∈ y.events) x := by
    refine Action.Meets.extends ((meets_resolve env specifier _ none).ends ?_ ?_) hx
    · exact fun _ _ hy => ⟨hy.1.frame may, hy.2⟩
    · exact fun _ _ hy => ⟨hy.1.frame may, hy.2⟩
  refine hResolve.ends ?_ ?_
  · rintro e y ⟨hy, hResolved⟩
    exact ⟨hy, .inl ⟨e, hResolved⟩⟩
  · rintro r y ⟨hy, hResolved⟩
    refine (meets_cachedModule env r false may hy.lawful).ends ?_ ?_
    · rintro e z ⟨hz, hCreated⟩
      exact ⟨hy.trans hz, .inr ⟨r, e, hz.later.events.subset hResolved, hCreated⟩⟩
    · rintro id z ⟨hz, hGet⟩
      exact ⟨hy.trans hz, r, hz.later.events.subset hResolved, hGet⟩

end Session

end ModuleLoader
