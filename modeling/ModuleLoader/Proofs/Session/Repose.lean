import ModuleLoader.Proofs.Session.Requests

/-! Steps that bring no module to a property.  Making modules and binding imports link no module, and
no link starts an evaluation.  An evaluation ends what it has started, so that no module is running
between requests.  What holds of no module that an import makes, and of none that is linked or run
unless it held before, holds only of modules that were there. -/

namespace ModuleLoader

variable {σ : Type} {x y z : Instant σ} {P : StaticModule → Prop} {id : ModuleId}

def StaticModule.IsEvaluating (m : StaticModule) : Prop := m.status = .evaluating

/-- A record does not come to satisfy `P` when it is made for an import or while its imports are
bound. -/
structure StaticModule.Beyond (P : StaticModule → Prop) : Prop where
  create : ∀ url code dependencies, ¬P (.create url code dependencies false)
  beginLinking : ∀ m, P m.beginLinking → P m
  bindImports : ∀ m table, P (m.bindImports table) → P m
  failLinking : ∀ m e, P (m.failLinking e) → P m

theorem StaticModule.beyond_linked : Beyond (·.linking = .linked) where
  create _ _ _ hLinked := by cases hLinked
  beginLinking m hLinked := by
    unfold beginLinking at hLinked
    split at hLinked
    · cases hLinked
    · exact hLinked
  bindImports _ _ hLinked := hLinked
  failLinking _ _ hLinked := by cases hLinked

theorem StaticModule.beyond_evaluating : Beyond IsEvaluating where
  create _ _ _ hRunning := by cases hRunning
  beginLinking m hRunning := by
    unfold beginLinking at hRunning
    split at hRunning
    · cases hRunning
    · exact hRunning
  bindImports _ _ hRunning := hRunning
  failLinking _ _ hRunning := by cases hRunning

theorem StaticModule.isEvaluating_of_finishLinking {m : StaticModule}
    (h : m.finishLinking.IsEvaluating) : m.IsEvaluating := by
  unfold finishLinking IsEvaluating at h
  split at h
  · simp only at h
    split at h
    · cases h
    · exact h
  · exact h

/-- From the first moment to the second one no static module has come to satisfy `P`. -/
def Moment.Bars (P : StaticModule → Prop) (x y : Instant σ) : Prop :=
  ∀ id n, y.state.static? id = some n → P n → ∃ m, x.state.static? id = some m ∧ P m

namespace Moment.Bars

theorem refl (x : Instant σ) : x.Bars P x := fun _ n hn hP => ⟨n, hn, hP⟩

theorem trans (h : x.Bars P y) (h' : y.Bars P z) : x.Bars P z := by
  intro id n hn hP
  obtain ⟨m, hm, hP⟩ := h' id n hn hP
  exact h id m hm hP

theorem of_modules (h : y.state.modules = x.state.modules) : x.Bars P y := by
  intro id n hn hP
  exact ⟨n, by simpa [Session.static?, Session.module?, h] using hn, hP⟩

theorem updateStatic (x : Instant σ) (id : ModuleId) {f : StaticModule → StaticModule}
    (hf : ∀ m, P (f m) → P m) : x.Bars P (x.move (x.state.updateStatic id f)) := by
  intro j n hn hP
  rw [Moment.state_move, Session.static?_updateStatic] at hn
  split at hn
  · obtain ⟨m, hm, rfl⟩ := Option.map_eq_some_iff.1 hn
    exact ⟨m, hm, hf m hP⟩
  · exact ⟨n, hn, hP⟩

theorem finishLinking (x : Instant σ) (visited : List ModuleId)
    (hf : ∀ m : StaticModule, P m.finishLinking → P m) :
    x.Bars P (x.move (x.state.finishLinking visited)) := by
  intro j n hn hP
  rw [Moment.state_move, Session.static?_finishLinking] at hn
  split at hn
  · obtain ⟨m, hm, rfl⟩ := Option.map_eq_some_iff.1 hn
    exact ⟨m, hm, hf m hP⟩
  · exact ⟨n, hn, hP⟩

theorem withModule (x : Instant σ) (slot : SlotId) {m : Module} (h : ∀ n, m = .static n → ¬P n) :
    x.Bars P (x.move (x.state.withModule slot m)) := by
  intro j n hn hn'
  rw [Session.static?_eq_some_iff, Moment.state_move, Session.module?_withModule] at hn
  split at hn
  · exact absurd hn' (h n (Option.some.inj hn))
  · exact ⟨n, Session.static?_eq_some_iff.2 hn, hn'⟩

theorem withSynthetic {m k : SyntheticModule} (hm : x.state.module? id = some (.synthetic m)) :
    x.Bars P (x.move (x.state.withSynthetic id k)) := by
  intro j n hn hP
  rw [Moment.state_move, Session.static?_withSynthetic hm] at hn
  exact ⟨n, hn, hP⟩

/-- What a module comes to at first does not count if it is undone in the end. -/
theorem around {f g : StaticModule → StaticModule}
    (h : (x.move (x.state.updateStatic id f)).Bars P y) (hg : ∀ m, ¬P (g m)) :
    x.Bars P (y.move (y.state.updateStatic id g)) := by
  intro j n hn hP
  rw [Moment.state_move] at hn
  by_cases hj : j = id
  · subst hj
    rw [Session.static?_updateStatic, if_pos rfl] at hn
    obtain ⟨m, -, rfl⟩ := Option.map_eq_some_iff.1 hn
    exact absurd hP (hg m)
  · rw [Session.static?_updateStatic_of_ne hj] at hn
    obtain ⟨m, hm, hP⟩ := h j n hn hP
    rw [Moment.state_move, Session.static?_updateStatic_of_ne hj] at hm
    exact ⟨m, hm, hP⟩

end Moment.Bars

namespace Session

variable {α β : Type}

/-- The action brings no static module to `P`. -/
abbrev Barring (P : StaticModule → Prop) (action : Load σ α) (x : Instant σ) : Prop :=
  action.Meets (fun _ _ => True) (fun _ => True) (fun _ y => x.Bars P y) (fun _ y => x.Bars P y) x

theorem barring_bind {action : Load σ α} {f : α → Load σ β} (h : Barring P action x)
    (hf : ∀ a y, Barring P (f a) y) : Barring P (action >>= f) x := by
  rw [Barring, Action.meets_bind]
  exact h.ends (fun _ _ hy => hy) fun a y hy =>
    (hf a y).ends (fun _ _ hz => hy.trans hz) fun _ _ hz => hy.trans hz

theorem barring_pure (a : α) : Barring P (pure a : Load σ α) x := .refl x

theorem barring_throw (e : LoadError) : Barring P (throw e : Load σ α) x := .refl x

theorem barring_get : Barring P (get : Load σ (Session σ)) x := ⟨trivial, .refl x⟩

theorem barring_modify {f : Session σ → Session σ} (h : x.Bars P (x.move (f x.state))) :
    Barring P (modify f : Load σ PUnit) x := ⟨trivial, h⟩

theorem barring_modifyGet {f : Session σ → α × Session σ}
    (h : x.Bars P (x.move (f x.state).2)) : Barring P (modifyGet f : Load σ α) x := ⟨trivial, h⟩

theorem barring_tell (event : Event) : Barring P (Action.tell event : Load σ Unit) x :=
  ⟨trivial, .of_modules rfl⟩

theorem barring_ofExcept (outcome : Except LoadError α) :
    Barring P (.ofExcept outcome : Load σ α) x := by
  cases outcome <;> exact Moment.Bars.refl x

theorem barring_attempt {action : Load σ α} (h : Barring P action x) :
    Barring P action.attempt x := by
  rw [Barring, Action.meets_attempt]
  exact h

theorem barring_of_still {action : Load σ α}
    (h : action.Meets Change (fun _ => True) (fun _ y => x.Still y) (fun _ y => x.Still y) x) :
    Barring P action x :=
  h.mono (fun _ _ _ => trivial) (fun _ hy => hy) (fun _ _ hy => .of_modules hy.modules) fun _ _ hy =>
    .of_modules hy.modules

theorem barring_newObject : Barring P (newObject : Load σ ObjectId) x :=
  barring_modifyGet (.of_modules rfl)

theorem barring_resolve (env : Environment σ) (specifier : String) (parent : Option String)
    (packages : Option (PackageResolver σ)) :
    Barring P (resolve env specifier parent packages) x :=
  barring_of_still ((meets_resolve env specifier parent packages).ends (fun _ _ hy => hy.1)
    fun _ _ hy => hy.1)

theorem barring_cachedModule (env : Environment σ) (r : ResolvedModule) (main : Bool)
    (hMade : ∀ code dependencies, ¬P (.create r.url code dependencies main)) :
    Barring P (cachedModule env r main) x := by
  refine barring_bind (barring_modifyGet (.of_modules rfl)) fun slot y => ?_
  refine barring_bind barring_get fun s z => ?_
  cases s.cache.record? slot with
  | some id => exact barring_pure id
  | none =>
    rw [Barring, Action.meets_bind]
    refine (meets_createModule env r main).mono (fun _ _ _ => trivial) (fun _ hw => hw)
      (fun e w hw => .of_modules hw.1.modules) ?_
    rintro m w ⟨⟨hStill, -⟩, hMakes⟩
    refine ⟨trivial, (Moment.Bars.of_modules hStill.modules).trans (.withModule w slot ?_)⟩
    rintro n rfl
    obtain ⟨code, dependencies, rfl⟩ := hMakes.eq_create
    exact hMade code dependencies

section Linking

variable (hP : StaticModule.Beyond P)

include hP

theorem barring_moduleFor (env : Environment σ) (specifier referrer : String) :
    Barring P (moduleFor env specifier referrer) x :=
  barring_bind (barring_resolve env specifier _ none) fun r _ =>
    barring_cachedModule env r false (hP.create r.url)

theorem bars_of_roundMove {env : Environment σ} (hStep : RoundMove env x y) : x.Bars P y := by
  obtain ⟨start, ids, l, hStep⟩ := hStep
  cases hStep with
  | outside hModules => exact .of_modules hModules
  | slot | close | resolved | created | asked => exact .of_modules rfl
  | @create _ r slot m hSlot hNone hCreated hMade =>
    refine .withModule x slot fun n hn => ?_
    subst hn
    obtain ⟨code, dependencies, rfl⟩ := hMade.eq_create
    exact hP.create r.url code dependencies
  | @update _ _ id m f hMine hm hEdit =>
    cases hEdit with
    | begin => exact .updateStatic x id hP.beginLinking
    | @bind table => exact .updateStatic x id fun n => hP.bindImports n table
    | @fail e => exact .updateStatic x id fun n => hP.failLinking n e

theorem barring_linkRounds (env : Environment σ) (fuel : Nat) {f : Frontier}
    (hf : f.Ready x.state) : Barring P (linkRounds env fuel f) x :=
  invariant_linkRounds fuel hf (x.Bars P) (.refl x) fun _ _ hStep hy =>
    hy.trans (bars_of_roundMove hP hStep)

theorem barring_link (env : Environment σ) (fuel : Nat) (root : ModuleId)
    (hFinish : ∀ m : StaticModule, P m.finishLinking → P m) :
    Barring P (link env fuel root) x :=
  invariant_link fuel root (x.Bars P) (.refl x)
    (fun _ _ hStep hy => hy.trans (bars_of_roundMove hP hStep))
    (fun y id e hy => hy.trans (.updateStatic y id fun m => hP.failLinking m e))
    fun y visited hy => hy.trans (.finishLinking y visited hFinish)

theorem barring_instantiate (env : Environment σ) (fuel : Nat) {entry : String}
    (hFinish : ∀ m : StaticModule, P m.finishLinking → P m)
    (hMade : ∀ u, entryUrl entry env.baseUrl = .ok u →
      ∀ code dependencies, ¬P (.create u.text code dependencies true)) :
    Barring P (instantiate env fuel entry) x := by
  unfold instantiate
  cases hUrl : entryUrl entry env.baseUrl with
  | error e => exact barring_throw e
  | ok u =>
    rw [Barring, Action.meets_bind, Action.meets_ofExcept_ok]
    refine barring_bind (barring_cachedModule env _ true (hMade u hUrl)) fun root z => ?_
    refine barring_bind barring_get fun s w => ?_
    cases s.static? root with
    | none => exact barring_throw _
    | some m =>
      exact barring_bind (barring_link hP env fuel root hFinish) fun _ _ => barring_pure _

end Linking

/-- Nothing that a session does with a record brings it to satisfy `P`. -/
structure Immune (σ : Type) (P : StaticModule → Prop) : Prop extends StaticModule.Beyond P where
  finishLinking : ∀ m : StaticModule, P m.finishLinking → P m
  runOnce : ∀ (env : Environment σ) (run : ModuleId → Load σ Namespace)
    (load : String → Load σ Namespace) (id : ModuleId) (m : StaticModule) (x : Instant σ),
    (∀ id y, Barring P (run id) y) → (∀ specifier y, Barring P (load specifier) y) →
      Barring P (runOnce env run load id m) x

theorem barring_runScript {load : String → Load σ Namespace}
    (hLoad : ∀ specifier y, Barring P (load specifier) y) (script : Script σ) :
    Barring P (runScript load script) x := by
  induction script generalizing x with
  | finish outcome => exact barring_ofExcept outcome
  | update change next ih => exact barring_bind (barring_modify (.of_modules rfl)) fun _ _ => ih
  | inspect next ih => exact barring_bind barring_get fun s _ => ih s.world
  | allocate next ih => exact barring_bind barring_newObject fun id _ => ih id
  | importModule specifier next ih =>
    exact barring_bind (barring_attempt (hLoad specifier x)) fun outcome _ => ih outcome

theorem barring_importedNamespaces {run : ModuleId → Load σ Namespace}
    (hRun : ∀ id y, Barring P (run id) y) (entries : List (String × ModuleId)) :
    Barring P (importedNamespaces run entries) x := by
  induction entries generalizing x with
  | nil => exact barring_pure []
  | cons entry rest ih =>
    exact barring_bind (hRun entry.2 x) fun _ _ => barring_bind ih fun _ _ => barring_pure _

theorem barring_runModule (env : Environment σ) {run : ModuleId → Load σ Namespace}
    {load : String → Load σ Namespace} (hRun : ∀ id y, Barring P (run id) y)
    (hLoad : ∀ specifier y, Barring P (load specifier) y) (m : StaticModule) :
    Barring P (runModule env run load m) x := by
  refine barring_bind (barring_importedNamespaces hRun _) fun imports y => ?_
  exact barring_bind (barring_tell _) fun _ z => barring_runScript hLoad _

theorem barring_evaluateSynthetic {m : SyntheticModule}
    (hm : x.state.module? id = some (.synthetic m)) : Barring P (evaluateSynthetic id m) x := by
  simp only [Barring, evaluateSynthetic, newObject, Action.meets_bind, Action.meets_modify,
    Action.meets_modifyGet]
  have hSet : x.Bars P
      ((x.move { x.state with nextObject := x.state.nextObject + 1 }).move
        (x.state.withSynthetic id (m.evaluate x.state.nextObject).2)) :=
    .trans (.of_modules rfl) (.withSynthetic hm)
  refine ⟨trivial, trivial, ?_⟩
  cases (m.evaluate x.state.nextObject).1 <;> exact hSet

theorem barring_namespaceOrEmpty (exports : Option Namespace) :
    Barring P (namespaceOrEmpty exports : Load σ Namespace) x := by
  cases exports with
  | some known => exact barring_pure known
  | none => exact barring_bind barring_newObject fun _ _ => barring_pure _

section Requests

variable (hP : Immune σ P)

include hP

theorem barring_importBy (env : Environment σ) (fuel : Nat) {run : ModuleId → Load σ Namespace}
    (hRun : ∀ id y, Barring P (run id) y) (specifier referrer : String) :
    Barring P (importBy env fuel run specifier referrer) x :=
  barring_bind (barring_moduleFor hP.toBeyond env specifier referrer) fun id _ =>
    barring_bind (barring_link hP.toBeyond env fuel id hP.finishLinking) fun _ z => hRun id z

theorem barring_evaluate (env : Environment σ) (fuel : Nat) (id : ModuleId) :
    Barring P (evaluate env fuel id) x := by
  induction fuel generalizing x id with
  | zero => trivial
  | succ fuel ih =>
    simp only [Barring, evaluate, Action.meets_bind, Action.meets_get]
    refine ⟨trivial, ?_⟩
    rcases hModule : x.state.module? id with _ | (m | m)
    · exact Moment.Bars.refl x
    · refine barring_bind (barring_ofExcept m.evaluationStep) fun step y => ?_
      cases step with
      | reuse exports => exact barring_namespaceOrEmpty exports
      | run =>
        exact hP.runOnce env _ _ id m y (fun j z => ih j) fun specifier z =>
          barring_importBy hP env fuel (fun j w => ih j) specifier m.url
    · exact barring_evaluateSynthetic hModule

/-- A request brings no module to `P`, unless it is to load a program and makes its root so. -/
theorem barring_answer (env : Environment σ) (fuel : Nat) (request : Request σ)
    (hMade : ∀ entry u, request = .instantiate entry → entryUrl entry env.baseUrl = .ok u →
      ∀ code dependencies, ¬P (.create u.text code dependencies true)) :
    Barring P (answer env fuel request) x := by
  have hDrop : ∀ {α : Type} {action : Load σ α}, Barring P action x →
      Barring P (do let _ ← action) x :=
    fun h => barring_bind h fun _ _ => barring_pure PUnit.unit
  cases request with
  | resolve specifier parent packages => exact hDrop (barring_resolve env specifier parent packages)
  | transpile url => exact hDrop (barring_of_still (meets_transpile env url))
  | moduleAt resolved => exact hDrop (barring_cachedModule env resolved false (hP.create _))
  | moduleFor specifier referrer =>
    have hModule := hDrop (barring_moduleFor hP.toBeyond env specifier referrer)
    exact hModule
  | link root => exact barring_link hP.toBeyond env fuel root hP.finishLinking
  | evaluate id => exact hDrop (barring_evaluate hP env fuel id)
  | importExpression specifier referrer =>
    exact hDrop (barring_importBy hP env fuel (fun id _ => barring_evaluate hP env fuel id)
      specifier referrer)
  | instantiate entry =>
    exact hDrop (barring_instantiate hP.toBeyond env fuel hP.finishLinking fun u hUrl =>
      hMade entry u rfl hUrl)
  | execute program => exact hDrop (barring_evaluate hP env fuel program.root)
  | wait change => exact ⟨trivial, .of_modules rfl⟩

end Requests

/-! ## No module is left running -/

/-- Whatever the action starts to run is over when it ends. -/
abbrev Resting (action : Load σ α) (x : Instant σ) : Prop :=
  Barring StaticModule.IsEvaluating action x

theorem resting_link (env : Environment σ) (fuel : Nat) (root : ModuleId) :
    Resting (link env fuel root) x :=
  barring_link StaticModule.beyond_evaluating env fuel root
    fun _ => StaticModule.isEvaluating_of_finishLinking

theorem resting_moduleFor (env : Environment σ) (specifier referrer : String) :
    Resting (moduleFor env specifier referrer) x :=
  barring_moduleFor StaticModule.beyond_evaluating env specifier referrer

/-- The module that is run is the only one that comes to run, and is over at the end. -/
theorem resting_runOnce (env : Environment σ) {run : ModuleId → Load σ Namespace}
    {load : String → Load σ Namespace} (hRun : ∀ id y, Resting (run id) y)
    (hLoad : ∀ specifier y, Resting (load specifier) y) (id : ModuleId) (m : StaticModule) :
    Resting (runOnce env run load id m) x := by
  simp only [Resting, Barring, runOnce, changeStatic, newObject, Action.meets_bind,
    Action.meets_onFailure, Action.meets_modify, Action.meets_modifyGet, Action.meets_pure]
  refine ⟨trivial, (barring_runModule env hRun hLoad _).ends ?_ ?_⟩
  · intro e y hy
    exact ⟨trivial, hy.around fun _ hRunning => by cases hRunning⟩
  · intro properties y hy
    refine ⟨trivial, trivial, ?_⟩
    exact (hy.trans (.of_modules rfl)).around fun _ hRunning => by cases hRunning

theorem immune_evaluating : Immune σ StaticModule.IsEvaluating where
  toBeyond := StaticModule.beyond_evaluating
  finishLinking _ := StaticModule.isEvaluating_of_finishLinking
  runOnce env _ _ id m _ hRun hLoad := resting_runOnce env hRun hLoad id m

/-- Every request ends what it has started to run. -/
theorem resting_answer (env : Environment σ) (fuel : Nat) (request : Request σ) :
    Resting (answer env fuel request) x :=
  barring_answer immune_evaluating env fuel request fun _ _ _ _ _ _ hRunning => by cases hRunning

theorem resting_serve (env : Environment σ) (requests : List (Nat × Request σ)) :
    Resting (serve env requests) x := by
  induction requests generalizing x with
  | nil => exact Moment.Bars.refl x
  | cons request rest ih =>
    obtain ⟨fuel, request⟩ := request
    exact barring_bind (barring_attempt (resting_answer env fuel request)) fun _ _ => ih

/-- No module is running after requests have been answered. -/
theorem status_of_served {env : Environment σ} {requests : List (Nat × Request σ)} {world : σ}
    {outcome : Except LoadError Unit} {m : StaticModule}
    (h : (serve env requests).runFrom (.fresh world) = some (outcome, y))
    (hm : y.state.static? id = some m) : m.status ≠ .evaluating := by
  have hEnd := (resting_serve env requests (x := .fresh world)).of_runFrom h
  have hBars : (Moment.fresh world).Bars StaticModule.IsEvaluating y := by
    cases outcome with
    | ok _ => exact hEnd.1 _ rfl
    | error e => exact hEnd.2 e rfl
  intro hStatus
  obtain ⟨n, hn, -⟩ := hBars id m hm hStatus
  simp [Moment.fresh, static?, module?] at hn

end Session

end ModuleLoader
