import ModuleLoader.Evaluation
import ModuleLoader.Proofs.Action
import ModuleLoader.Proofs.Session.Store

/-! The changes of a session.  `Change` lists all that one step of an action may do, each with the
circumstances in which it is done.  The theorems after it say what a change means for a module that
is looked up by its identity, for the cache and for the events. -/

namespace ModuleLoader

/-- A moment of a session. -/
abbrev Instant (σ : Type) := Moment (Session σ) Event

def Module.IsNew (url : String) (m : Module) : Prop :=
  (∃ code dependencies main, m = .static (.create url code dependencies main)) ∨
    ∃ exports, m = .synthetic (.ofNamespace url exports)

theorem Module.IsNew.url_eq {url : String} {m : Module} (h : m.IsNew url) : m.url = url := by
  rcases h with ⟨_, _, _, rfl⟩ | ⟨_, rfl⟩ <;> rfl

/-- The module that the event leaves to the host, with what it sees. -/
def Event.evaluation? : Event → Option (StaticModule × EvaluationScope)
  | .evaluated m scope => some (m, scope)
  | .resolved .. | .created .. | .asked _ => none

/-- The first module imports the second one. -/
def Session.Imports {σ : Type} (s : Session σ) (id j : ModuleId) : Prop :=
  ∃ m table, s.static? id = some m ∧ m.imports = some table ∧ j ∈ table.values

/-- What a module imports stands in its table. -/
theorem Session.Imports.mem_values {σ : Type} {s : Session σ} {id j : ModuleId} {m : StaticModule}
    {table : OrderedMap ModuleId} (h : s.Imports id j) (hm : s.static? id = some m)
    (hTable : m.imports = some table) : j ∈ table.values := by
  obtain ⟨n, found, hn, hFound, hj⟩ := h
  rw [hm] at hn
  cases hn
  rw [hTable] at hFound
  cases hFound
  exact hj

/-- The first module leads to the second one along imports. -/
def Session.Leads {σ : Type} (s : Session σ) : ModuleId → ModuleId → Prop :=
  Relation.ReflTransGen s.Imports

namespace Moment

variable {σ : Type}

/-- The specifier, which was resolved in the module at `referrer`, means the module. -/
def Means (x : Instant σ) (specifier referrer : String) (id : ModuleId) : Prop :=
  ∃ r, .resolved specifier (some referrer) (.ok r) ∈ x.events ∧
    x.state.cache.get? r.url = some id

/-- The specifier could not be resolved in the module at `referrer`, or its module not be made. -/
def Fails (x : Instant σ) (specifier referrer : String) : Prop :=
  (∃ e, .resolved specifier (some referrer) (.error e) ∈ x.events) ∨
    ∃ r e, .resolved specifier (some referrer) (.ok r) ∈ x.events ∧
      .created r (.error e) ∈ x.events

/-- The table binds each specifier of the module to what it means. -/
def Binds (x : Instant σ) (m : StaticModule) (table : OrderedMap ModuleId) : Prop :=
  ∃ ids, List.Forall₂ (fun specifier id => x.Means specifier m.url id) m.dependencies ids ∧
    table = .ofList (m.dependencies.zip ids)

/-- There is a reason for which the module cannot be linked. -/
def Broken (x : Instant σ) (id : ModuleId) (m : StaticModule) : Prop :=
  (∃ specifier ∈ m.dependencies, x.Fails specifier m.url) ∨
    ∃ j n, x.state.Leads id j ∧ x.state.static? j = some n ∧ n.linking = .errored

/-- The evaluations that were left to the host, in order. -/
def evaluations (x : Instant σ) : List (StaticModule × EvaluationScope) :=
  x.events.filterMap Event.evaluation?

def evaluatedUrls (x : Instant σ) : List String := x.evaluations.map fun entry => entry.1.url

@[simp] theorem evaluations_move (x : Instant σ) (s : Session σ) :
    (x.move s).evaluations = x.evaluations := rfl

end Moment

variable {σ : Type} {x y : Instant σ} {id j : ModuleId} {m m' : StaticModule}

/-- What one step from `x` to `y` may make of the record of a static module. -/
inductive Transition (x y : Instant σ) (id : ModuleId) (m : StaticModule) : StaticModule → Prop
  | beginLinking (hLinking : m.linking = .unlinked) : Transition x y id m m.beginLinking
  | bindImports {table : OrderedMap ModuleId} (hLinking : m.linking = .linking)
      (hImports : m.imports = none) (hBinds : x.Binds m table) :
      Transition x y id m (m.bindImports table)
  | finishLinking {table : OrderedMap ModuleId} (hLinking : m.linking = .linking)
      (hImports : m.imports = some table)
      (hClosed : ∀ j ∈ table.values, ∀ n, y.state.static? j = some n → n.linking = .linked) :
      Transition x y id m m.finishLinking
  | failLinking {e : LoadError} (hLinking : m.linking = .linking) (hBroken : x.Broken id m) :
      Transition x y id m (m.failLinking e)
  | beginEvaluation (hLinking : m.linking = .linked) (hStatus : m.status = .instantiated) :
      Transition x y id m m.beginEvaluation
  | finishEvaluation {exports : Namespace} (hStatus : m.status = .evaluating) :
      Transition x y id m (m.finishEvaluation exports)
  | failEvaluation {e : LoadError} (hStatus : m.status = .evaluating) :
      Transition x y id m (m.failEvaluation e)

/-- What one step of an action may do to a session. -/
inductive Change : Instant σ → Instant σ → Prop
  | outside {x : Instant σ} {s : Session σ} (hModules : s.modules = x.state.modules)
      (hCache : ∀ url, s.cache.get? url = x.state.cache.get? url) : Change x (x.move s)
  | create {x : Instant σ} {r : ResolvedModule} {slot : SlotId} {m : Module}
      (hSlot : x.state.cache.IsSlot r.url slot) (hNone : x.state.cache.get? r.url = none)
      (hCreated : .created r (.ok m) ∈ x.events) (hNew : m.IsNew r.url) :
      Change x (x.move (x.state.withModule slot m))
  | update {x : Instant σ} {id : ModuleId} {m : StaticModule} {f : StaticModule → StaticModule}
      (hm : x.state.static? id = some m)
      (h : Transition x (x.move (x.state.updateStatic id f)) id m (f m)) :
      Change x (x.move (x.state.updateStatic id f))
  | link {x : Instant σ} {visited : List ModuleId}
      (h : ∀ id ∈ visited, ∃ m table, x.state.static? id = some m ∧ m.linking = .linking ∧
        m.imports = some table ∧ ∀ j ∈ table.values, ∀ n, x.state.static? j = some n →
          n.linking = .linked ∨ j ∈ visited) :
      Change x (x.move (x.state.finishLinking visited))
  | evaluateSynthetic {x : Instant σ} {id : ModuleId} {m : SyntheticModule} {fresh : ObjectId}
      (hm : x.state.module? id = some (.synthetic m)) :
      Change x (x.move (x.state.withSynthetic id (m.evaluate fresh).2))
  | answer {x : Instant σ} {event : Event} (h : event.evaluation? = none) :
      Change x (x.hear event)
  | evaluate {x : Instant σ} {id : ModuleId} {m n : StaticModule} {scope : EvaluationScope}
      (hn : x.state.static? id = some n) (hUrl : n.url = m.url) (hStatus : n.status = .evaluating)
      (hOnce : m.url ∉ x.evaluatedUrls) : Change x (x.hear (.evaluated m scope))

theorem Change.refl (x : Instant σ) : Change x x := .outside rfl fun _ => rfl

theorem Change.newObject (x : Instant σ) :
    Change x (x.move { x.state with nextObject := x.state.nextObject + 1 }) :=
  .outside rfl fun _ => rfl

theorem Change.world (x : Instant σ) (f : σ → σ) :
    Change x (x.move { x.state with world := f x.state.world }) :=
  .outside rfl fun _ => rfl

theorem StaticModule.linking_finishLinking (h : m.linking = .linking) :
    m.finishLinking.linking = .linked := by
  simp [finishLinking, h]

namespace Change

theorem of_static? (h : Change x y) (hm : x.state.static? id = some m) :
    ∃ m', y.state.static? id = some m' ∧ (m' = m ∨ Transition x y id m m') := by
  cases h with
  | outside hModules _ =>
    refine ⟨m, ?_, .inl rfl⟩
    simpa [Session.static?, Session.module?, hModules] using hm
  | create hSlot hNone hCreated hNew =>
    refine ⟨m, ?_, .inl rfl⟩
    rw [Session.static?_eq_some_iff] at hm ⊢
    exact Session.module?_withModule_of_some _ _ hm
  | @update i n f hn h =>
    by_cases hi : id = i
    · subst hi
      rw [hm] at hn
      cases hn
      exact ⟨f m, Session.static?_updateStatic_self hm f, .inr h⟩
    · exact ⟨m, by simpa [Session.static?_updateStatic_of_ne hi] using hm, .inl rfl⟩
  | @link visited h =>
    by_cases hi : id ∈ visited
    · obtain ⟨n, table, hn, hLinking, hImports, hClosed⟩ := h id hi
      rw [hm] at hn
      cases hn
      refine ⟨m.finishLinking, by simp [Session.static?_finishLinking, hi, hm],
        .inr (.finishLinking hLinking hImports fun j hj n hn => ?_)⟩
      simp only [Moment.state_move, Session.static?_finishLinking] at hn
      split at hn
      · next hVisited =>
        obtain ⟨k, _, hk, hkLinking, -⟩ := h j hVisited
        rw [hk, Option.map_some, Option.some.injEq] at hn
        rw [← hn]
        exact StaticModule.linking_finishLinking hkLinking
      · next hVisited => exact (hClosed j hj n hn).resolve_right hVisited
    · exact ⟨m, by simp [Session.static?_finishLinking, hi, hm], .inl rfl⟩
  | @evaluateSynthetic i n fresh hn =>
    refine ⟨m, ?_, .inl rfl⟩
    rw [Session.static?_eq_some_iff] at hm ⊢
    rw [Moment.state_move, Session.module?_withSynthetic hn, if_neg, hm]
    rintro rfl
    rw [hm] at hn
    cases hn
  | answer | evaluate => exact ⟨m, hm, .inl rfl⟩

theorem of_synthetic {n : SyntheticModule} (h : Change x y)
    (hn : x.state.module? id = some (.synthetic n)) :
    ∃ n', y.state.module? id = some (.synthetic n') ∧
      (n' = n ∨ ∃ fresh, n' = (n.evaluate fresh).2) := by
  cases h with
  | outside hModules _ =>
    exact ⟨n, by simpa [Session.module?, hModules] using hn, .inl rfl⟩
  | create => exact ⟨n, Session.module?_withModule_of_some _ _ hn, .inl rfl⟩
  | update => exact ⟨n, by simp [hn, Module.mapStatic], .inl rfl⟩
  | link => exact ⟨n, by simp [Session.module?_finishLinking, hn, Module.mapStatic], .inl rfl⟩
  | @evaluateSynthetic i k fresh hk =>
    rw [Moment.state_move, Session.module?_withSynthetic hk]
    by_cases hi : id = i
    · subst hi
      rw [hn] at hk
      cases hk
      exact ⟨(n.evaluate fresh).2, by simp, .inr ⟨fresh, rfl⟩⟩
    · exact ⟨n, by simp [hi, hn], .inl rfl⟩
  | answer | evaluate => exact ⟨n, hn, .inl rfl⟩

/-- A module that was not there before is made for a URL without one. -/
theorem of_none {n : Module} (h : Change x y) (hNone : x.state.module? id = none)
    (hn : y.state.module? id = some n) :
    ∃ r, n.IsNew r.url ∧ .created r (.ok n) ∈ x.events ∧ x.state.cache.get? r.url = none ∧
      y.state.cache.get? r.url = some id := by
  cases h with
  | outside hModules _ =>
    have : x.state.module? id = some n := by simpa [Session.module?, hModules] using hn
    rw [hNone] at this
    cases this
  | @create r slot k hSlot hUnbound hCreated hNew =>
    rw [Moment.state_move, Session.module?_withModule] at hn
    split at hn
    · next hid =>
      cases hn
      refine ⟨r, hNew, hCreated, hUnbound, ?_⟩
      simp [Session.get?_withModule hSlot hUnbound, hid]
    · rw [hNone] at hn
      cases hn
  | update => simp [hNone] at hn
  | link => simp [Session.module?_finishLinking, hNone] at hn
  | evaluateSynthetic hk =>
    rw [Moment.state_move, Session.module?_withSynthetic hk] at hn
    split at hn
    · next hi =>
      rw [hi, hk] at hNone
      cases hNone
    · rw [hNone] at hn
      cases hn
  | answer | evaluate =>
    rw [Moment.state_hear, hNone] at hn
    cases hn

theorem get?_eq_some {url : String} (h : Change x y) (hGet : x.state.cache.get? url = some id) :
    y.state.cache.get? url = some id := by
  cases h with
  | outside _ hCache => simpa [hCache] using hGet
  | create hSlot hNone =>
    rw [Moment.state_move, Session.get?_withModule hSlot hNone, if_neg, hGet]
    rintro rfl
    rw [hNone] at hGet
    cases hGet
  | update => exact hGet
  | link => simpa using hGet
  | evaluateSynthetic => exact hGet
  | answer | evaluate => exact hGet

theorem of_get?_eq_some {url : String} (h : Change x y)
    (hGet : y.state.cache.get? url = some id) :
    x.state.cache.get? url = some id ∨
      ∃ n, y.state.module? id = some n ∧ n.url = url := by
  cases h with
  | outside _ hCache => exact .inl (by simpa [hCache] using hGet)
  | @create r slot n hSlot hNone _ hNew =>
    rw [Moment.state_move, Session.get?_withModule hSlot hNone] at hGet
    split at hGet
    · next hUrl =>
      cases hGet
      exact .inr ⟨n, by simp [Session.module?_withModule], hUrl ▸ hNew.url_eq⟩
    · exact .inl hGet
  | update => exact .inl hGet
  | link => exact .inl (by simpa using hGet)
  | evaluateSynthetic => exact .inl hGet
  | answer | evaluate => exact .inl hGet

theorem events_prefix (h : Change x y) : x.events <+: y.events := by
  cases h with
  | outside | create | update | link | evaluateSynthetic => exact List.prefix_refl _
  | answer | evaluate => exact List.prefix_append _ _

/-- An evaluation that is left to the host is the first one of a module that is under way. -/
theorem evaluatedUrls_eq (h : Change x y) :
    y.evaluatedUrls = x.evaluatedUrls ∨
      ∃ id n, y.state.static? id = some n ∧ n.status = .evaluating ∧
        n.url ∉ x.evaluatedUrls ∧ y.evaluatedUrls = x.evaluatedUrls ++ [n.url] := by
  cases h with
  | outside | create | update | link | evaluateSynthetic => exact .inl rfl
  | answer h => exact .inl (by simp [Moment.evaluatedUrls, Moment.evaluations, h])
  | @evaluate id m n scope hn hUrl hStatus hOnce =>
    refine .inr ⟨id, n, hn, hStatus, hUrl ▸ hOnce, ?_⟩
    simp [Moment.evaluatedUrls, Moment.evaluations, Event.evaluation?, hUrl]

end Change

end ModuleLoader
