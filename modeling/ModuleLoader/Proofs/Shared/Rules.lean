import ModuleLoader.Proofs.Module.Synthetic
import ModuleLoader.Proofs.Shared.Finding
import ModuleLoader.Proofs.Shared.Record
import ModuleLoader.Proofs.Task.Pool
import ModuleLoader.Shared.Evaluation

/-! The rules of a session that tasks share.  `Act` lists all that one step of a task may do to the
session.  It keeps the modules, the cache and the tables consistent, and while a task is at a place
nobody else does there what only one may do. -/

namespace ModuleLoader

variable {σ : Type}

namespace Session

variable {s t : Session σ} {id j : ModuleId} {m n : StaticModule}

/-- The imports of all static modules to which a module leads are bound. -/
def Bound (s : Session σ) (id : ModuleId) : Prop :=
  ∀ j, s.Leads id j → ∀ m, s.static? j = some m → m.imports.isSome

/-- The values of the table are modules. -/
def IsTable (s : Session σ) (table : OrderedMap ModuleId) : Prop :=
  ∀ j ∈ table.values, ∃ n, s.module? j = some n

/-- The modules, the cache and the tables of a shared session fit together. -/
structure Consistent (s : Session σ) : Prop where
  cached : ∀ id m, s.module? id = some m → s.cache.get? m.url = some id
  stored : ∀ url id, s.cache.get? url = some id → ∃ m, s.module? id = some m ∧ m.url = url
  static : ∀ id m, s.static? id = some m → m.Consistent
  tables : ∀ id m table, s.static? id = some m → m.imports = some table → s.IsTable table
  linked : ∀ id m, s.static? id = some m → m.linking = .linked → s.Bound id

/-- What holds while a task is at a place. -/
def Kept : Place → Session σ → Prop
  | .making slot, s => s.cache.record? slot = none
  | .binding id, s => ∃ m, s.static? id = some m ∧ m.imports = none ∧ m.linking ≠ .unlinked
  | .running id, s => ∃ m, s.static? id = some m ∧ m.IsRunning

/-- The second session has all that the first one has. -/
structure Keeps (s t : Session σ) : Prop where
  static : ∀ id m, s.static? id = some m → ∃ n, t.static? id = some n ∧ m.Keeps n
  module : ∀ id m, s.module? id = some m → ∃ n, t.module? id = some n ∧ n.url = m.url ∧
    (n.static?.isSome ↔ m.static?.isSome)
  cache : ∀ url id, s.cache.get? url = some id → t.cache.get? url = some id
  slots : ∀ url slot, s.cache.IsSlot url slot → t.cache.IsSlot url slot

namespace Keeps

theorem refl (s : Session σ) : s.Keeps s :=
  ⟨fun _ m hm => ⟨m, hm, .refl m⟩, fun _ m hm => ⟨m, hm, rfl, .rfl⟩, fun _ _ h => h, fun _ _ h => h⟩

theorem trans {u : Session σ} (h : s.Keeps t) (h' : t.Keeps u) : s.Keeps u := by
  refine ⟨fun id m hm => ?_, fun id m hm => ?_, fun url id hGet => h'.cache _ _ (h.cache _ _ hGet),
    fun url slot hSlot => h'.slots _ _ (h.slots _ _ hSlot)⟩
  · obtain ⟨n, hn, hKeeps⟩ := h.static id m hm
    obtain ⟨k, hk, hKeeps'⟩ := h'.static id n hn
    exact ⟨k, hk, hKeeps.trans hKeeps'⟩
  · obtain ⟨n, hn, hUrl, hKind⟩ := h.module id m hm
    obtain ⟨k, hk, hUrl', hKind'⟩ := h'.module id n hn
    exact ⟨k, hk, hUrl'.trans hUrl, hKind'.trans hKind⟩

theorem static?_of_module (h : s.Keeps t) {k : Module} (hk : s.module? id = some k)
    (hn : t.static? id = some n) : ∃ m, s.static? id = some m ∧ m.Keeps n := by
  obtain ⟨k', hk', -, hKind⟩ := h.module id k hk
  rw [static?, hk', Option.bind_some] at hn
  obtain ⟨m, hm⟩ := Option.isSome_iff_exists.1 (hKind.1 (by simp [hn]))
  have hStatic : s.static? id = some m := by rw [static?, hk, Option.bind_some, hm]
  obtain ⟨n', hn', hKeeps⟩ := h.static id m hStatic
  rw [static?, hk', Option.bind_some, hn] at hn'
  cases hn'
  exact ⟨m, hStatic, hKeeps⟩

/-- A module that leads to bound modules only leads to no other ones later. -/
theorem leads_of_bound (h : s.Keeps t) (hs : s.Consistent) {k : Module}
    (hk : s.module? id = some k) (hBound : s.Bound id) (hLeads : t.Leads id j) :
    s.Leads id j ∧ ∃ n, s.module? j = some n := by
  induction hLeads with
  | refl => exact ⟨.refl, k, hk⟩
  | tail _ hImports ih =>
    obtain ⟨hLeads, k', hk'⟩ := ih
    obtain ⟨n, table, hn, hTable, hj⟩ := hImports
    obtain ⟨m, hm, hKeeps⟩ := h.static?_of_module hk' hn
    obtain ⟨table', hTable'⟩ := Option.isSome_iff_exists.1 (hBound _ hLeads m hm)
    have hSame := hKeeps.imports table' hTable'
    rw [hTable] at hSame
    cases hSame
    exact ⟨hLeads.tail ⟨m, table, hm, hTable', hj⟩, hs.tables _ m table hm hTable' _ hj⟩

theorem bound (h : s.Keeps t) (hs : s.Consistent) {k : Module} (hk : s.module? id = some k)
    (hBound : s.Bound id) : t.Bound id := by
  intro j hLeads n hn
  obtain ⟨hLeads', k', hk'⟩ := h.leads_of_bound hs hk hBound hLeads
  obtain ⟨m, hm, hKeeps⟩ := h.static?_of_module hk' hn
  obtain ⟨table, hTable⟩ := Option.isSome_iff_exists.1 (hBound j hLeads' m hm)
  rw [hKeeps.imports table hTable]
  rfl

theorem isTable (h : s.Keeps t) {table : OrderedMap ModuleId} (hTable : s.IsTable table) :
    t.IsTable table := by
  intro j hj
  obtain ⟨k, hk⟩ := hTable j hj
  obtain ⟨n, hn, -⟩ := h.module j k hk
  exact ⟨n, hn⟩

end Keeps

end Session

open Session

/-- The module has the exports, or the exports are empty and the module was running at a moment at
which `importer` was running too. -/
def Given (h : Course σ) (importer j : ModuleId) (exports : Namespace) : Prop :=
  ∀ m, h.now.state.static? j = some m → m.exports = some exports ∨
    exports.exports = .empty ∧ ∃ x ∈ h.now :: h.past,
      (∃ n, x.state.static? j = some n ∧ n.status = .evaluating) ∧
        ∃ n, x.state.static? importer = some n ∧ n.IsRunning

/-- The scope of a module has an entry for each of its imports, in order. -/
def Served (h : Course σ) (m : StaticModule) (scope : EvaluationScope) : Prop :=
  ∃ id n table, h.now.state.static? id = some n ∧ n.url = m.url ∧ m.imports = some table ∧
    n.imports = some table ∧
    List.Forall₂ (fun entry given => given.1 = entry.1 ∧ Given h id entry.2 given.2)
      table.entries scope.imports.entries

/-- What has to be true for an event.  A module is made only for a URL without one. -/
def Allows (h : Course σ) : Event → Prop
  | .resolved _ _ _ | .asked _ => True
  | .created r _ => h.now.state.cache.get? r.url = none
  | .evaluated m scope => Served h m scope

/-- What one step of a task may do to a session, with the place of the section that it closes. -/
inductive Act : Option Place → Course σ → Instant σ → Prop
  | outside {h : Course σ} {s : Session σ} (hModules : s.modules = h.now.state.modules)
      (hRecord : ∀ slot, s.cache.record? slot = h.now.state.cache.record? slot)
      (hSlot : ∀ url slot, h.now.state.cache.IsSlot url slot → s.cache.IsSlot url slot)
      (hGet : ∀ url, s.cache.get? url = h.now.state.cache.get? url) : Act none h (h.now.move s)
  /-- A section is closed, and nothing else is done. -/
  | close {h : Course σ} (place : Place) : Act (some place) h h.now
  | create {h : Course σ} {url : String} {slot : SlotId} {m : Module}
      (hSlot : h.now.state.cache.IsSlot url slot) (hNone : h.now.state.cache.record? slot = none)
      (hNew : m.IsNew url) :
      Act (some (.making slot)) h (h.now.move (h.now.state.withModule slot m))
  | update {h : Course σ} {l : Option Place} {id : ModuleId} {m : StaticModule}
      {f : StaticModule → StaticModule} (hm : h.now.state.static? id = some m) (hEdit : m.Edit id l f)
      (hTable : ∀ table, (f m).imports = some table →
        m.imports = some table ∨ h.now.state.IsTable table)
      (hLinked : (f m).linking = .linked → m.linking = .linked ∨ h.now.state.Bound id) :
      Act l h (h.now.move (h.now.state.updateStatic id f))
  | evaluateSynthetic {h : Course σ} {id : ModuleId} {m : SyntheticModule} {fresh : ObjectId}
      {s : Session σ} (hm : h.now.state.module? id = some (.synthetic m))
      (hModules : s.modules = (h.now.state.withSynthetic id (m.evaluate fresh).2).modules)
      (hCache : s.cache = h.now.state.cache) : Act none h (h.now.move s)
  | hear {h : Course σ} {event : Event} (hAllowed : Allows h event) : Act none h (h.now.hear event)

namespace Act

variable {h : Course σ} {y : Instant σ} {l : Option Place} {id : ModuleId} {m n : StaticModule}

theorem of_static? (hAct : Act l h y) (hm : h.now.state.static? id = some m) :
    ∃ n, y.state.static? id = some n ∧ (n = m ∨ ∃ f, n = f m ∧ m.Edit id l f ∧
      (∀ table, n.imports = some table → m.imports = some table ∨ h.now.state.IsTable table) ∧
      (n.linking = .linked → m.linking = .linked ∨ h.now.state.Bound id)) := by
  cases hAct with
  | outside hModules =>
    refine ⟨m, ?_, .inl rfl⟩
    simpa [static?, module?, hModules] using hm
  | close | hear => exact ⟨m, hm, .inl rfl⟩
  | create hSlot hNone hNew =>
    refine ⟨m, ?_, .inl rfl⟩
    rw [static?_eq_some_iff] at hm ⊢
    exact module?_withModule_of_some _ _ hm
  | @update _ _ i k f hk hEdit hTable hLinked =>
    by_cases hi : id = i
    · subst hi
      rw [hm] at hk
      cases hk
      exact ⟨f m, static?_updateStatic_self hm f, .inr ⟨f, rfl, hEdit, hTable, hLinked⟩⟩
    · exact ⟨m, by simpa [static?_updateStatic_of_ne hi] using hm, .inl rfl⟩
  | @evaluateSynthetic _ i k fresh s hk hModules =>
    refine ⟨m, ?_, .inl rfl⟩
    rw [static?_eq_some_iff] at hm ⊢
    rw [Moment.state_move, module?_of_withSynthetic hk hModules, if_neg, hm]
    rintro rfl
    rw [hm] at hk
    cases hk

theorem of_synthetic {k : SyntheticModule} (hAct : Act l h y)
    (hk : h.now.state.module? id = some (.synthetic k)) :
    ∃ k', y.state.module? id = some (.synthetic k') ∧ k'.url = k.url := by
  cases hAct with
  | outside hModules => exact ⟨k, by simpa [module?, hModules] using hk, rfl⟩
  | close | hear => exact ⟨k, hk, rfl⟩
  | create => exact ⟨k, module?_withModule_of_some _ _ hk, rfl⟩
  | update => exact ⟨k, by simp [hk, Module.mapStatic], rfl⟩
  | @evaluateSynthetic _ i k' fresh s hk' hModules =>
    rw [Moment.state_move, module?_of_withSynthetic hk' hModules]
    by_cases hi : id = i
    · subst hi
      rw [hk] at hk'
      cases hk'
      exact ⟨(k.evaluate fresh).2, by simp, by simp⟩
    · exact ⟨k, by simp [hi, hk], rfl⟩

/-- A module that was not there before is made for a URL without one. -/
theorem of_none {k : Module} (hAct : Act l h y) (hNone : h.now.state.module? id = none)
    (hk : y.state.module? id = some k) :
    ∃ url, k.IsNew url ∧ y.state.cache.get? url = some id := by
  cases hAct with
  | outside hModules =>
    have hOld : h.now.state.module? id = some k := by simpa [module?, hModules] using hk
    rw [hNone] at hOld
    cases hOld
  | close =>
    rw [hNone] at hk
    cases hk
  | @create _ url slot k' hSlot hRecord hNew =>
    rw [Moment.state_move, module?_withModule] at hk
    have hUnbound := ModuleCache.get?_of_record?_none hSlot hRecord
    split at hk
    · next hid =>
      cases hk
      exact ⟨url, hNew, by simp [get?_withModule hSlot hUnbound, hid]⟩
    · rw [hNone] at hk
      cases hk
  | update => simp [hNone] at hk
  | @evaluateSynthetic _ i k' fresh s hk' hModules =>
    rw [Moment.state_move, module?_of_withSynthetic hk' hModules] at hk
    split at hk
    · next hi =>
      rw [hi, hk'] at hNone
      cases hNone
    · rw [hNone] at hk
      cases hk
  | hear =>
    rw [Moment.state_hear, hNone] at hk
    cases hk

theorem get?_cases (hAct : Act l h y) (url : String) :
    y.state.cache.get? url = h.now.state.cache.get? url ∨
      h.now.state.cache.get? url = none ∧ ∃ id k, y.state.cache.get? url = some id ∧
        y.state.module? id = some k ∧ k.url = url := by
  cases hAct with
  | outside _ _ _ hGet => exact .inl (hGet url)
  | @create _ made slot k hSlot hRecord hNew =>
    have hUnbound := ModuleCache.get?_of_record?_none hSlot hRecord
    rw [Moment.state_move, get?_withModule hSlot hUnbound]
    split
    · next hUrl =>
      exact .inr ⟨hUrl ▸ hUnbound, _, k, rfl, by simp [module?_withModule], hUrl ▸ hNew.url_eq⟩
    · exact .inl rfl
  | evaluateSynthetic _ _ hCache => exact .inl (by rw [Moment.state_move, hCache])
  | close | update | hear => exact .inl rfl

/-- Only the task at a slot fills it. -/
theorem record?_eq (hAct : Act l h y) {slot : SlotId} (hOther : l ≠ some (.making slot)) :
    y.state.cache.record? slot = h.now.state.cache.record? slot := by
  cases hAct with
  | outside _ hRecord => exact hRecord slot
  | @create _ url made k hSlot =>
    have hNe : made ≠ slot := fun hEq => hOther (by rw [hEq])
    simp [withModule, ModuleCache.fill, ModuleCache.record?, hNe]
  | evaluateSynthetic _ _ hCache => rw [Moment.state_move, hCache]
  | close | update | hear => rfl

theorem isSlot (hAct : Act l h y) {url : String} {slot : SlotId}
    (hSlot : h.now.state.cache.IsSlot url slot) : y.state.cache.IsSlot url slot := by
  cases hAct with
  | outside _ _ hSlots => exact hSlots url slot hSlot
  | create => exact ModuleCache.isSlot_fill hSlot _ _
  | evaluateSynthetic _ _ hCache =>
    rw [Moment.state_move, hCache]
    exact hSlot
  | close | update | hear => exact hSlot

theorem keeps (hAct : Act l h y) : h.now.state.Keeps y.state := by
  refine ⟨fun id m hm => ?_, fun id k hk => ?_, fun url id hGet => ?_, fun url slot => hAct.isSlot⟩
  · obtain ⟨n, hn, rfl | ⟨f, rfl, hEdit, -⟩⟩ := hAct.of_static? hm
    · exact ⟨n, hn, .refl n⟩
    · exact ⟨f m, hn, hEdit.keeps⟩
  · cases k with
    | static m =>
      obtain ⟨n, hn, hCase⟩ := hAct.of_static? (static?_eq_some_iff.2 hk)
      refine ⟨.static n, static?_eq_some_iff.1 hn, ?_, by simp [Module.static?]⟩
      rcases hCase with rfl | ⟨f, rfl, hEdit, -⟩
      · rfl
      · exact hEdit.keeps.url
    | synthetic k =>
      obtain ⟨k', hk', hUrl⟩ := hAct.of_synthetic hk
      exact ⟨.synthetic k', hk', hUrl, by simp [Module.static?]⟩
  · rcases hAct.get?_cases url with hSame | ⟨hNone, -⟩
    · rw [hSame, hGet]
    · rw [hGet] at hNone
      cases hNone

theorem static_cases (hAct : Act l h y) (hn : y.state.static? id = some n) :
    (∃ m, h.now.state.static? id = some m ∧ (n = m ∨ ∃ f, n = f m ∧ m.Edit id l f ∧
      (∀ table, n.imports = some table → m.imports = some table ∨ h.now.state.IsTable table) ∧
      (n.linking = .linked → m.linking = .linked ∨ h.now.state.Bound id))) ∨
      h.now.state.module? id = none ∧
        ∃ url code dependencies main, n = .create url code dependencies main := by
  cases hk : h.now.state.module? id with
  | none =>
    obtain ⟨url, hNew, -⟩ := hAct.of_none hk (static?_eq_some_iff.1 hn)
    rcases hNew with ⟨code, dependencies, main, hEq⟩ | ⟨exports, hEq⟩
    · cases hEq
      exact .inr ⟨rfl, url, code, dependencies, main, rfl⟩
    · cases hEq
  | some k =>
    obtain ⟨m, hm, -⟩ := hAct.keeps.static?_of_module hk hn
    obtain ⟨n', hn', hCase⟩ := hAct.of_static? hm
    rw [hn] at hn'
    cases hn'
    exact .inl ⟨m, hm, hCase⟩

/-- Every step keeps a shared session consistent. -/
theorem consistent (hAct : Act l h y) (hh : h.now.state.Consistent) : y.state.Consistent := by
  have hKeeps := hAct.keeps
  constructor
  case cached =>
    intro id k hk
    cases hOld : h.now.state.module? id with
    | none =>
      obtain ⟨url, hNew, hGet⟩ := hAct.of_none hOld hk
      rw [hNew.url_eq]
      exact hGet
    | some k' =>
      obtain ⟨k'', hk'', hUrl, -⟩ := hKeeps.module id k' hOld
      rw [hk] at hk''
      cases hk''
      rw [hUrl]
      exact hKeeps.cache _ _ (hh.cached id k' hOld)
  case stored =>
    intro url id hGet
    rcases hAct.get?_cases url with hSame | ⟨-, i, k, hGet', hk, hUrl⟩
    · obtain ⟨k, hk, hUrl⟩ := hh.stored url id (hSame ▸ hGet)
      obtain ⟨k', hk', hUrl', -⟩ := hKeeps.module id k hk
      exact ⟨k', hk', hUrl'.trans hUrl⟩
    · rw [hGet] at hGet'
      cases hGet'
      exact ⟨k, hk, hUrl⟩
  case static =>
    intro id n hn
    rcases hAct.static_cases hn with ⟨m, hm, rfl | ⟨f, rfl, hEdit, -⟩⟩ | ⟨-, _, _, _, _, rfl⟩
    · exact hh.static id n hm
    · exact hEdit.consistent (hh.static id m hm)
    · exact StaticModule.consistent_create _ _ _ _
  case tables =>
    intro id n table hn hTable
    rcases hAct.static_cases hn with ⟨m, hm, rfl | ⟨f, -, -, hTables, -⟩⟩ | ⟨-, _, _, _, _, rfl⟩
    · exact hKeeps.isTable (hh.tables id n table hm hTable)
    · rcases hTables table hTable with hOld | hNew
      · exact hKeeps.isTable (hh.tables id m table hm hOld)
      · exact hKeeps.isTable hNew
    · cases hTable
  case linked =>
    -- What a linked module leads to is bound, so that no later step makes it lead further.
    intro id n hn hLinking
    rcases hAct.static_cases hn with ⟨m, hm, rfl | ⟨f, -, -, -, hLinked⟩⟩ | ⟨-, _, _, _, _, rfl⟩
    · exact hKeeps.bound hh (static?_eq_some_iff.1 hm) (hh.linked id n hm hLinking)
    · refine hKeeps.bound hh (static?_eq_some_iff.1 hm) ?_
      exact (hLinked hLinking).elim (hh.linked id m hm) fun hBound => hBound
    · cases hLinking

/-- What holds while a task is at a place goes on to hold until the task leaves. -/
theorem kept (hAct : Act l h y) {place : Place} (hOther : l ≠ some place)
    (hKept : Kept place h.now.state) : Kept place y.state := by
  cases place with
  | making slot =>
    rw [Kept, hAct.record?_eq hOther]
    exact hKept
  | binding id =>
    obtain ⟨m, hm, hImports, hBegun⟩ := hKept
    obtain ⟨n, hn, rfl | ⟨f, rfl, hEdit, -⟩⟩ := hAct.of_static? hm
    · exact ⟨n, hn, hImports, hBegun⟩
    · exact ⟨f m, hn, (hEdit.imports_eq hOther).trans hImports, hEdit.keeps.begun hBegun⟩
  | running id =>
    obtain ⟨m, hm, hRunning⟩ := hKept
    obtain ⟨n, hn, rfl | ⟨f, rfl, hEdit, -⟩⟩ := hAct.of_static? hm
    · exact ⟨n, hn, hRunning⟩
    · exact ⟨f m, hn, hEdit.isRunning hOther hRunning⟩

theorem now (h : Course σ) : Act none h h.now :=
  .outside rfl (fun _ => rfl) (fun _ _ hSlot => hSlot) fun _ => rfl

theorem events_prefix (hAct : Act l h y) : h.now.events <+: y.events := by
  cases hAct with
  | outside | close | create | update | evaluateSynthetic => exact List.prefix_refl _
  | hear => exact List.prefix_append _ _

theorem allows_of_mem {event : Event} (hAct : Act l h y)
    (hEvent : event ∈ y.events.drop h.now.events.length) : Allows h event := by
  cases hAct with
  | outside | close | create | update | evaluateSynthetic => simp at hEvent
  | hear hAllowed =>
    simp only [Moment.events_hear, List.drop_left, List.mem_singleton] at hEvent
    exact hEvent ▸ hAllowed

end Act

/-- The rules of a shared session, which are the same for all tasks.  A task may wait anywhere, and
it may run out of fuel. -/
def Session.rules : Rules (Session σ) Event Place where
  Act := Act
  Pass := Act
  Valid h := h.now.state.Consistent
  Kept := Kept
  Before _ _ := True
  Spent := True
  act_now := Act.now
  pass_now := Act.now
  valid_next hValid hMove := (hMove.elim id id).consistent hValid
  kept_next _ hMove hOther hKept := (hMove.elim id id).kept hOther hKept

instance : (rules : Rules (Session σ) Event Place).Common := ⟨id⟩

instance : (rules : Rules (Session σ) Event Place).Finds where
  persists hMove :=
    have hAct : Act _ _ _ := hMove.elim id id
    ⟨hAct.events_prefix, fun _ _ => hAct.isSlot, hAct.keeps.cache⟩
  world hModules hCache := Act.outside hModules (fun _ => by rw [hCache])
    (fun _ _ hSlot => by rwa [hCache]) fun _ => by rw [hCache]
  slot h url := Act.outside rfl (fun slot => ModuleCache.record?_slot _ url slot)
    (fun _ _ hOther => ModuleCache.isSlot_slot_of_isSlot hOther url)
    fun other => ModuleCache.get?_slot _ url other
  close h slot := Act.close _
  making _ _ := .rfl

end ModuleLoader
