import ModuleLoader.Proofs.Module.Lifecycle
import ModuleLoader.Proofs.Module.Synthetic

/-! What holds at every moment of a session.  `Moment.Lawful` ties the modules, the cache and the
events together, and `Moment.Later` says what can never be lost again.  Both follow from `Change`
alone, one step at a time. -/

namespace ModuleLoader

def Module.dependencies? : Module → Option (List String)
  | .static m => some m.dependencies
  | .synthetic _ => none

variable {σ : Type}

/-- The second moment has all that the first one has. -/
structure Moment.Later (x y : Instant σ) : Prop where
  static : ∀ id m, x.state.static? id = some m → ∃ m', y.state.static? id = some m' ∧ m.Grows m'
  synthetic : ∀ id m, x.state.module? id = some (.synthetic m) →
    ∃ m', y.state.module? id = some (.synthetic m') ∧ m'.url = m.url ∧
      ∀ exports, m.exports = some exports → m'.exports = some exports
  cache : ∀ url id, x.state.cache.get? url = some id → y.state.cache.get? url = some id
  events : x.events <+: y.events

/-- The modules, the cache and the events of a session fit together. -/
structure Moment.Lawful (x : Instant σ) : Prop where
  cached : ∀ id m, x.state.module? id = some m → x.state.cache.get? m.url = some id
  stored : ∀ url id, x.state.cache.get? url = some id →
    ∃ m, x.state.module? id = some m ∧ m.url = url
  static : ∀ id m, x.state.static? id = some m → m.Lawful
  synthetic : ∀ id m, x.state.module? id = some (.synthetic m) → m.Native
  /-- Every module was made with its URL and its dependencies. -/
  created : ∀ id m, x.state.module? id = some m →
    ∃ r n, .created r (.ok n) ∈ x.events ∧ r.url = m.url ∧ n.dependencies? = m.dependencies?
  bound : ∀ id m table, x.state.static? id = some m → m.imports = some table → x.Binds m table
  closed : ∀ id m table j n, x.state.static? id = some m → m.linking = .linked →
    m.imports = some table → j ∈ table.values → x.state.static? j = some n → n.linking = .linked
  /-- What was left to the host is under way or over. -/
  begun : ∀ url ∈ x.evaluatedUrls, ∃ id m, x.state.static? id = some m ∧ m.url = url ∧ m.Started
  once : x.evaluatedUrls.Nodup

namespace Moment.Later

variable {x y z : Instant σ}

theorem refl (x : Instant σ) : Moment.Later x x :=
  ⟨fun _ m hm => ⟨m, hm, .refl m⟩, fun _ m hm => ⟨m, hm, rfl, fun _ h => h⟩, fun _ _ h => h,
    List.prefix_refl _⟩

theorem trans (h : Moment.Later x y) (h' : Moment.Later y z) : Moment.Later x z := by
  refine ⟨fun id m hm => ?_, fun id m hm => ?_, fun url id hGet => h'.cache _ _ (h.cache _ _ hGet),
    h.events.trans h'.events⟩
  · obtain ⟨n, hn, hGrows⟩ := h.static id m hm
    obtain ⟨k, hk, hGrows'⟩ := h'.static id n hn
    exact ⟨k, hk, hGrows.trans hGrows'⟩
  · obtain ⟨n, hn, hUrl, hExports⟩ := h.synthetic id m hm
    obtain ⟨k, hk, hUrl', hExports'⟩ := h'.synthetic id n hn
    exact ⟨k, hk, hUrl'.trans hUrl, fun e he => hExports' e (hExports e he)⟩

theorem module (h : Moment.Later x y) {id : ModuleId} {m : Module}
    (hm : x.state.module? id = some m) :
    ∃ m', y.state.module? id = some m' ∧ m'.url = m.url ∧ m'.dependencies? = m.dependencies? := by
  cases m with
  | static m =>
    obtain ⟨m', hm', hGrows⟩ := h.static id m (Session.static?_eq_some_iff.2 hm)
    exact ⟨_, Session.static?_eq_some_iff.1 hm', hGrows.url, congrArg some hGrows.dependencies⟩
  | synthetic m =>
    obtain ⟨m', hm', hUrl, -⟩ := h.synthetic id m hm
    exact ⟨_, hm', hUrl, rfl⟩

theorem means (h : Moment.Later x y) {specifier referrer : String} {id : ModuleId}
    (hMeans : x.Means specifier referrer id) : y.Means specifier referrer id := by
  obtain ⟨r, hResolved, hGet⟩ := hMeans
  exact ⟨r, h.events.subset hResolved, h.cache _ _ hGet⟩

theorem binds (h : Moment.Later x y) {m m' : StaticModule} (hUrl : m'.url = m.url)
    (hDependencies : m'.dependencies = m.dependencies) {table : OrderedMap ModuleId}
    (hBinds : x.Binds m table) : y.Binds m' table := by
  obtain ⟨ids, hIds, rfl⟩ := hBinds
  refine ⟨ids, ?_, by rw [hDependencies]⟩
  rw [hDependencies, hUrl]
  exact hIds.imp fun _ _ hMeans => h.means hMeans

theorem imports (h : Moment.Later x y) {id j : ModuleId} (hImports : x.state.Imports id j) :
    y.state.Imports id j := by
  obtain ⟨m, table, hm, hTable, hj⟩ := hImports
  obtain ⟨m', hm', hGrows⟩ := h.static id m hm
  exact ⟨m', table, hm', hGrows.imports table hTable, hj⟩

theorem leads (h : Moment.Later x y) {id j : ModuleId} (hLeads : x.state.Leads id j) :
    y.state.Leads id j :=
  Relation.ReflTransGen.mono (fun _ _ => h.imports) _ _ hLeads

end Moment.Later

namespace Moment.Lawful

variable {x : Instant σ}

theorem eq_of_url (h : x.Lawful) {id j : ModuleId} {m n : Module}
    (hm : x.state.module? id = some m) (hn : x.state.module? j = some n) (hUrl : m.url = n.url) :
    id = j := by
  have hid := h.cached id m hm
  rw [hUrl, h.cached j n hn] at hid
  exact (Option.some.inj hid).symm

theorem eq_of_static_url (h : x.Lawful) {id j : ModuleId} {m n : StaticModule}
    (hm : x.state.static? id = some m) (hn : x.state.static? j = some n) (hUrl : m.url = n.url) :
    id = j :=
  h.eq_of_url (Session.static?_eq_some_iff.1 hm) (Session.static?_eq_some_iff.1 hn) hUrl

theorem module_of_means (h : x.Lawful) {specifier referrer : String} {id : ModuleId}
    (hMeans : x.Means specifier referrer id) :
    ∃ r m, .resolved specifier (some referrer) (.ok r) ∈ x.events ∧
      x.state.module? id = some m ∧ m.url = r.url := by
  obtain ⟨r, hResolved, hGet⟩ := hMeans
  obtain ⟨m, hm, hUrl⟩ := h.stored _ _ hGet
  exact ⟨r, m, hResolved, hm, hUrl⟩

theorem module_of_import (h : x.Lawful) {id j : ModuleId} {m : StaticModule}
    {table : OrderedMap ModuleId} (hm : x.state.static? id = some m)
    (hTable : m.imports = some table) (hj : j ∈ table.values) :
    ∃ n, x.state.module? j = some n := by
  obtain ⟨ids, hIds, rfl⟩ := h.bound id m table hm hTable
  obtain ⟨entry, hEntry, rfl⟩ := List.mem_map.1 hj
  have hZip := OrderedMap.mem_of_mem_entries_ofList hEntry
  obtain ⟨-, n, -, hn, -⟩ := h.module_of_means (List.forall₂_zip hIds hZip)
  exact ⟨n, hn⟩

end Moment.Lawful

namespace Moment.Later

variable {x y : Instant σ}

theorem static?_of_module (h : Moment.Later x y) {id : ModuleId} {m : Module} {n : StaticModule}
    (hm : x.state.module? id = some m) (hn : y.state.static? id = some n) :
    ∃ m', x.state.static? id = some m' ∧ m'.Grows n := by
  cases m with
  | static m =>
    obtain ⟨n', hn', hGrows⟩ := h.static id m (Session.static?_eq_some_iff.2 hm)
    rw [hn] at hn'
    cases hn'
    exact ⟨m, Session.static?_eq_some_iff.2 hm, hGrows⟩
  | synthetic m =>
    obtain ⟨n', hn', -⟩ := h.synthetic id m hm
    rw [Session.static?_eq_some_iff.1 hn] at hn'
    cases hn'

end Moment.Later

namespace Change

variable {x y : Instant σ} {id : ModuleId} {m : StaticModule}

theorem later (h : Change x y) (hx : x.Lawful) : Moment.Later x y := by
  refine ⟨fun id m hm => ?_, fun id m hm => ?_, fun url id => h.get?_eq_some, h.events_prefix⟩
  · obtain ⟨m', hm', rfl | hStep⟩ := h.of_static? hm
    · exact ⟨m', hm', .refl m'⟩
    · exact ⟨m', hm', hStep.grows (hx.static id m hm)⟩
  · obtain ⟨m', hm', rfl | ⟨fresh, rfl⟩⟩ := h.of_synthetic hm
    · exact ⟨m', hm', rfl, fun _ h => h⟩
    · refine ⟨_, hm', by simp, fun exports hExports => ?_⟩
      rw [SyntheticModule.evaluate_of_exports hExports]
      exact hExports

theorem module_cases (h : Change x y) (hx : x.Lawful) {n : Module}
    (hn : y.state.module? id = some n) :
    (∃ m, x.state.module? id = some m ∧ n.url = m.url ∧ n.dependencies? = m.dependencies?) ∨
      ∃ r, n.IsNew r.url ∧ .created r (.ok n) ∈ x.events ∧
        y.state.cache.get? r.url = some id := by
  cases hm : x.state.module? id with
  | none =>
    obtain ⟨r, hNew, hCreated, -, hGet⟩ := h.of_none hm hn
    exact .inr ⟨r, hNew, hCreated, hGet⟩
  | some m =>
    obtain ⟨m', hm', hUrl, hDependencies⟩ := (h.later hx).module hm
    rw [hn] at hm'
    cases hm'
    exact .inl ⟨m, rfl, hUrl, hDependencies⟩

theorem static_cases (h : Change x y) {n : StaticModule} (hn : y.state.static? id = some n) :
    (∃ m, x.state.static? id = some m ∧ (n = m ∨ Transition x y id m n)) ∨
      x.state.module? id = none ∧
        ∃ url code dependencies main, n = .create url code dependencies main := by
  rw [Session.static?_eq_some_iff] at hn
  cases hm : x.state.module? id with
  | none =>
    obtain ⟨r, hNew, -⟩ := h.of_none hm hn
    rcases hNew with ⟨code, dependencies, main, hEq⟩ | ⟨exports, hEq⟩
    · cases hEq
      exact .inr ⟨rfl, _, code, dependencies, main, rfl⟩
    · cases hEq
  | some k =>
    cases k with
    | static m =>
      obtain ⟨m', hm', hCase⟩ := h.of_static? (Session.static?_eq_some_iff.2 hm)
      rw [Session.static?_eq_some_iff, hn] at hm'
      cases hm'
      exact .inl ⟨m, Session.static?_eq_some_iff.2 hm, hCase⟩
    | synthetic m =>
      obtain ⟨m', hm', -⟩ := h.of_synthetic hm
      rw [hn] at hm'
      cases hm'

theorem synthetic_cases (h : Change x y) {n : SyntheticModule}
    (hn : y.state.module? id = some (.synthetic n)) :
    (∃ m, x.state.module? id = some (.synthetic m) ∧
        (n = m ∨ ∃ fresh, n = (m.evaluate fresh).2)) ∨
      ∃ url exports, n = .ofNamespace url exports := by
  cases hm : x.state.module? id with
  | none =>
    obtain ⟨r, hNew, -⟩ := h.of_none hm hn
    rcases hNew with ⟨_, _, _, hEq⟩ | ⟨exports, hEq⟩
    · cases hEq
    · cases hEq
      exact .inr ⟨_, exports, rfl⟩
  | some k =>
    cases k with
    | static m =>
      obtain ⟨m', hm', -⟩ := h.of_static? (Session.static?_eq_some_iff.2 hm)
      rw [Session.static?_eq_some_iff, hn] at hm'
      cases hm'
    | synthetic m =>
      obtain ⟨m', hm', hCase⟩ := h.of_synthetic hm
      rw [hn] at hm'
      cases hm'
      exact .inl ⟨m, rfl, hCase⟩

/-- What holds of every synthetic module that is made, and behind every evaluation, holds of all. -/
theorem forall_synthetic {P : SyntheticModule → Prop} (h : Change x y)
    (hNew : ∀ url exports, P (.ofNamespace url exports))
    (hEvaluate : ∀ m fresh, P m → P (m.evaluate fresh).2)
    (hx : ∀ id m, x.state.module? id = some (.synthetic m) → P m) :
    ∀ id m, y.state.module? id = some (.synthetic m) → P m := by
  intro id n hn
  rcases h.synthetic_cases hn with ⟨m, hm, rfl | ⟨fresh, rfl⟩⟩ | ⟨url, exports, rfl⟩
  · exact hx id n hm
  · exact hEvaluate m fresh (hx id m hm)
  · exact hNew url exports

theorem linked_cases (h : Change x y) (hx : x.Lawful) {n : StaticModule}
    (hn : y.state.static? id = some n) (hLinked : n.linking = .linked) :
    (∃ m, x.state.static? id = some m ∧ m.linking = .linked) ∨
      ∀ table, n.imports = some table → ∀ j ∈ table.values, ∀ k,
        y.state.static? j = some k → k.linking = .linked := by
  rcases h.static_cases hn with ⟨m, hm, rfl | hStep⟩ | ⟨-, _, _, _, _, rfl⟩
  · exact .inl ⟨n, hm, hLinked⟩
  · cases hStep with
    | beginLinking hLinking => simp [StaticModule.beginLinking, hLinking] at hLinked
    | bindImports hLinking => cases hLinking.symm.trans hLinked
    | finishLinking hLinking hImports hClosed =>
      right
      intro table hTable
      have hSame : m.finishLinking.imports = m.imports := by
        simp [StaticModule.finishLinking, hLinking]
      rw [hSame, hImports] at hTable
      cases hTable
      exact hClosed
    | failLinking => cases hLinked
    | beginEvaluation hLinking => exact .inl ⟨m, hm, hLinking⟩
    | finishEvaluation hStatus =>
      exact .inl ⟨m, hm, (hx.static id m hm).linked_of_status (.inr (.inl hStatus))⟩
    | failEvaluation hStatus =>
      exact .inl ⟨m, hm, (hx.static id m hm).linked_of_status (.inr (.inl hStatus))⟩
  · cases hLinked

theorem bound_cases (h : Change x y) (hx : x.Lawful) {n : StaticModule}
    {table : OrderedMap ModuleId} (hn : y.state.static? id = some n)
    (hTable : n.imports = some table) :
    ∃ m, x.state.static? id = some m ∧ n.url = m.url ∧ n.dependencies = m.dependencies ∧
      (m.imports = some table ∨ x.Binds m table) := by
  rcases h.static_cases hn with ⟨m, hm, rfl | hStep⟩ | ⟨-, _, _, _, _, rfl⟩
  · exact ⟨n, hm, rfl, rfl, .inl hTable⟩
  · have hGrows := hStep.grows (hx.static id m hm)
    refine ⟨m, hm, hGrows.url, hGrows.dependencies, ?_⟩
    cases hImports : m.imports with
    | some old =>
      rw [hGrows.imports old hImports] at hTable
      exact .inl hTable
    | none =>
      cases hStep with
      | bindImports _ _ hBinds =>
        simp only [StaticModule.bindImports, hImports, Option.getD_none, Option.some.injEq]
          at hTable
        exact .inr (hTable ▸ hBinds)
      | beginLinking hLinking =>
        simp [StaticModule.beginLinking, hLinking, hImports] at hTable
      | finishLinking _ hSome =>
        rw [hImports] at hSome
        cases hSome
      | failLinking | beginEvaluation | finishEvaluation | failEvaluation =>
        cases hImports.symm.trans hTable
  · cases hTable

theorem linked_of_import (h : Change x y) (hx : x.Lawful) {j : ModuleId} {n k : StaticModule}
    {table : OrderedMap ModuleId} (hn : y.state.static? id = some n) (hLinked : n.linking = .linked)
    (hTable : n.imports = some table) (hj : j ∈ table.values) (hk : y.state.static? j = some k) :
    k.linking = .linked := by
  rcases h.linked_cases hx hn hLinked with ⟨m, hm, hLinked'⟩ | hClosed
  · -- A module that was linked before keeps its table, whose modules were linked before too.
    obtain ⟨table', hTable'⟩ := Option.isSome_iff_exists.1 ((hx.static id m hm).imports hLinked')
    obtain ⟨n', hn', hGrows⟩ := (h.later hx).static id m hm
    rw [hn] at hn'
    cases hn'
    have hSame := hGrows.imports table' hTable'
    rw [hTable] at hSame
    cases hSame
    obtain ⟨k', hk'⟩ := hx.module_of_import hm hTable' hj
    obtain ⟨l, hl, hGrows'⟩ := (h.later hx).static?_of_module hk' hk
    exact hGrows'.linked (hx.closed id m _ j l hm hLinked' hTable' hj hl)
  · exact hClosed table hTable j hj k hk

theorem started_of_mem (h : Change x y) (hx : x.Lawful) {url : String}
    (hUrl : url ∈ y.evaluatedUrls) :
    ∃ id m, y.state.static? id = some m ∧ m.url = url ∧ m.Started := by
  have hOld : url ∈ x.evaluatedUrls → ∃ id m, y.state.static? id = some m ∧ m.url = url ∧
      m.Started := by
    intro hUrl
    obtain ⟨id, m, hm, hUrl', hStarted⟩ := hx.begun url hUrl
    obtain ⟨m', hm', hGrows⟩ := (h.later hx).static id m hm
    exact ⟨id, m', hm', hGrows.url.trans hUrl', hGrows.started hStarted⟩
  rcases h.evaluatedUrls_eq with hSame | ⟨id, n, hn, hStatus, -, hNew⟩
  · exact hOld (hSame ▸ hUrl)
  · rw [hNew, List.mem_append, List.mem_singleton] at hUrl
    rcases hUrl with hUrl | rfl
    · exact hOld hUrl
    · refine ⟨id, n, hn, rfl, ?_, by simp [hStatus]⟩
      rcases h.static_cases hn with ⟨m, hm, rfl | hStep⟩ | ⟨-, _, _, _, _, rfl⟩
      · exact (hx.static id n hm).linked_of_status (.inr (.inl hStatus))
      · exact (hStep.lawful (hx.static id m hm)).linked_of_status (.inr (.inl hStatus))
      · cases hStatus

/-- Every step keeps a session lawful. -/
theorem lawful (h : Change x y) (hx : x.Lawful) : y.Lawful := by
  have hLater := h.later hx
  constructor
  case cached =>
    intro id n hn
    rcases h.module_cases hx hn with ⟨m, hm, hUrl, -⟩ | ⟨r, hNew, -, hGet⟩
    · rw [hUrl]
      exact hLater.cache _ _ (hx.cached id m hm)
    · rw [hNew.url_eq]
      exact hGet
  case stored =>
    intro url id hGet
    rcases h.of_get?_eq_some hGet with hOld | hNew
    · obtain ⟨m, hm, hUrl⟩ := hx.stored url id hOld
      obtain ⟨m', hm', hUrl', -⟩ := hLater.module hm
      exact ⟨m', hm', hUrl'.trans hUrl⟩
    · exact hNew
  case static =>
    intro id n hn
    rcases h.static_cases hn with ⟨m, hm, rfl | hStep⟩ | ⟨-, _, _, _, _, rfl⟩
    · exact hx.static id n hm
    · exact hStep.lawful (hx.static id m hm)
    · exact StaticModule.lawful_create _ _ _ _
  case synthetic =>
    exact h.forall_synthetic SyntheticModule.native_ofNamespace (fun _ fresh hm => hm.evaluate fresh)
      hx.synthetic
  case created =>
    intro id n hn
    rcases h.module_cases hx hn with ⟨m, hm, hUrl, hDependencies⟩ | ⟨r, hNew, hCreated, -⟩
    · obtain ⟨r, k, hCreated, hUrl', hDependencies'⟩ := hx.created id m hm
      exact ⟨r, k, hLater.events.subset hCreated, hUrl'.trans hUrl.symm,
        hDependencies'.trans hDependencies.symm⟩
    · exact ⟨r, n, hLater.events.subset hCreated, hNew.url_eq.symm, rfl⟩
  case bound =>
    intro id n table hn hTable
    obtain ⟨m, hm, hUrl, hDependencies, hOld | hBinds⟩ := h.bound_cases hx hn hTable
    · exact hLater.binds hUrl hDependencies (hx.bound id m table hm hOld)
    · exact hLater.binds hUrl hDependencies hBinds
  case closed => exact fun _ _ _ _ _ => h.linked_of_import hx
  case begun => exact fun _ => h.started_of_mem hx
  case once =>
    rcases h.evaluatedUrls_eq with hSame | ⟨id, n, -, -, hOnce, hNew⟩
    · exact hSame ▸ hx.once
    · rw [hNew, List.nodup_append]
      refine ⟨hx.once, by simp, fun a ha b hb => ?_⟩
      rw [List.mem_singleton] at hb
      subst hb
      rintro rfl
      exact hOnce ha

end Change

end ModuleLoader
