import ModuleLoader.Proofs.Shared.Finding

/-! The steps of one round of a link.  The modules on a frontier bind their imports together: each of
them takes turns with the others, and so do the specifiers of one module.  `RoundStep` lists all that
one of these turns may do, and the theorems after it say what a turn means for the modules, the cache
and the events.  Each child keeps to its share: it binds the imports of its own module, and resolves
specifiers there. -/

namespace ModuleLoader

variable {σ : Type} {x y z : Instant σ}

namespace Session

def IsOpen (s : Session σ) (id : ModuleId) : Prop :=
  ∃ m, s.static? id = some m ∧ (m.linking = .unlinked ∨ m.linking = .linking)

def IsBound (s : Session σ) (id : ModuleId) (imports : List ModuleId) : Prop :=
  ∃ m table, s.static? id = some m ∧ m.linking = .linking ∧ m.imports = some table ∧
    imports = table.values

def HasFailed (s : Session σ) (id : ModuleId) (e : LoadError) : Prop :=
  ∃ m, s.static? id = some m ∧ m.linking = .errored ∧ m.failure = some e.message

end Session

open Session

/-- No two static modules have the same URL, and none declares a specifier twice. -/
structure Moment.Distinct (x : Instant σ) : Prop where
  urls : ∀ id j m n, x.state.static? id = some m → x.state.static? j = some n → m.url = n.url →
    id = j
  once : ∀ id m, x.state.static? id = some m → m.dependencies.Nodup

/-- What some tasks of a round do: they bind the imports of modules, and resolve specifiers in
modules. -/
structure Share where
  binds : ModuleId → Prop
  resolves : (specifier referrer : String) → Prop

namespace Share

/-- The second share has all that the first one has. -/
structure Within (a b : Share) : Prop where
  binds : ∀ id, a.binds id → b.binds id
  resolves : ∀ specifier referrer, a.resolves specifier referrer → b.resolves specifier referrer

/-- What the tasks with all other shares do, if specifiers and modules can be told apart. -/
def others (start : Instant σ) (a : Share) : Share where
  binds id := ¬a.binds id
  resolves specifier referrer := start.Distinct → ¬a.resolves specifier referrer

/-- What the task of one module does. -/
def of (start : Instant σ) (id : ModuleId) : Share where
  binds := (· = id)
  resolves specifier referrer :=
    ∃ m, start.state.static? id = some m ∧ m.url = referrer ∧ specifier ∈ m.dependencies

/-- What the task of one specifier does. -/
def one (specifier referrer : String) : Share where
  binds _ := False
  resolves specifier' referrer' := specifier' = specifier ∧ referrer' = referrer

/-- What the tasks of all modules on a frontier do. -/
def all (start : Instant σ) (ids : List ModuleId) : Share where
  binds := (· ∈ ids)
  resolves specifier referrer := ∃ id ∈ ids, (of start id).resolves specifier referrer

def none : Share where
  binds _ := False
  resolves _ _ := False

/-- The events that tasks with the share may report. -/
def Allows (a : Share) : Event → Prop
  | .resolved specifier (some referrer) _ => a.resolves specifier referrer
  | .created _ _ => True
  | .asked id => a.binds id
  | .resolved _ Option.none _ | .evaluated _ _ => False

theorem not_others_allows {start : Instant σ} {a : Share} {specifier referrer : String}
    {outcome : Except LoadError ResolvedModule} (hDistinct : start.Distinct)
    (hMine : a.resolves specifier referrer) :
    ¬(a.others start).Allows (.resolved specifier (some referrer) outcome) :=
  fun hOther : start.Distinct → ¬_ => hOther hDistinct hMine

theorem Within.allows {a b : Share} {event : Event} (h : a.Within b) (hAllows : a.Allows event) :
    b.Allows event := by
  cases event with
  | resolved specifier parent outcome =>
    cases parent with
    | some referrer => exact h.resolves specifier referrer hAllows
    | none => exact hAllows
  | asked id => exact h.binds id hAllows
  | created | evaluated => exact hAllows

theorem Within.refl (a : Share) : a.Within a := ⟨fun _ => id, fun _ _ => id⟩

theorem none_within (a : Share) : none.Within a := ⟨fun _ => False.elim, fun _ _ => False.elim⟩

theorem of_within_all {start : Instant σ} {ids : List ModuleId} {id : ModuleId} (hid : id ∈ ids) :
    (of start id).Within (all start ids) :=
  ⟨fun _ hEq => hEq ▸ hid, fun _ _ hMine => ⟨id, hid, hMine⟩⟩

/-- Where modules can be told apart, no two of them have the same share. -/
theorem of_within_others {start : Instant σ} {id j : ModuleId} (hNe : id ≠ j) :
    (of start id).Within ((of start j).others start) := by
  refine ⟨fun _ hEq hEq' => hNe (hEq.symm.trans hEq'), ?_⟩
  rintro specifier referrer ⟨m, hm, hUrl, -⟩ hDistinct ⟨n, hn, hUrl', -⟩
  exact hNe (hDistinct.urls id j m n hm hn (hUrl.trans hUrl'.symm))

theorem Within.others {start : Instant σ} {a b : Share} (h : a.Within b) :
    (b.others start).Within (a.others start) :=
  ⟨fun id hid ha => hid (h.binds id ha), fun specifier referrer hb hDistinct ha =>
    hb hDistinct (h.resolves specifier referrer ha)⟩

end Share

theorem Change.of_fixed {id : ModuleId} {m : StaticModule} {f : StaticModule → StaticModule}
    (hm : x.state.static? id = some m) (hf : f m = m) :
    Change x (x.move (x.state.updateStatic id f)) := by
  rw [updateStatic_of_fixed fun n hn => by cases hm.symm.trans hn; exact hf]
  exact .refl x

/-- What a round makes of the record of a module, with the place of the section that this closes. -/
inductive RoundEdit (x : Instant σ) (id : ModuleId) (m : StaticModule) :
    Option Place → (StaticModule → StaticModule) → Prop
  | begin (hOpen : m.linking = .unlinked ∨ m.linking = .linking) :
      RoundEdit x id m none .beginLinking
  | bind {table : OrderedMap ModuleId} (hLinking : m.linking = .linking) (hImports : m.imports = none)
      (hBinds : x.Binds m table) : RoundEdit x id m (some (.binding id)) (·.bindImports table)
  | fail {e : LoadError} (hLinking : m.linking = .linking)
      (hFails : ∃ specifier ∈ m.dependencies, x.Fails specifier m.url) :
      RoundEdit x id m none (·.failLinking e)

/-- One step of the tasks with the share, in a round from `start` on. -/
inductive RoundStep (env : Environment σ) (start : Instant σ) (share : Share) :
    Option Place → Instant σ → Instant σ → Prop
  | outside {x : Instant σ} {s : Session σ} (hModules : s.modules = x.state.modules)
      (hCache : s.cache = x.state.cache) : RoundStep env start share none x (x.move s)
  | slot {x : Instant σ} (url : String) : RoundStep env start share none x
      (x.move { x.state with cache := (x.state.cache.slot url).2 })
  /-- A section is closed, and nothing else is done. -/
  | close {x : Instant σ} (place : Place) : RoundStep env start share (some place) x x
  | resolved {x : Instant σ} {specifier referrer : String} {outcome : Except LoadError ResolvedModule}
      (hMine : share.resolves specifier referrer)
      (hResolves : ∀ r, outcome = .ok r → Resolves env specifier (some referrer) none r)
      (hFirst : start.Distinct →
        ∀ r, .resolved specifier (some referrer) (.ok r) ∉ x.since start) :
      RoundStep env start share none x (x.hear (.resolved specifier (some referrer) outcome))
  | created {x : Instant σ} (r : ResolvedModule) (outcome : Except LoadError Module) :
      RoundStep env start share none x (x.hear (.created r outcome))
  | create {x : Instant σ} {r : ResolvedModule} {slot : SlotId} {m : Module}
      (hSlot : x.state.cache.IsSlot r.url slot) (hNone : x.state.cache.record? slot = none)
      (hCreated : .created r (.ok m) ∈ x.events) (hMade : env.Makes r.url false m)
      (hFound : ∃ specifier referrer,
        .resolved specifier (some referrer) (.ok r) ∈ x.since start) :
      RoundStep env start share (some (.making slot)) x (x.move (x.state.withModule slot m))
  | asked {x : Instant σ} {id : ModuleId} (hMine : share.binds id)
      (hFirst : .asked id ∉ x.since start) : RoundStep env start share none x (x.hear (.asked id))
  | update {x : Instant σ} {l : Option Place} {id : ModuleId} {m : StaticModule}
      {f : StaticModule → StaticModule} (hMine : share.binds id) (hm : x.state.static? id = some m)
      (hEdit : RoundEdit x id m l f) :
      RoundStep env start share l x (x.move (x.state.updateStatic id f))

namespace RoundStep

variable {env : Environment σ} {start : Instant σ} {a b : Share} {l : Option Place}

theorem mono (h : RoundStep env start a l x y) (hWithin : a.Within b) :
    RoundStep env start b l x y := by
  cases h with
  | outside hModules hCache => exact .outside hModules hCache
  | slot url => exact .slot url
  | close place => exact .close place
  | resolved hMine hResolves hFirst => exact .resolved (hWithin.resolves _ _ hMine) hResolves hFirst
  | created r outcome => exact .created r outcome
  | create hSlot hNone hCreated hMade hFound => exact .create hSlot hNone hCreated hMade hFound
  | asked hMine hFirst => exact .asked (hWithin.binds _ hMine) hFirst
  | update hMine hm hEdit => exact .update (hWithin.binds _ hMine) hm hEdit

theorem refl (x : Instant σ) : RoundStep env start a none x x := .outside rfl rfl

theorem persists (h : RoundStep env start a l x y) : x.Persists y := by
  cases h with
  | outside hModules hCache =>
    exact ⟨List.prefix_refl _, fun _ _ hSlot => by rwa [Moment.state_move, hCache],
      fun _ _ hGet => by rwa [Moment.state_move, hCache]⟩
  | slot url =>
    exact ⟨List.prefix_refl _, fun _ _ hSlot => ModuleCache.isSlot_slot_of_isSlot hSlot url,
      fun _ _ hGet => by rwa [Moment.state_move, ModuleCache.get?_slot]⟩
  | close => exact .refl _
  | resolved | created | asked => exact ⟨List.prefix_append _ _, fun _ _ => id, fun _ _ => id⟩
  | @create _ r slot m hSlot hNone =>
    refine ⟨List.prefix_refl _, fun _ _ hOther => ModuleCache.isSlot_fill hOther _ _,
      fun url id hGet => ?_⟩
    have hUnbound := ModuleCache.get?_of_record?_none hSlot hNone
    rw [Moment.state_move, get?_withModule hSlot hUnbound, if_neg, hGet]
    rintro rfl
    rw [hUnbound] at hGet
    cases hGet
  | update => exact ⟨List.prefix_refl _, fun _ _ => id, fun _ _ => id⟩

/-- Only the task at a slot fills it. -/
theorem record?_eq (h : RoundStep env start a l x y) {slot : SlotId}
    (hOther : l ≠ some (.making slot)) :
    y.state.cache.record? slot = x.state.cache.record? slot := by
  cases h with
  | outside hModules hCache => rw [Moment.state_move, hCache]
  | slot url => exact ModuleCache.record?_slot _ url slot
  | @create _ r made m =>
    have hNe : made ≠ slot := fun hEq => hOther (by rw [hEq])
    simp [withModule, ModuleCache.fill, ModuleCache.record?, hNe]
  | close | resolved | created | asked | update => rfl

/-- Nothing is evaluated, and modules that are not in the share stay as they are. -/
theorem frame (h : RoundStep env start a l x y) : x.Frame a.binds y := by
  refine ⟨fun id m hOther hm => ?_, ?_⟩
  · cases h with
    | outside hModules => simpa [module?, hModules] using hm
    | slot | close | resolved | created | asked => exact hm
    | create => exact module?_withModule_of_some _ _ hm
    | @update _ _ i n f hMine =>
      have hNe : i ≠ id := fun hEq => hOther (hEq ▸ hMine)
      simpa [hNe] using hm
  · cases h with
    | outside | slot | close | create | update => rfl
    | resolved | created | asked => simp [Moment.evaluations, Event.evaluation?]

theorem static?_eq_some (h : RoundStep env start a l x y) {id : ModuleId} {m : StaticModule}
    (hOther : ¬a.binds id) (hm : x.state.static? id = some m) : y.state.static? id = some m := by
  rw [static?_eq_some_iff] at hm ⊢
  exact h.frame.same id _ hOther hm

/-- A module that was not there before is what some specifier was resolved to. -/
theorem of_none (h : RoundStep env start a l x y) {id : ModuleId} {n : Module}
    (hNone : x.state.module? id = none) (hn : y.state.module? id = some n) :
    ∃ r, env.Makes r.url false n ∧ y.state.cache.get? r.url = some id ∧
      ∃ specifier referrer, .resolved specifier (some referrer) (.ok r) ∈ y.since start := by
  have hOld : x.state.module? id ≠ some n := by simp [hNone]
  cases h with
  | outside hModules => exact absurd (by simpa [module?, hModules] using hn) hOld
  | slot | close | resolved | created | asked => exact absurd hn hOld
  | @create _ r slot m hSlot hEmpty hCreated hMade hFound =>
    rw [Moment.state_move, module?_withModule] at hn
    split at hn
    · next hid =>
      cases hn
      have hUnbound := ModuleCache.get?_of_record?_none hSlot hEmpty
      exact ⟨r, hMade, by simp [get?_withModule hSlot hUnbound, hid], hFound⟩
    · exact absurd hn hOld
  | update => simp [hNone] at hn

/-- A step of a round is a change of the session. -/
theorem change (h : RoundStep env start a l x y) : Change x y := by
  cases h with
  | outside hModules hCache => exact .outside hModules fun url => by rw [hCache]
  | slot url => exact .outside rfl fun _ => ModuleCache.get?_slot ..
  | close => exact .refl x
  | resolved | created | asked => exact .answer rfl
  | create hSlot hNone hCreated hMade =>
    exact .create hSlot (ModuleCache.get?_of_record?_none hSlot hNone) hCreated hMade.isNew
  | update _ hm hEdit =>
    cases hEdit with
    | begin hOpen =>
      rcases hOpen with hOpen | hOpen
      · exact .update hm (.beginLinking hOpen)
      · exact .of_fixed hm (by simp [StaticModule.beginLinking, hOpen])
    | bind hLinking hImports hBinds => exact .update hm (.bindImports hLinking hImports hBinds)
    | fail hLinking hFails => exact .update hm (.failLinking hLinking (.inl hFails))

/-- What is new after a step was new before, or the share allows it. -/
theorem mem_since (h : RoundStep env start a l x y) (hx : start.events <+: x.events) {event : Event}
    (hEvent : event ∈ y.since start) : event ∈ x.since start ∨ a.Allows event := by
  cases h with
  | outside | slot | close | create | update => exact .inl hEvent
  | resolved hMine =>
    rw [Moment.since_hear hx, List.mem_append, List.mem_singleton] at hEvent
    exact hEvent.imp_right fun hEq => by rw [hEq]; exact hMine
  | created r outcome =>
    rw [Moment.since_hear hx, List.mem_append, List.mem_singleton] at hEvent
    exact hEvent.imp_right fun hEq => by rw [hEq]; trivial
  | asked hMine =>
    rw [Moment.since_hear hx, List.mem_append, List.mem_singleton] at hEvent
    exact hEvent.imp_right fun hEq => by rw [hEq]; exact hMine

end RoundStep

/-- A moment of a round, in which no specifier of a module is resolved twice if specifiers and
modules can be told apart. -/
structure Moment.InRound (start x : Instant σ) : Prop where
  events : start.events <+: x.events
  once : start.Distinct → ∀ specifier referrer r r',
    .resolved specifier (some referrer) (.ok r) ∈ x.since start →
      .resolved specifier (some referrer) (.ok r') ∈ x.since start → r = r'

theorem Moment.InRound.refl (x : Instant σ) : x.InRound x :=
  ⟨List.prefix_refl _, fun _ _ _ _ _ hMem => by simp [since] at hMem⟩

theorem Moment.InRound.next {env : Environment σ} {start : Instant σ} {a : Share} {l : Option Place}
    (hx : start.InRound x) (h : RoundStep env start a l x y) : start.InRound y := by
  refine ⟨hx.events.trans h.persists.events, fun hDistinct => ?_⟩
  cases h with
  | outside | slot | close | create | update => exact hx.once hDistinct
  | @resolved _ specifier referrer outcome hMine hResolves hFirst =>
    intro specifier' referrer' r r' hr hr'
    rw [since_hear hx.events, List.mem_append, List.mem_singleton] at hr hr'
    rcases hr with hr | hr <;> rcases hr' with hr' | hr'
    · exact hx.once hDistinct _ _ _ _ hr hr'
    · cases hr'
      exact (hFirst hDistinct _ hr).elim
    · cases hr
      exact (hFirst hDistinct _ hr').elim
    · cases hr
      cases hr'
      rfl
  | created | asked =>
    intro specifier' referrer' r r' hr hr'
    rw [since_hear hx.events, List.mem_append, List.mem_singleton] at hr hr'
    exact hx.once hDistinct _ _ _ _ (hr.resolve_right (by simp)) (hr'.resolve_right (by simp))

end ModuleLoader
