import ModuleLoader.Proofs.Session.Creation
import ModuleLoader.Proofs.Task.Contract
import ModuleLoader.Shared.Binding

/-! How a task finds modules, whatever the rules are to which the tasks of a session keep.  A
specifier is resolved, and the module that it means is made at its slot unless it is there.  What a
task relies on in the meantime has to be stable: it outlasts the steps of other tasks, and what the
task does to the world. -/

namespace ModuleLoader

/-- What was reported from the moment `x` on. -/
def Moment.since {S τ : Type} (y x : Moment S τ) : List τ := y.events.drop x.events.length

section Since

variable {S τ : Type} {x y z : Moment S τ}

theorem Moment.since_hear (h : x.events <+: y.events) (event : τ) :
    (y.hear event).since x = y.since x ++ [event] := by
  rw [since, events_hear, List.drop_append_of_le_length h.length_le, since]

theorem Moment.mem_of_since {event : τ} (h : event ∈ y.since x) : event ∈ y.events :=
  List.mem_of_mem_drop h

theorem Moment.since_append (h : x.events <+: y.events) (h' : y.events <+: z.events) :
    z.since x = y.since x ++ z.since y := by
  obtain ⟨earlier, hEarlier⟩ := h
  obtain ⟨later, hLater⟩ := h'
  simp [since, ← hLater, ← hEarlier]

end Since

/-- The moments that a shared session has gone through. -/
abbrev Course (σ : Type) := History (Session σ) Event

variable {σ : Type} {R : Rules (Session σ) Event Place} {own : Place → Prop} {h k j : Course σ}

/-- What was reported stays reported, and slots and modules that were there stay there. -/
structure Moment.Persists (x y : Instant σ) : Prop where
  events : x.events <+: y.events
  slots : ∀ url slot, x.state.cache.IsSlot url slot → y.state.cache.IsSlot url slot
  cache : ∀ url id, x.state.cache.get? url = some id → y.state.cache.get? url = some id

theorem Moment.Persists.refl (x : Instant σ) : x.Persists x :=
  ⟨List.prefix_refl _, fun _ _ => id, fun _ _ => id⟩

theorem Moment.Persists.trans {x y z : Instant σ} (h : x.Persists y) (h' : y.Persists z) :
    x.Persists z :=
  ⟨h.events.trans h'.events, fun url slot hSlot => h'.slots url slot (h.slots url slot hSlot),
    fun url id hGet => h'.cache url id (h.cache url id hGet)⟩

theorem Moment.Persists.means {x y : Instant σ} {specifier referrer : String} {id : ModuleId}
    (h : x.Persists y) (hMeans : x.Means specifier referrer id) : y.Means specifier referrer id := by
  obtain ⟨r, hResolved, hGet⟩ := hMeans
  exact ⟨r, h.events.subset hResolved, h.cache _ _ hGet⟩

theorem Moment.Persists.fails {x y : Instant σ} {specifier referrer : String}
    (h : x.Persists y) (hFails : x.Fails specifier referrer) : y.Fails specifier referrer := by
  rcases hFails with ⟨e, hResolved⟩ | ⟨r, e, hResolved, hCreated⟩
  · exact .inl ⟨e, h.events.subset hResolved⟩
  · exact .inr ⟨r, e, h.events.subset hResolved, h.events.subset hCreated⟩

/-- The specifier was resolved after the moment `x`, to the URL of the module. -/
def Moment.Found (y x : Instant σ) (specifier referrer : String) (id : ModuleId) : Prop :=
  ∃ r, .resolved specifier (some referrer) (.ok r) ∈ y.since x ∧
    y.state.cache.get? r.url = some id

theorem Moment.Found.later {x y z : Instant σ} {specifier referrer : String} {id : ModuleId}
    (h : y.Found x specifier referrer id) (hPrefix : x.events <+: y.events) (hLater : y.Persists z) :
    z.Found x specifier referrer id := by
  obtain ⟨r, hResolved, hGet⟩ := h
  refine ⟨r, ?_, hLater.cache _ _ hGet⟩
  rw [since_append hPrefix hLater.events]
  exact List.mem_append_left _ hResolved

theorem Moment.Found.means {x y : Instant σ} {specifier referrer : String} {id : ModuleId}
    (h : y.Found x specifier referrer id) : y.Means specifier referrer id := by
  obtain ⟨r, hResolved, hGet⟩ := h
  exact ⟨r, mem_of_since hResolved, hGet⟩

namespace Rules

/-- By the rules a task can look for modules. -/
class Finds (R : Rules (Session σ) Event Place) : Prop where
  persists : ∀ {l h y}, R.Move l h y → h.now.Persists y
  world : ∀ {h : Course σ} {s}, s.modules = h.now.state.modules → s.cache = h.now.state.cache →
    R.Act none h (h.now.move s)
  slot : ∀ (h : Course σ) url,
    R.Act none h (h.now.move { h.now.state with cache := (h.now.state.cache.slot url).2 })
  /-- A module is not made in the end. -/
  close : ∀ h slot, R.Act (some (.making slot)) h h.now
  making : ∀ slot s, R.Kept (.making slot) s ↔ s.cache.record? slot = none

/-- From the history on, the rules let a task put what the environment makes into its slot. -/
structure Fills (R : Rules (Session σ) Event Place) (env : Environment σ) (r : ResolvedModule)
    (main : Bool) (h : Course σ) : Prop where
  report : ∀ (k : Course σ) slot outcome, h.now.events <+: k.now.events →
    k.now.state.cache.IsSlot r.url slot → k.now.state.cache.record? slot = none →
    R.Act none k (k.now.hear (.created r outcome))
  create : ∀ (k : Course σ) slot m, h.now.events <+: k.now.events →
    k.now.state.cache.IsSlot r.url slot → k.now.state.cache.record? slot = none →
    .created r (.ok m) ∈ k.now.events → env.Makes r.url main m →
    R.Act (some (.making slot)) k (k.now.move (k.now.state.withModule slot m))

theorem Fills.later {env : Environment σ} {r : ResolvedModule} {main : Bool}
    (hFills : R.Fills env r main h) (hPrefix : h.now.events <+: k.now.events) :
    R.Fills env r main k :=
  ⟨fun j slot outcome hj => hFills.report j slot outcome (hPrefix.trans hj),
    fun j slot m hj => hFills.create j slot m (hPrefix.trans hj)⟩

/-- The fact outlasts what other tasks do, and what the task does to the world. -/
structure Stable (R : Rules (Session σ) Event Place) (own : Place → Prop) (fact : Course σ → Prop) :
    Prop where
  pass : ∀ {k j}, R.Passes own k j → fact k → fact j
  world : ∀ {k : Course σ} {s}, s.modules = k.now.state.modules → s.cache = k.now.state.cache →
    fact k → fact (k.next (k.now.move s))

theorem stable_true : R.Stable own fun _ => True := ⟨fun _ => id, fun _ _ => id⟩

variable [R.Finds]

theorem Ways.persists (hk : R.Ways own h k) : h.now.Persists k.now :=
  hk.invariant (I := fun k => h.now.Persists k.now) (.refl _) fun hMove hh =>
    hh.trans (Finds.persists hMove)

theorem Passes.persists (hk : R.Passes own h k) : h.now.Persists k.now := hk.ways.persists

/-- A slot that is empty stays empty while the task is there. -/
theorem stable_making (url : String) {slot : SlotId} (hOwn : own (.making slot)) :
    R.Stable own fun k => R.Valid k ∧ k.now.state.cache.IsSlot url slot ∧
      k.now.state.cache.record? slot = none where
  pass := by
    rintro k j hj ⟨hValid, hSlot, hNone⟩
    refine ⟨hj.valid hValid, hj.persists.slots url slot hSlot, ?_⟩
    rw [← Finds.making (R := R)] at hNone ⊢
    exact hj.kept hValid hOwn hNone
  world := by
    rintro k s hModules hCache ⟨hValid, hSlot, hNone⟩
    refine ⟨R.valid_next hValid (.inl (Finds.world hModules hCache)), ?_⟩
    simpa only [History.next, Moment.state_move, hCache] using ⟨hSlot, hNone⟩

open ModuleLoader.Task Session

variable {env : Environment σ} {α : Type} {fact : Course σ → Prop}

theorem meets_ofWorld (hFact : R.Stable own fact) (hh : fact h)
    (action : StateM σ (Except LoadError α)) :
    (ofAction (Load.ofWorld action)).Meets R own (fun _ k => fact k) (fun _ k => fact k) h := by
  rw [Load.ofWorld, ofAction_bind]
  refine meets_modifyGet fun k hk => ⟨Finds.world rfl rfl, ?_⟩
  have hNext := hFact.world (k := k) (s := { k.now.state with
    world := (action k.now.state.world).2 }) rfl rfl (hFact.pass hk hh)
  exact meets_ofExcept (fun _ _ j hj => hFact.pass hj hNext) fun _ _ j hj => hFact.pass hj hNext

/-- What an action comes to is reported. -/
theorem meets_reporting {action : Load σ α} {event : Except LoadError α → Event} {given : α → Prop}
    (hAction : (ofAction action).Meets R own (fun _ k => fact k) (fun _ k => fact k) h)
    (hGives : action.Gives given) (hFact : R.Stable own fact)
    (hReport : ∀ outcome k, h.now.events <+: k.now.events → fact k →
      (∀ a, outcome = .ok a → given a) → R.Act none k (k.now.hear (event outcome))) :
    (ofAction (action.reporting event)).Meets R own
      (fun e k => event (.error e) ∈ k.now.since h.now)
      (fun a k => event (.ok a) ∈ k.now.since h.now ∧ given a) h := by
  rw [Action.reporting, ofAction_bind, ofAction_attempt]
  have hTell : ∀ outcome k, R.Ways own h k → fact k → (∀ a, outcome = .ok a → given a) →
      (ofAction (Action.tell (event outcome) >>= fun _ => .ofExcept outcome)).Meets R own
        (fun e k => event (.error e) ∈ k.now.since h.now)
        (fun a k => event (.ok a) ∈ k.now.since h.now ∧ given a) k := by
    intro outcome k hk hNow hGiven
    rw [ofAction_bind]
    refine meets_tell fun j hj => ?_
    have hPrefix : h.now.events <+: j.now.events := (Ways.persists (hk.trans hj.ways)).events
    refine ⟨hReport outcome j hPrefix (hFact.pass hj hNow) hGiven, ?_⟩
    have hHeard : ∀ i, R.Passes own (j.next (j.now.hear (event outcome))) i →
        event outcome ∈ i.now.since h.now := by
      intro i hi
      rw [Moment.since_append (hPrefix.trans (List.prefix_append _ _)) hi.persists.events]
      refine List.mem_append_left _ ?_
      rw [History.next, Moment.since_hear hPrefix]
      simp
    refine meets_ofExcept (fun a ha i hi => ⟨?_, hGiven a ha⟩) fun e he i hi => ?_
    · exact ha ▸ hHeard i hi
    · exact he ▸ hHeard i hi
  refine meets_bind (meets_attempt ((hAction.gives hGives).ways_mono ?_ ?_))
  · exact fun e k hk hNow => hTell (.error e) k hk hNow (by simp)
  · exact fun a k hk hNow => hTell (.ok a) k hk hNow.1 fun b hb => by cases hb; exact hNow.2

theorem meets_resolve (hFact : R.Stable own fact) (hh : fact h) (specifier : String)
    (parent : Option String) (packages : Option (PackageResolver σ))
    (hReport : ∀ outcome k, h.now.events <+: k.now.events → fact k →
      (∀ r, outcome = .ok r → Resolves env specifier parent packages r) →
        R.Act none k (k.now.hear (.resolved specifier parent outcome))) :
    (ofAction (resolve env specifier parent packages)).Meets R own
      (fun e k => .resolved specifier parent (.error e) ∈ k.now.since h.now)
      (fun r k => .resolved specifier parent (.ok r) ∈ k.now.since h.now) h := by
  unfold resolve
  refine (meets_reporting ?_ ?_ hFact hReport).mono fun _ _ hDone => hDone.1
  · cases parent with
    | none =>
      simp only [pure_bind]
      exact meets_ofWorld hFact hh _
    | some text =>
      cases hParse : Url.parse text with
      | error reason =>
        simp only [hParse]
        exact fun k hk => hFact.pass hk hh
      | ok u =>
        simp only [hParse, pure_bind]
        exact meets_ofWorld hFact hh _
  · cases parent with
    | none =>
      simp only [pure_bind, Load.ofWorld, Action.gives_bind, Action.gives_modifyGet,
        Action.gives_ofExcept]
      exact fun s r hr => ⟨_, s.world, rfl, hr⟩
    | some text =>
      cases hParse : Url.parse text with
      | error reason =>
        simp only [hParse]
        exact Action.gives_throw
      | ok u =>
        simp only [hParse, pure_bind, Load.ofWorld, Action.gives_bind, Action.gives_modifyGet,
          Action.gives_ofExcept]
        exact fun s r hr => ⟨u, s.world, by simp [startUrl?, hParse, Except.toOption], hr⟩

theorem meets_transpile (hFact : R.Stable own fact) (hh : fact h) (url : String) :
    (ofAction (transpile env url)).Meets R own (fun _ k => fact k) (fun _ k => fact k) h := by
  unfold transpile
  cases env.engine with
  | none => exact meets_throw fun k hk => hFact.pass hk hh
  | some engine =>
    simp only [ofAction_bind]
    refine meets_modifyGet fun k hk => ⟨Finds.world rfl rfl, ?_⟩
    have hNext : ∀ config world, fact (k.next (k.now.move { k.now.state with config, world })) :=
      fun _ _ => hFact.world rfl rfl (hFact.pass hk hh)
    exact meets_ofExcept (fun _ _ j hj => hFact.pass hj (hNext _ _))
      fun _ _ j hj => hFact.pass hj (hNext _ _)

/-- What the environment makes of a module is reported while its slot is empty. -/
theorem meets_createModule {r : ResolvedModule} {main : Bool} {slot : SlotId} (hh : R.Valid h)
    (hOwn : own (.making slot)) (hSlot : h.now.state.cache.IsSlot r.url slot)
    (hNone : h.now.state.cache.record? slot = none) (hFills : R.Fills env r main h) :
    (ofAction (createModule env r main)).Meets R own
      (fun e k => .created r (.error e) ∈ k.now.since h.now)
      (fun m k => .created r (.ok m) ∈ k.now.since h.now ∧ env.Makes r.url main m) h := by
  have hFact := stable_making (R := R) r.url hOwn
  have hStart := And.intro hh (And.intro hSlot hNone)
  have hCreated : (ofAction (createModule env r main)).Meets R own
      (fun e k => .created r (.error e) ∈ k.now.since h.now)
      (fun m k => .created r (.ok m) ∈ k.now.since h.now ∧ True) h := by
    refine meets_reporting ?_ (.of_forall fun _ => trivial) hFact
      fun outcome k hPrefix ⟨_, hSlot, hNone⟩ _ => hFills.report k slot outcome hPrefix hSlot hNone
    split
    · rw [ofAction_bind]
      refine meets_bind ((meets_transpile hFact hStart r.url).mono fun unit k hNow => ?_)
      exact meets_pure fun j hj => hFact.pass hj hNow
    · rw [ofAction_bind]
      refine meets_bind ((meets_ofWorld hFact hStart _).mono fun exports k hNow => ?_)
      exact meets_pure fun j hj => hFact.pass hj hNow
  exact (hCreated.gives (gives_createModule env r main)).mono fun m k hDone =>
    ⟨hDone.1.1, hDone.2⟩

theorem meets_slotOf {failed : LoadError → Course σ → Prop} (url : String) :
    (Shared.slotOf url).Meets R own failed (fun slot k => k.now.state.cache.IsSlot url slot) h := by
  refine meets_get fun k _ => ?_
  cases hSlot : k.now.state.cache.slot? url with
  | some slot => exact meets_pure fun j hj => hj.persists.slots url slot hSlot
  | none =>
    refine fun j _ => ⟨Finds.slot j url, fun i hi => ?_⟩
    exact hi.persists.slots url _ (ModuleCache.isSlot_slot _ url)

/-- The module that is found for a URL is the one in the cache. -/
theorem meets_cachedModule {r : ResolvedModule} {main : Bool} (hh : R.Valid h)
    (hBefore : ∀ place slot, own place → R.Before place (.making slot))
    (hFills : R.Fills env r main h) :
    (Shared.cachedModule env r main).Meets R own (fun e k => .created r (.error e) ∈ k.now.events)
      (fun id k => k.now.state.cache.get? r.url = some id) h := by
  refine meets_bind ((meets_slotOf r.url).ways_mono (fun _ _ _ => id) fun slot k hk hSlot => ?_)
  refine meets_get fun j hj => ?_
  have hSlot' := hj.persists.slots _ _ hSlot
  have hWay := hk.trans hj.ways
  cases hRecord : j.now.state.cache.record? slot with
  | some id =>
    refine meets_pure fun i hi => hi.persists.cache _ _ ?_
    rw [← ModuleCache.record?_of_isSlot hSlot', hRecord]
  | none =>
    refine meets_within ?_ ?_ ?_ ?_ ?_
    · exact fun _ place hPlace => hBefore place slot hPlace
    · rintro (e | id) i i' hEnd hi'
      · exact hi'.persists.events.subset hEnd
      · exact hi'.persists.cache _ _ hEnd
    · intro i o hi hSkip
      obtain ⟨id, hId, rfl⟩ := Option.map_eq_some_iff.1 hSkip
      change i.now.state.cache.get? r.url = some id
      rw [← ModuleCache.record?_of_isSlot (hi.persists.slots _ _ hSlot')]
      exact hId
    · exact fun i hi hSkip hExclusive => by cases hExclusive
    · intro i hi hSkip
      have hNone : i.now.state.cache.record? slot = none := Option.map_eq_none_iff.1 hSkip
      have hWay' := (hWay.trans hi.ways).next (.inl (R.act_now i)) (by simp)
      have hSlotNow := hi.persists.slots _ _ hSlot'
      refine ⟨R.act_now i, (Finds.making slot _).2 hNone, ?_⟩
      have hPrefix := (Ways.persists hWay').events
      refine (meets_createModule (h := i.next i.now) (Ways.valid hWay' hh) (.inl rfl) hSlotNow hNone
        (hFills.later hPrefix)).ways_mono ?_ ?_
      · intro e i' hi' hCreated hKept
        exact ⟨Finds.close i' slot, Moment.mem_of_since hCreated⟩
      · intro m i' hi' ⟨hCreated, hMade⟩ hKept
        have hSlot'' := (Ways.persists hi').slots _ _ hSlotNow
        have hNone' := (Finds.making (R := R) slot _).1 hKept
        refine ⟨hFills.create i' slot m (hPrefix.trans (Ways.persists hi').events) hSlot'' hNone'
          (Moment.mem_of_since hCreated) hMade, ?_⟩
        have hUnbound := ModuleCache.get?_of_record?_none hSlot'' hNone'
        simp [Ending, History.next, Shared.making, get?_withModule hSlot'' hUnbound]

/-- A specifier means the module that is found for it. -/
theorem meets_moduleFor (hFact : R.Stable own fact) (hNow : fact h) (hh : R.Valid h)
    (specifier referrer : String) (hBefore : ∀ place slot, own place → R.Before place (.making slot))
    (hReport : ∀ outcome k, h.now.events <+: k.now.events → fact k →
      (∀ r, outcome = .ok r → Resolves env specifier (some referrer) none r) →
        R.Act none k (k.now.hear (.resolved specifier (some referrer) outcome)))
    (hFills : ∀ r k, h.now.events <+: k.now.events →
      .resolved specifier (some referrer) (.ok r) ∈ k.now.since h.now → R.Fills env r false k) :
    (Shared.moduleFor env specifier referrer).Meets R own (fun _ k => k.now.Fails specifier referrer)
      (fun id k => k.now.Found h.now specifier referrer id) h := by
  refine meets_bind ((meets_resolve hFact hNow specifier (some referrer) none hReport).ways_mono
    (fun e k _ hResolved => .inl ⟨e, Moment.mem_of_since hResolved⟩) fun r k hk hResolved => ?_)
  have hPrefix := (Ways.persists hk).events
  refine (meets_cachedModule (hk.valid hh) hBefore (hFills r k hPrefix hResolved)).ways_mono ?_ ?_
  · intro e j hj hCreated
    have hEvents := (Ways.persists hj).events
    exact .inr ⟨r, e, hEvents.subset (Moment.mem_of_since hResolved), hCreated⟩
  · intro id j hj hGet
    refine ⟨r, ?_, hGet⟩
    rw [Moment.since_append hPrefix (Ways.persists hj).events]
    exact List.mem_append_left _ hResolved

end Rules

end ModuleLoader
