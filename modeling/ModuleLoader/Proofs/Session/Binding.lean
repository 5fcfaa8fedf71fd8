import ModuleLoader.Linking
import ModuleLoader.Proofs.Session.Round
import ModuleLoader.Proofs.Task.Turns

/-! How the modules on a frontier bind their imports.  Each task of a round keeps to its share and
relies on the others to keep to theirs.  In whatever order the tasks take turns, the round comes to an
end, and when one of them fails it may leave any of the others half way. -/

namespace ModuleLoader

variable {σ : Type} {x : Instant σ}

open Session

/-- The rules of tasks in a round that have one share while the others have another one.  Who binds
the imports of a module may have to wait at a slot. -/
def roundRules (env : Environment σ) (start : Instant σ) (mine others : Share) :
    Rules (Session σ) Event Place where
  Act l h y := RoundStep env start mine l h.now y
  Pass l h y := RoundStep env start others l h.now y
  Valid h := start.InRound h.now
  Kept
    | .making slot, s => s.cache.record? slot = none
    | .binding _, _ | .running _, _ => True
  Before p q := (∃ id, p = .binding id) ∧ ∃ slot, q = .making slot
  Spent := False
  act_now h := .refl h.now
  pass_now h := .refl h.now
  valid_next hValid hMove := hMove.elim hValid.next hValid.next
  kept_next {l h y place} _ hMove hOther hKept := by
    cases place with
    | making slot =>
      change y.state.cache.record? slot = none
      have hSame : y.state.cache.record? slot = h.now.state.cache.record? slot :=
        hMove.elim (·.record?_eq hOther) (·.record?_eq hOther)
      exact hSame.trans hKept
    | binding | running => trivial

section Rules

variable {env : Environment σ} {start : Instant σ} {a b : Share} {own : Place → Prop}
  {h k j : Course σ}

instance : (roundRules env start a b).Finds where
  persists hMove := hMove.elim RoundStep.persists RoundStep.persists
  world hModules hCache := RoundStep.outside hModules hCache
  slot _ url := RoundStep.slot url
  close _ _ := RoundStep.close _
  making _ _ := .rfl

/-- Tasks can divide a share if each part keeps apart from the others. -/
theorem splits_of_shares {n : Nat} {parts : Fin n → Share} (hWithin : ∀ i, (parts i).Within a)
    (hOthers : ∀ i, b.Within ((parts i).others start))
    (hApart : ∀ i j, i ≠ j → (parts i).Within ((parts j).others start)) :
    (roundRules env start a b).Splits
      fun i => roundRules env start (parts i) ((parts i).others start) where
  within i :=
    { act := fun hStep => RoundStep.mono hStep (hWithin i)
      pass := fun hStep => RoundStep.mono hStep (hOthers i)
      kept := rfl
      before := rfl
      spent := False.elim }
  apart hNe := fun hStep => RoundStep.mono hStep (hApart _ _ hNe)

/-- What the others do not report is not heard from them. -/
theorem notHeard_of_passes {event : Event} (hk : (roundRules env start a b).Passes own h k)
    (hh : start.InRound h.now) (hOther : ¬b.Allows event) (hNot : event ∉ h.now.since start) :
    event ∉ k.now.since start := by
  induction hk with
  | refl => exact hNot
  | next hPasses hStep _ ih =>
    intro hMem
    have hValid : start.InRound _ := Rules.Passes.valid hPasses hh
    exact (RoundStep.mem_since hStep hValid.events hMem).elim ih hOther

/-- What is not in the share of the others stays as it is while they go on. -/
theorem static?_of_passes {id : ModuleId} {m : StaticModule}
    (hk : (roundRules env start a b).Passes own h k) (hOther : ¬b.binds id)
    (hm : h.now.state.static? id = some m) : k.now.state.static? id = some m :=
  hk.invariant (I := fun k => k.now.state.static? id = some m) hm
    fun hStep hj => RoundStep.static?_eq_some hStep hOther hj

/-- All specifiers of the share that have been resolved mean modules of the list. -/
def Moment.Accounts (x start : Instant σ) (share : Share) (imports : List ModuleId) : Prop :=
  start.Distinct → ∀ specifier referrer r, share.resolves specifier referrer →
    .resolved specifier (some referrer) (.ok r) ∈ x.since start →
      ∃ id ∈ imports, x.state.cache.get? r.url = some id

/-- Only tasks with the share add to what there is to account for. -/
theorem Moment.Accounts.later {imports : List ModuleId} {c : Share}
    (hAll : h.now.Accounts start c imports) (hk : (roundRules env start a b).Passes own h k)
    (hOthers : b.Within (c.others start)) (hh : start.InRound h.now) :
    k.now.Accounts start c imports := by
  intro hDistinct specifier referrer r hMine hMem
  by_cases hOld : .resolved specifier (some referrer) (.ok r) ∈ h.now.since start
  · obtain ⟨id, hid, hGet⟩ := hAll hDistinct specifier referrer r hMine hOld
    exact ⟨id, hid, (Rules.Passes.persists hk).cache _ _ hGet⟩
  · have hOther : ¬b.Allows (.resolved specifier (some referrer) (.ok r)) := fun hOther =>
      Share.not_others_allows hDistinct hMine (hOthers.allows hOther)
    exact (notHeard_of_passes hk hh hOther hOld hMem).elim

theorem Moment.Accounts.of_passes {imports : List ModuleId} (hAll : h.now.Accounts start a imports)
    (hk : (roundRules env start a (a.others start)).Passes own h k) (hh : start.InRound h.now) :
    k.now.Accounts start a imports :=
  hAll.later hk (.refl _) hh

/-! ### A specifier -/

/-- The specifier means the module, and it was resolved to no other one in the round. -/
structure Moment.Settles (x start : Instant σ) (specifier referrer : String) (id : ModuleId) :
    Prop where
  means : x.Means specifier referrer id
  only : start.Distinct → ∀ r, .resolved specifier (some referrer) (.ok r) ∈ x.since start →
    x.state.cache.get? r.url = some id

/-- A task that has not resolved its specifier yet finds the module that it means. -/
theorem meets_find (specifier referrer : String) (hh : start.InRound h.now)
    (hOwn : ∀ place, own place → ∃ id, place = .binding id)
    (hFirst : start.Distinct →
      ∀ r, .resolved specifier (some referrer) (.ok r) ∉ h.now.since start) :
    (Shared.moduleFor env specifier referrer).Meets
      (roundRules env start (.one specifier referrer) ((Share.one specifier referrer).others start))
      own (fun _ k => k.now.Fails specifier referrer)
      (fun id k => k.now.Settles start specifier referrer id) h := by
  have hFact : (roundRules env start (.one specifier referrer)
      ((Share.one specifier referrer).others start)).Stable own fun k => start.InRound k.now ∧
        (start.Distinct →
          ∀ r, .resolved specifier (some referrer) (.ok r) ∉ k.now.since start) := by
    refine ⟨fun hj ⟨hValid, hNot⟩ => ⟨Rules.Passes.valid hj hValid, fun hDistinct r => ?_⟩,
      fun {k s} hModules hCache ⟨hValid, hNot⟩ => ⟨?_, hNot⟩⟩
    · exact notHeard_of_passes hj hValid (Share.not_others_allows hDistinct ⟨rfl, rfl⟩)
        (hNot hDistinct r)
    · have hStep : RoundStep env start .none none k.now (k.now.move s) := .outside hModules hCache
      exact hValid.next hStep
  refine (Rules.meets_moduleFor hFact ⟨hh, hFirst⟩ hh specifier referrer ?_ ?_ ?_).ways_mono
    (fun _ _ _ => id) fun id k hk hFound => ⟨hFound.means, fun hDistinct r hr => ?_⟩
  · exact fun place slot hPlace => ⟨hOwn place hPlace, slot, rfl⟩
  · exact fun outcome k _ hNow hResolves => RoundStep.resolved ⟨rfl, rfl⟩ hResolves hNow.2
  · intro r k hk hResolved
    refine ⟨fun _ _ outcome _ _ _ => RoundStep.created r outcome,
      fun i slot m hi hSlot hNone hCreated hMade =>
        RoundStep.create hSlot hNone hCreated hMade ⟨specifier, referrer, ?_⟩⟩
    rw [Moment.since_append (hh.events.trans hk) hi, Moment.since_append hh.events hk]
    exact List.mem_append_left _ (List.mem_append_right _ hResolved)
  · -- The specifier is resolved only once, so that this is where the module was found.
    obtain ⟨r', hr', hGet⟩ := hFound
    have hValid : start.InRound k.now := Rules.Ways.valid hk hh
    have hMem : .resolved specifier (some referrer) (.ok r') ∈ k.now.since start := by
      rw [Moment.since_append hh.events (Rules.Ways.persists hk).events]
      exact List.mem_append_right _ hr'
    rw [hValid.once hDistinct _ _ _ _ hr hMem]
    exact hGet

/-! ### A module -/

/-- The rules for the task of one module. -/
abbrev moduleRules (env : Environment σ) (start : Instant σ) (id : ModuleId) :
    Rules (Session σ) Event Place :=
  roundRules env start (.of start id) ((Share.of start id).others start)

variable {id : ModuleId} {m m₀ : StaticModule}

theorem Moment.Accounts.of_nil (hNone : x.Accounts start a []) (imports : List ModuleId) :
    x.Accounts start a imports := by
  intro hDistinct specifier referrer r hMine hMem
  obtain ⟨_, hNo, -⟩ := hNone hDistinct specifier referrer r hMine hMem
  simp at hNo

theorem exists_of_forall₂ {α β : Type} {R : α → β → Prop} {as : List α} {bs : List β}
    (h : List.Forall₂ R as bs) : ∀ a ∈ as, ∃ b ∈ bs, R a b := by
  induction h with
  | nil => simp
  | cons hHead _ ih =>
    intro a ha
    rcases List.mem_cons.1 ha with rfl | ha
    · exact ⟨_, List.mem_cons_self, hHead⟩
    · obtain ⟨b, hb, hRelated⟩ := ih a ha
      exact ⟨b, List.mem_cons_of_mem _ hb, hRelated⟩

theorem values_ofList_zip {specifiers : List String} {ids : List ModuleId}
    (hNodup : specifiers.Nodup) (hLength : ids.length = specifiers.length) :
    (OrderedMap.ofList (specifiers.zip ids)).values = ids := by
  have hKeys : (specifiers.zip ids).map Prod.fst = specifiers :=
    List.map_fst_zip (Nat.le_of_eq hLength.symm)
  rw [OrderedMap.values, OrderedMap.entries_ofList (hKeys.symm ▸ hNodup)]
  exact List.map_snd_zip (Nat.le_of_eq hLength)

/-- The tasks of the specifiers of a module share what its task does. -/
theorem splits_module (hm₀ : start.state.static? id = some m₀)
    (hDependencies : m.dependencies = m₀.dependencies) (hUrl : m.url = m₀.url) :
    (moduleRules env start id).Splits fun i : Fin m.dependencies.length =>
      roundRules env start (.one (m.dependencies.get i) m.url)
        ((Share.one (m.dependencies.get i) m.url).others start) := by
  have hPart : ∀ i : Fin m.dependencies.length,
      (Share.one (m.dependencies.get i) m.url).Within (.of start id) := by
    refine fun i => ⟨fun _ => False.elim, ?_⟩
    rintro _ _ ⟨rfl, rfl⟩
    exact ⟨m₀, hm₀, hUrl.symm, hDependencies ▸ List.get_mem _ i⟩
  refine splits_of_shares hPart (fun i => (hPart i).others) fun i i' hNe => ?_
  refine ⟨fun _ => False.elim, ?_⟩
  rintro _ _ ⟨rfl, rfl⟩ hDistinct ⟨hSame, -⟩
  have hNodup : m.dependencies.Nodup := hDependencies ▸ hDistinct.once id m₀ hm₀
  exact hNe (hNodup.get_inj_iff.1 hSame)

/-- The specifiers of a module are found together, and give the table of its imports. -/
theorem meets_importTable (hm₀ : start.state.static? id = some m₀)
    (hDependencies : m.dependencies = m₀.dependencies) (hUrl : m.url = m₀.url)
    (hh : start.InRound h.now) (hOwn : ∀ place, own place → ∃ id, place = .binding id)
    (hm : h.now.state.static? id = some m) (hFresh : h.now.Accounts start (.of start id) []) :
    (Shared.importTable env m).Meets (moduleRules env start id) own
      (fun _ k => k.now.state.static? id = some m ∧
        ∃ specifier ∈ m.dependencies, k.now.Fails specifier m.url)
      (fun table k => k.now.state.static? id = some m ∧ k.now.Binds m table ∧
        k.now.Accounts start (.of start id) table.values) h := by
  have hStatic : ∀ {k}, Steps ((moduleRules env start id).Joint fun i : Fin m.dependencies.length =>
      roundRules env start (.one (m.dependencies.get i) m.url)
        ((Share.one (m.dependencies.get i) m.url).others start)) own h k →
      k.now.state.static? id = some m := by
    intro k hk
    refine hk.invariant (I := fun k => k.now.state.static? id = some m) hm ?_
    rintro l j y (⟨i, hStep⟩ | hStep) hj
    · exact RoundStep.static?_eq_some hStep (fun hNo => hNo) hj
    · exact RoundStep.static?_eq_some hStep (fun hNo => hNo rfl) hj
  have hOther : ¬((Share.of start id).others start).binds id := fun hNo => hNo rfl
  refine Task.meets_bind (Task.meets_forAll
    (fun specifier => roundRules env start (.one specifier m.url)
      ((Share.one specifier m.url).others start)) (fun specifier _ k => k.now.Fails specifier m.url)
    (fun specifier j k => k.now.Settles start specifier m.url j)
    (splits_module hm₀ hDependencies hUrl) ?_ ?_ ?_)
  · refine fun specifier hSpecifier => meets_find specifier m.url hh hOwn fun hDistinct r hMem => ?_
    obtain ⟨_, hNo, -⟩ := hFresh hDistinct specifier m.url r
      ⟨m₀, hm₀, hUrl.symm, hDependencies ▸ hSpecifier⟩ hMem
    simp at hNo
  · intro specifier hSpecifier e k j hk hFails hj
    refine ⟨static?_of_passes hj hOther (hStatic hk), specifier, hSpecifier, ?_⟩
    exact (Rules.Passes.persists hj).fails hFails
  · refine fun ids k i hk hIds hi => Task.meets_pure fun j hij => ?_
    have hj := hi.trans hij
    refine ⟨static?_of_passes hj hOther (hStatic hk), ?_, ?_⟩
    · exact ⟨ids, hIds.imp fun _ _ hFound => (Rules.Passes.persists hj).means hFound.means, rfl⟩
    · have hValid : start.InRound k.now :=
        Rules.Ways.valid ((splits_module hm₀ hDependencies hUrl).ways hk) hh
      refine Moment.Accounts.of_passes ?_ hj hValid
      rintro hDistinct specifier referrer r ⟨n, hn, rfl, hSpecifier⟩ hMem
      rw [hm₀] at hn
      cases hn
      rw [← hDependencies] at hSpecifier
      rw [← hUrl] at hMem
      obtain ⟨j, hj, hFound⟩ := exists_of_forall₂ hIds specifier hSpecifier
      have hNodup : m.dependencies.Nodup := hDependencies ▸ hDistinct.once id m₀ hm₀
      exact ⟨j, by rwa [values_ofList_zip hNodup hIds.length_eq.symm],
        hFound.only hDistinct r hMem⟩

/-- The module is bound to the table, which accounts for what its task has resolved. -/
structure Moment.Tabled (x start : Instant σ) (id : ModuleId) (table : OrderedMap ModuleId) :
    Prop where
  bound : ∃ m, x.state.static? id = some m ∧ m.linking = .linking ∧ m.imports = some table
  accounts : x.Accounts start (.of start id) table.values

/-- The module cannot be bound, because one of its specifiers has failed. -/
def Moment.Fallen (x : Instant σ) (id : ModuleId) : Prop :=
  ∃ m, x.state.static? id = some m ∧ m.linking = .linking ∧
    ∃ specifier ∈ m.dependencies, x.Fails specifier m.url

theorem not_others_binds (id : ModuleId) : ¬((Share.of start id).others start).binds id :=
  fun hNo => hNo rfl

theorem notAsked_of_passes (hk : (moduleRules env start id).Passes own h k)
    (hh : start.InRound h.now) (hAsked : .asked id ∉ h.now.since start) :
    .asked id ∉ k.now.since start :=
  notHeard_of_passes hk hh (not_others_binds id) hAsked

theorem Moment.Tabled.of_passes {table : OrderedMap ModuleId} (hDone : h.now.Tabled start id table)
    (hk : (moduleRules env start id).Passes own h k) (hh : start.InRound h.now) :
    k.now.Tabled start id table := by
  obtain ⟨⟨m, hm, hTable⟩, hAll⟩ := hDone
  exact ⟨⟨m, static?_of_passes hk (not_others_binds id) hm, hTable⟩, hAll.of_passes hk hh⟩

theorem Moment.Fallen.of_passes (hFallen : h.now.Fallen id)
    (hk : (moduleRules env start id).Passes own h k) : k.now.Fallen id := by
  obtain ⟨m, hm, hLinking, specifier, hSpecifier, hFails⟩ := hFallen
  exact ⟨m, static?_of_passes hk (not_others_binds id) hm, hLinking, specifier, hSpecifier,
    (Rules.Passes.persists hk).fails hFails⟩

/-- A module that has begun to be linked binds its imports, unless they are bound. -/
theorem meets_binding (env : Environment σ) (hm₀ : start.state.static? id = some m₀)
    (hDependencies : m.dependencies = m₀.dependencies) (hUrl : m.url = m₀.url)
    (hh : start.InRound h.now) (hm : h.now.state.static? id = some m)
    (hLinking : m.linking = .linking) (hFresh : h.now.Accounts start (.of start id) []) :
    (Task.within (Shared.binding id) (Shared.importTable env m)).Meets (moduleRules env start id)
      (fun _ => False) (fun _ k => start.InRound k.now ∧ k.now.Fallen id)
      (fun table k => start.InRound k.now ∧ k.now.Tabled start id table) h := by
  have hStatic : ∀ {own k}, (moduleRules env start id).Passes own h k →
      k.now.state.static? id = some m :=
    fun hk => static?_of_passes hk (not_others_binds id) hm
  refine Task.meets_within (fun _ _ => False.elim) ?_ ?_ ?_ ?_
  · rintro (e | table) k j ⟨hk, hEnd⟩ hj
    · exact ⟨Rules.Passes.valid hj hk, hEnd.of_passes hj⟩
    · exact ⟨Rules.Passes.valid hj hk, hEnd.of_passes hj hk⟩
  · intro k o hk hSkip
    obtain ⟨table, hTable, rfl⟩ := Option.map_eq_some_iff.1 hSkip
    have hImports : m.imports = some table := by simpa [hStatic hk] using hTable
    exact ⟨Rules.Passes.valid hk hh, ⟨m, hStatic hk, hLinking, hImports⟩,
      (hFresh.of_passes hk hh).of_nil table.values⟩
  · exact fun k hk hSkip hExclusive => by cases hExclusive
  · intro k hk hSkip
    have hImports : m.imports = none := by
      have hNone := Option.map_eq_none_iff.1 hSkip
      simpa [hStatic hk] using hNone
    have hValid : start.InRound k.now := Rules.Passes.valid hk hh
    have hFresh' := hFresh.of_passes hk hh
    have hmk := hStatic hk
    refine ⟨RoundStep.refl _, trivial, ?_⟩
    refine (meets_importTable (h := k.next k.now) hm₀ hDependencies hUrl hValid ?_ hmk
      hFresh').ways_mono ?_ ?_
    · rintro place (rfl | hNo)
      · exact ⟨id, rfl⟩
      · exact hNo.elim
    · intro e j hj ⟨hmj, hFails⟩ _
      exact ⟨RoundStep.close _, Rules.Ways.valid hj hValid, m, hmj, hLinking, hFails⟩
    · intro table j hj ⟨hmj, hBinds, hAll⟩ _
      have hStep : RoundStep env start (.of start id) (some (.binding id)) j.now
          (j.now.move (j.now.state.updateStatic id (·.bindImports table))) :=
        .update rfl hmj (.bind hLinking hImports hBinds)
      have hValid' : start.InRound j.now := Rules.Ways.valid hj hValid
      refine ⟨hStep, hValid'.next hStep, ⟨_, static?_updateStatic_self hmj _, hLinking, ?_⟩, hAll⟩
      simp [StaticModule.bindImports, hImports]

theorem meets_failLinking (hh : h.now.Fallen id) (e : LoadError) :
    (Shared.changeStatic id (·.failLinking e)).Meets (moduleRules env start id) (fun _ => False)
      (fun e k => k.now.state.HasFailed id e)
      (fun _ k => ∀ j, (moduleRules env start id).Passes (fun _ => False) k j →
        j.now.state.HasFailed id e) h := by
  intro k hk
  obtain ⟨m, hm, hLinking, hFails⟩ := hh.of_passes hk
  refine ⟨RoundStep.update rfl hm (.fail hLinking hFails), fun j hj i hi => ?_⟩
  have hFailed : (k.now.state.updateStatic id (·.failLinking e)).static? id =
      some (m.failLinking e) := static?_updateStatic_self hm _
  exact ⟨_, static?_of_passes (hj.trans hi) (not_others_binds id) hFailed, rfl, rfl⟩

theorem Moment.Accounts.asked {imports : List ModuleId} (hAll : x.Accounts start a imports)
    (hx : start.events <+: x.events) (j : ModuleId) :
    (x.hear (.asked j)).Accounts start a imports := by
  intro hDistinct specifier referrer r hMine hMem
  rw [since_hear hx, List.mem_append, List.mem_singleton] at hMem
  exact hAll hDistinct specifier referrer r hMine (hMem.resolve_right (by simp))

/-- The module is bound to what was found in the round that began at `start`. -/
structure Moment.Bound (x start : Instant σ) (id : ModuleId) (imports : List ModuleId) : Prop where
  bound : x.state.IsBound id imports
  asked : .asked id ∈ x.since start
  accounts : x.Accounts start (.of start id) imports

/-- A module that has begun to be linked asks for its table, and is bound or fails. -/
theorem meets_ask (hm₀ : start.state.static? id = some m₀)
    (hDependencies : m.dependencies = m₀.dependencies) (hUrl : m.url = m₀.url)
    (hh : start.InRound h.now) (hm : h.now.state.static? id = some m)
    (hLinking : m.linking = .linking) (hAsked : .asked id ∉ h.now.since start)
    (hFresh : h.now.Accounts start (.of start id) []) :
    (do
      Task.tell (.asked id)
      let table ← (Task.within (Shared.binding id) (Shared.importTable env m)).onFailure fun e =>
        Shared.changeStatic id (·.failLinking e)
      pure table.values : Work σ (List ModuleId)).Meets (moduleRules env start id) (fun _ => False)
      (fun e k => k.now.state.HasFailed id e)
      (fun imports k => k.now.Bound start id imports) h := by
  refine Task.meets_tell fun k hk => ?_
  have hValid : start.InRound k.now := Rules.Passes.valid hk hh
  have hAsk : RoundStep env start (.of start id) none k.now (k.now.hear (.asked id)) :=
    .asked rfl (notAsked_of_passes hk hh hAsked)
  have hHeard : .asked id ∈ (k.now.hear (.asked id)).since start := by
    rw [Moment.since_hear hValid.events]
    simp
  refine ⟨hAsk, ?_⟩
  have hFresh' := (hFresh.of_passes hk hh).asked hValid.events id
  have hmk := static?_of_passes hk (not_others_binds id) hm
  have hBinding := meets_binding env (h := k.next (k.now.hear (.asked id))) hm₀ hDependencies
    hUrl (hValid.next hAsk) hmk hLinking hFresh'
  refine Task.meets_bind ((Task.meets_onFailure (hBinding.ends (fun e j hj => ?_)
    fun _ _ hDone => hDone) ?_).ways_mono (fun _ _ _ hFailed => hFailed) ?_)
  · exact meets_failLinking hj.2 e
  · exact fun table j i ⟨hj, hDone⟩ hi => ⟨Rules.Passes.valid hi hj, hDone.of_passes hi hj⟩
  · intro table j hj ⟨hInRound, hDone⟩
    refine Task.meets_pure fun i hi => ?_
    obtain ⟨⟨n, hn, hBound, hTable⟩, hAll⟩ := hDone.of_passes hi hInRound
    refine ⟨⟨n, table, hn, hBound, hTable, rfl⟩, ?_, hAll⟩
    have hWay := hj.trans hi.ways
    rw [Moment.since_append (hValid.next hAsk).events (Rules.Ways.persists hWay).events]
    exact List.mem_append_left _ hHeard

/-- An open module is bound, or fails, and its table is asked for once. -/
theorem meets_bindImportsOf (hm₀ : start.state.static? id = some m₀)
    (hOpen : m₀.linking = .unlinked ∨ m₀.linking = .linking) (hh : start.InRound h.now)
    (hm : h.now.state.static? id = some m₀) (hAsked : .asked id ∉ h.now.since start)
    (hFresh : h.now.Accounts start (.of start id) []) :
    (Shared.bindImportsOf env id).Meets (moduleRules env start id) (fun _ => False)
      (fun e k => k.now.state.HasFailed id e)
      (fun imports k => k.now.Bound start id imports) h := by
  have hLinking : m₀.beginLinking.linking = .linking := by
    rcases hOpen with hOpen | hOpen <;> simp [StaticModule.beginLinking, hOpen]
  have hSame : m₀.beginLinking.dependencies = m₀.dependencies ∧ m₀.beginLinking.url = m₀.url := by
    unfold StaticModule.beginLinking
    split <;> exact ⟨rfl, rfl⟩
  refine Task.meets_modify fun k hk => ?_
  have hValid : start.InRound k.now := Rules.Passes.valid hk hh
  have hmk := static?_of_passes hk (not_others_binds id) hm
  have hNotAsked := notAsked_of_passes hk hh hAsked
  have hFreshk := hFresh.of_passes hk hh
  have hBegin : RoundStep env start (.of start id) none k.now
      (k.now.move (k.now.state.updateStatic id .beginLinking)) := .update rfl hmk (.begin hOpen)
  -- The module begins to be linked, and nothing is reported by that.
  generalize hk' : k.next (k.now.move (k.now.state.updateStatic id .beginLinking)) = i
  have hBegun : i.now.state.static? id = some m₀.beginLinking := by
    rw [← hk']
    exact static?_updateStatic_self hmk _
  have hValid' : start.InRound i.now := hk' ▸ hValid.next hBegin
  have hAsked' : .asked id ∉ i.now.since start := hk' ▸ hNotAsked
  have hFresh' : i.now.Accounts start (.of start id) [] := hk' ▸ hFreshk
  refine ⟨hBegin, Task.meets_get fun j hj => ?_⟩
  have hmj := static?_of_passes hj (not_others_binds id) hBegun
  simp only [hmj]
  exact meets_ask hm₀ hSame.1 hSame.2 (Rules.Passes.valid hj hValid') hmj hLinking
    (notAsked_of_passes hj hValid' hAsked') (hFresh'.of_passes hj hValid')

/-! ### A frontier -/

/-- The tasks of the modules on a frontier share what a round does. -/
theorem splits_frontier {ids : List ModuleId} (hNodup : ids.Nodup) :
    (roundRules env start (.all start ids) .none).Splits fun i : Fin ids.length =>
      moduleRules env start (ids.get i) := by
  refine splits_of_shares (fun i => Share.of_within_all (ids.get_mem i))
    (fun i => Share.none_within _) fun i j hNe => Share.of_within_others fun hEq => hNe ?_
  exact hNodup.get_inj_iff.1 hEq

/-- Open modules bind their imports together, or one of them fails. -/
theorem meets_bindAll (env : Environment σ) {ids : List ModuleId}
    (hOpen : ∀ id ∈ ids, x.state.IsOpen id) (hNodup : ids.Nodup) :
    (Task.forAll ids (Shared.bindImportsOf env)).Meets (roundRules env x (.all x ids) .none)
      (fun _ => False) (fun e k => ∃ id ∈ ids, k.now.state.HasFailed id e)
      (fun imports k => List.Forall₂ (k.now.Bound x) ids imports) ⟨x, []⟩ := by
  have hx : x.InRound x := .refl x
  refine Task.meets_forAll (moduleRules env x) (fun id e k => k.now.state.HasFailed id e)
    (fun id imports k => k.now.Bound x id imports) (splits_frontier hNodup) ?_ ?_ ?_
  · intro id hid
    obtain ⟨m, hm, hLinking⟩ := hOpen id hid
    refine meets_bindImportsOf hm hLinking hx hm (by simp [Moment.since]) ?_
    intro _ _ _ _ _ hMem
    simp [Moment.since] at hMem
  · rintro id hid e k j hk ⟨m, hm, hFailed⟩ hj
    exact ⟨id, hid, m, static?_of_passes hj (fun hNo => hNo) hm, hFailed⟩
  · intro imports k j hk hAll hj
    have hValid : x.InRound k.now := Rules.Ways.valid ((splits_frontier hNodup).ways hk) hx
    refine hAll.imp fun id values hFound => ?_
    obtain ⟨⟨m, table, hm, hBound⟩, hAsked, hAccounts⟩ := hFound
    refine ⟨?_, ?_, ?_⟩
    · exact ⟨m, table, static?_of_passes hj (fun hNo => hNo) hm, hBound⟩
    · rw [Moment.since_append hValid.events (Rules.Passes.persists hj).events]
      exact List.mem_append_left _ hAsked
    · exact hAccounts.later hj (Share.none_within _) hValid

theorem wellFounded_before (env : Environment σ) (start : Instant σ) (a b : Share) :
    WellFounded fun q p => (roundRules env start a b).Before p q := by
  -- Who is at a slot waits nowhere.
  refine ⟨fun p => ⟨p, ?_⟩⟩
  rintro q ⟨-, slot, rfl⟩
  refine ⟨_, ?_⟩
  rintro _ ⟨⟨id, hEq⟩, -⟩
  cases hEq

/-- In whatever order the modules on a frontier take turns, they are bound in the end, or one of them
fails. -/
theorem meets_round (env : Environment σ) {ids : List ModuleId}
    (hOpen : ∀ id ∈ ids, x.state.IsOpen id) (hNodup : ids.Nodup) :
    (inTurns env (Task.forAll ids (Shared.bindImportsOf env))).Meets
      (fun y z => x.InRound y ∧ ∃ l, RoundStep env x (.all x ids) l y z) (fun _ => False)
      (fun e y => ∃ id ∈ ids, y.state.HasFailed id e)
      (fun imports y => List.Forall₂ (y.Bound x) ids imports) x := by
  have hx : x.InRound x := .refl x
  have hLone : (Running.ready (Task.forAll ids (Shared.bindImportsOf env))).Lone
      (roundRules env x (.all x ids) .none) _ _ ⟨x, []⟩ := .ready hx (meets_bindAll env hOpen hNodup)
  refine (hLone.meets_inTurns (wellFounded_before env x _ _) (fun hSpent => hSpent) ?_).mono ?_
    (fun _ hStuck => hStuck) ?_ ?_
  · exact fun k _ => RoundStep.outside rfl rfl
  · rintro _ z ⟨k, l, hk, rfl, hMove⟩
    refine ⟨Rules.Ways.valid hk hx, l, ?_⟩
    exact hMove.elim (fun hStep => hStep) (RoundStep.mono · (Share.none_within _))
  · rintro e _ ⟨k, -, rfl, hFailed⟩
    exact hFailed
  · rintro imports _ ⟨k, -, rfl, hBound⟩
    exact hBound

end Rules

end ModuleLoader
