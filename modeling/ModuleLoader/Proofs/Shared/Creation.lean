import ModuleLoader.Proofs.Shared.Rules

/-! How modules come into a shared session.  A module is made while its URL has none, by one task at
a time, and what a task has found stays found. -/

namespace ModuleLoader

variable {σ : Type} {own : Place → Prop} {h k : Course σ}

open Session

/-- The second course goes on where the first one ends. -/
structure Course.Precedes (h k : Course σ) : Prop where
  keeps : h.now.state.Keeps k.now.state
  events : h.now.events <+: k.now.events
  past : ∀ x ∈ h.now :: h.past, x ∈ k.now :: k.past

theorem Course.Precedes.refl (h : Course σ) : h.Precedes h :=
  ⟨.refl _, List.prefix_refl _, fun _ hx => hx⟩

theorem Course.precedes_of_passes (hk : rules.Passes own h k) : h.Precedes k := by
  induction hk with
  | refl => exact .refl h
  | next _ hAct _ ih =>
    have hAct : Act _ _ _ := hAct
    exact ⟨ih.keeps.trans hAct.keeps, ih.events.trans hAct.events_prefix,
      fun x hx => List.mem_cons_of_mem _ (ih.past x hx)⟩

namespace Session.Shared

open ModuleLoader.Task Course

variable {env : Environment σ} {α β γ : Type}

/-- The task keeps to the rules of a shared session, and ends as `done` says. -/
abbrev Meets (own : Place → Prop) (done : α → Course σ → Prop) (task : Work σ α) (h : Course σ) :
    Prop :=
  Task.Meets rules own (fun _ _ => True) done task h

theorem meets_throw {done : α → Course σ → Prop} {e : LoadError} :
    Meets own done (throw e) h :=
  Task.meets_throw fun _ _ => trivial

theorem meets_ofExcept {done : α → Course σ → Prop} {outcome : Except LoadError α}
    (hOk : ∀ a, outcome = .ok a → ∀ k, rules.Passes own h k → done a k) :
    Meets own done (Task.ofExcept outcome) h :=
  Task.meets_ofExcept hOk fun _ _ _ _ => trivial

theorem meets_onFailure {done : α → Course σ → Prop} {task : Work σ α}
    {cleanUp : LoadError → Work σ Unit} (hTask : Meets own done task h)
    (hStable : ∀ a k j, done a k → rules.Passes own k j → done a j)
    (hCleanUp : ∀ e k, rules.Passes own h k → Meets own (fun _ _ => True) (cleanUp e) k) :
    Meets own done (task.onFailure cleanUp) h :=
  Task.meets_onFailure (hTask.ways_mono
    (fun e k hk _ => (hCleanUp e k hk.passes).ends (fun _ _ _ => trivial) fun _ _ _ _ _ => trivial)
    fun _ _ _ hDone => hDone) hStable

/-- A section may be left with a failure at any time. -/
theorem meets_within {part : Section (Session σ) LoadError Place α β} {body : Work σ α}
    {done : β → Course σ → Prop}
    (hStable : ∀ b k j, done b k → rules.Passes own k j → done b j)
    (hSkip : ∀ k b, rules.Passes own h k → part.skip k.now.state = some (.ok b) → done b k)
    (hFree : ∀ k, rules.Passes own h k → part.skip k.now.state = none → part.exclusive = false →
      ¬rules.Kept part.place k.now.state)
    (hStart : ∀ k, rules.Passes own h k → part.skip k.now.state = none →
      rules.Act none k (k.now.move (part.start k.now.state)) ∧
        rules.Kept part.place (part.start k.now.state) ∧
        Meets (fun place => place = part.place ∨ own place)
          (fun a => part.Leaves rules (fun o j => ∀ b, o = .ok b → done b j) (.ok a)) body
          (k.next (k.now.move (part.start k.now.state))) ∧
        ∀ e j, rules.Passes (fun place => place = part.place ∨ own place)
            (k.next (k.now.move (part.start k.now.state))) j →
          part.Leaves rules (fun o j => ∀ b, o = .ok b → done b j) (.error e) j) :
    Meets own done (within part body) h := by
  have hEnds : ∀ (o : Except LoadError β) (k : Course σ), (∀ b, o = .ok b → done b k) →
      Ending (fun _ _ => True) done o k := by
    rintro (e | b) k hb
    · trivial
    · exact hb b rfl
  refine Task.meets_within (fun _ _ _ => trivial) ?_ ?_ hFree fun k hk hNone => ?_
  · rintro (e | b) k j hb hj
    · trivial
    · exact hStable b k j hb hj
  · exact fun k o hk hOutcome => hEnds o k fun b hb => hSkip k b hk (hb ▸ hOutcome)
  · obtain ⟨hAct, hKept, hBody, hFails⟩ := hStart k hk hNone
    refine ⟨hAct, hKept, hBody.ways_mono (fun e j hj _ => ?_) fun a j _ hLeaves => ?_⟩
    · exact (hFails e j hj.passes).mono fun _ o => hEnds o _
    · exact hLeaves.mono fun _ o => hEnds o _

theorem meets_attempt {done : Except LoadError α → Course σ → Prop} {task : Work σ α}
    (hTask : Meets own (fun a k => done (.ok a) k) task h)
    (hError : ∀ e k, rules.Passes own h k → done (.error e) k) : Meets own done task.attempt h :=
  Task.meets_attempt (hTask.ways_mono (fun e k hk _ => hError e k hk.passes) fun _ _ _ => id)

theorem meets_forAll {as : List α} {f : α → Work σ β} {g : List β → Work σ γ}
    {done : γ → Course σ → Prop} (found : α → β → Course σ → Prop)
    (hEach : ∀ a ∈ as, Meets own (found a) (f a) h)
    (hNext : ∀ bs k, rules.Passes own h k → List.Forall₂ (fun a b => found a b k) as bs →
      Meets own done (g bs) k) : Meets own done (forAll as f >>= g) h :=
  Task.meets_bind (Task.meets_forAll (fun _ => rules) (fun _ _ _ => True) found
    (Rules.splits_same as.length) hEach (fun _ _ _ _ _ _ _ _ => trivial) fun bs k _ hk hAll =>
      (hNext bs k ((Rules.splits_same as.length).ways hk).passes hAll).later)

theorem act_resolved (specifier : String) (parent : Option String)
    (outcome : Except LoadError ResolvedModule) :
    rules.Act none h (h.now.hear (.resolved specifier parent outcome)) :=
  Act.hear (by trivial)

theorem meets_resolve (env : Environment σ) (specifier : String) (parent : Option String)
    (packages : Option (PackageResolver σ)) :
    Meets own (fun r k => .resolved specifier parent (.ok r) ∈ k.now.events)
      (ofAction (resolve env specifier parent packages)) h :=
  (Rules.meets_resolve Rules.stable_true trivial specifier parent packages
    fun outcome _ _ _ _ => act_resolved specifier parent outcome).ends (fun _ _ _ => trivial)
      fun _ _ => Moment.mem_of_since

theorem meets_transpile (env : Environment σ) (url : String) :
    Meets own (fun _ _ => True) (ofAction (transpile env url)) h :=
  Rules.meets_transpile Rules.stable_true trivial url

/-- A module is made only while its slot is empty. -/
theorem fills (r : ResolvedModule) (main : Bool) : rules.Fills env r main h where
  report k slot outcome _ hSlot hNone := Act.hear (by
    rw [Allows, ← ModuleCache.record?_of_isSlot hSlot]
    exact hNone)
  create k slot m _ hSlot hNone _ hMade := Act.create hSlot hNone hMade.isNew

/-- The module that is found for a URL is the one in the cache. -/
theorem meets_cachedModule (r : ResolvedModule) (main : Bool) (hh : h.now.state.Consistent) :
    Meets own (fun id k => k.now.state.cache.get? r.url = some id)
      (cachedModule env r main) h :=
  (Rules.meets_cachedModule (R := rules) hh (fun _ _ _ => trivial) (fills r main)).ends
    (fun _ _ _ => trivial) fun _ _ => id

theorem meets_moduleFor (specifier referrer : String) (hh : h.now.state.Consistent) :
    Meets own (fun id k => k.now.Means specifier referrer id)
      (moduleFor env specifier referrer) h :=
  (Rules.meets_moduleFor (R := rules) Rules.stable_true trivial hh specifier referrer
    (fun _ _ _ => trivial) (fun outcome _ _ _ _ => act_resolved specifier _ outcome)
    fun r _ _ _ => fills r false).ends (fun _ _ _ => trivial) fun _ _ => Moment.Found.means

end Session.Shared

end ModuleLoader
