import ModuleLoader.Entry
import ModuleLoader.Proofs.Session.Linking

/-! Facts that loading upholds.  A fact lasts if no change of the cache and no answer of the
environment ends it.  So the cache keeps one slot for each URL, and every specifier that was
resolved means what the rules of resolution make of it. -/

namespace ModuleLoader

namespace Session

variable {σ α β : Type} {x : Instant σ} {holds : Instant σ → Prop} {action : Load σ α}

/-- The fact still holds when the action is over. -/
def Upholds (holds : Instant σ → Prop) (action : Load σ α) : Prop :=
  ∀ x : Instant σ, holds x → action.Meets (fun _ _ => True) (fun _ => True)
    (fun _ y => holds y) (fun _ y => holds y) x

/-- The second cache is the first one, with a slot made or filled at most. -/
def CacheStep (c c' : ModuleCache ModuleId) : Prop :=
  c' = c ∨ (∃ url, c' = (c.slot url).2) ∨ ∃ slot id, c' = c.fill slot id

/-- No single step of loading ends the fact. -/
structure Lasting (env : Environment σ) (holds : Instant σ → Prop) : Prop where
  move : ∀ (x : Instant σ) (s : Session σ), CacheStep x.state.cache s.cache → holds x →
    holds (x.move s)
  created : ∀ (x : Instant σ) r outcome, holds x → holds (x.hear (.created r outcome))
  resolved : ∀ (x : Instant σ) specifier referrer outcome,
    (∀ r, outcome = .ok r → Resolves env specifier (some referrer) none r) → holds x →
      holds (x.hear (.resolved specifier (some referrer) outcome))
  asked : ∀ (x : Instant σ) id, holds x → holds (x.hear (.asked id))

namespace Upholds

theorem pure (a : α) : Upholds holds (pure a : Load σ α) := fun _ hx => hx

theorem throw (e : LoadError) : Upholds holds (throw e : Load σ α) := fun _ hx => hx

theorem ofExcept (outcome : Except LoadError α) : Upholds holds (.ofExcept outcome : Load σ α) := by
  cases outcome with
  | ok a => exact pure a
  | error e => exact throw e

theorem bind {f : α → Load σ β} (h : Upholds holds action) (hf : ∀ a, Upholds holds (f a)) :
    Upholds holds (action >>= f) := fun x hx =>
  Action.meets_bind.2 ((h x hx).ends (fun _ _ hy => hy) fun a y hy => hf a y hy)

theorem get : Upholds holds (get : Load σ (Session σ)) := fun _ hx => ⟨trivial, hx⟩

theorem reporting {event : Except LoadError α → Event}
    (hEvent : ∀ (x : Instant σ) outcome, holds x → holds (x.hear (event outcome)))
    (h : Upholds holds action) : Upholds holds (action.reporting event) := fun x hx =>
  Action.meets_reporting.2 ((h x hx).ends (fun _ y hy => ⟨trivial, hEvent y _ hy⟩)
    fun _ y hy => ⟨trivial, hEvent y _ hy⟩)

end Upholds

theorem upholds_ofWorld
    (hMove : ∀ (x : Instant σ) (s : Session σ), s.cache = x.state.cache → holds x →
      holds (x.move s)) (action : StateM σ (Except LoadError α)) :
    Upholds holds (Load.ofWorld action) :=
  .bind (fun x hx => ⟨trivial, hMove x _ rfl hx⟩) fun outcome => .ofExcept outcome

namespace Lasting

variable {env : Environment σ} (h : Lasting env holds)
include h

theorem upholds_modifyGet {f : Session σ → α × Session σ}
    (hf : ∀ s, CacheStep s.cache (f s).2.cache) : Upholds holds (modifyGet f : Load σ α) :=
  fun x hx => ⟨trivial, h.move x _ (hf x.state) hx⟩

theorem upholds_transpile (url : String) : Upholds holds (transpile env url) := by
  unfold transpile
  split
  · exact .throw _
  · exact .bind (h.upholds_modifyGet fun _ => .inl rfl) fun outcome => .ofExcept outcome

theorem upholds_createModule (r : ResolvedModule) (main : Bool) :
    Upholds holds (createModule env r main) := by
  refine .reporting (fun x outcome hx => h.created x r outcome hx) ?_
  split
  · exact .bind (h.upholds_transpile r.url) fun _ => .pure _
  · exact .bind (upholds_ofWorld (fun x s hs => h.move x s (.inl hs)) _) fun _ => .pure _

theorem upholds_cachedModule (r : ResolvedModule) (main : Bool) :
    Upholds holds (cachedModule env r main) := by
  refine .bind (h.upholds_modifyGet fun s => .inr (.inl ⟨r.url, rfl⟩)) fun slot =>
    .bind .get fun s => ?_
  split
  · exact .pure _
  · exact .bind (h.upholds_createModule r main) fun m =>
      h.upholds_modifyGet fun s => .inr (.inr ⟨slot, _, rfl⟩)

theorem roundMove {x y : Instant σ} (hStep : RoundMove env x y) (hx : holds x) : holds y := by
  obtain ⟨start, ids, l, hStep⟩ := hStep
  cases hStep with
  | outside _ hCache => exact h.move x _ (.inl hCache) hx
  | slot url => exact h.move x _ (.inr (.inl ⟨url, rfl⟩)) hx
  | close => exact hx
  | resolved _ hResolves => exact h.resolved x _ _ _ hResolves hx
  | created r outcome => exact h.created x r outcome hx
  | create => exact h.move x _ (.inr (.inr ⟨_, _, rfl⟩)) hx
  | asked => exact h.asked x _ hx
  | update => exact h.move x _ (.inl rfl) hx

theorem upholds_link (fuel : Nat) (root : ModuleId) : Upholds holds (link env fuel root) :=
  fun _ hx => invariant_link fuel root holds hx (fun _ _ => h.roundMove)
    (fun y _ _ => h.move y _ (.inl rfl)) fun y _ => h.move y _ (.inl (cache_finishLinking ..))

/-- Loading a program upholds what lasts. -/
theorem upholds_instantiate (fuel : Nat) (entry : String) :
    Upholds holds (instantiate env fuel entry) := by
  refine .bind (.ofExcept _) fun url => .bind (h.upholds_cachedModule _ true) fun root =>
    .bind .get fun s => ?_
  split
  · exact .throw _
  · exact .bind (h.upholds_link fuel root) fun _ => .pure _

end Lasting

/-! ## One slot for each URL -/

theorem lasting_isTidy (env : Environment σ) : Lasting env fun x => x.state.cache.IsTidy := by
  have hMove : ∀ (x : Instant σ) (s : Session σ), CacheStep x.state.cache s.cache →
      x.state.cache.IsTidy → (x.move s).state.cache.IsTidy := by
    rintro x s (hSame | ⟨url, hSlot⟩ | ⟨slot, id, hFill⟩) hx
    · rw [Moment.state_move, hSame]
      exact hx
    · rw [Moment.state_move, hSlot]
      exact hx.slot url
    · rw [Moment.state_move, hFill]
      exact hx.fill slot id
  exact ⟨hMove, fun _ _ _ hx => hx, fun _ _ _ _ _ hx => hx, fun _ _ hx => hx⟩

/-! ## Resolution -/

/-- Every specifier that was resolved in a module means what resolution makes of it, in the world
that there was. -/
def Truthful (env : Environment σ) (x : Instant σ) : Prop :=
  ∀ specifier referrer r, .resolved specifier (some referrer) (.ok r) ∈ x.events →
    ∃ parent world, Url.parse referrer = .ok parent ∧
      (Resolution.resolve env.builtins env.packages (env.files world) specifier parent world).1 =
        .ok r

theorem Truthful.hear {env : Environment σ} {event : Event} (h : Truthful env x)
    (hEvent : ∀ specifier referrer r, event = .resolved specifier (some referrer) (.ok r) →
      ∃ parent world, Url.parse referrer = .ok parent ∧
        (Resolution.resolve env.builtins env.packages (env.files world) specifier parent world).1 =
          .ok r) : Truthful env (x.hear event) := by
  intro specifier referrer r hMem
  rw [Moment.events_hear, List.mem_append, List.mem_singleton] at hMem
  exact hMem.elim (h specifier referrer r) fun hEq => hEvent specifier referrer r hEq.symm

theorem lasting_truthful (env : Environment σ) : Lasting env (Truthful env) where
  move _ _ _ hx := hx
  created _ _ _ hx := hx.hear (by simp)
  resolved x specifier referrer outcome hResolves hx := hx.hear fun specifier' referrer' r hEq => by
    cases hEq
    obtain ⟨parent, world, hStart, hResolve⟩ := hResolves r rfl
    refine ⟨parent, world, ?_, hResolve⟩
    cases hParse : Url.parse referrer with
    | error reason => simp [startUrl?, hParse, Except.toOption] at hStart
    | ok u =>
      simp only [startUrl?, hParse, Option.elim, Except.toOption, Option.some.injEq] at hStart
      rw [hStart]
  asked _ _ hx := hx.hear (by simp)

end Session

end ModuleLoader
