import ModuleLoader.Proofs.Session.Requests

/-! Which modules come into a session.  In an environment that names no specifier twice, the modules
that a link makes are those that it binds, so that a program loaded into a fresh session leaves only
modules there to which its root leads. -/

namespace ModuleLoader

variable {σ : Type} {x y z : Instant σ} {ids ids' : List ModuleId}

/-- No module declares a specifier twice. -/
def Moment.Once (x : Instant σ) : Prop :=
  ∀ id m, x.state.module? id = some m → m.DeclaresOnce

/-- The modules of the second moment that the first one does not have are among the given ones, and
declare no specifier twice. -/
def Moment.Gains (x y : Instant σ) (ids : List ModuleId) : Prop :=
  ∀ id n, y.state.module? id = some n →
    (∃ m, x.state.module? id = some m) ∨ id ∈ ids ∧ n.DeclaresOnce

namespace Moment.Gains

theorem of_modules (h : y.state.modules = x.state.modules) : x.Gains y ids := by
  intro id n hn
  exact .inl ⟨n, by simpa [Session.module?, h] using hn⟩

theorem once (h : x.Gains y ids) (hLater : x.Later y) (hx : x.Once) : y.Once := by
  intro id n hn
  rcases h id n hn with ⟨m, hm⟩ | ⟨-, hOnce⟩
  · obtain ⟨n', hn', -, hDependencies⟩ := hLater.module hm
    rw [hn] at hn'
    cases hn'
    rw [Module.DeclaresOnce, hDependencies]
    exact hx id m hm
  · exact hOnce

end Moment.Gains

theorem Moment.Once.static (h : x.Once) {id : ModuleId} {m : StaticModule}
    (hm : x.state.static? id = some m) : m.dependencies.Nodup :=
  h id _ (Session.static?_eq_some_iff.1 hm) _ rfl

theorem Moment.Gains.finishLinking (x : Instant σ) (visited : List ModuleId) :
    x.Gains (x.move (x.state.finishLinking visited)) [] := by
  intro id n hn
  rw [Moment.state_move, Session.module?_finishLinking] at hn
  split at hn
  · obtain ⟨m, hm, -⟩ := Option.map_eq_some_iff.1 hn
    exact .inl ⟨m, hm⟩
  · exact .inl ⟨n, hn⟩

/-- Every module can be reached from the root, and none declares a specifier twice. -/
structure Moment.Rooted (x : Instant σ) (root : ModuleId) : Prop where
  leads : ∀ id m, x.state.module? id = some m → x.state.Leads root id
  once : x.Once

theorem Moment.Rooted.gains {root : ModuleId} (h : x.Rooted root) (hGains : x.Gains y ids)
    (hLater : x.Later y) (hLeads : ∀ id ∈ ids, y.state.Leads root id) : y.Rooted root := by
  refine ⟨fun id n hn => ?_, hGains.once hLater h.once⟩
  rcases hGains id n hn with ⟨m, hm⟩ | ⟨hid, -⟩
  · exact hLater.leads (h.leads id m hm)
  · exact hLeads id hid

theorem Moment.Rooted.of_fresh {world : σ} {root : ModuleId}
    (h : (Moment.fresh world).Gains y [root]) : y.Rooted root := by
  have hNew : ∀ id n, y.state.module? id = some n → id = root ∧ n.DeclaresOnce := by
    intro id n hn
    rcases h id n hn with ⟨m, hm⟩ | ⟨hid, hOnce⟩
    · simp [Moment.fresh, Session.module?] at hm
    · exact ⟨List.mem_singleton.1 hid, hOnce⟩
  refine ⟨fun id n hn => ?_, fun id n hn => (hNew id n hn).2⟩
  rw [(hNew id n hn).1]
  exact .refl

namespace Session

section Yields

variable {α β : Type} {stuck : Instant σ → Prop} {failed : LoadError → Instant σ → Prop}
  {done done' : α → Instant σ → Prop} {last : β → Instant σ → Prop} {action : Load σ α}

/-- Whenever the action succeeds, it ends as `done` says. -/
abbrev Yields (action : Load σ α) (done : α → Instant σ → Prop) (x : Instant σ) : Prop :=
  action.Meets (fun _ _ => True) (fun _ => True) (fun _ _ => True) done x

theorem Yields.of_stuck (h : action.Meets Change stuck failed done x) : Yields action done x :=
  h.mono (fun _ _ _ => trivial) (fun _ _ => trivial) (fun _ _ _ => trivial) fun _ _ hy => hy

theorem Yields.of_meets (h : action.Meets Change (fun _ => True) failed done x) :
    Yields action done x :=
  .of_stuck h

theorem Yields.and (h : Yields action done x) (h' : Yields action done' x) :
    Yields action (fun a y => done a y ∧ done' a y) x :=
  (Action.Meets.and h h').mono (fun _ _ hStep => hStep) (fun _ _ => trivial) (fun _ _ _ => trivial)
    fun _ _ hy => hy

theorem Yields.mono (h : Yields action done x) (hDone : ∀ a y, done a y → done' a y) :
    Yields action done' x :=
  h.ends (fun _ _ _ => trivial) hDone

theorem Yields.bind {f : α → Load σ β} (h : Yields action done x)
    (hf : ∀ a y, done a y → Yields (f a) last y) : Yields (action >>= f) last x :=
  Action.meets_bind.2 (h.mono hf)

theorem Yields.done_of_runFrom {a : α} (h : Yields action done x)
    (hRun : action.runFrom x = some (.ok a, y)) : done a y :=
  (h.of_runFrom hRun).1 a rfl

end Yields

variable {env : Environment σ}

/-- At most the module that is found is new. -/
theorem gains_cachedModule (hOnce : env.NamesOnce) (r : ResolvedModule) (main : Bool) :
    Yields (cachedModule env r main) (fun id y => x.Gains y [id]) x := by
  simp only [cachedModule, Action.meets_bind, Action.meets_modifyGet, Action.meets_get,
    Moment.state_move, true_and]
  split
  · exact Moment.Gains.of_modules rfl
  · refine Yields.bind (.of_meets (meets_createModule env r main)) ?_
    rintro m y ⟨⟨hStill, -⟩, hMade⟩
    refine ⟨trivial, fun id n hn => ?_⟩
    rw [Moment.state_move, module?_withModule] at hn
    split at hn
    · next hid =>
      cases hn
      exact .inr ⟨by simp [hid], hMade.once hOnce⟩
    · exact .inl ⟨n, by simpa [module?, hStill.modules] using hn⟩

/-- What the round from `x` on has reported, and which modules it has made. -/
structure Traced (x : Instant σ) (ids : List ModuleId) (y : Instant σ) : Prop where
  lawful : y.Lawful
  later : x.Later y
  allowed : ∀ event ∈ y.since x, (Share.all x ids).Allows event
  found : ∀ id n, y.state.module? id = some n → (∃ m, x.state.module? id = some m) ∨
    n.DeclaresOnce ∧ ∃ specifier referrer, y.Found x specifier referrer id

theorem traced_refl (hx : x.Lawful) (ids : List ModuleId) : Traced x ids x :=
  ⟨hx, .refl x, fun _ hEvent => by simp [Moment.since] at hEvent, fun _ n hn => .inl ⟨n, hn⟩⟩

theorem traced_of_roundStep (hOnce : env.NamesOnce) {l : Option Place} (hy : Traced x ids y)
    (hStep : RoundStep env x (.all x ids) l y z) : Traced x ids z := by
  have hLater := hStep.change.later hy.lawful
  refine ⟨hStep.change.lawful hy.lawful, hy.later.trans hLater, fun event hEvent => ?_,
    fun id n hn => ?_⟩
  · exact (hStep.mem_since hy.later.events hEvent).elim (hy.allowed event) fun hAllows => hAllows
  · cases hOld : y.state.module? id with
    | none =>
      obtain ⟨r, hMade, hGet, specifier, referrer, hResolved⟩ := hStep.of_none hOld hn
      exact .inr ⟨hMade.once hOnce, specifier, referrer, r, hResolved, hGet⟩
    | some m =>
      obtain ⟨n', hn', -, hDependencies⟩ := hLater.module hOld
      rw [hn] at hn'
      cases hn'
      refine (hy.found id m hOld).imp_right fun ⟨hDeclares, specifier, referrer, hFound⟩ => ?_
      refine ⟨?_, specifier, referrer, hFound.later hy.later.events hStep.persists⟩
      rw [Module.DeclaresOnce, hDependencies]
      exact hDeclares

/-- All that is new are imports of the modules that are bound. -/
theorem gains_frontier (hOnce : env.NamesOnce) (hx : x.Lawful)
    (hOpen : ∀ id ∈ ids, x.state.IsOpen id) (hNodup : ids.Nodup) (hNames : x.Once) :
    Yields (inTurns env (Task.forAll ids (Shared.bindImportsOf env)))
      (fun imports y => x.Gains y imports.flatten) x := by
  have hDistinct : x.Distinct :=
    ⟨fun _ _ _ _ hm hn => hx.eq_of_static_url hm hn, fun _ _ hm => hNames.static hm⟩
  have hRound := (meets_round env hOpen hNodup).invariant (Traced x ids) (traced_refl hx ids)
    fun y z ⟨_, _, hStep⟩ hy => traced_of_roundStep hOnce hy hStep
  refine hRound.mono (fun _ _ _ => trivial) (fun _ _ => trivial) (fun _ _ _ => trivial) ?_
  rintro imports y ⟨hBound, hTraced⟩ j n hn
  refine (hTraced.found j n hn).imp_right fun ⟨hDeclares, specifier, referrer, r, hMem, hGet⟩ => ?_
  -- Whoever has resolved the specifier is on the frontier, and imports what was found.
  obtain ⟨id, hid, hMine⟩ := hTraced.allowed _ hMem
  obtain ⟨values, hValues, hFound⟩ := exists_of_forall₂ hBound id hid
  obtain ⟨k, hk, hSame⟩ := hFound.accounts hDistinct specifier referrer r hMine hMem
  rw [hGet] at hSame
  cases hSame
  exact ⟨List.mem_flatten.2 ⟨values, hValues, hk⟩, hDeclares⟩

theorem rooted_linkRounds (hOnce : env.NamesOnce) {root : ModuleId} (fuel : Nat)
    {visited : List ModuleId} {f : Frontier} (hx : x.Lawful) (h : Exploring root visited f x)
    (hRooted : x.Rooted root) :
    Yields (linkRounds env fuel f) (fun _ y => y.Rooted root ∧ y.Lawful) x := by
  induction fuel generalizing x visited f with
  | zero => trivial
  | succ fuel ih =>
    unfold linkRounds
    split
    · exact ⟨hRooted, hx⟩
    · refine Yields.bind ((gains_frontier hOnce hx h.isOpen h.ready.nodup hRooted.once).and
        (.of_meets (meets_frontier env hx h.isOpen h.ready.nodup))) ?_
      rintro imports y ⟨hGains, hy, hBound⟩
      have hRooted' : y.Rooted root := by
        refine hRooted.gains hGains hy.later fun j hj => ?_
        obtain ⟨id, hid, hImports⟩ := exists_imports hBound j hj
        exact (hy.later.leads (h.reached id (List.mem_append_right _ hid))).tail hImports
      simp only [Action.meets_bind, Action.meets_get, Action.meets_pure, true_and]
      cases hNext : f.next y.state imports.flatten with
      | error e => trivial
      | ok g => exact ih hy.lawful (h.next hx hy hBound hNext) hRooted'

/-- A link keeps all modules of a session within reach of its root. -/
theorem rooted_link (hOnce : env.NamesOnce) (fuel : Nat) (root : ModuleId) (hx : x.Lawful)
    (hRooted : x.Rooted root) : Yields (link env fuel root) (fun _ y => y.Rooted root) x := by
  simp only [link, Action.meets_bind, Action.meets_get, true_and]
  cases hm : x.state.static? root with
  | none => exact hRooted
  | some m =>
    cases hLinking : m.linking with
    | linked =>
      simp only [hLinking]
      exact hRooted
    | errored => simp only [hLinking]; trivial
    | unlinked | linking =>
      have hOpen : x.state.IsOpen root := ⟨m, hm, by simp [hLinking]⟩
      have hStart := Exploring.start hm hOpen
      have hEnd : Yields (linkRounds env fuel ⟨[m.url], [root]⟩)
          (fun ids y => ∃ g, g.modules = [] ∧ Exploring root ids g y) x :=
        (Yields.of_stuck (meets_linkRounds env fuel hx hStart)).mono fun _ _ hy => hy.2
      simp only [hLinking, Action.meets_bind, Action.meets_onFailure, changeStatic,
        Action.meets_modify, true_and, and_true]
      refine ((rooted_linkRounds hOnce fuel hx hStart hRooted).and hEnd).mono ?_
      rintro ids y ⟨⟨hRooted, hy⟩, g, hEmpty, hDone⟩
      exact hRooted.gains (.finishLinking y ids) ((hDone.finish hEmpty).later hy) (by simp)

/-- A program that is loaded is linked, and its root has the URL of its entry. -/
theorem loaded_instantiate (env : Environment σ) (fuel : Nat) (entry : String) (hx : x.Lawful) :
    Yields (instantiate env fuel entry) (fun program y => y.Lawful ∧ ∃ u m,
      entryUrl entry env.baseUrl = .ok u ∧ y.state.static? program.root = some m ∧
        m.url = u.text ∧ m.linking = .linked) x := by
  unfold instantiate
  cases hUrl : entryUrl entry env.baseUrl with
  | error e => trivial
  | ok u =>
    simp only [Action.meets_bind, Action.meets_ofExcept_ok]
    refine (Yields.of_meets (meets_cachedModule env ⟨u.text, .dynamic⟩ true (fun _ => False)
      hx)).mono ?_
    rintro root y ⟨hy, hGet⟩
    simp only [Action.meets_get, true_and]
    cases hm : y.state.static? root with
    | none => trivial
    | some m =>
      refine (Yields.of_stuck (meets_link env fuel root hy.lawful)).bind ?_
      rintro _ z ⟨hz, hLinked⟩
      obtain ⟨n, hn, hGrows⟩ := hz.later.static root m hm
      obtain ⟨k, hk, hText⟩ := hy.lawful.stored _ _ hGet
      rw [static?_eq_some_iff.1 hm] at hk
      cases hk
      exact ⟨hz.lawful, u, n, rfl, hn, hGrows.url.trans hText, hLinked n hn⟩

/-- A program that is loaded into a fresh session leaves only modules there to which its root
leads. -/
theorem rooted_instantiate (hOnce : env.NamesOnce) (fuel : Nat) (entry : String) (world : σ) :
    Yields (instantiate env fuel entry) (fun program y => y.Rooted program.root)
      (.fresh world) := by
  unfold instantiate
  cases entryUrl entry env.baseUrl with
  | error e => trivial
  | ok url =>
    have hFresh := Moment.lawful_fresh world
    simp only [Action.meets_bind, Action.meets_ofExcept_ok]
    refine ((gains_cachedModule hOnce ⟨url.text, .dynamic⟩ true).and
      (.of_meets (meets_cachedModule env _ true (fun _ => False) hFresh))).mono ?_
    rintro root y ⟨hGains, hy, -⟩
    simp only [Action.meets_get, true_and]
    cases y.state.static? root with
    | none => trivial
    | some m => exact (rooted_link hOnce fuel root hy.lawful (.of_fresh hGains)).bind fun _ _ h => h

end Session

end ModuleLoader
