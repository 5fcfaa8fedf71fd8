import ModuleLoader.Proofs.Session.Gains

/-! The rounds of a link.  A link comes to one frontier after another, and no module is on two of
them.  More fuel than a link needs changes nothing. -/

namespace ModuleLoader

variable {σ : Type} {x y z : Instant σ} {env : Environment σ} {id root : ModuleId}
  {ids ids' : List ModuleId}

namespace Session

/-! ### Rounds -/

/-- One round of a link: the imports of a frontier are bound, and give the next frontier. -/
def round (env : Environment σ) (f : Frontier) : Load σ Frontier := do
  let imports ← inTurns env (Task.forAll f.modules (Shared.bindImportsOf env))
  .ofExcept (f.next (← get) imports.flatten)

/-- The frontiers to which the rounds of a link come from `f` on, each with the moment at which they
come there. -/
def roundsFrom (env : Environment σ) : (fuel : Nat) → Frontier → Instant σ →
    List (Frontier × Instant σ)
  | 0, f, x => [(f, x)]
  | fuel + 1, f, x =>
    (f, x) ::
      if f.modules.isEmpty then []
      else
        match (round env f).runFrom x with
        | some (.ok g, y) => roundsFrom env fuel g y
        | _ => []

/-- The frontiers to which a link comes.  A root that is linked or has failed is on none. -/
def rounds (env : Environment σ) (fuel : Nat) (root : ModuleId) (x : Instant σ) :
    List (Frontier × Instant σ) :=
  match x.state.static? root with
  | none => []
  | some m =>
    match m.linking with
    | .linked | .errored => []
    | .unlinked | .linking => roundsFrom env fuel ⟨[m.url], [root]⟩ x

/-- The modules on the frontiers of a link, in the order in which they come there. -/
def frontierModules (env : Environment σ) (fuel : Nat) (root : ModuleId) (x : Instant σ) :
    List ModuleId :=
  (rounds env fuel root x).flatMap (·.1.modules)

theorem linkRounds_succ (env : Environment σ) (fuel : Nat) (f : Frontier) :
    linkRounds env (fuel + 1) f =
      if f.modules.isEmpty then pure []
      else do
        let next ← round env f
        return f.modules ++ (← linkRounds env fuel next) := by
  simp only [linkRounds, round, bind_assoc]

/-- The modules that the rounds of a link give are those on its frontiers. -/
theorem flatMap_roundsFrom {fuel : Nat} {f : Frontier}
    (hRun : (linkRounds env fuel f).runFrom x = some (.ok ids, y)) :
    (roundsFrom env fuel f x).flatMap (·.1.modules) = ids := by
  induction fuel generalizing x f ids with
  | zero => cases hRun
  | succ fuel ih =>
    rw [linkRounds_succ] at hRun
    rw [roundsFrom, List.flatMap_cons]
    split at hRun
    · next hEmpty =>
      cases hRun
      simp [List.isEmpty_iff.1 hEmpty]
    · next hFull =>
      obtain ⟨g, z, hRound, hRest⟩ := Action.exists_of_runFrom_bind hRun
      obtain ⟨later, w, hLater, hEnd⟩ := Action.exists_of_runFrom_bind hRest
      cases hEnd
      simp [hFull, hRound, ih hLater]

theorem roundsFrom_of_round {fuel : Nat} {f g : Frontier} (hFull : ¬f.modules.isEmpty)
    (hRound : (round env f).runFrom x = some (.ok g, y)) :
    roundsFrom env (fuel + 1) f x = (f, x) :: roundsFrom env fuel g y := by
  rw [roundsFrom, if_neg hFull, hRound]

theorem subset_roundsFrom (env : Environment σ) (fuel : Nat) (f : Frontier) (x : Instant σ) :
    f.modules ⊆ (roundsFrom env fuel f x).flatMap (·.1.modules) := by
  cases fuel <;> simp [roundsFrom]

/-- A link that succeeds goes through its rounds, and then links all modules that were on their
frontiers. -/
theorem exists_of_link {fuel : Nat} {m : StaticModule} (hm : x.state.static? root = some m)
    (hOpen : m.linking = .unlinked ∨ m.linking = .linking)
    (hRun : (link env fuel root).runFrom x = some (.ok (), y)) :
    ∃ z, (linkRounds env fuel ⟨[m.url], [root]⟩).runFrom x =
        some (.ok (frontierModules env fuel root x), z) ∧
      y = z.move (z.state.finishLinking (frontierModules env fuel root x)) := by
  have hRounds : frontierModules env fuel root x =
      (roundsFrom env fuel ⟨[m.url], [root]⟩ x).flatMap (·.1.modules) := by
    rw [frontierModules, rounds, hm]
    rcases hOpen with hOpen | hOpen <;> simp only [hOpen]
  obtain ⟨s, w, hGet, hRest⟩ := Action.exists_of_runFrom_bind hRun
  rw [Action.runFrom_get] at hGet
  cases hGet
  have hLink : ((do
      let visited ← (linkRounds env fuel ⟨[m.url], [root]⟩).onFailure fun e =>
        changeStatic root (·.failLinking e)
      modify fun s => s.finishLinking visited) : Load σ Unit).runFrom x = some (.ok (), y) := by
    rcases hOpen with hOpen | hOpen <;> simpa only [hm, hOpen] using hRest
  obtain ⟨ids, z, hGuarded, hFinish⟩ := Action.exists_of_runFrom_bind hLink
  have hIds : (linkRounds env fuel ⟨[m.url], [root]⟩).runFrom x = some (.ok ids, z) := by
    rw [Action.runFrom_onFailure] at hGuarded
    obtain ⟨⟨outcome, w⟩, hEnd, hSame⟩ := Option.bind_eq_some_iff.1 hGuarded
    cases outcome with
    | ok a =>
      cases hSame
      exact hEnd
    | error e => simp [changeStatic] at hSame
  rw [hRounds, flatMap_roundsFrom hIds]
  cases hFinish
  exact ⟨z, hIds, rfl⟩

/-! ### Fuel -/

/-- More fuel than enough changes nothing. -/
theorem linkRounds_of_le {fuel fuel' : Nat} {f : Frontier} {result}
    (hRun : (linkRounds env fuel f).runFrom x = some result) (hLe : fuel ≤ fuel') :
    (linkRounds env fuel' f).runFrom x = some result := by
  induction fuel generalizing fuel' x f result with
  | zero => cases hRun
  | succ fuel ih =>
    obtain ⟨more, rfl⟩ : ∃ more, fuel' = more + 1 := ⟨fuel' - 1, by omega⟩
    rw [linkRounds_succ] at hRun ⊢
    split at hRun
    · next hEmpty => rwa [if_pos hEmpty]
    · next hFull =>
      rw [if_neg hFull]
      rw [Action.runFrom_bind] at hRun ⊢
      obtain ⟨⟨outcome, z⟩, hRound, hRest⟩ := Option.bind_eq_some_iff.1 hRun
      rw [hRound, Option.bind_some]
      cases outcome with
      | error e => exact hRest
      | ok g =>
        simp only [Action.runFrom_bind] at hRest ⊢
        obtain ⟨later, hLater, hEnd⟩ := Option.bind_eq_some_iff.1 hRest
        rw [ih hLater (by omega), Option.bind_some]
        exact hEnd

theorem link_of_le {fuel fuel' : Nat} {result}
    (hRun : (link env fuel root).runFrom x = some result) (hLe : fuel ≤ fuel') :
    (link env fuel' root).runFrom x = some result := by
  simp only [link, Action.runFrom_bind, Action.runFrom_get, Option.bind_some] at hRun ⊢
  cases hm : x.state.static? root with
  | none => simpa only [hm] using hRun
  | some m =>
    simp only [hm] at hRun ⊢
    cases hLinking : m.linking with
    | linked | errored => simpa only [hLinking] using hRun
    | unlinked | linking =>
      simp only [hLinking, Action.runFrom_bind, Action.runFrom_onFailure] at hRun ⊢
      obtain ⟨ended, hEnded, hRest⟩ := Option.bind_eq_some_iff.1 hRun
      obtain ⟨result', hRounds, hFailure⟩ := Option.bind_eq_some_iff.1 hEnded
      rw [linkRounds_of_le hRounds hLe, Option.bind_some, hFailure]
      exact hRest

/-! ### No module comes to two frontiers -/

/-- All that a round does are steps of the modules on its frontier, and one that succeeds binds all
of them. -/
theorem meets_steps_round (env : Environment σ) {f : Frontier} (hf : f.Ready x.state) :
    (round env f).Meets
      (fun y z => x.InRound y ∧ ∃ l, RoundStep env x (.all x f.modules) l y z) (fun _ => False)
      (fun _ _ => True)
      (fun g y => ∃ imports, List.Forall₂ (y.Bound x) f.modules imports ∧
        f.next y.state imports.flatten = .ok g) x := by
  have hRound := (meets_round env hf.isOpen hf.nodup).invariant x.InRound (.refl x)
    fun _ _ ⟨hy, _, hStep⟩ _ => hy.next hStep
  simp only [round, Action.meets_bind, Action.meets_get, Action.meets_ofExcept]
  refine hRound.mono (fun _ _ hStep => hStep) (fun _ hy => hy.1) (fun _ _ _ => trivial) ?_
  rintro imports y ⟨hBound, hy⟩
  exact ⟨⟨hy, none, .refl y⟩, fun g hNext => ⟨imports, hBound, hNext⟩, fun _ _ => trivial⟩

theorem explores_round (env : Environment σ) {visited : List ModuleId} {f : Frontier}
    (hx : x.Lawful) (h : Exploring root visited f x) :
    Yields (round env f) (fun g y => y.Lawful ∧ Exploring root (visited ++ f.modules) g y) x := by
  refine Yields.bind (.of_meets (meets_frontier env hx h.isOpen h.ready.nodup)) ?_
  rintro imports y ⟨hy, hBound⟩
  simp only [Action.meets_bind, Action.meets_get, true_and]
  cases hNext : f.next y.state imports.flatten with
  | error e => trivial
  | ok g => exact ⟨hy.lawful, h.next hx hy hBound hNext⟩

theorem Exploring.nodup_roundsFrom (env : Environment σ) (fuel : Nat) {visited : List ModuleId}
    {f : Frontier} (hx : x.Lawful) (h : Exploring root visited f x) :
    (visited ++ (roundsFrom env fuel f x).flatMap (·.1.modules)).Nodup := by
  induction fuel generalizing x visited f with
  | zero => simpa [roundsFrom] using h.nodup
  | succ fuel ih =>
    rw [roundsFrom, List.flatMap_cons, ← List.append_assoc]
    by_cases hEmpty : f.modules.isEmpty
    · simpa [hEmpty] using h.nodup
    · rw [if_neg hEmpty]
      split
      · next g y hRound =>
        obtain ⟨hy, hNext⟩ := (explores_round env hx h).done_of_runFrom hRound
        exact ih hy hNext
      · simpa using h.nodup

theorem nodup_frontierModules (env : Environment σ) (fuel : Nat) (root : ModuleId)
    (hx : x.Lawful) : (frontierModules env fuel root x).Nodup := by
  unfold frontierModules rounds
  cases hm : x.state.static? root with
  | none => exact List.nodup_nil
  | some m =>
    cases hLinking : m.linking with
    | linked | errored => simp [hLinking]
    | unlinked | linking =>
      have hOpen : x.state.IsOpen root := ⟨m, hm, by simp [hLinking]⟩
      simpa [hLinking] using (Exploring.start hm hOpen).nodup_roundsFrom env fuel hx

end Session

end ModuleLoader
