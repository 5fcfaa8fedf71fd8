import ModuleLoader.Action
import Mathlib.Data.List.Chain
import Mathlib.Logic.Relation

/-! Contracts of actions.  `Meets` says from which moments on an action takes only steps of a given
kind and ends as given.  Its rules follow the way in which actions are composed, and `isChain`,
`of_runFrom` and the theorems next to them read off what it says of a run. -/

namespace ModuleLoader

variable {S ε τ α β : Type}

@[simp] theorem Moment.state_move (x : Moment S τ) (s : S) : (x.move s).state = s := rfl

@[simp] theorem Moment.events_move (x : Moment S τ) (s : S) : (x.move s).events = x.events := rfl

@[simp] theorem Moment.state_hear (x : Moment S τ) (event : τ) :
    (x.hear event).state = x.state := rfl

@[simp] theorem Moment.events_hear (x : Moment S τ) (event : τ) :
    (x.hear event).events = x.events ++ [event] := rfl

@[simp] theorem Moment.move_state (x : Moment S τ) : x.move x.state = x := rfl

namespace Action

theorem andThen_finish (action : Action S ε τ α) :
    action.andThen (fun a => .finish (.ok a)) = action := by
  induction action with
  | finish outcome => cases outcome <;> rfl
  | outOfFuel => rfl
  | step change next ih => simp only [andThen, ih]
  | report event next ih => simp only [andThen, ih]

theorem andThen_assoc {γ : Type} (action : Action S ε τ α) (f : α → Action S ε τ β)
    (g : β → Action S ε τ γ) :
    (action.andThen f).andThen g = action.andThen fun a => (f a).andThen g := by
  induction action with
  | finish outcome => cases outcome <;> rfl
  | outOfFuel => rfl
  | step change next ih => simp only [andThen, ih]
  | report event next ih => simp only [andThen, ih]

instance : LawfulMonad (Action S ε τ) :=
  LawfulMonad.mk' (Action S ε τ) andThen_finish (fun _ _ => rfl) andThen_assoc

/-- From the moment on, the action takes only steps that `step` allows.  It ends as `done` says,
fails as `failed` says, or is stuck without fuel as `stuck` says. -/
def Meets (step : Moment S τ → Moment S τ → Prop) (stuck : Moment S τ → Prop)
    (failed : ε → Moment S τ → Prop) (done : α → Moment S τ → Prop) :
    Action S ε τ α → Moment S τ → Prop
  | .finish (.ok a), x => done a x
  | .finish (.error e), x => failed e x
  | .outOfFuel, x => stuck x
  | .step change next, x =>
    step x (x.move (change x.state)) ∧
      Meets step stuck failed done (next x.state) (x.move (change x.state))
  | .report event next, x =>
    step x (x.hear event) ∧ Meets step stuck failed done next (x.hear event)

/-- Whatever states the action meets, it comes only to what `fact` says. -/
def Gives (fact : α → Prop) : Action S ε τ α → Prop
  | .finish outcome => ∀ a, outcome = .ok a → fact a
  | .outOfFuel => True
  | .step _ next => ∀ s, (next s).Gives fact
  | .report _ next => next.Gives fact

section Gives

variable {fact : α → Prop} {fact' : β → Prop}

@[simp] theorem gives_pure {a : α} : (pure a : Action S ε τ α).Gives fact ↔ fact a :=
  ⟨fun h => h a rfl, fun h _ hOk => by cases hOk; exact h⟩

@[simp] theorem gives_throw {e : ε} : (throw e : Action S ε τ α).Gives fact :=
  fun _ hOk => by cases hOk

@[simp] theorem gives_ofExcept {outcome : Except ε α} :
    (ofExcept outcome : Action S ε τ α).Gives fact ↔ ∀ a, outcome = .ok a → fact a := Iff.rfl

@[simp] theorem gives_modifyGet {f : S → α × S} :
    (modifyGet f : Action S ε τ α).Gives fact ↔ ∀ s, fact (f s).1 :=
  ⟨fun h s => h s _ rfl, fun h s _ hOk => by cases hOk; exact h s⟩

@[simp] theorem gives_bind {action : Action S ε τ α} {f : α → Action S ε τ β} :
    (action >>= f).Gives fact' ↔ action.Gives fun a => (f a).Gives fact' := by
  change (action.andThen f).Gives fact' ↔ _
  induction action with
  | finish outcome =>
    cases outcome with
    | ok a => exact ⟨fun h _ hOk => by cases hOk; exact h, fun h => h a rfl⟩
    | error e => exact iff_of_true (fun _ hOk => by cases hOk) fun _ hOk => by cases hOk
  | outOfFuel => rfl
  | step change next ih => exact forall_congr' ih
  | report event next ih => exact ih

theorem Gives.imp {action : Action S ε τ α} {fact' : α → Prop} (h : action.Gives fact)
    (hFact : ∀ a, fact a → fact' a) : action.Gives fact' := by
  induction action with
  | finish outcome => exact fun a hOk => hFact a (h a hOk)
  | outOfFuel => trivial
  | step change next ih => exact fun s => ih s (h s)
  | report event next ih => exact ih h

theorem Gives.of_forall {action : Action S ε τ α} (h : ∀ a, fact a) : action.Gives fact := by
  induction action with
  | finish outcome => exact fun a _ => h a
  | outOfFuel => trivial
  | step change next ih => exact ih
  | report event next ih => exact ih

theorem Gives.reporting {action : Action S ε τ α} (event : Except ε α → τ) (h : action.Gives fact) :
    (action.reporting event).Gives fact := by
  refine gives_bind.2 ?_
  induction action with
  | finish outcome => exact fun _ hOk => by cases hOk; exact h
  | outOfFuel => trivial
  | step change next ih => exact fun s => ih s (h s)
  | report event next ih => exact ih h

end Gives

section Runs

variable {x y : Moment S τ}

@[simp] theorem runFrom_pure (a : α) :
    (pure a : Action S ε τ α).runFrom x = some (.ok a, x) := rfl

@[simp] theorem runFrom_throw (e : ε) :
    (throw e : Action S ε τ α).runFrom x = some (.error e, x) := rfl

@[simp] theorem runFrom_bind (action : Action S ε τ α) (f : α → Action S ε τ β) :
    (action >>= f).runFrom x = (action.runFrom x).bind fun
      | (.ok a, y) => (f a).runFrom y
      | (.error e, y) => some (.error e, y) := by
  change (action.andThen f).runFrom x = _
  induction action generalizing x with
  | finish outcome => cases outcome <;> rfl
  | outOfFuel => rfl
  | step change next ih => exact ih _
  | report event next ih => exact ih

theorem runFrom_bind_of_ok {action : Action S ε τ α} {f : α → Action S ε τ β} {a : α}
    (h : action.runFrom x = some (.ok a, y)) : (action >>= f).runFrom x = (f a).runFrom y := by
  rw [runFrom_bind, h, Option.bind_some]

theorem exists_of_runFrom_bind {action : Action S ε τ α} {f : α → Action S ε τ β} {b : β}
    (h : (action >>= f).runFrom x = some (.ok b, y)) :
    ∃ a z, action.runFrom x = some (.ok a, z) ∧ (f a).runFrom z = some (.ok b, y) := by
  rw [runFrom_bind] at h
  obtain ⟨⟨outcome, z⟩, hFirst, hRest⟩ := Option.bind_eq_some_iff.1 h
  cases outcome with
  | ok a => exact ⟨a, z, hFirst, hRest⟩
  | error e => cases hRest

@[simp] theorem runFrom_attempt (action : Action S ε τ α) :
    action.attempt.runFrom x = (action.runFrom x).map fun (outcome, y) => (.ok outcome, y) := by
  induction action generalizing x with
  | finish | outOfFuel => rfl
  | step change next ih => exact ih _
  | report event next ih => exact ih

@[simp] theorem runFrom_get :
    (get : Action S ε τ S).runFrom x = some (.ok x.state, x) := rfl

@[simp] theorem runFrom_modifyGet (f : S → α × S) :
    (modifyGet f : Action S ε τ α).runFrom x =
      some (.ok (f x.state).1, x.move (f x.state).2) := rfl

@[simp] theorem runFrom_modify (f : S → S) :
    (modify f : Action S ε τ PUnit).runFrom x = some (.ok ⟨⟩, x.move (f x.state)) := rfl

@[simp] theorem runFrom_step (change : S → S) (next : S → Action S ε τ α) :
    (Action.step change next).runFrom x = (next x.state).runFrom (x.move (change x.state)) := rfl

@[simp] theorem runFrom_finish (outcome : Except ε α) :
    (.finish outcome : Action S ε τ α).runFrom x = some (outcome, x) := rfl

theorem runFrom_onFailure (action : Action S ε τ α) (cleanUp : ε → Action S ε τ Unit) :
    (action.onFailure cleanUp).runFrom x = (action.runFrom x).bind fun
      | (.ok a, y) => some (.ok a, y)
      | (.error e, y) => (cleanUp e >>= fun _ => throw e : Action S ε τ α).runFrom y := by
  simp only [onFailure, runFrom_bind, runFrom_attempt]
  cases action.runFrom x with
  | none => rfl
  | some result => obtain ⟨_ | _, _⟩ := result <;> simp

end Runs

section Rules

variable {step : Moment S τ → Moment S τ → Prop} {stuck : Moment S τ → Prop}
  {failed : ε → Moment S τ → Prop} {done : α → Moment S τ → Prop} {done' : β → Moment S τ → Prop}
  {action : Action S ε τ α} {x : Moment S τ}

@[simp] theorem meets_pure {a : α} :
    Meets step stuck failed done (pure a : Action S ε τ α) x ↔ done a x := Iff.rfl

@[simp] theorem meets_throw {e : ε} :
    Meets step stuck failed done (throw e : Action S ε τ α) x ↔ failed e x := Iff.rfl

@[simp] theorem meets_outOfFuel :
    Meets step stuck failed done (.outOfFuel : Action S ε τ α) x ↔ stuck x := Iff.rfl

@[simp] theorem meets_ofExcept_ok {a : α} :
    Meets step stuck failed done (ofExcept (.ok a) : Action S ε τ α) x ↔ done a x := Iff.rfl

@[simp] theorem meets_ofExcept_error {e : ε} :
    Meets step stuck failed done (ofExcept (.error e) : Action S ε τ α) x ↔ failed e x := Iff.rfl

theorem meets_ofExcept {outcome : Except ε α} :
    Meets step stuck failed done (ofExcept outcome : Action S ε τ α) x ↔
      (∀ a, outcome = .ok a → done a x) ∧ ∀ e, outcome = .error e → failed e x := by
  cases outcome <;> simp

@[simp] theorem meets_bind {f : α → Action S ε τ β} :
    Meets step stuck failed done' (action >>= f) x ↔
      Meets step stuck failed (fun a y => Meets step stuck failed done' (f a) y) action x := by
  change Meets step stuck failed done' (action.andThen f) x ↔ _
  induction action generalizing x with
  | finish outcome => cases outcome <;> rfl
  | outOfFuel => rfl
  | step change next ih => exact and_congr_right fun _ => ih _
  | report event next ih => exact and_congr_right fun _ => ih

@[simp] theorem meets_get {done : S → Moment S τ → Prop} :
    Meets step stuck failed done (get : Action S ε τ S) x ↔ step x x ∧ done x.state x := Iff.rfl

@[simp] theorem meets_modifyGet {f : S → α × S} :
    Meets step stuck failed done (modifyGet f : Action S ε τ α) x ↔
      step x (x.move (f x.state).2) ∧ done (f x.state).1 (x.move (f x.state).2) := Iff.rfl

@[simp] theorem meets_modify {done : PUnit → Moment S τ → Prop} {f : S → S} :
    Meets step stuck failed done (modify f : Action S ε τ PUnit) x ↔
      step x (x.move (f x.state)) ∧ done ⟨⟩ (x.move (f x.state)) := Iff.rfl

@[simp] theorem meets_tell {done : Unit → Moment S τ → Prop} {event : τ} :
    Meets step stuck failed done (tell event : Action S ε τ Unit) x ↔
      step x (x.hear event) ∧ done () (x.hear event) := Iff.rfl

@[simp] theorem meets_attempt {done : Except ε α → Moment S τ → Prop} :
    Meets step stuck failed done action.attempt x ↔
      Meets step stuck (fun e y => done (.error e) y) (fun a y => done (.ok a) y) action x := by
  induction action generalizing x with
  | finish outcome => cases outcome <;> rfl
  | outOfFuel => rfl
  | step change next ih => exact and_congr_right fun _ => ih _
  | report event next ih => exact and_congr_right fun _ => ih

@[simp] theorem meets_onFailure {cleanUp : ε → Action S ε τ Unit} :
    Meets step stuck failed done (action.onFailure cleanUp) x ↔
      Meets step stuck
        (fun e y => Meets step stuck failed (fun _ z => failed e z) (cleanUp e) y) done action x := by
  simp [onFailure]

@[simp] theorem meets_reporting {event : Except ε α → τ} :
    Meets step stuck failed done (action.reporting event) x ↔
      Meets step stuck
        (fun e y => step y (y.hear (event (.error e))) ∧ failed e (y.hear (event (.error e))))
        (fun a y => step y (y.hear (event (.ok a))) ∧ done a (y.hear (event (.ok a))))
        action x := by
  simp [reporting]

end Rules

section Consequences

variable {step step' : Moment S τ → Moment S τ → Prop} {stuck stuck' : Moment S τ → Prop}
  {failed failed' : ε → Moment S τ → Prop} {done done' : α → Moment S τ → Prop}
  {action : Action S ε τ α} {x y : Moment S τ}

theorem Meets.mono (h : Meets step stuck failed done action x)
    (hStep : ∀ y z, step y z → step' y z) (hStuck : ∀ y, stuck y → stuck' y)
    (hFailed : ∀ e y, failed e y → failed' e y) (hDone : ∀ a y, done a y → done' a y) :
    Meets step' stuck' failed' done' action x := by
  induction action generalizing x with
  | finish outcome =>
    cases outcome with
    | ok a => exact hDone a x h
    | error e => exact hFailed e x h
  | outOfFuel => exact hStuck x h
  | step change next ih => exact ⟨hStep _ _ h.1, ih _ h.2⟩
  | report event next ih => exact ⟨hStep _ _ h.1, ih h.2⟩

theorem Meets.ends (h : Meets step stuck failed done action x)
    (hFailed : ∀ e y, failed e y → failed' e y) (hDone : ∀ a y, done a y → done' a y) :
    Meets step stuck failed' done' action x :=
  h.mono (fun _ _ h => h) (fun _ h => h) hFailed hDone

theorem Meets.and (h : Meets step stuck failed done action x)
    (h' : Meets step' stuck' failed' done' action x) :
    Meets step (fun y => stuck y ∧ stuck' y) (fun e y => failed e y ∧ failed' e y)
      (fun a y => done a y ∧ done' a y) action x := by
  induction action generalizing x with
  | finish outcome => cases outcome <;> exact ⟨h, h'⟩
  | outOfFuel => exact ⟨h, h'⟩
  | step change next ih => exact ⟨h.1, ih _ h.2 h'.2⟩
  | report event next ih => exact ⟨h.1, ih h.2 h'.2⟩

/-- What an action gives is true of what it comes to. -/
theorem Meets.gives {fact : α → Prop} (h : Meets step stuck failed done action x)
    (hGives : action.Gives fact) :
    Meets step stuck failed (fun a y => done a y ∧ fact a) action x := by
  induction action generalizing x with
  | finish outcome =>
    cases outcome with
    | ok a => exact ⟨h, hGives a rfl⟩
    | error e => exact h
  | outOfFuel => exact h
  | step change next ih => exact ⟨h.1, ih _ h.2 (hGives _)⟩
  | report event next ih => exact ⟨h.1, ih h.2 hGives⟩

theorem Meets.reach (h : Meets step stuck failed done action x) :
    Meets step (fun y => stuck y ∧ Relation.ReflTransGen step x y)
      (fun e y => failed e y ∧ Relation.ReflTransGen step x y)
      (fun a y => done a y ∧ Relation.ReflTransGen step x y) action x := by
  induction action generalizing x with
  | finish outcome => cases outcome <;> exact ⟨h, .refl⟩
  | outOfFuel => exact ⟨h, .refl⟩
  | step change next ih =>
    exact ⟨h.1, (ih _ h.2).mono (fun _ _ h => h) (fun _ hy => ⟨hy.1, .head h.1 hy.2⟩)
      (fun _ _ hy => ⟨hy.1, .head h.1 hy.2⟩) fun _ _ hy => ⟨hy.1, .head h.1 hy.2⟩⟩
  | report event next ih =>
    exact ⟨h.1, (ih h.2).mono (fun _ _ h => h) (fun _ hy => ⟨hy.1, .head h.1 hy.2⟩)
      (fun _ _ hy => ⟨hy.1, .head h.1 hy.2⟩) fun _ _ hy => ⟨hy.1, .head h.1 hy.2⟩⟩

theorem Meets.invariant (h : Meets step stuck failed done action x) (inv : Moment S τ → Prop)
    (hInv : inv x) (hStep : ∀ y z, step y z → inv y → inv z) :
    Meets step (fun y => stuck y ∧ inv y) (fun e y => failed e y ∧ inv y)
      (fun a y => done a y ∧ inv y) action x := by
  have hReach : ∀ y, Relation.ReflTransGen step x y → inv y := by
    intro y hy
    induction hy with
    | refl => exact hInv
    | tail _ hz ih => exact hStep _ _ hz ih
  exact h.reach.mono (fun _ _ h => h) (fun _ hy => ⟨hy.1, hReach _ hy.2⟩)
    (fun _ _ hy => ⟨hy.1, hReach _ hy.2⟩) fun _ _ hy => ⟨hy.1, hReach _ hy.2⟩

theorem Meets.forall_moments (h : Meets step stuck failed done action x)
    (inv : Moment S τ → Prop) (hInv : inv x) (hStep : ∀ y z, step y z → inv y → inv z) :
    ∀ y ∈ action.moments x, inv y := by
  induction action generalizing x with
  | finish | outOfFuel =>
    intro y hy
    rw [List.mem_singleton.1 hy]
    exact hInv
  | step change next ih =>
    intro y hy
    rcases List.mem_cons.1 hy with rfl | hy
    · exact hInv
    · exact ih _ h.2 (hStep _ _ h.1 hInv) y hy
  | report event next ih =>
    intro y hy
    rcases List.mem_cons.1 hy with rfl | hy
    · exact hInv
    · exact ih h.2 (hStep _ _ h.1 hInv) y hy

theorem start_mem_moments (action : Action S ε τ α) (x : Moment S τ) : x ∈ action.moments x := by
  cases action <;> exact List.mem_cons_self

/-- What holds at every moment of an action holds after each of its steps, and at the end. -/
theorem meets_of_moments {inv : Moment S τ → Prop} (h : ∀ y ∈ action.moments x, inv y) :
    Meets (fun _ => inv) inv (fun _ => inv) (fun _ => inv) action x := by
  induction action generalizing x with
  | finish outcome => cases outcome <;> exact h x (start_mem_moments _ x)
  | outOfFuel => exact h x (start_mem_moments _ x)
  | step change next ih =>
    have hRest : ∀ y ∈ (next x.state).moments _, inv y := fun y hy => h y (List.mem_cons_of_mem _ hy)
    exact ⟨hRest _ (start_mem_moments _ _), ih _ hRest⟩
  | report event next ih =>
    have hRest : ∀ y ∈ next.moments _, inv y := fun y hy => h y (List.mem_cons_of_mem _ hy)
    exact ⟨hRest _ (start_mem_moments _ _), ih hRest⟩

theorem Meets.isChain (h : Meets step stuck failed done action x) :
    (action.moments x).IsChain step ∧ (action.moments x).head? = some x := by
  induction action generalizing x with
  | finish | outOfFuel => simp [moments]
  | step change next ih =>
    obtain ⟨hChain, hHead⟩ := ih _ h.2
    simp only [moments, List.head?_cons, and_true]
    rw [List.isChain_cons]
    exact ⟨fun y hy => by rw [hHead] at hy; cases hy; exact h.1, hChain⟩
  | report event next ih =>
    obtain ⟨hChain, hHead⟩ := ih h.2
    simp only [moments, List.head?_cons, and_true]
    rw [List.isChain_cons]
    exact ⟨fun y hy => by rw [hHead] at hy; cases hy; exact h.1, hChain⟩

theorem Meets.of_runFrom (h : Meets step stuck failed done action x) {outcome : Except ε α}
    (hRun : action.runFrom x = some (outcome, y)) :
    (∀ a, outcome = .ok a → done a y) ∧ ∀ e, outcome = .error e → failed e y := by
  induction action generalizing x with
  | finish result =>
    cases hRun
    cases outcome with
    | ok a => exact ⟨fun _ hOk => by cases hOk; exact h, by simp⟩
    | error e => exact ⟨(by simp), fun _ hError => by cases hError; exact h⟩
  | outOfFuel => cases hRun
  | step change next ih => exact ih _ h.2 hRun
  | report event next ih => exact ih h.2 hRun

/-- A run that does not end is stuck at one of its moments. -/
theorem Meets.stuck_of_runFrom (h : Meets step stuck failed done action x)
    (hRun : action.runFrom x = none) : ∃ y ∈ action.moments x, stuck y := by
  induction action generalizing x with
  | finish => cases hRun
  | outOfFuel => exact ⟨x, by simp [moments], h⟩
  | step change next ih =>
    obtain ⟨y, hy, hStuck⟩ := ih _ h.2 hRun
    exact ⟨y, by simp [moments, hy], hStuck⟩
  | report event next ih =>
    obtain ⟨y, hy, hStuck⟩ := ih h.2 hRun
    exact ⟨y, by simp [moments, hy], hStuck⟩

theorem Meets.exists_runFrom (h : Meets step (fun _ => False) failed done action x) :
    ∃ outcome y, action.runFrom x = some (outcome, y) ∧ (∀ a, outcome = .ok a → done a y) ∧
      ∀ e, outcome = .error e → failed e y := by
  cases hRun : action.runFrom x with
  | none =>
    obtain ⟨_, -, hStuck⟩ := h.stuck_of_runFrom hRun
    exact hStuck.elim
  | some result => exact ⟨result.1, result.2, rfl, h.of_runFrom hRun⟩

/-- An action that can only end in one way, and at one moment, does so. -/
theorem Meets.runFrom_eq_ok {a : α}
    (h : Meets step (fun _ => False) (fun _ _ => False) (fun b z => b = a ∧ z = y) action x) :
    action.runFrom x = some (.ok a, y) := by
  obtain ⟨outcome, z, hRun, hOk, hError⟩ := h.exists_runFrom
  cases outcome with
  | error e => exact (hError e rfl).elim
  | ok b =>
    obtain ⟨rfl, rfl⟩ := hOk b rfl
    exact hRun

/-- An action that can only fail in one way, and at one moment, does so. -/
theorem Meets.runFrom_eq_error {e : ε}
    (h : Meets step (fun _ => False) (fun e' z => e' = e ∧ z = y) (fun _ _ => False) action x) :
    action.runFrom x = some (.error e, y) := by
  obtain ⟨outcome, z, hRun, hOk, hError⟩ := h.exists_runFrom
  cases outcome with
  | ok a => exact (hOk a rfl).elim
  | error e' =>
    obtain ⟨rfl, rfl⟩ := hError e' rfl
    exact hRun

/-- A moment of two actions is one of the first or one of the second. -/
theorem mem_moments_bind {action : Action S ε τ α} {f : α → Action S ε τ β} {x y : Moment S τ}
    (hy : y ∈ (action >>= f).moments x) :
    y ∈ action.moments x ∨ ∃ a z, action.runFrom x = some (.ok a, z) ∧ y ∈ (f a).moments z := by
  change y ∈ (action.andThen f).moments x at hy
  induction action generalizing x with
  | finish outcome =>
    cases outcome with
    | ok a => exact .inr ⟨a, x, rfl, hy⟩
    | error e => exact .inl hy
  | outOfFuel => exact .inl hy
  | step change next ih =>
    rcases List.mem_cons.1 hy with rfl | hy
    · exact .inl List.mem_cons_self
    · exact (ih _ hy).imp_left fun hMem => List.mem_cons_of_mem _ hMem
  | report event next ih =>
    rcases List.mem_cons.1 hy with rfl | hy
    · exact .inl List.mem_cons_self
    · exact (ih hy).imp_left fun hMem => List.mem_cons_of_mem _ hMem

theorem mem_moments_of_runFrom {outcome : Except ε α}
    (hRun : action.runFrom x = some (outcome, y)) : y ∈ action.moments x := by
  induction action generalizing x with
  | finish => cases hRun; simp [moments]
  | outOfFuel => cases hRun
  | step change next ih => exact List.mem_cons_of_mem _ (ih _ hRun)
  | report event next ih => exact List.mem_cons_of_mem _ (ih hRun)

end Consequences

section EndsWith

variable {ω : Type} {run : Option (Except ε α × ω)} {check : α → ω → Bool}

/-- The run ends without failure, and the check accepts its result and the state after it. -/
def endsWith (run : Option (Except ε α × ω)) (check : α → ω → Bool) : Bool :=
  match run with
  | some (.ok a, y) => check a y
  | _ => false

theorem exists_of_endsWith (h : endsWith run check = true) :
    ∃ a y, run = some (.ok a, y) ∧ check a y = true := by
  unfold endsWith at h
  split at h
  · next a y => exact ⟨a, y, rfl, h⟩
  · cases h

end EndsWith

end Action

end ModuleLoader
