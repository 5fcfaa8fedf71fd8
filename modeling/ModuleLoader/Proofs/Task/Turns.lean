import ModuleLoader.Proofs.Action
import ModuleLoader.Proofs.Task.Pool
import ModuleLoader.Turns

/-! A task that has the state for itself.  Its run goes through moments that its rules allow, however
its children take turns.  It does not get stuck: whoever waits does so at a place where another child
is, and that one waits, if at all, at a later place.  And every order of turns is one that somebody
outside can choose. -/

namespace ModuleLoader

variable {S ε τ κ α β γ : Type}

theorem mem_rotateLeft {a : α} {as : List α} {n : Nat} : a ∈ as.rotateLeft n ↔ a ∈ as := by
  unfold List.rotateLeft
  dsimp only
  split
  · rfl
  · rw [List.mem_append, or_comm, ← List.mem_append, List.take_append_drop]

/-- The action goes only through moments that the rules allow from a history on, and comes to an end
as `failed` and `done` say. -/
abbrev Rules.Follows (R : Rules S τ κ) (h : History S τ) (failed : ε → History S τ → Prop)
    (done : α → History S τ → Prop) (action : Action S ε τ α) (x : Moment S τ) : Prop :=
  action.Meets (fun y z => ∃ k l, R.Ways (fun _ => False) h k ∧ k.now = y ∧ R.Move l k z)
    (fun _ => False) (fun e y => ∃ k, R.Ways (fun _ => False) h k ∧ k.now = y ∧ failed e k)
    (fun a y => ∃ k, R.Ways (fun _ => False) h k ∧ k.now = y ∧ done a k) x

/-- What was reported before a turn is still reported after it. -/
def Moment.after (y : Moment S τ) (earlier : List τ) : Moment S τ := ⟨y.state, earlier ++ y.events⟩

theorem Task.advance_after (task : Task S ε τ κ α) (busy : κ → Bool) (x : Moment S τ)
    (earlier : List τ) :
    task.advance busy (x.after earlier) =
      (task.advance busy x).map fun (task', y) => (task', y.after earlier) := by
  cases task with
  | finish | outOfFuel | step | join => rfl
  | report event next => simp [advance, Moment.after, Moment.hear]
  | enter part body next =>
    simp only [advance, Moment.after]
    cases part.skip x.state with
    | some outcome => rfl
    | none =>
      dsimp only
      split <;> rfl

theorem Task.events_of_advance {busy : κ → Bool} {task : Task S ε τ κ α}
    {task' : Running S ε τ κ α} {s : S} {y : Moment S τ}
    (h : task.advance busy ⟨s, []⟩ = some (task', y)) :
    y.events = [] ∨ ∃ event, y = ⟨s, [event]⟩ := by
  cases task with
  | finish | outOfFuel => cases h
  | step | join =>
    cases h
    exact .inl rfl
  | report event next =>
    cases h
    exact .inr ⟨event, rfl⟩
  | enter part body next =>
    simp only [advance] at h
    split at h
    · cases h
      exact .inl rfl
    · split at h <;> cases h
      exact .inl rfl

namespace Running

/-- Nobody looks at what was reported before. -/
theorem advance_after (task : Running S ε τ κ α) (busy : κ → Bool) (path : List Nat)
    (x : Moment S τ) (earlier : List τ) :
    task.advance busy path (x.after earlier) =
      (task.advance busy path x).map fun (task', y) => (task', y.after earlier) := by
  induction task generalizing path with
  | ready task => exact task.advance_after busy x earlier
  | inside part body next ih =>
    simp only [advance]
    split
    · rfl
    · rw [ih]
      cases body.advance busy path x <;> rfl
  | @divided α β n children next ih =>
    cases path with
    | nil =>
      simp only [advance]
      split <;> rfl
    | cons i path =>
      simp only [advance]
      split
      · next hi =>
        split
        · rfl
        · rw [ih]
          cases (children ⟨i, hi⟩).advance busy path x <;> rfl
      · rfl

/-- A turn changes the state or reports one event. -/
theorem events_of_advance {busy : κ → Bool} {task task' : Running S ε τ κ α} {path : List Nat}
    {s : S} {y : Moment S τ} (h : task.advance busy path ⟨s, []⟩ = some (task', y)) :
    y.events = [] ∨ ∃ event, y = ⟨s, [event]⟩ := by
  induction task generalizing path with
  | ready task => exact task.events_of_advance h
  | inside part body next ih =>
    simp only [advance] at h
    split at h
    · cases h
      exact .inl rfl
    · obtain ⟨⟨body', z⟩, hBody, hEq⟩ := Option.map_eq_some_iff.1 h
      cases hEq
      exact ih hBody
  | @divided α β n children next ih =>
    cases path with
    | nil =>
      simp only [advance] at h
      split at h
      · cases h
        exact .inl rfl
      · cases h
    | cons i path =>
      simp only [advance] at h
      split at h
      · next hi =>
        split at h
        · cases h
          exact .inl rfl
        · obtain ⟨⟨child, z⟩, hChild, hEq⟩ := Option.map_eq_some_iff.1 h
          cases hEq
          exact ih _ hChild
      · cases h

theorem paths_ne_nil (task : Running S ε τ κ α) : task.paths ≠ [] := by
  induction task with
  | ready | divided => simp [paths]
  | inside part body next ih => exact ih

/-- The way to a child and on from there. -/
theorem cons_mem_paths {n : Nat} {children : Fin n → Running S ε τ κ β}
    {next : Except ε (List β) → Task S ε τ κ α} {i : Fin n} {path : List Nat}
    (h : path ∈ (children i).paths) : i.val :: path ∈ (divided children next).paths :=
  List.mem_cons_of_mem _ (List.mem_flatMap.2
    ⟨i, List.mem_finRange i, List.mem_map.2 ⟨path, h, rfl⟩⟩)

/-- The ways to the children are all there are. -/
theorem exists_mem_paths {busy : κ → Bool} {task task' : Running S ε τ κ α} {path : List Nat}
    {x y : Moment S τ} (h : task.advance busy path x = some (task', y)) :
    ∃ path' ∈ task.paths, task.advance busy path' x = some (task', y) := by
  induction task generalizing path with
  | ready task => exact ⟨[], by simp [paths], h⟩
  | inside part body next ih =>
    simp only [advance] at h ⊢
    split at h
    · obtain ⟨path', hPath'⟩ := List.exists_mem_of_ne_nil _ body.paths_ne_nil
      exact ⟨path', hPath', h⟩
    · obtain ⟨⟨body', z⟩, hBody, hEq⟩ := Option.map_eq_some_iff.1 h
      cases hEq
      obtain ⟨path', hPath', hBody'⟩ := ih hBody
      exact ⟨path', hPath', by rw [hBody', Option.map_some]⟩
  | @divided α β n children next ih =>
    cases path with
    | nil => exact ⟨[], by simp [paths], h⟩
    | cons i path =>
      simp only [advance] at h
      split at h
      · next hi =>
        split at h
        · next e hOutcome =>
          obtain ⟨path', hPath'⟩ := List.exists_mem_of_ne_nil _ (children ⟨i, hi⟩).paths_ne_nil
          exact ⟨_, cons_mem_paths hPath', by simp [advance, hi, hOutcome, h]⟩
        · next hNone =>
          obtain ⟨⟨child, z⟩, hChild, hEq⟩ := Option.map_eq_some_iff.1 h
          cases hEq
          obtain ⟨path', hPath', hChild'⟩ := ih _ hChild
          refine ⟨_, cons_mem_paths hPath', ?_⟩
          simp only [advance, hi, dite_true, hChild']
          rfl
      · cases h

/-- No child can go on. -/
def Stuck (task : Running S ε τ κ α) (busy : κ → Bool) (x : Moment S τ) : Prop :=
  ∀ path ∈ task.paths, task.advance busy path x = none

/-- Whoever is stuck in a section is so because of what goes on there. -/
theorem Stuck.inside {part : Section S ε κ β γ} {body : Running S ε τ κ β}
    {next : Except ε γ → Task S ε τ κ α} {busy : κ → Bool} {x : Moment S τ}
    (h : (Running.inside part body next).Stuck busy x) :
    body.outcome? = none ∧ body.Stuck busy x := by
  cases hOutcome : body.outcome? with
  | some outcome =>
    obtain ⟨path, hPath⟩ := List.exists_mem_of_ne_nil _ body.paths_ne_nil
    have hLost := h path hPath
    simp [advance, hOutcome] at hLost
  | none =>
    refine ⟨rfl, fun path hPath => ?_⟩
    simpa [advance, hOutcome] using h path hPath

theorem Stuck.child {n : Nat} {children : Fin n → Running S ε τ κ β}
    {next : Except ε (List β) → Task S ε τ κ α} {busy : κ → Bool} {x : Moment S τ}
    (h : (divided children next).Stuck busy x) {i : Fin n} (hOutcome : (children i).outcome? = none) :
    (children i).Stuck busy x := fun path hPath => by
  simpa [advance, hOutcome] using h _ (cons_mem_paths hPath)

/-- Where nobody can go on, some child has not ended. -/
theorem Stuck.exists_child {n : Nat} {children : Fin n → Running S ε τ κ β}
    {next : Except ε (List β) → Task S ε τ κ α} {busy : κ → Bool} {x : Moment S τ}
    (h : (divided children next).Stuck busy x) : ∃ i, (children i).outcome? = none := by
  by_contra hNone
  -- If all have succeeded, the task can become whole again; if one has failed, the task fails.
  by_cases hAll : ∀ i, (children i).result?.isSome
  · have hWhole := h [] (by simp [paths])
    simp [advance, hAll] at hWhole
  · obtain ⟨i, hi⟩ := not_forall.1 hAll
    obtain ⟨path, hPath⟩ := List.exists_mem_of_ne_nil _ (children i).paths_ne_nil
    have hLost := h _ (cons_mem_paths hPath)
    cases hOutcome : (children i).outcome? with
    | none => exact hNone ⟨i, hOutcome⟩
    | some outcome =>
      cases outcome with
      | ok b => simp [result?, hOutcome, Except.toOption] at hi
      | error e => simp [advance, hOutcome] at hLost

section Turn

variable [DecidableEq κ]

/-- Whatever a task can do next, it does so when it is told to come first there. -/
theorem exists_turn {task task' : Running S ε τ κ α} {path : List Nat} {s : S} {y : Moment S τ}
    (h : task.advance (fun place => 0 < task.holds place) path ⟨s, []⟩ = some (task', y)) :
    ∃ first, task.turn first s = some (task', y) := by
  obtain ⟨path', hPath', hAdvance⟩ := exists_mem_paths h
  obtain ⟨first, hFirst, hGet⟩ := List.mem_iff_getElem.1 hPath'
  refine ⟨first, ?_⟩
  have hHead : ∃ rest, task.paths.rotateLeft first = path' :: rest := by
    unfold List.rotateLeft
    dsimp only
    split
    · have hOne : task.paths.length = 1 := by omega
      obtain ⟨only, hOnly⟩ := List.length_eq_one_iff.1 hOne
      rw [hOnly, List.mem_singleton] at hPath'
      exact ⟨[], by rw [hOnly, hPath']⟩
    · rw [Nat.mod_eq_of_lt hFirst, List.drop_eq_getElem_cons hFirst, hGet]
      exact ⟨_, rfl⟩
  obtain ⟨rest, hRest⟩ := hHead
  rw [turn, hRest, List.findSome?_cons, hAdvance]

/-- A task takes a turn unless it is stuck. -/
theorem turn_eq_none_iff {task : Running S ε τ κ α} {first : Nat} {s : S} :
    task.turn first s = none ↔ task.Stuck (fun place => 0 < task.holds place) ⟨s, []⟩ := by
  rw [turn, List.findSome?_eq_none_iff]
  simp only [mem_rotateLeft, Stuck]

end Turn

namespace Meets

variable {R : Rules S τ κ} {own : κ → Prop} {h : History S τ} {failed : ε → History S τ → Prop}
  {busy : κ → Bool}

/-- A task that has not ended and cannot go on waits at a place where somebody is, and which comes
after all places at which it is itself. -/
theorem waits {task : Running S ε τ κ α} {done : α → History S τ → Prop}
    (hTask : task.Meets R own failed done h) (hSpent : ¬R.Spent) (hRuns : task.outcome? = none)
    (hStuck : task.Stuck busy h.now) : ∃ q, busy q = true ∧ ∀ p, own p → R.Before p q := by
  induction task generalizing R own failed with
  | ready task =>
    have hStuck := hStuck [] (by simp [paths])
    cases task with
    | finish => cases hRuns
    | outOfFuel => exact (hSpent hTask).elim
    | step | report | join => cases hStuck
    | enter part body next =>
      simp only [Running.advance, Task.advance] at hStuck
      split at hStuck
      · cases hStuck
      · split at hStuck
        · next hBusy =>
          obtain ⟨hExclusive, hBusy⟩ := Bool.and_eq_true_iff.1 hBusy
          exact ⟨part.place, hBusy, hTask.1 hExclusive⟩
        · cases hStuck
  | inside part body next ih =>
    obtain ⟨hOutcome, hBody⟩ := hStuck.inside
    obtain ⟨q, hBusy, hBefore⟩ := ih hTask hSpent hOutcome hBody
    exact ⟨q, hBusy, fun p hp => hBefore p (.inr hp)⟩
  | @divided α β n children next ih =>
    obtain ⟨parts, failed', done', hSplits, hChildren, -⟩ := hTask
    obtain ⟨i, hOutcome⟩ := hStuck.exists_child
    have hSpent' : ¬(parts i).Spent := fun hi => hSpent ((hSplits.within i).spent hi)
    obtain ⟨q, hBusy, hBefore⟩ := ih i (hChildren i) hSpent' hOutcome (hStuck.child hOutcome)
    exact ⟨q, hBusy, (hSplits.within i).before ▸ hBefore⟩

variable [DecidableEq κ]

/-- Where a task is that cannot go on, somebody waits at a later place. -/
theorem waits_from {task : Running S ε τ κ α} {done : α → History S τ → Prop}
    (hTask : task.Meets R own failed done h) (hSpent : ¬R.Spent) (hStuck : task.Stuck busy h.now)
    {p : κ} (hp : 0 < task.holds p) : ∃ q, busy q = true ∧ R.Before p q := by
  induction task generalizing R own failed with
  | ready task => simp [holds] at hp
  | inside part body next ih =>
    obtain ⟨hOutcome, hBody⟩ := hStuck.inside
    rw [holds] at hp
    split at hp
    · next hPlace =>
      have hTask : body.Meets _ _ _ _ h := hTask
      obtain ⟨q, hBusy, hBefore⟩ := hTask.waits hSpent hOutcome hBody
      exact ⟨q, hBusy, hBefore p (.inl hPlace.symm)⟩
    · exact ih hTask hSpent hBody (by omega)
  | @divided α β n children next ih =>
    obtain ⟨parts, failed', done', hSplits, hChildren, -⟩ := hTask
    rw [holds_divided] at hp
    obtain ⟨i, -, hi⟩ := Finset.exists_ne_zero_of_sum_ne_zero (Nat.pos_iff_ne_zero.1 hp)
    have hOutcome : (children i).outcome? = none := by
      cases hEnd : (children i).outcome? with
      | none => rfl
      | some outcome =>
        rw [outcome?_eq_some hEnd] at hi
        simp [holds] at hi
    have hSpent' : ¬(parts i).Spent := fun hi => hSpent ((hSplits.within i).spent hi)
    obtain ⟨q, hBusy, hBefore⟩ :=
      ih i (hChildren i) hSpent' (hStuck.child hOutcome) (Nat.pos_of_ne_zero hi)
    exact ⟨q, hBusy, (hSplits.within i).before ▸ hBefore⟩

end Meets

variable [DecidableEq κ] {R : Rules S τ κ} {h k : History S τ} {failed : ε → History S τ → Prop}
  {done : α → History S τ → Prop}

/-- A task that keeps to its rules and has the state for itself. -/
structure Lone (R : Rules S τ κ) (failed : ε → History S τ → Prop) (done : α → History S τ → Prop)
    (h : History S τ) (task : Running S ε τ κ α) : Prop where
  valid : R.Valid h
  once : ∀ q, task.holds q ≤ 1
  kept : ∀ q, 0 < task.holds q → R.Kept q h.now.state
  meets : task.Meets R (fun _ => False) failed done h

namespace Lone

variable {task task' : Running S ε τ κ α} {y : Moment S τ}

theorem ready {task : Task S ε τ κ α} (hValid : R.Valid h)
    (hTask : task.Meets R (fun _ => False) failed done h) :
    (Running.ready task).Lone R failed done h where
  valid := hValid
  once q := by simp [holds]
  kept q hq := by simp [holds] at hq
  meets := hTask

/-- Something happens outside. -/
theorem pass (hTask : task.Lone R failed done h) (hPass : R.Pass none h y) :
    task.Lone R failed done (h.next y) where
  valid := R.valid_next hTask.valid (.inr hPass)
  once := hTask.once
  kept q hq := R.kept_next hTask.valid (.inr hPass) (by simp) (hTask.kept q hq)
  meets := hTask.meets.later (.one hPass (by simp))

theorem advance (hTask : task.Lone R failed done h) {path : List Nat}
    (hAdvance : task.advance (fun place => 0 < task.holds place) path h.now = some (task', y)) :
    ∃ l, R.Act l h y ∧ task'.Lone R failed done (h.next y) := by
  have hBusy : ∀ q, 0 < task.holds q →
      decide (0 < task.holds q) = true ∧ R.Kept q h.now.state :=
    fun q hq => ⟨by simpa using hq, hTask.kept q hq⟩
  obtain ⟨l, hStep⟩ := hTask.meets.advance
    ⟨fun q hq => hBusy q (hq.resolve_left id), fun q hq => hq.elim, hTask.once⟩ hAdvance
  exact ⟨l, hStep.act, R.valid_next hTask.valid (.inl hStep.act), hStep.shift.le_one hTask.once hBusy,
    fun q hq => hStep.shift.kept hTask.valid (.inl hStep.act) hTask.once hTask.kept hq, hStep.meets⟩

/-- A task that has the state for itself does not get stuck. -/
theorem turn_isSome (hTask : task.Lone R failed done h)
    (hBefore : WellFounded fun q p => R.Before p q) (hSpent : ¬R.Spent)
    (hRuns : task.outcome? = none) (first : Nat) : (task.turn first h.now.state).isSome := by
  by_contra hNone
  rw [Option.not_isSome_iff_eq_none, turn_eq_none_iff] at hNone
  have hStuck : task.Stuck (fun place => 0 < task.holds place) h.now := by
    intro path hPath
    have hAfter := task.advance_after (fun place => 0 < task.holds place) path ⟨h.now.state, []⟩
      h.now.events
    rw [hNone path hPath] at hAfter
    simpa [Moment.after] using hAfter
  -- Whoever is somewhere waits further on, and there somebody is as well.
  have hNowhere : ∀ q, ¬0 < task.holds q := by
    intro q
    induction q using hBefore.induction with
    | _ p ih =>
      intro hp
      obtain ⟨q, hBusy, hLater⟩ := hTask.meets.waits_from hSpent hStuck hp
      exact ih q hLater (by simpa using hBusy)
  obtain ⟨q, hBusy, -⟩ := hTask.meets.waits hSpent hRuns hStuck
  exact hNowhere q (by simpa using hBusy)

end Lone

theorem inTurns_eq (choose : S → Nat × S) (task : Running S ε τ κ α) :
    task.inTurns choose = match task.outcome? with
      | some outcome => .finish outcome
      | none => .step (fun s => (choose s).2) fun s =>
        .step (fun t => ((task.turn (choose s).1 t).map (·.2.state)).getD t) fun t =>
          match task.turn (choose s).1 t with
          | none => .outOfFuel
          | some (task', y) => y.events.foldr .report (task'.inTurns choose) := by
  rw [inTurns, WellFounded.fix_eq]
  cases task.outcome? with
  | some outcome => rfl
  | none =>
    simp only
    congr 1
    funext s
    congr 1
    funext t
    split
    · next hNone => simp only [hNone]
    · next task' y hSome => simp only [hSome]

theorem advance_of_turn {task task' : Running S ε τ κ α} {first : Nat} {x y : Moment S τ}
    (hTurn : task.turn first x.state = some (task', y)) :
    ∃ path, task.advance (fun place => 0 < task.holds place) path x =
      some (task', y.after x.events) := by
  obtain ⟨path, -, hAdvance⟩ := List.exists_of_findSome?_eq_some hTurn
  refine ⟨path, ?_⟩
  have hAfter := task.advance_after (fun place => 0 < task.holds place) path ⟨x.state, []⟩ x.events
  rw [hAdvance] at hAfter
  simpa [Moment.after] using hAfter

/-- A task that has the state for itself goes only through moments that its rules allow, and comes
to an end as it should, in whatever order its children take turns. -/
theorem Lone.meets_inTurns {choose : S → Nat × S} {task : Running S ε τ κ α}
    (hTask : task.Lone R failed done h) (hBefore : WellFounded fun q p => R.Before p q)
    (hSpent : ¬R.Spent)
    (hChoose : ∀ k, R.Valid k → R.Pass none k (k.now.move (choose k.now.state).2)) :
    R.Follows h failed done (task.inTurns choose) h.now := by
  induction task using wellFounded_next.induction generalizing h with
  | _ task ih =>
    rw [inTurns_eq]
    cases hOutcome : task.outcome? with
    | some outcome =>
      have hMeets := hTask.meets
      rw [outcome?_eq_some hOutcome] at hMeets
      cases outcome with
      | ok a => exact ⟨h, .refl h, rfl, hMeets h (.refl h)⟩
      | error e => exact ⟨h, .refl h, rfl, hMeets h (.refl h)⟩
    | none =>
      have hNobody : ∀ (l : Option κ) (q : κ), l = some q → ¬False := fun _ _ _ => id
      have hPass := hChoose h hTask.valid
      refine ⟨⟨h, none, .refl h, rfl, .inr hPass⟩, ?_⟩
      have hChosen := hTask.pass hPass
      have hWay := (Steps.refl h).next (P := R.Move) (.inr hPass) (hNobody none)
      change Action.Meets _ _ _ _ _ (h.next (h.now.move (choose h.now.state).2)).now
      generalize h.next (h.now.move (choose h.now.state).2) = k at hChosen hWay
      obtain ⟨⟨task', y⟩, hTurn⟩ := Option.isSome_iff_exists.1
        (hChosen.turn_isSome hBefore hSpent hOutcome (choose h.now.state).1)
      have hRest : ∀ j, R.Ways (fun _ => False) h j → task'.Lone R failed done j →
          R.Follows h failed done (task'.inTurns choose) j.now := fun j hj hLone =>
        (ih task' (next_of_turn hTurn) hLone).mono
          (fun _ _ ⟨i, l, hi, hStep⟩ => ⟨i, l, hj.trans hi, hStep⟩) (fun _ => id)
          (fun _ _ ⟨i, hi, hEnd⟩ => ⟨i, hj.trans hi, hEnd⟩)
          fun _ _ ⟨i, hi, hEnd⟩ => ⟨i, hj.trans hi, hEnd⟩
      obtain ⟨path, hAdvance⟩ := advance_of_turn hTurn
      obtain ⟨path', -, hFresh⟩ := List.exists_of_findSome?_eq_some hTurn
      simp only [Action.Meets, hTurn, Option.map_some, Option.getD_some]
      rcases events_of_advance hFresh with hNone | ⟨event, rfl⟩
      · -- The turn changes the state.
        have hAfter : y.after k.now.events = k.now.move y.state := by
          simp [Moment.after, Moment.move, hNone]
        rw [hAfter] at hAdvance
        obtain ⟨l, hAct, hLone⟩ := hChosen.advance hAdvance
        refine ⟨⟨k, l, hWay, rfl, .inl hAct⟩, ?_⟩
        rw [hNone]
        exact hRest _ (hWay.next (.inl hAct) (hNobody l)) hLone
      · -- The turn reports an event, and before it nothing happens for one step.
        have hIdle := R.pass_now k
        obtain ⟨l, hAct, hLone⟩ := (hChosen.pass hIdle).advance hAdvance
        have hWay' := hWay.next (.inr hIdle) (hNobody none)
        exact ⟨⟨k, none, hWay, rfl, .inr hIdle⟩, ⟨_, l, hWay', rfl, .inl hAct⟩,
          hRest _ (hWay'.next (.inl hAct) (hNobody l)) hLone⟩

end Running

end ModuleLoader
