import ModuleLoader.Pool

/-! A task that has the state for itself, as an action.  Its children take turns, in whatever order
somebody outside chooses, until all of them have succeeded or one has failed. -/

namespace ModuleLoader

variable {S ε τ κ α β γ : Type}

namespace Running

/-- The first task is what the second one becomes in one turn. -/
def Next (task' task : Running S ε τ κ α) : Prop :=
  ∃ busy path x y, task.advance busy path x = some (task', y)

/-- The first children are what the second ones become when one of them takes a turn. -/
def NextChild {n : Nat} (children' children : Fin n → Running S ε τ κ α) : Prop :=
  ∃ i, Next (children' i) (children i) ∧ ∀ j, j ≠ i → children' j = children j

theorem acc_nextChild_succ {n : Nat} {first : Running S ε τ κ α} (hFirst : Acc Next first)
    {rest : Fin n → Running S ε τ κ α} (hRest : Acc NextChild rest)
    {children : Fin (n + 1) → Running S ε τ κ α} (hZero : children 0 = first)
    (hSucc : (fun i => children i.succ) = rest) : Acc NextChild children := by
  -- Either the first child takes a turn, or one of the others does.
  induction hFirst generalizing rest children with
  | intro first hFirst ihFirst =>
    induction hRest generalizing children with
    | intro rest hRest ihRest =>
      refine ⟨_, fun children' ⟨i, hNext, hOthers⟩ => ?_⟩
      cases i using Fin.cases with
      | zero =>
        have hSame : (fun i : Fin n => children' i.succ) = rest :=
          hSucc ▸ funext fun i => hOthers _ (Fin.succ_ne_zero i)
        exact ihFirst _ (hZero ▸ hNext) ⟨_, hRest⟩ rfl hSame
      | succ i =>
        subst hSucc
        refine ihRest _ ⟨i, hNext, fun j hj => hOthers _ fun hEq => hj (Fin.succ_inj.1 hEq)⟩ ?_ rfl
        rw [hOthers 0 (Fin.succ_ne_zero i).symm, hZero]

theorem acc_nextChild {n : Nat} {children : Fin n → Running S ε τ κ α}
    (h : ∀ i, Acc Next (children i)) : Acc NextChild children := by
  induction n with
  | zero => exact ⟨_, fun _ ⟨i, _⟩ => i.elim0⟩
  | succ n ih => exact acc_nextChild_succ (h 0) (ih fun i => h i.succ) rfl rfl

theorem acc_inside {part : Section S ε κ β γ} {body : Running S ε τ κ β}
    {next : Except ε γ → Task S ε τ κ α} (hBody : Acc Next body)
    (hNext : ∀ outcome, Acc Next (.ready (next outcome))) : Acc Next (.inside part body next) := by
  induction hBody with
  | intro body _ ih =>
    refine ⟨_, ?_⟩
    rintro task' ⟨busy, path, x, y, h⟩
    rw [advance] at h
    split at h
    · cases h
      exact hNext _
    · obtain ⟨⟨body', z⟩, hBody, hEq⟩ := Option.map_eq_some_iff.1 h
      cases hEq
      exact ih body' ⟨_, _, _, _, hBody⟩

theorem acc_divided {n : Nat} {children : Fin n → Running S ε τ κ β}
    {next : Except ε (List β) → Task S ε τ κ α} (hChildren : ∀ i, Acc Next (children i))
    (hNext : ∀ outcome, Acc Next (.ready (next outcome))) :
    Acc Next (.divided children next) := by
  have hAll := acc_nextChild hChildren
  clear hChildren
  induction hAll with
  | intro children _ ih =>
    refine ⟨_, ?_⟩
    rintro task' ⟨busy, path, x, y, h⟩
    cases path with
    | nil =>
      simp only [advance] at h
      split at h
      · cases h
        exact hNext _
      · cases h
    | cons i path =>
      simp only [advance] at h
      split at h
      · next hi =>
        split at h
        · cases h
          exact hNext _
        · obtain ⟨⟨child, z⟩, hChild, hEq⟩ := Option.map_eq_some_iff.1 h
          cases hEq
          refine ih _ ⟨⟨i, hi⟩, ?_, fun j hj => if_neg hj⟩
          simp only [if_true]
          exact ⟨_, _, _, _, hChild⟩
      · cases h

theorem acc_ready (task : Task S ε τ κ α) : Acc Next (.ready task) := by
  induction task with
  | finish outcome => exact ⟨_, fun _ ⟨_, _, _, _, h⟩ => by cases h⟩
  | outOfFuel => exact ⟨_, fun _ ⟨_, _, _, _, h⟩ => by cases h⟩
  | step change next ih =>
    refine ⟨_, ?_⟩
    rintro _ ⟨busy, path, x, y, h⟩
    cases h
    exact ih _
  | report event next ih =>
    refine ⟨_, ?_⟩
    rintro _ ⟨busy, path, x, y, h⟩
    cases h
    exact ih
  | enter part body next ihBody ih =>
    refine ⟨_, ?_⟩
    rintro _ ⟨busy, path, x, y, h⟩
    simp only [advance, Task.advance] at h
    split at h
    · cases h
      exact ih _
    · split at h
      · cases h
      · cases h
        exact acc_inside ihBody ih
  | join children next ihChildren ih =>
    refine ⟨_, ?_⟩
    rintro _ ⟨busy, path, x, y, h⟩
    cases h
    exact acc_divided ihChildren ih

theorem acc_next (task : Running S ε τ κ α) : Acc Next task := by
  induction task with
  | ready task => exact acc_ready task
  | inside part body next ih => exact acc_inside ih fun _ => acc_ready _
  | divided children next ih => exact acc_divided ih fun _ => acc_ready _

/-- The task is accessible.  Whoever evaluates this proof sees that many turns of the task before
the argument itself. -/
theorem acc_next_after : (turns : Nat) → ∀ task : Running S ε τ κ α, Acc Next task
  | 0, task => acc_next task
  | turns + 1, task => ⟨task, fun task' _ => acc_next_after turns task'⟩

/-- Every task ends after finitely many turns. -/
theorem wellFounded_next : WellFounded (Next (S := S) (ε := ε) (τ := τ) (κ := κ) (α := α)) :=
  ⟨acc_next_after 100000⟩

/-- The ways to the children that may take a turn, the first child first. -/
def paths {α : Type} : Running S ε τ κ α → List (List Nat)
  | .ready _ => [[]]
  | .inside _ body _ => body.paths
  | .divided (n := n) children _ =>
    [] :: (List.finRange n).flatMap fun i => (children i).paths.map (i.val :: ·)

variable [DecidableEq κ]

/-- The next turn of a task that has the state for itself.  The way with the number `first` is tried
first, and whoever has to wait lets the next one go. -/
def turn (task : Running S ε τ κ α) (first : Nat) (s : S) :
    Option (Running S ε τ κ α × Moment S τ) :=
  (task.paths.rotateLeft first).findSome? fun path =>
    task.advance (fun place => 0 < task.holds place) path ⟨s, []⟩

theorem next_of_turn {task task' : Running S ε τ κ α} {first : Nat} {s : S} {y : Moment S τ}
    (h : task.turn first s = some (task', y)) : Next task' task := by
  obtain ⟨path, -, hAdvance⟩ := List.exists_of_findSome?_eq_some h
  exact ⟨_, path, _, y, hAdvance⟩

/-- The action of a task that has the state for itself.  Before each turn `choose` says who comes
first, and may change the state. -/
def inTurns (choose : S → Nat × S) : Running S ε τ κ α → Action S ε τ α :=
  wellFounded_next.fix fun task go =>
    match task.outcome? with
    | some outcome => .finish outcome
    | none => .step (fun s => (choose s).2) fun s =>
      .step (fun t => ((task.turn (choose s).1 t).map (·.2.state)).getD t) fun t =>
        match h : task.turn (choose s).1 t with
        | none => .outOfFuel
        | some (task', y) => y.events.foldr .report (go task' (next_of_turn h))

end Running

/-- The action of a task that no other task disturbs.  Wherever it divides itself, its children take
turns. -/
def Task.alone [DecidableEq κ] (choose : S → Nat × S) {α : Type} :
    Task S ε τ κ α → Action S ε τ α
  | .finish outcome => .finish outcome
  | .outOfFuel => .outOfFuel
  | .step change next => .step change fun s => (next s).alone choose
  | .report event next => .report event (next.alone choose)
  | .enter part body next =>
    .step (fun s => if (part.skip s).isSome then s else part.start s) fun s =>
      match part.skip s with
      | some outcome => (next outcome).alone choose
      | none => (body.alone choose).attempt.andThen fun outcome =>
        .step (fun s => (part.close outcome s).2) fun s =>
          (next (part.close outcome s).1).alone choose
  | .join children next =>
    ((Running.ready (.join children .finish)).inTurns choose).attempt.andThen fun outcome =>
      (next outcome).alone choose

end ModuleLoader
