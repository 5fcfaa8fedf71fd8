import ModuleLoader.Proofs.Task.Pool

/-! Tasks that wait at a section.  Whoever waits there enters in its turn, once nobody is there. -/

namespace ModuleLoader

variable {S ε τ κ α β γ : Type}

/-- The next step of a task, along a path, is to enter a section. -/
inductive Running.Awaits (part : Section S ε κ β γ) :
    {α : Type} → Running S ε τ κ α → List Nat → Prop
  | ready {α : Type} (body : Task S ε τ κ β) (next : Except ε γ → Task S ε τ κ α)
      (path : List Nat) : Awaits part (.ready (.enter part body next)) path
  | inside {α β' γ' : Type} {outer : Section S ε κ β' γ'} {body : Running S ε τ κ β'}
      {next : Except ε γ' → Task S ε τ κ α} {path : List Nat} (h : Awaits part body path) :
      Awaits part (.inside outer body next) path
  | divided {α β' : Type} {n : Nat} {children : Fin n → Running S ε τ κ β'}
      {next : Except ε (List β') → Task S ε τ κ α} {i : Fin n} {path : List Nat}
      (h : Awaits part (children i) path) : Awaits part (.divided children next) (i :: path)

variable {part : Section S ε κ β γ} {path : List Nat}

theorem Running.Awaits.outcome? {task : Running S ε τ κ α} (h : task.Awaits part path) :
    task.outcome? = none := by
  cases h <;> rfl

variable [DecidableEq κ]

theorem Running.Awaits.advance {task : Running S ε τ κ α} {x : Moment S τ} (busy : κ → Bool)
    (h : task.Awaits part path) (hSkip : part.skip x.state = none)
    (hFree : busy part.place = false) :
    ∃ task', task.advance busy path x = some (task', x.move (part.start x.state)) ∧
      ∀ q, task'.holds q = task.holds q + if q = part.place then 1 else 0 := by
  induction h with
  | ready body next path =>
    refine ⟨.inside part (.ready body) next, ?_, fun q => ?_⟩
    · simp [Running.advance, Task.advance, hSkip, hFree]
    · simp [holds, eq_comm]
  | @inside _ _ _ outer body next path h ih =>
    obtain ⟨body', hAdvance, hHolds⟩ := ih
    refine ⟨.inside outer body' next, ?_, fun q => ?_⟩
    · simp [Running.advance, h.outcome?, hAdvance]
    · rw [holds, holds, hHolds]
      omega
  | @divided _ _ n children next i path h ih =>
    obtain ⟨child, hAdvance, hHolds⟩ := ih
    obtain ⟨others, hSum, -, hUpdate⟩ := holds_child children next i
    refine ⟨.divided (fun j => if j = i then child else children j) next, ?_, fun q => ?_⟩
    · simp [Running.advance, h.outcome?, hAdvance]
    · rw [hUpdate, hHolds, hSum]
      omega

namespace Pool

variable {p : Pool S ε τ κ α} {i : Nat}

/-- A task that waits where nobody is enters in its turn. -/
theorem play_of_awaits {task : Running S ε τ κ α} (hTask : p.task? i = some task)
    (h : task.Awaits part path) (hSkip : part.skip p.now.state = none)
    (hFree : p.holds part.place = 0) :
    (p.play (.run i path)).now = p.now.move (part.start p.now.state) ∧
      ∀ q, (p.play (.run i path)).holds q = p.holds q + if q = part.place then 1 else 0 := by
  obtain ⟨task', hAdvance, hHolds⟩ :=
    h.advance (fun place => 0 < p.holds place) hSkip (by simp [hFree])
  obtain ⟨others, hSum, -, hSet, -⟩ := holds_task hTask
  have hPlay : p.play (.run i path) = ⟨p.tasks.set i (some task'), p.now.move (part.start p.now.state),
      p.now :: p.past⟩ := by
    simp [play, hTask, hAdvance]
  refine ⟨by rw [hPlay], fun q => ?_⟩
  rw [hPlay, hSet, hHolds, hSum]
  omega

/-- A task that changes the state goes on with what the state was. -/
theorem play_of_step (change : S → S) {next : S → Task S ε τ κ α}
    (hTask : p.task? i = some (.ready (.step change next))) (path : List Nat) :
    (p.play (.run i path)).task? i = some (.ready (next p.now.state)) ∧
      (p.play (.run i path)).now = p.now.move (change p.now.state) ∧
        (p.play (.run i path)).holds = p.holds := by
  obtain ⟨others, hSum, -, hSet, -⟩ := holds_task hTask
  have hi : i < p.tasks.length := (List.getElem?_eq_some_iff.1 (task?_eq_some_iff.1 hTask)).1
  have hPlay : p.play (.run i path) = ⟨p.tasks.set i (some (.ready (next p.now.state))),
      p.now.move (change p.now.state), p.now :: p.past⟩ := by
    simp [play, hTask, Running.advance, Task.advance]
  rw [hPlay]
  refine ⟨by simp [task?, hi], rfl, funext fun q => ?_⟩
  rw [hSet, hSum]
  rfl

end Pool

end ModuleLoader
