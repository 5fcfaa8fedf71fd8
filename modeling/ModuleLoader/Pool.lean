import ModuleLoader.Task

/-! Pools: tasks that have begun and take turns on one state.  A schedule says whose turn it is, and
which tasks are given up. -/

namespace ModuleLoader

/-- A task that has begun: it is about to do something, in a section, or divided. -/
inductive Running (S ε τ κ : Type) : Type → Type 1 where
  | ready {α : Type} (task : Task S ε τ κ α) : Running S ε τ κ α
  | inside {α β γ : Type} (part : Section S ε κ β γ) (body : Running S ε τ κ β)
      (next : Except ε γ → Task S ε τ κ α) : Running S ε τ κ α
  | divided {α β : Type} {n : Nat} (children : Fin n → Running S ε τ κ β)
      (next : Except ε (List β) → Task S ε τ κ α) : Running S ε τ κ α

variable {S ε τ κ : Type}

/-- The next step of a task, where `busy` tells at which places other tasks are. -/
def Task.advance {α : Type} (busy : κ → Bool) :
    Task S ε τ κ α → Moment S τ → Option (Running S ε τ κ α × Moment S τ)
  | .finish _, _ => none
  | .outOfFuel, _ => none
  | .step change next, x => some (.ready (next x.state), x.move (change x.state))
  | .report event next, x => some (.ready next, x.hear event)
  | .enter part body next, x =>
    match part.skip x.state with
    | some outcome => some (.ready (next outcome), x)
    | none =>
      if part.exclusive && busy part.place then none
      else some (.inside part (.ready body) next, x.move (part.start x.state))
  | .join children next, x => some (.divided (fun i => .ready (children i)) next, x)

namespace Running

/-- How a task has ended. -/
def outcome? {α : Type} : Running S ε τ κ α → Option (Except ε α)
  | .ready (.finish outcome) => some outcome
  | _ => none

/-- What a task has come to, unless it has failed. -/
def result? {α : Type} (task : Running S ε τ κ α) : Option α :=
  task.outcome?.bind Except.toOption

/-- How often a task is at a place: in its sections and in those of its children. -/
def holds {α : Type} [DecidableEq κ] (place : κ) : Running S ε τ κ α → Nat
  | .ready _ => 0
  | .inside part body _ => (if part.place = place then 1 else 0) + body.holds place
  | .divided (n := n) children _ =>
    (List.finRange n).foldr (fun i count => (children i).holds place + count) 0

/-- The next step of a task, where `path` chooses a child each time it is divided.  A task is whole
again when all of its children have succeeded.  When one has failed, the other ones are given up. -/
def advance {α : Type} (busy : κ → Bool) :
    Running S ε τ κ α → (path : List Nat) → Moment S τ → Option (Running S ε τ κ α × Moment S τ)
  | .ready task, _, x => task.advance busy x
  | .inside part body next, path, x =>
    match body.outcome? with
    | some outcome =>
      some (.ready (next (part.close outcome x.state).1), x.move (part.close outcome x.state).2)
    | none => (body.advance busy path x).map fun (body, y) => (.inside part body next, y)
  | .divided children next, [], x =>
    if h : ∀ i, (children i).result?.isSome then
      some (.ready (next (.ok (List.ofFn fun i => (children i).result?.get (h i)))), x)
    else none
  | .divided (n := n) children next, i :: path, x =>
    if h : i < n then
      match (children ⟨i, h⟩).outcome? with
      | some (.error e) => some (.ready (next (.error e)), x)
      | _ => ((children ⟨i, h⟩).advance busy path x).map fun (child, y) =>
        (.divided (fun j => if j = ⟨i, h⟩ then child else children j) next, y)
    else none

end Running

/-- Whose turn it is. -/
inductive Turn where
  | run (task : Nat) (path : List Nat)
  /-- The task is given up, wherever it is. -/
  | drop (task : Nat)

/-- Tasks that share a state, with the moments that they have gone through, the latest one first. -/
structure Pool (S ε τ κ α : Type) where
  tasks : List (Option (Running S ε τ κ α))
  now : Moment S τ
  past : List (Moment S τ) := []

namespace Pool

variable {α : Type} [DecidableEq κ]

/-- The pool in which tasks begin. -/
def start (tasks : List (Task S ε τ κ α)) (x : Moment S τ) : Pool S ε τ κ α where
  tasks := tasks.map fun task => some (.ready task)
  now := x

/-- How many tasks are at a place. -/
def holds (p : Pool S ε τ κ α) (place : κ) : Nat :=
  p.tasks.foldr (fun task count => (task.map (Running.holds place)).getD 0 + count) 0

/-- The task with a number, if it was not given up. -/
def task? (p : Pool S ε τ κ α) (i : Nat) : Option (Running S ε τ κ α) := p.tasks[i]?.join

/-- The outcome of the task with a number. -/
def outcome? (p : Pool S ε τ κ α) (i : Nat) : Option (Except ε α) := (p.task? i).bind Running.outcome?

/-- The pool after a turn.  A task that has to wait, or has ended, lets its turn pass. -/
def play (p : Pool S ε τ κ α) : Turn → Pool S ε τ κ α
  | .run i path =>
    match (p.task? i).bind fun task => task.advance (fun place => 0 < p.holds place) path p.now with
    | some (task, y) => ⟨p.tasks.set i (some task), y, p.now :: p.past⟩
    | none => p
  | .drop i => { p with tasks := p.tasks.set i none }

/-- The pool after the turns of a schedule. -/
def after (p : Pool S ε τ κ α) (schedule : List Turn) : Pool S ε τ κ α := schedule.foldl play p

end Pool

end ModuleLoader
