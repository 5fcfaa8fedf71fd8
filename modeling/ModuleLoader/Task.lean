import ModuleLoader.Action

/-! Tasks: programs that share one state and take turns.  Each step of a task is atomic, and other
tasks may step between any two of them.  A task can enter a section, and it can divide itself into
children that take turns like the tasks themselves. -/

namespace ModuleLoader

/-- A part of a program at a place `κ`.  A task that comes there enters with `start` and leaves with
`close`, unless `skip` has its outcome beforehand. -/
structure Section (S ε κ β γ : Type) where
  place : κ
  /-- A task that comes while another one is there waits until that one has left. -/
  exclusive : Bool := true
  skip : S → Option (Except ε γ)
  start : S → S := id
  close : Except ε β → S → Except ε γ × S

/-- A program on a state `S` that reports events `τ`.  It ends with an `α`, fails with an `ε`, or
ends with nothing if its fuel was not enough. -/
inductive Task (S ε τ κ : Type) : Type → Type 1 where
  | finish {α : Type} (outcome : Except ε α) : Task S ε τ κ α
  /-- The fuel of the program is spent. -/
  | outOfFuel {α : Type} : Task S ε τ κ α
  /-- The state changes, and the program goes on with what the state was before. -/
  | step {α : Type} (change : S → S) (next : S → Task S ε τ κ α) : Task S ε τ κ α
  | report {α : Type} (event : τ) (next : Task S ε τ κ α) : Task S ε τ κ α
  | enter {α β γ : Type} (part : Section S ε κ β γ) (body : Task S ε τ κ β)
      (next : Except ε γ → Task S ε τ κ α) : Task S ε τ κ α
  /-- The children go on together until all have succeeded or one has failed. -/
  | join {α β : Type} {n : Nat} (children : Fin n → Task S ε τ κ β)
      (next : Except ε (List β) → Task S ε τ κ α) : Task S ε τ κ α

namespace Task

variable {S ε τ κ α β γ : Type}

/-- A task, and another one that goes on with its result. -/
def andThen {α : Type} (f : α → Task S ε τ κ β) : Task S ε τ κ α → Task S ε τ κ β
  | .finish (.ok a) => f a
  | .finish (.error e) => .finish (.error e)
  | .outOfFuel => .outOfFuel
  | .step change next => .step change fun s => (next s).andThen f
  | .report event next => .report event (next.andThen f)
  | .enter part body next => .enter part body fun outcome => (next outcome).andThen f
  | .join children next => .join children fun outcome => (next outcome).andThen f

/-- The outcome of a task, whose failure is no failure any more. -/
def attempt {α : Type} : Task S ε τ κ α → Task S ε τ κ (Except ε α)
  | .finish outcome => .finish (.ok outcome)
  | .outOfFuel => .outOfFuel
  | .step change next => .step change fun s => (next s).attempt
  | .report event next => .report event next.attempt
  | .enter part body next => .enter part body fun outcome => (next outcome).attempt
  | .join children next => .join children fun outcome => (next outcome).attempt

instance : Monad (Task S ε τ κ) where
  pure a := .finish (.ok a)
  bind task f := task.andThen f

instance : MonadStateOf S (Task S ε τ κ) where
  get := .step id fun s => .finish (.ok s)
  set s := .step (fun _ => s) fun _ => .finish (.ok ())
  modifyGet f := .step (fun s => (f s).2) fun s => .finish (.ok (f s).1)

instance : MonadExceptOf ε (Task S ε τ κ) where
  throw e := .finish (.error e)
  tryCatch task recover := task.attempt.andThen fun
    | .ok a => .finish (.ok a)
    | .error e => recover e

/-- The task that ends as an outcome says. -/
def ofExcept (outcome : Except ε α) : Task S ε τ κ α := .finish outcome

def tell (event : τ) : Task S ε τ κ Unit := .report event (.finish (.ok ()))

/-- A task, and another one before its failure goes on. -/
def onFailure (task : Task S ε τ κ α) (cleanUp : ε → Task S ε τ κ Unit) : Task S ε τ κ α := do
  match ← task.attempt with
  | .ok a => pure a
  | .error e => do
    cleanUp e
    throw e

/-- The task that takes the steps of an action. -/
def ofAction {α : Type} : Action S ε τ α → Task S ε τ κ α
  | .finish outcome => .finish outcome
  | .outOfFuel => .outOfFuel
  | .step change next => .step change fun s => .ofAction (next s)
  | .report event next => .report event (.ofAction next)

/-- A task in a section. -/
def within (part : Section S ε κ β γ) (body : Task S ε τ κ β) : Task S ε τ κ γ :=
  .enter part body .finish

/-- Tasks that go on together, one for each element of a list, with their results in order. -/
def forAll (as : List α) (f : α → Task S ε τ κ β) : Task S ε τ κ (List β) :=
  .join (fun i : Fin as.length => f as[i]) .finish

end Task

end ModuleLoader
