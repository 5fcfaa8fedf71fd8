/-! Actions: programs that change a state in atomic steps and report events on their way.  A run
goes through moments, the states between its steps with all that has been reported so far. -/

namespace ModuleLoader

/-- A state, and the events that were reported before it was reached. -/
structure Moment (S τ : Type) where
  state : S
  events : List τ := []

/-- The moment after the state has changed. -/
def Moment.move {S τ : Type} (x : Moment S τ) (s : S) : Moment S τ := ⟨s, x.events⟩

/-- The moment after one more event is reported. -/
def Moment.hear {S τ : Type} (x : Moment S τ) (event : τ) : Moment S τ :=
  ⟨x.state, x.events ++ [event]⟩

/-- A program on a state `S` that reports events `τ`.  It ends with an `α`, fails with an `ε`, or
ends with nothing if its fuel was not enough. -/
inductive Action (S ε τ α : Type) where
  | finish (outcome : Except ε α)
  /-- The fuel of the program is spent. -/
  | outOfFuel
  /-- The state changes, and the program goes on with what the state was before. -/
  | step (change : S → S) (next : S → Action S ε τ α)
  | report (event : τ) (next : Action S ε τ α)

namespace Action

variable {S ε τ α β : Type}

/-- An action, and another one that goes on with its result. -/
def andThen (f : α → Action S ε τ β) : Action S ε τ α → Action S ε τ β
  | .finish (.ok a) => f a
  | .finish (.error e) => .finish (.error e)
  | .outOfFuel => .outOfFuel
  | .step change next => .step change fun s => (next s).andThen f
  | .report event next => .report event (next.andThen f)

/-- The outcome of an action, whose failure is no failure any more. -/
def attempt : Action S ε τ α → Action S ε τ (Except ε α)
  | .finish outcome => .finish (.ok outcome)
  | .outOfFuel => .outOfFuel
  | .step change next => .step change fun s => (next s).attempt
  | .report event next => .report event next.attempt

instance : Monad (Action S ε τ) where
  pure a := .finish (.ok a)
  bind action f := action.andThen f

instance : MonadStateOf S (Action S ε τ) where
  get := .step id fun s => .finish (.ok s)
  set s := .step (fun _ => s) fun _ => .finish (.ok ())
  modifyGet f := .step (fun s => (f s).2) fun s => .finish (.ok (f s).1)

instance : MonadExceptOf ε (Action S ε τ) where
  throw e := .finish (.error e)
  tryCatch action recover := action.attempt.andThen fun
    | .ok a => .finish (.ok a)
    | .error e => recover e

/-- The action that ends as an outcome says. -/
def ofExcept (outcome : Except ε α) : Action S ε τ α := .finish outcome

def tell (event : τ) : Action S ε τ Unit := .report event (.finish (.ok ()))

/-- An action, and another one before its failure goes on. -/
def onFailure (action : Action S ε τ α) (cleanUp : ε → Action S ε τ Unit) : Action S ε τ α := do
  match ← action.attempt with
  | .ok a => pure a
  | .error e => do
    cleanUp e
    throw e

/-- An action that reports what it comes to. -/
def reporting (event : Except ε α → τ) (action : Action S ε τ α) : Action S ε τ α := do
  let outcome ← action.attempt
  tell (event outcome)
  ofExcept outcome

/-- The outcome of an action that starts at a moment, and the moment of its end. -/
def runFrom : Action S ε τ α → Moment S τ → Option (Except ε α × Moment S τ)
  | .finish outcome, x => some (outcome, x)
  | .outOfFuel, _ => none
  | .step change next, x => (next x.state).runFrom (x.move (change x.state))
  | .report event next, x => next.runFrom (x.hear event)

/-- The outcome of an action that starts in a state, and the state that it leaves behind. -/
def run (action : Action S ε τ α) (s : S) : Option (Except ε α × S) :=
  (action.runFrom ⟨s, []⟩).map fun (outcome, x) => (outcome, x.state)

/-- The moments that an action goes through, from the one at which it starts. -/
def moments : Action S ε τ α → Moment S τ → List (Moment S τ)
  | .finish _, x => [x]
  | .outOfFuel, x => [x]
  | .step change next, x => x :: (next x.state).moments (x.move (change x.state))
  | .report event next, x => x :: next.moments (x.hear event)

end Action

end ModuleLoader
