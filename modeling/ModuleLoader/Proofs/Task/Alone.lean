import ModuleLoader.Proofs.Action
import ModuleLoader.Turns

/-! A task that is alone is an action.  `alone` follows the way in which tasks are composed, and two
actions that agree cannot be told apart by their runs. -/

namespace ModuleLoader

variable {S ε τ κ α β γ : Type}

namespace Action

/-- The actions come to the same outcome and leave the same moment behind. -/
def Agrees (action action' : Action S ε τ α) : Prop := ∀ x, action.runFrom x = action'.runFrom x

namespace Agrees

variable {action action' : Action S ε τ α} {f f' : α → Action S ε τ β}

theorem refl (action : Action S ε τ α) : Agrees action action := fun _ => rfl

theorem bind (h : Agrees action action') (hf : ∀ a, Agrees (f a) (f' a)) :
    Agrees (action >>= f) (action' >>= f') := by
  intro x
  simp only [runFrom_bind, h x]
  congr 1
  funext result
  obtain ⟨_ | a, y⟩ := result
  · rfl
  · exact hf a y

theorem attempt (h : Agrees action action') : Agrees action.attempt action'.attempt := by
  intro x
  simp only [runFrom_attempt, h x]

theorem onFailure (h : Agrees action action') (cleanUp : ε → Action S ε τ Unit) :
    Agrees (action.onFailure cleanUp) (action'.onFailure cleanUp) :=
  h.attempt.bind fun _ => .refl _

end Agrees

theorem attempt_andThen_finish (action : Action S ε τ α) :
    action.attempt.andThen .finish = action := by
  induction action with
  | finish outcome => rfl
  | outOfFuel => rfl
  | step change next ih => simp only [Action.attempt, andThen, ih]
  | report event next ih => simp only [Action.attempt, andThen, ih]

/-- What goes on after an attempt can fail, but the attempt itself cannot. -/
theorem attempt_andThen_attempt (action : Action S ε τ α) (f : Except ε α → Action S ε τ β) :
    (action.attempt.andThen f).attempt = action.attempt.andThen fun o => (f o).attempt := by
  induction action with
  | finish | outOfFuel => rfl
  | step change next ih => simp only [Action.attempt, andThen, ih]
  | report event next ih => simp only [Action.attempt, andThen, ih]

end Action

namespace Task

variable [DecidableEq κ] {choose : S → Nat × S}

theorem alone_andThen {α : Type} (task : Task S ε τ κ α) (f : α → Task S ε τ κ β) :
    (task.andThen f).alone choose = (task.alone choose).andThen fun a => (f a).alone choose := by
  induction task with
  | finish outcome => cases outcome <;> rfl
  | outOfFuel => rfl
  | step change next ih => simp only [andThen, alone, Action.andThen, ih]
  | report event next ih => simp only [andThen, alone, Action.andThen, ih]
  | enter part body next _ ih =>
    simp only [andThen, alone, Action.andThen, ih]
    congr 1
    funext s
    cases part.skip s with
    | some outcome => rfl
    | none => simp only [Action.andThen_assoc, Action.andThen]
  | join children next _ ih =>
    simp only [andThen, alone, ih]
    exact (Action.andThen_assoc ..).symm

theorem alone_attempt {α : Type} (task : Task S ε τ κ α) :
    task.attempt.alone choose = (task.alone choose).attempt := by
  induction task with
  | finish | outOfFuel => rfl
  | step change next ih => simp only [attempt, alone, Action.attempt, ih]
  | report event next ih => simp only [attempt, alone, Action.attempt, ih]
  | enter part body next _ ih =>
    simp only [attempt, alone, Action.attempt, ih]
    congr 1
    funext s
    cases part.skip s with
    | some outcome => rfl
    | none => simp only [Action.attempt_andThen_attempt, Action.attempt]
  | join children next _ ih =>
    simp only [attempt, alone, ih]
    exact (Action.attempt_andThen_attempt _ _).symm

@[simp] theorem alone_pure (a : α) : (pure a : Task S ε τ κ α).alone choose = pure a := rfl

@[simp] theorem alone_bind (task : Task S ε τ κ α) (f : α → Task S ε τ κ β) :
    (task >>= f).alone choose = task.alone choose >>= fun a => (f a).alone choose :=
  alone_andThen task f

@[simp] theorem alone_get : (get : Task S ε τ κ S).alone choose = get := rfl

@[simp] theorem alone_modifyGet (f : S → α × S) :
    (modifyGet f : Task S ε τ κ α).alone choose = modifyGet f := rfl

@[simp] theorem alone_modify (f : S → S) :
    (modify f : Task S ε τ κ PUnit).alone choose = modify f := rfl

@[simp] theorem alone_throw (e : ε) : (throw e : Task S ε τ κ α).alone choose = throw e := rfl

@[simp] theorem alone_ofExcept (outcome : Except ε α) :
    (ofExcept outcome : Task S ε τ κ α).alone choose = .ofExcept outcome := rfl

@[simp] theorem alone_ofAction (action : Action S ε τ α) :
    (ofAction action : Task S ε τ κ α).alone choose = action := by
  induction action with
  | finish | outOfFuel => rfl
  | step change next ih => simp only [ofAction, alone, ih]
  | report event next ih => simp only [ofAction, alone, ih]

@[simp] theorem alone_onFailure (task : Task S ε τ κ α) (cleanUp : ε → Task S ε τ κ Unit) :
    (task.onFailure cleanUp).alone choose =
      (task.alone choose).onFailure fun e => (cleanUp e).alone choose := by
  simp only [onFailure, Action.onFailure, alone_bind, alone_attempt]
  congr 1
  funext outcome
  cases outcome <;> simp

/-- Children of a task that is alone take turns. -/
@[simp] theorem alone_forAll (as : List α) (f : α → Task S ε τ κ β) :
    (forAll as f).alone choose = (Running.ready (forAll as f)).inTurns choose := by
  simp only [forAll, alone, Action.attempt_andThen_finish]

/-- A task that is alone enters every section that it comes to. -/
theorem runFrom_alone_within (part : Section S ε κ β γ) (body : Task S ε τ κ β) (x : Moment S τ) :
    ((within part body).alone choose).runFrom x =
      match part.skip x.state with
      | some outcome => some (outcome, x)
      | none => ((body.alone choose).runFrom (x.move (part.start x.state))).map fun (outcome, y) =>
        ((part.close outcome y.state).1, y.move (part.close outcome y.state).2) := by
  simp only [within, alone, Action.runFrom_step]
  cases part.skip x.state with
  | some outcome => rfl
  | none =>
    change ((body.alone choose).attempt >>= _).runFrom (x.move (part.start x.state)) = _
    rw [Action.runFrom_bind, Action.runFrom_attempt]
    dsimp only
    cases (body.alone choose).runFrom (x.move (part.start x.state)) <;> rfl

end Task

end ModuleLoader
