import ModuleLoader.Shared.Binding
import ModuleLoader.Turns

/-! Linking binds the imports of a module and of all modules that it leads to.  It goes breadth
first: each round binds the imports of the modules on its frontier, all of them together, and the
modules found there that are neither linked nor seen before make the next frontier.  When no module
is left, all that were visited are linked.  When binding fails for one module, the others of its
round are given up wherever they are. -/

namespace ModuleLoader.Session

variable {σ : Type}

/-- Who comes first next, as the environment chooses. -/
def nextTurn (env : Environment σ) (s : Session σ) : Nat × Session σ :=
  let (first, world) := env.turn s.world
  (first, { s with world })

/-- The action of a task whose children take turns as the environment chooses. -/
def inTurns {α : Type} (env : Environment σ) (task : Work σ α) : Load σ α :=
  (Running.ready task).inTurns (nextTurn env)

/-- A frontier with the URLs of all modules that were on this frontier or an earlier one. -/
structure Frontier where
  seen : List String
  modules : List ModuleId

/-- The frontier with a module that is bound as an import.  A linked module does not belong there,
and a failed one ends the link. -/
def Frontier.add (s : Session σ) (f : Frontier) (id : ModuleId) : Except LoadError Frontier :=
  match s.static? id with
  | none => .ok f
  | some m =>
    match m.linking with
    | .linked => .ok f
    | .errored => .error m.linkError
    | .unlinked | .linking =>
      if m.url ∈ f.seen then .ok f else .ok ⟨f.seen ++ [m.url], f.modules ++ [id]⟩

/-- The frontier after `f`, from the imports of the modules on `f`. -/
def Frontier.next (s : Session σ) (f : Frontier) (imports : List ModuleId) :
    Except LoadError Frontier :=
  imports.foldlM (Frontier.add s) ⟨f.seen, []⟩

/-- The modules on a frontier and on all that follow, after their imports are bound. -/
def linkRounds (env : Environment σ) : (fuel : Nat) → Frontier → Load σ (List ModuleId)
  | 0, _ => .outOfFuel
  | fuel + 1, f =>
    if f.modules.isEmpty then pure []
    else do
      let imports ← inTurns env (Task.forAll f.modules (Shared.bindImportsOf env))
      let next ← .ofExcept (f.next (← get) imports.flatten)
      return f.modules ++ (← linkRounds env fuel next)

/-- The state with linking done for all modules of a list. -/
def finishLinking (s : Session σ) (visited : List ModuleId) : Session σ :=
  visited.foldl (fun s id => s.updateStatic id .finishLinking) s

/-- Links a module and every module that it leads to. -/
def link (env : Environment σ) (fuel : Nat) (root : ModuleId) : Load σ Unit := do
  match (← get).static? root with
  | none => pure ()
  | some m =>
    match m.linking with
    | .linked => pure ()
    | .errored => throw m.linkError
    | .unlinked | .linking => do
      let visited ← (linkRounds env fuel ⟨[m.url], [root]⟩).onFailure fun e =>
        changeStatic root (·.failLinking e)
      modify fun s => s.finishLinking visited

end ModuleLoader.Session
