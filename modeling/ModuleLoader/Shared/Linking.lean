import ModuleLoader.Linking

/-! Linking in a session that several tasks share.  The operations are those of `Linking`, one lock
at a time: what takes a lock is one step, and other tasks may step between any two of them. -/

namespace ModuleLoader

namespace Session.Shared

variable {σ : Type}

/-- Fails with the reason for which a module could not be linked. -/
def failAgain {α : Type} (id : ModuleId) (e : LoadError) : Work σ α := do
  throw (((← get).static? id).elim e StaticModule.linkError)

/-- The frontier with a module that is bound as an import. -/
def meet (f : Frontier) (id : ModuleId) : Work σ Frontier := do
  match f.add (← get) id with
  | .ok f => pure f
  | .error e => failAgain id e

/-- The modules on a frontier and on all that follow, after their imports are bound.  The imports of
one frontier are bound together. -/
def linkRounds (env : Environment σ) : (fuel : Nat) → Frontier → Work σ (List ModuleId)
  | 0, _ => .outOfFuel
  | fuel + 1, f =>
    if f.modules.isEmpty then pure []
    else do
      let imports ← Task.forAll f.modules (bindImportsOf env)
      let next ← imports.flatten.foldlM meet ⟨f.seen, []⟩
      return f.modules ++ (← linkRounds env fuel next)

/-- Links a module and every module that it leads to. -/
def link (env : Environment σ) (fuel : Nat) (root : ModuleId) : Work σ Unit := do
  match (← get).static? root with
  | none => pure ()
  | some m =>
    match m.linking with
    | .linked => pure ()
    | .errored => failAgain root m.linkError
    | .unlinked | .linking => do
      let visited ← (linkRounds env fuel ⟨[m.url], [root]⟩).onFailure fun e =>
        changeStatic root (·.failLinking e)
      visited.forM fun id => changeStatic id .finishLinking

end Session.Shared

end ModuleLoader
