import ModuleLoader.Entry
import ModuleLoader.Shared.Evaluation

/-! Loading a whole program by its entry, in a session that several tasks share. -/

namespace ModuleLoader.Session.Shared

variable {σ : Type}

/-- Loads and links the program of an entry. -/
def instantiate (env : Environment σ) (fuel : Nat) (entry : String) : Work σ Instance := do
  let url ← .ofExcept (entryUrl entry env.baseUrl)
  let root ← cachedModule env ⟨url.text, .dynamic⟩ true
  match (← get).static? root with
  | none => throw (.invalidEntry url.text)
  | some _ => do
    link env fuel root
    return { root }

def execute (env : Environment σ) (fuel : Nat) (program : Instance) : Work σ Namespace :=
  evaluate env fuel program.root

end ModuleLoader.Session.Shared
