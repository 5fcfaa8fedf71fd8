import ModuleLoader.Evaluation

/-! Loading a whole program by its entry. -/

namespace ModuleLoader

/-- The URL of an entry: a URL, an absolute path, or a path that starts from the base.  A scheme of
one letter is the name of a drive and makes no URL. -/
def entryUrl (entry : String) (base : Url) : Except LoadError Url :=
  let isUrl (u : Url) : Bool := 1 < u.scheme.length
  match (Url.parse entry).toOption.filter isUrl with
  | some u => .ok u
  | none =>
    let path := FilePath.ofString entry
    if path.isAbsolute then
      match Url.ofFilePath? path with
      | some u => .ok u
      | none => .error (.invalidEntry entry)
    else
      match Url.join base entry with
      | .ok u => .ok u
      | .error reason => .error (.invalidUrl entry reason.message)

/-- A linked program. -/
structure Instance where
  root : ModuleId
  /-- The names that the program exports: none, whatever its entry exports. -/
  exports : List String := []

namespace Session

variable {σ : Type}

/-- Loads and links the program of an entry. -/
def instantiate (env : Environment σ) (fuel : Nat) (entry : String) : Load σ Instance := do
  let url ← .ofExcept (entryUrl entry env.baseUrl)
  let root ← cachedModule env ⟨url.text, .dynamic⟩ true
  match (← get).static? root with
  | none => throw (.invalidEntry url.text)
  | some _ => do
    link env fuel root
    return { root }

def execute (env : Environment σ) (fuel : Nat) (program : Instance) : Load σ Namespace :=
  evaluate env fuel program.root

end Session

end ModuleLoader
