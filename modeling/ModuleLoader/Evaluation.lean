import ModuleLoader.Linking

/-! Evaluation runs a linked module after the modules that it imports.  A module that is met again
while it is running contributes what it exports so far: nothing. -/

namespace ModuleLoader.Session

variable {σ : Type}

/-- A namespace, or a new one without exports. -/
def namespaceOrEmpty : Option Namespace → Load σ Namespace
  | some exports => pure exports
  | none => return ⟨← newObject, .empty⟩

def evaluateSynthetic (id : ModuleId) (m : SyntheticModule) : Load σ Namespace := do
  let (outcome, m) := m.evaluate (← newObject)
  modify fun s => s.withSynthetic id m
  .ofExcept outcome

/-- Runs the program of a host, where `load` is what an `import()` expression does. -/
def runScript (load : String → Load σ Namespace) : Script σ → Load σ Properties
  | .finish outcome => .ofExcept outcome
  | .update change next => do
    modify fun s => { s with world := change s.world }
    runScript load next
  | .inspect next => do
    let s ← get
    runScript load (next s.world)
  | .allocate next => do
    let id ← newObject
    runScript load (next id)
  | .importModule specifier next => do
    let outcome ← Action.attempt (load specifier)
    runScript load (next outcome)

/-- The namespaces of bound imports, each evaluated by `run` in its turn. -/
def importedNamespaces (run : ModuleId → Load σ Namespace) :
    List (String × ModuleId) → Load σ (List (String × Namespace))
  | [] => pure []
  | (specifier, id) :: rest => do
    let exports ← run id
    return (specifier, exports) :: (← importedNamespaces run rest)

/-- Runs a module after its imports, where `run` evaluates a module and `load` is what an
`import()` expression does. -/
def runModule (env : Environment σ) (run : ModuleId → Load σ Namespace)
    (load : String → Load σ Namespace) (m : StaticModule) : Load σ Properties := do
  let imports ← importedNamespaces run ((m.imports.map (·.entries)).getD [])
  let scope : EvaluationScope := ⟨.ofList imports, m.importMeta, m.url⟩
  Action.tell (.evaluated m scope)
  runScript load (env.evaluate m scope)

/-- Runs a module that is ready to be evaluated, and keeps its namespace or its failure. -/
def runOnce (env : Environment σ) (run : ModuleId → Load σ Namespace)
    (load : String → Load σ Namespace) (id : ModuleId) (m : StaticModule) : Load σ Namespace := do
  changeStatic id .beginEvaluation
  let properties ← (runModule env run load m.beginEvaluation).onFailure fun e =>
    changeStatic id (·.failEvaluation e)
  let exports : Namespace := ⟨← newObject, properties⟩
  changeStatic id (·.finishEvaluation exports)
  pure exports

/-- The namespace of what a specifier means in the module at `referrer`, after it is linked, and
evaluated by `run`. -/
def importBy (env : Environment σ) (fuel : Nat) (run : ModuleId → Load σ Namespace)
    (specifier referrer : String) : Load σ Namespace := do
  let id ← moduleFor env specifier referrer
  link env fuel id
  run id

/-- Evaluates a linked module after its imports, unless that has been done, and returns its
namespace. -/
def evaluate (env : Environment σ) : (fuel : Nat) → ModuleId → Load σ Namespace
  | 0, _ => .outOfFuel
  | fuel + 1, id => do
    match (← get).module? id with
    | none => throw (.notLinked "")
    | some (.synthetic m) => evaluateSynthetic id m
    | some (.static m) =>
      match ← .ofExcept m.evaluationStep with
      | .reuse exports => namespaceOrEmpty exports
      | .run =>
        let run := evaluate env fuel
        runOnce env run (fun specifier => importBy env fuel run specifier m.url) id m

/-- The namespace of what a specifier means in the module at `referrer`, after it is linked and
evaluated. -/
def importExpression (env : Environment σ) (fuel : Nat) (specifier referrer : String) :
    Load σ Namespace :=
  importBy env fuel (evaluate env fuel) specifier referrer

end ModuleLoader.Session
