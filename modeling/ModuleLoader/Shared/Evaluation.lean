import ModuleLoader.Evaluation
import ModuleLoader.Shared.Linking

/-! Evaluation in a session that several tasks share.  The operations are those of `Evaluation`.
Nobody waits at a module that is running, whether it runs further up or in another task. -/

namespace ModuleLoader.Session.Shared

variable {σ : Type}

/-- Takes the identity of a new object. -/
def newObject : Work σ ObjectId :=
  modifyGet fun s => (s.nextObject, { s with nextObject := s.nextObject + 1 })

/-- A namespace, or a new one without exports. -/
def namespaceOrEmpty : Option Namespace → Work σ Namespace
  | some exports => pure exports
  | none => return ⟨← newObject, .empty⟩

/-- Runs the script of a synthetic module, unless it has succeeded before. -/
def evaluateSynthetic (id : ModuleId) : Work σ Namespace := do
  let outcome ← modifyGet fun s =>
    match s.module? id with
    | some (.synthetic m) =>
      let (outcome, m) := m.evaluate s.nextObject
      (outcome, { s with nextObject := s.nextObject + 1 }.withSynthetic id m)
    | _ => (.error (.notLinked ""), s)
  .ofExcept outcome

/-- Runs the program of a host, where `load` is what an `import()` expression does. -/
def runScript (load : String → Work σ Namespace) : Script σ → Work σ Properties
  | .finish outcome => .ofExcept outcome
  | .update change next => do
    modify fun s => { s with world := change s.world }
    runScript load next
  | .inspect next => do
    let s ← get
    runScript load (next s.world)
  | .allocate next => do
    let id ← newObject
    runScript load (next id)
  | .importModule specifier next => do
    let outcome ← Task.attempt (load specifier)
    runScript load (next outcome)

/-- The namespaces of bound imports, each evaluated by `run` in its turn. -/
def importedNamespaces (run : ModuleId → Work σ Namespace) :
    List (String × ModuleId) → Work σ (List (String × Namespace))
  | [] => pure []
  | (specifier, id) :: rest => do
    let exports ← run id
    return (specifier, exports) :: (← importedNamespaces run rest)

/-- A module is evaluated once.  Who comes while it is running, or after it has run, gets its
exports so far, if there are any. -/
def running (id : ModuleId) :
    Section (Session σ) LoadError Place Namespace (Option Namespace) where
  place := .running id
  exclusive := false
  skip s :=
    match s.static? id with
    | none => some (.error (.notLinked ""))
    | some m =>
      match m.evaluationStep with
      | .error e => some (.error e)
      | .ok (.reuse exports) => some (.ok exports)
      | .ok .run => none
  start s := s.updateStatic id .beginEvaluation
  close
    | .ok exports, s => (.ok (some exports), s.updateStatic id (·.finishEvaluation exports))
    | .error e, s => (.error e, s.updateStatic id (·.failEvaluation e))

/-- Runs a module after its imports, where `run` evaluates a module and `load` is what an `import()`
expression does in the module at a URL. -/
def runModule (env : Environment σ) (run : ModuleId → Work σ Namespace)
    (load : String → String → Work σ Namespace) (id : ModuleId) : Work σ Namespace := do
  match (← get).static? id with
  | none => throw (.notLinked "")
  | some m => do
    let imports ← importedNamespaces run ((m.imports.map (·.entries)).getD [])
    let scope : EvaluationScope := ⟨.ofList imports, m.importMeta, m.url⟩
    Task.tell (.evaluated m scope)
    let properties ← runScript (fun specifier => load specifier m.url) (env.evaluate m scope)
    return ⟨← newObject, properties⟩

/-- The namespace of what a specifier means in the module at `referrer`, after it is linked, and
evaluated by `run`. -/
def importBy (env : Environment σ) (fuel : Nat) (run : ModuleId → Work σ Namespace)
    (specifier referrer : String) : Work σ Namespace := do
  let id ← moduleFor env specifier referrer
  link env fuel id
  run id

/-- Evaluates a linked module after its imports, unless that has been done or is under way, and
returns its namespace. -/
def evaluate (env : Environment σ) : (fuel : Nat) → ModuleId → Work σ Namespace
  | 0, _ => .outOfFuel
  | fuel + 1, id => do
    match (← get).module? id with
    | none => throw (.notLinked "")
    | some (.synthetic _) => evaluateSynthetic id
    | some (.static _) => do
      let run := evaluate env fuel
      let exports ← Task.within (running id) (runModule env run (importBy env fuel run) id)
      namespaceOrEmpty exports

/-- The namespace of what a specifier means in the module at `referrer`, after it is linked and
evaluated. -/
def importExpression (env : Environment σ) (fuel : Nat) (specifier referrer : String) :
    Work σ Namespace :=
  importBy env fuel (evaluate env fuel) specifier referrer

end ModuleLoader.Session.Shared
