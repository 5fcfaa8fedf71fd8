import ModuleLoader.Error
import ModuleLoader.ImportMeta
import ModuleLoader.Module.Status

/-! Modules in JavaScript, as they come from the transpiler: their imports are bound when they are
linked, and the host evaluates them at most once. -/

namespace ModuleLoader

/-- The identity of a module in its session. -/
abbrev ModuleId := Nat

/-- A module whose code the host runs. -/
structure StaticModule where
  url : String
  code : String
  /-- The specifiers of the imports that the module declares, in order. -/
  dependencies : List String
  importMeta : ImportMeta
  /-- The module that each specifier is bound to, once all of them are. -/
  imports : Option (OrderedMap ModuleId) := none
  linking : LinkingStatus := .unlinked
  status : EvaluationStatus := .uninstantiated
  exports : Option Namespace := none
  /-- The text of the failure that linking or evaluation ended with. -/
  failure : Option String := none

namespace StaticModule

def create (url code : String) (dependencies : List String) (main : Bool) : StaticModule where
  url := url
  code := code
  dependencies := dependencies
  importMeta := ImportMeta.ofUrl url main

/-- The module with linking under way, unless it is over. -/
def beginLinking (m : StaticModule) : StaticModule :=
  if m.linking = .unlinked then { m with linking := .linking, status := .instantiating } else m

/-- The module with its imports bound.  The first binding stays. -/
def bindImports (m : StaticModule) (imports : OrderedMap ModuleId) : StaticModule :=
  { m with imports := some (m.imports.getD imports) }

/-- The module with linking done, unless it has failed. -/
def finishLinking (m : StaticModule) : StaticModule :=
  if m.linking = .linking ∨ m.linking = .unlinked then
    { m with
      linking := .linked
      status :=
        if m.status = .instantiating ∨ m.status = .uninstantiated then .instantiated
        else m.status }
  else m

/-- The module with linking failed. -/
def failLinking (m : StaticModule) (e : LoadError) : StaticModule :=
  { m with linking := .errored, status := .errored, failure := some e.message }

/-- The failure of a link that meets the module after it has failed. -/
def linkError (m : StaticModule) : LoadError :=
  .link m.url (m.failure.getD "dependency failed to link")

/-- What a module that is to be evaluated needs. -/
inductive EvaluationStep where
  | run
  /-- The module has run, or is running further up: its exports so far. -/
  | reuse (exports : Option Namespace)

/-- What the module needs when it is to be evaluated. -/
def evaluationStep (m : StaticModule) : Except LoadError EvaluationStep :=
  if m.linking ≠ .linked then
    match m.failure with
    | some reason => .error (.link m.url reason)
    | none => .error (.notLinked m.url)
  else
    match m.status with
    | .evaluated | .evaluating => .ok (.reuse m.exports)
    | .errored => .error (.evaluation m.url (m.failure.getD "previous evaluation failed"))
    | .uninstantiated | .instantiating | .instantiated => .ok .run

/-- The module with its evaluation under way. -/
def beginEvaluation (m : StaticModule) : StaticModule := { m with status := .evaluating }

/-- The module with its evaluation done. -/
def finishEvaluation (m : StaticModule) (exports : Namespace) : StaticModule :=
  { m with status := .evaluated, exports := some exports }

/-- The module with its evaluation failed. -/
def failEvaluation (m : StaticModule) (e : LoadError) : StaticModule :=
  { m with status := .errored, failure := some e.message }

def describe (m : StaticModule) : String :=
  Text.record "StaticModule"
    [("url", Text.quoted m.url), ("dependencies", Text.quotedList m.dependencies),
      ("linking", m.linking.name), ("status", m.status.name)]

end StaticModule

end ModuleLoader
