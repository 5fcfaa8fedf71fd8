import ModuleLoader.Error
import ModuleLoader.ImportMeta

/-! The evaluation of a module by its host, as the loader sees it: a program that looks at the world
of the host, changes it, imports other modules and ends with exports or a failure. -/

namespace ModuleLoader

/-- What a module sees while it runs. -/
structure EvaluationScope where
  /-- The namespaces of the imports that the module declares, by specifier. -/
  imports : OrderedMap Namespace
  importMeta : ImportMeta
  /-- The URL that the module's own `import()` expressions start from. -/
  referrer : String

def EvaluationScope.describe (scope : EvaluationScope) : String :=
  Text.record "EvaluationScope"
    [("imports", Text.quotedList scope.imports.keys),
      ("import_meta", scope.importMeta.describe), ("referrer", Text.quoted scope.referrer)]

/-- A program of a host whose world is a `σ`. -/
inductive Script (σ : Type) where
  | finish (outcome : Except LoadError Properties)
  | update (change : σ → σ) (next : Script σ)
  /-- The program depends on the world. -/
  | inspect (next : σ → Script σ)
  /-- The program takes the identity of a new object. -/
  | allocate (next : ObjectId → Script σ)
  /-- The program waits for an `import()` expression. -/
  | importModule (specifier : String) (next : Except LoadError Namespace → Script σ)

end ModuleLoader
