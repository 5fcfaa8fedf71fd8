import ModuleLoader.Module
import ModuleLoader.Resolution
import ModuleLoader.Script

/-! The dealings of a session with its environment and its modules, as an observer sees them. -/

namespace ModuleLoader

/-- Something that a session asked for. -/
inductive Event where
  | resolved (specifier : String) (parent : Option String)
      (outcome : Except LoadError ResolvedModule)
  /-- A module was made by the engine or by the host. -/
  | created (resolved : ResolvedModule) (outcome : Except LoadError Module)
  /-- The evaluation of a module was left to the host. -/
  | evaluated (m : StaticModule) (scope : EvaluationScope)
  /-- A link asked for the table of imports of a module. -/
  | asked (id : ModuleId)

end ModuleLoader
