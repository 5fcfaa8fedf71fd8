import ModuleLoader.Module.Static
import ModuleLoader.Module.Synthetic

/-! The modules of a graph. -/

namespace ModuleLoader

/-- A module of a graph: one whose code the host runs, or one around values of the host. -/
inductive Module where
  | static (m : StaticModule)
  | synthetic (m : SyntheticModule)

namespace Module

/-- The URL of a module. -/
def url : Module → String
  | .static m => m.url
  | .synthetic m => m.url

/-- How far the evaluation of a module is. -/
def status : Module → EvaluationStatus
  | .static m => m.status
  | .synthetic m => m.status

/-- The exports of a module, once it is evaluated. -/
def exports : Module → Option Namespace
  | .static m => m.exports
  | .synthetic m => m.exports

/-- The name of the kind of a module. -/
def kind : Module → String
  | .static _ => "static"
  | .synthetic _ => "synthetic"

/-- The module, if the host runs its code. -/
def static? : Module → Option StaticModule
  | .static m => some m
  | .synthetic _ => none

/-- The module with its record changed, if the host runs its code. -/
def mapStatic (f : StaticModule → StaticModule) : Module → Module
  | .static m => .static (f m)
  | .synthetic m => .synthetic m

def describe : Module → String
  | .static m => m.describe
  | .synthetic m => m.describe

end Module

end ModuleLoader
