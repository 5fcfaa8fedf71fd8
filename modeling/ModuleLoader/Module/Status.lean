/-! How far a module has come on its way from a fresh record to a namespace. -/

namespace ModuleLoader

/-- How far the imports of a static module are bound. -/
inductive LinkingStatus where
  | unlinked
  | linking
  /-- The imports of every module that can be reached are bound. -/
  | linked
  | errored
  deriving DecidableEq

/-- The name of a status. -/
def LinkingStatus.name : LinkingStatus → String
  | .unlinked => "Unlinked"
  | .linking => "Linking"
  | .linked => "Linked"
  | .errored => "Errored"

/-- How far the evaluation of a module is. -/
inductive EvaluationStatus where
  | uninstantiated
  /-- The module is part of a graph that is being linked. -/
  | instantiating
  /-- The module is ready to be evaluated. -/
  | instantiated
  | evaluating
  | evaluated
  | errored
  deriving DecidableEq

/-- The name of a status. -/
def EvaluationStatus.name : EvaluationStatus → String
  | .uninstantiated => "Uninstantiated"
  | .instantiating => "Instantiating"
  | .instantiated => "Instantiated"
  | .evaluating => "Evaluating"
  | .evaluated => "Evaluated"
  | .errored => "Errored"

end ModuleLoader
