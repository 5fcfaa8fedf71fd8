import ModuleLoader.File.Fault
import ModuleLoader.File.Path

/-! The failures of a load. -/

namespace ModuleLoader

/-- A failure while a module is resolved, transpiled, linked or evaluated. -/
inductive LoadError where
  /-- A source file cannot be read. -/
  | read (path : FilePath) (fault : File.Fault)
  /-- A text that has to be a URL is none. -/
  | invalidUrl (url reason : String)
  /-- A URL that has to name a file names none. -/
  | notAFileUrl (url : String)
  /-- A module has to be transpiled and the session cannot. -/
  | noTranspiler (url : String)
  /-- A name is no name of a module format. -/
  | unknownFormat (name : String)
  /-- The transpiler found errors and the project forbids output in that case. -/
  | transpile (url diagnostics : String)
  /-- The host cannot import a module. -/
  | nativeImport (url reason : String)
  /-- The resolver for packages rejects a specifier. -/
  | resolution (specifier reason : String)
  /-- A module is to be evaluated before it is linked. -/
  | notLinked (url : String)
  | link (url reason : String)
  | evaluation (url reason : String)
  /-- A synthetic module sets an export that it does not declare. -/
  | unknownExport (url name : String)
  /-- The entry of a program is no static module. -/
  | invalidEntry (url : String)
  /-- The host reports a failure of its own. -/
  | host (message : String)
  deriving DecidableEq

/-- The text of a failure. -/
def LoadError.message : LoadError → String
  | .read path fault => s!"Cannot read '{path.text}': {fault.message}"
  | .invalidUrl url reason => s!"Invalid module URL '{url}': {reason}"
  | .notAFileUrl url => s!"Not a file URL: {url}"
  | .noTranspiler url => s!"No transpiler registered for '{url}'"
  | .unknownFormat name => s!"Unknown module format '{name}'"
  | .transpile _ diagnostics => s!"Unable to compile TypeScript:\n{diagnostics}"
  | .nativeImport url reason => s!"Cannot import '{url}': {reason}"
  | .resolution specifier reason => s!"Error resolving module '{specifier}': {reason}"
  | .notLinked url => s!"Module '{url}' has not been linked"
  | .link url reason => s!"Linking '{url}' failed: {reason}"
  | .evaluation url reason => s!"Evaluating '{url}' failed: {reason}"
  | .unknownExport url name =>
    s!"ReferenceError: Export '{name}' is not defined in module '{url}'"
  | .invalidEntry url => s!"Entry point '{url}' is not a TypeScript module"
  | .host message => message

end ModuleLoader
