import ModuleLoader.File.Path

/-! Messages of a transpiler. -/

namespace ModuleLoader

/-- How bad a message is. -/
inductive Severity where
  | error
  | warning
  deriving DecidableEq

/-- A message of a transpiler, and the file it is about. -/
structure Diagnostic where
  message : String
  file : Option FilePath
  severity : Severity
  deriving DecidableEq

namespace Diagnostic

def isError (d : Diagnostic) : Bool := d.severity == .error

def text (d : Diagnostic) : String :=
  let level := match d.severity with
    | .error => "error"
    | .warning => "warning"
  match d.file with
  | some file => s!"{file.text}: {level}: {d.message}"
  | none => s!"{level}: {d.message}"

end Diagnostic

end ModuleLoader
