import ModuleLoader.File.System
import ModuleLoader.Tsconfig.Read

/-! Finding the configuration of a project, and holding on to what was found first. -/

namespace ModuleLoader.Tsconfig

open ModuleLoader.File

def configName : FilePath := FilePath.ofString "tsconfig.json"

/-- The nearest configuration file in a directory or above it. -/
def findConfig? (fs : FileSystem) (start : FilePath) : Option FilePath :=
  (start.ancestors.map (·.join configName)).find? fs.isFile

/-- The options of the nearest configuration file; the defaults if there is none or it is of no
use. -/
def loadOptions (fs : FileSystem) (start : FilePath) : CompilerOptions :=
  match findConfig? fs start with
  | none => {}
  | some path =>
    match fs.readText path with
    | .error _ => {}
    | .ok text =>
      match readConfig text (path.parent?.getD (FilePath.ofString ".")) with
      | .error _ => {}
      | .ok options => options

/-- The root directory and the options of a session, each decided by its first use. -/
structure SessionConfig where
  root : Option FilePath := none
  options : Option CompilerOptions := none

namespace SessionConfig

/-- The configuration with a root, unless it has one. -/
def setRoot (c : SessionConfig) (path : FilePath) : SessionConfig :=
  { c with root := some (c.root.getD path) }

/-- The root, or the working directory before there is one. -/
def rootPath (c : SessionConfig) (fs : FileSystem) : FilePath := c.root.getD fs.working

/-- The options, which are looked up from `start` the first time. -/
def resolveOptions (c : SessionConfig) (fs : FileSystem) (start : FilePath) :
    CompilerOptions × SessionConfig :=
  let options := c.options.getD (loadOptions fs start)
  (options, { c with options := some options })

end SessionConfig

end ModuleLoader.Tsconfig
