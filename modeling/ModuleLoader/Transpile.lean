import ModuleLoader.Resolution
import ModuleLoader.Transpile.Diagnostic
import ModuleLoader.Tsconfig.Search

/-! From the URL of a TypeScript module to JavaScript: its file is read, the options of the session
are looked up, and both go to an engine. -/

namespace ModuleLoader

open File Tsconfig

/-- What an engine makes of a source text. -/
structure TranspileOutput where
  code : String
  diagnostics : List Diagnostic := []
  /-- The specifiers that the output imports, if the engine knows them. -/
  dependencies : Option (List String) := none

/-- An engine that turns a source text from a file into JavaScript. -/
abbrev Engine (σ : Type) := String → FilePath → CompilerOptions → StateM σ TranspileOutput

/-- The JavaScript of a module. -/
structure TranspiledModule where
  url : String
  code : String
  diagnostics : List Diagnostic
  dependencies : Option (List String)

namespace Transpile

/-- The directory of a file; the root is its own. -/
def directory (path : FilePath) : FilePath := path.parent?.getD ⟨[FilePath.slash]⟩

/-- The errors forbid an output under the options. -/
def isRejected (options : CompilerOptions) (output : TranspileOutput) : Bool :=
  options.noEmitOnError && output.diagnostics.any Diagnostic.isError

/-- The module that an engine's output stands for, or its diagnostics as a failure. -/
def accept (url : String) (options : CompilerOptions) (output : TranspileOutput) :
    Except LoadError TranspiledModule :=
  if isRejected options output then
    .error (.transpile url ("\n".intercalate (output.diagnostics.map Diagnostic.text)))
  else .ok ⟨url, output.code, output.diagnostics, output.dependencies⟩

/-- Transpiles the module at a URL.  The first file decides the root of the session, and the first
file that can be read the options, which are looked up from the root. -/
def transpile {σ : Type} (engine : Engine σ) (fs : FileSystem) (url : String) :
    StateM (SessionConfig × σ) (Except LoadError TranspiledModule) := fun (config, world) =>
  match Resolution.moduleFile url with
  | .error e => (.error e, config, world)
  | .ok path =>
    let config := config.setRoot (directory path)
    match fs.readText path with
    | .error fault => (.error (.read path fault), config, world)
    | .ok source =>
      let (options, config) := config.resolveOptions fs (config.rootPath fs)
      let (output, world) := engine source path options.effective world
      (accept url options.effective output, config, world)

end Transpile

end ModuleLoader
