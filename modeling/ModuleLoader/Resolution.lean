import ModuleLoader.Error
import ModuleLoader.File.System
import ModuleLoader.TypeScript
import ModuleLoader.Url.File

/-! Resolution: from the specifier of an import to the URL and the format of a module. -/

namespace ModuleLoader

/-- How a module is loaded.  The loader itself transpiles `dynamic` modules and leaves all others
to the host. -/
inductive Format where
  | builtin
  | commonjs
  | dynamic
  | json
  | module
  | wasm
  deriving DecidableEq

namespace Format

def all : List Format := [.builtin, .commonjs, .dynamic, .json, .module, .wasm]

/-- The name of a format. -/
def name : Format → String
  | .builtin => "builtin"
  | .commonjs => "commonjs"
  | .dynamic => "dynamic"
  | .json => "json"
  | .module => "module"
  | .wasm => "wasm"

/-- The format of a name. -/
def ofName (name : String) : Except LoadError Format :=
  match all.find? fun format => format.name == name with
  | some format => .ok format
  | none => .error (.unknownFormat name)

/-- The loader transpiles modules of the format. -/
def needsTranspile : Format → Bool
  | .dynamic => true
  | _ => false

end Format

/-- A module as resolution names it.  Its URL is the key of the cache. -/
structure ResolvedModule where
  url : String
  format : Format
  deriving DecidableEq

/-- A resolver for the names of packages: from a specifier and the URL of the importing module. -/
abbrev PackageResolver (σ : Type) := String → String → StateM σ (Except LoadError ResolvedModule)

namespace Resolution

open ModuleLoader.File

/-- The modules that a Node.js host provides. -/
def nodeBuiltins : List String :=
  ["assert", "async_hooks", "buffer", "child_process", "cluster", "console", "constants", "crypto",
    "dgram", "diagnostics_channel", "dns", "domain", "events", "fs", "http", "http2", "https",
    "inspector", "module", "net", "os", "path", "perf_hooks", "process", "punycode", "querystring",
    "readline", "repl", "stream", "string_decoder", "sys", "timers", "tls", "trace_events", "tty",
    "url", "util", "v8", "vm", "wasi", "worker_threads", "zlib"]

/-- A specifier without the scheme of built-in modules in front of it. -/
def builtinName (specifier : String) : String :=
  match Text.after? "node:".toList specifier.toList with
  | some name => String.ofList name
  | none => specifier

/-- The specifier names a built-in module. -/
def isBuiltin (builtins : List String) (specifier : String) : Bool :=
  builtins.contains (builtinName specifier)

/-- The specifier is a relative or an absolute path. -/
def isPath (specifier : String) : Bool :=
  match specifier.toList with
  | '/' :: _ => true
  | '.' :: '/' :: _ => true
  | '.' :: '.' :: '/' :: _ => true
  | ['.'] => true
  | ['.', '.'] => true
  | _ => false

/-- The specifier starts with the scheme of files. -/
def isFileUrl (specifier : String) : Bool := "file:".isPrefixOf specifier

/-- The extension of the last name of a URL's path. -/
def extension? (u : Url) : Option FileName :=
  (u.names?.bind List.getLast?).bind fun name => (FilePath.ofString name).extension?

/-- The path of a URL ends in a slash. -/
def endsInSlash (u : Url) : Bool := (u.names?.bind List.getLast?) == some ""

/-- The TypeScript files whose name is that of the path and an extension. -/
def candidates (fs : FileSystem) (path : FilePath) : List FilePath :=
  match path.parent?, path.fileName? with
  | some directory, some stem =>
    let directory := FilePath.ofString directory.text
    let matching := (fs.list directory).filter fun name =>
      let (front, ending) := FilePath.splitExtension name
      front == stem && ending.any TypeScript.isExtension
    (matching.map fun name => directory.join ⟨name⟩).filter fs.isFile
  | _, _ => []

/-- The URL of the one TypeScript file that a URL without extension means, if it is one. -/
def probe? (fs : FileSystem) (u : Url) : Option Url := do
  let path ← u.toFilePath?
  match candidates fs path with
  | [file] => Url.ofFilePath? file
  | _ => none

/-- The module at a URL. -/
def classify (fs : FileSystem) (u : Url) : ResolvedModule :=
  let found :=
    if (extension? u).isNone && u.scheme == "file" && !endsInSlash u then probe? fs u else none
  match found with
  | some file => ⟨file.text, .dynamic⟩
  | none => ⟨u.text, if (extension? u).any TypeScript.isExtension then .dynamic else .module⟩

/-- The module of a path or of the URL of a file, as seen from the module at `parent`. -/
def locate (fs : FileSystem) (specifier : String) (parent : Url) :
    Except LoadError ResolvedModule :=
  match Url.join parent specifier with
  | .error reason => .error (.invalidUrl specifier reason.message)
  | .ok u => .ok (classify fs u)

/-- The module that a specifier means in the module at `parent`.  Built-in names come first; names
that are no paths belong to the resolver for packages, or to the host if there is none. -/
def resolve {σ : Type} (builtins : List String) (packages : Option (PackageResolver σ))
    (fs : FileSystem) (specifier : String) (parent : Url) :
    StateM σ (Except LoadError ResolvedModule) :=
  if isBuiltin builtins specifier then pure (.ok ⟨specifier, .builtin⟩)
  else if isPath specifier || isFileUrl specifier then pure (locate fs specifier parent)
  else
    match packages with
    | some resolver => resolver specifier parent.text
    | none => pure (.ok ⟨specifier, .module⟩)

/-- The path of the file that the URL of a module names. -/
def moduleFile (url : String) : Except LoadError FilePath :=
  match Url.parse url with
  | .error reason => .error (.invalidUrl url reason.message)
  | .ok u =>
    match u.toFilePath? with
    | some path => .ok path
    | none => .error (.notAFileUrl url)

end Resolution

end ModuleLoader
