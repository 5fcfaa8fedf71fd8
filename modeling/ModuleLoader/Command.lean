import ModuleLoader.Command.Help
import ModuleLoader.Entry
import ModuleLoader.Graph
import ModuleLoader.TypeScript.Compiler

/-! The command line: what a subcommand prints, and the number that its process ends with, for the
files that it finds. -/

namespace ModuleLoader.Command

open File

/-- The end of a process. -/
structure Outcome where
  code : Nat
  output : String := ""
  complaint : String := ""
  deriving DecidableEq

/-- The end of a process that did what it was asked for. -/
def success (output : String) : Outcome := { code := 0, output }

/-- The end of a process that could not do what it was asked for. -/
def failed (reason : String) : Outcome := { code := 1, complaint := s!"Error: {reason}\n" }

/-- The end of a process whose arguments make no sense. -/
def misused : Outcome := { code := 2, complaint := "For more information, try '--help'.\n" }

/-- A host without a runtime: native modules export nothing, and no module can run. -/
def detached (baseUrl : Url) : Environment FileSystem where
  baseUrl := baseUrl
  files := id
  engine := some TypeScript.Compiler.engine
  importNative := fun _ => pure (.ok .empty)
  evaluate := fun m _ => .finish (.error (.evaluation m.url "no script runtime attached"))

def fuel : Nat := Nat.pow 2 62

/-- What an action of a detached session ends with, in the directory that the files tell. -/
def inSession {α : Type} (fs : FileSystem) (action : Environment FileSystem → Load FileSystem α)
    (print : Session FileSystem → α → String) : Outcome :=
  match Environment.workingUrl fs with
  | .error e => failed e.message
  | .ok baseUrl =>
    match (action (detached baseUrl)).run { world := fs } with
    | some (.ok a, s) => success (print s a)
    | some (.error e, _) => failed e.message
    | none => failed "no end in sight"

/-- A resolved module as an indented JSON object. -/
def resolvedText (resolved : ResolvedModule) : String :=
  let field (key value : String) : String :=
    "  " ++ (Json.string key).text ++ ": " ++ (Json.string value).text
  "\x7b\n" ++ field "url" resolved.url ++ ",\n" ++ field "format" resolved.format.name ++ "\n\x7d\n"

def complaints (m : TranspiledModule) : String :=
  String.join (m.diagnostics.map fun d => s!"Diagnostic: {d.text}\n")

def transpileFile (fs : FileSystem) (file : String) : Outcome :=
  match Url.ofFilePath? (fs.working.absolute (FilePath.ofString file)) with
  | none => failed s!"Not a file path: {file}"
  | some url =>
    match (Transpile.transpile TypeScript.Compiler.engine fs url.text ({}, ())).1 with
    | .ok m => { success m.code with complaint := complaints m }
    | .error e => failed e.message

def answer (fs : FileSystem) : Request → Outcome
  | .help topic => success (help topic)
  | .version => success s!"{programName} {version}\n"
  | .misuse => misused
  | .resolve specifier parent =>
    inSession fs (fun env => Session.resolve env specifier parent) fun _ resolved =>
      resolvedText resolved
  | .transpile file => transpileFile fs file
  | .graph entry =>
    inSession fs (fun env => Session.instantiate env fuel entry) fun s program =>
      Graph.text s program.root

/-- The end of a process with the given arguments. -/
def run (fs : FileSystem) (arguments : List String) : Outcome := answer fs (request arguments)

end ModuleLoader.Command
