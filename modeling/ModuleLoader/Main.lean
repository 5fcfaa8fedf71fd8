import ModuleLoader.Command

/-! The program.  It looks into the directories that a command can need, and prints what the command
answers for them. -/

namespace ModuleLoader.Command

open File

def Request.start? (working : FilePath) (request : Request) : Option FilePath := do
  let base ← Url.ofDirectoryPath? working
  let url ←
    match request with
    | .resolve specifier parent =>
      let importer := parent.bind fun text => (Url.parse text).toOption
      (Url.join (importer.getD base) specifier).toOption
    | .transpile file => Url.ofFilePath? (working.absolute (FilePath.ofString file))
    | .graph entry => (entryUrl entry base).toOption
    | _ => none
  (Resolution.moduleFile url.text).toOption

/-- The directory of the file that an import in the file at `path` leads to. -/
def importDirectory? (path : FilePath) (specifier : String) : Option FilePath := do
  let url ← Url.join (← Url.ofFilePath? path) specifier |>.toOption
  (← url.toFilePath?).parent?

/-- The directories that the imports of a program lead to, whatever its options are. -/
def importDirectories (path : FilePath) (source : String) : List FilePath :=
  let output := TypeScript.Compiler.compile source path { verbatimModuleSyntax := true }
  (output.dependencies.getD []).filterMap (importDirectory? path)

/-- The loader reads the file when it meets it. -/
def isRead (path : FilePath) : Bool :=
  TypeScript.isFile path || path.fileName? == Tsconfig.configName.fileName?

/-- The files with the one at a path, as far as it can be read. -/
def addFile (fs : FileSystem) (path : FilePath) : IO FileSystem := do
  try
    return fs.put path (.file (← IO.FS.readBinFile path.text).toList)
  catch _ => return fs

/-- The files with those of a directory, and the directories that they lead to. -/
def addDirectory (fs : FileSystem) (directory : FilePath) :
    IO (FileSystem × List FilePath) := do
  let mut fs := fs
  let mut found := directory.parent?.toList
  try
    for entry in ← ((← IO.currentDir) / directory.text).readDir do
      let path := directory.join (FilePath.ofString entry.fileName)
      if isRead path && !(← entry.path.isDir) then
        fs ← addFile fs path
        found := importDirectories path ((fs.readText path).toOption.getD "") ++ found
      else if (fs.node path).toOption.isNone then
        fs := fs.put path (if ← entry.path.isDir then .emptyDirectory else .file [])
  catch _ => pure ()
  return (fs, found)

/-- The files with those of all directories that can be needed, of which some are `seen`. -/
partial def explore (fs : FileSystem) (seen : List FilePath) : List FilePath → IO FileSystem
  | [] => return fs
  | directory :: rest => do
    if seen.contains directory then explore fs seen rest
    else
      let (fs, found) ← addDirectory fs directory
      explore fs (directory :: seen) (found ++ rest)

def filesFor (request : Request) : IO FileSystem := do
  let working := FilePath.ofString (← IO.currentDir).toString
  let start := request.start? working
  let fs ← explore { working } [] (working :: (start.bind FilePath.parent?).toList)
  match start with
  | some path => addFile fs path
  | none => return fs

end ModuleLoader.Command

open ModuleLoader.Command in
def main (arguments : List String) : IO UInt32 := do
  let request := request arguments
  let outcome := answer (← filesFor request) request
  IO.print outcome.output
  IO.eprint outcome.complaint
  return outcome.code.toUInt32
