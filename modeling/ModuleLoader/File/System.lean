import ModuleLoader.File.Fault
import ModuleLoader.File.Path

/-! A file system as a tree of directories, and a working directory for relative paths. -/

namespace ModuleLoader.File

/-- A file with its bytes, or a directory with its entries. -/
inductive Node where
  | file (content : List UInt8)
  | directory (entries : List (FileName × Node))

instance : Inhabited Node := ⟨.directory []⟩

def Node.emptyDirectory : Node := .directory []

/-- Entries with the node at `name` changed by `f`, or with a new node at the end. -/
def updateEntry (name : FileName) (f : Option Node → Node) :
    List (FileName × Node) → List (FileName × Node)
  | [] => [(name, f none)]
  | (other, node) :: rest =>
    if other = name then (other, f (some node)) :: rest
    else (other, node) :: updateEntry name f rest

/-- The tree with `node` below the names of `path`, where directories are made as needed. -/
def Node.put (node : Node) : (path : List FileName) → (tree : Node) → Node
  | [], _ => node
  | name :: path, tree =>
    let entries := match tree with
      | .directory entries => entries
      | .file _ => []
    .directory (updateEntry name (fun old => put node path (old.getD .emptyDirectory)) entries)

/-- The tree without what lies below the names of `path`. -/
def Node.remove : (path : List FileName) → (tree : Node) → Node
  | [], tree => tree
  | _ :: _, .file content => .file content
  | [name], .directory entries => .directory (entries.filter fun entry => entry.1 != name)
  | name :: path, .directory entries =>
    .directory (entries.map fun entry =>
      if entry.1 = name then (entry.1, remove path entry.2) else entry)

/-- A tree of files with the directory that relative paths start from. -/
structure FileSystem where
  root : Node := .emptyDirectory
  working : FilePath := ⟨[FilePath.slash]⟩

/-- The longest name of a file, in bytes. -/
def longestName : Nat := 255

/-- The least number of bytes that no path has. -/
def pathLimit : Nat := 4096

/-- The node that pieces of a path lead to from `node`, where `above` holds the directories passed
on the way, the nearest first. -/
def follow : (above : List Node) → (node : Node) → List FileName → Except Fault Node
  | _, node, [] => .ok node
  | _, .file _, _ :: _ => .error .notADirectory
  | above, .directory entries, piece :: rest =>
    if FilePath.isIdle piece then follow above (.directory entries) rest
    else if piece = [FilePath.dot, FilePath.dot] then
      match above with
      | [] => follow [] (.directory entries) rest
      | up :: above => follow above up rest
    else if longestName < piece.length then .error .nameTooLong
    else match entries.lookup piece with
      | none => .error .notFound
      | some next => follow (.directory entries :: above) next rest

namespace FileSystem

def node (fs : FileSystem) (path : FilePath) : Except Fault Node :=
  if path.bytes.contains 0 then .error .nulInName
  else if path.bytes.isEmpty then .error .notFound
  else if pathLimit ≤ path.bytes.length then .error .nameTooLong
  else
    let pieces := FilePath.pieces path.bytes
    let front := if path.isAbsolute then [] else FilePath.pieces fs.working.bytes
    follow [] fs.root (front ++ pieces)

def isFile (fs : FileSystem) (path : FilePath) : Bool :=
  match fs.node path with
  | .ok (.file _) => true
  | _ => false

/-- The names in the directory at a path; none if there is no directory. -/
def list (fs : FileSystem) (path : FilePath) : List FileName :=
  match fs.node path with
  | .ok (.directory entries) => entries.map Prod.fst
  | _ => []

/-- The text of the file at a path. -/
def readText (fs : FileSystem) (path : FilePath) : Except Fault String :=
  match fs.node path with
  | .error fault => .error fault
  | .ok (.directory _) => .error .isADirectory
  | .ok (.file content) =>
    match Text.Utf8.decode? content with
    | none => .error .notText
    | some text => .ok (String.ofList text)

/-- The names that lead from the root to a path, as far as it is written without two dots. -/
def names (fs : FileSystem) (path : FilePath) : List FileName := (fs.working.join path).names

/-- The file system with `node` at a path. -/
def put (fs : FileSystem) (path : FilePath) (node : Node) : FileSystem :=
  { fs with root := node.put (fs.names path) fs.root }

/-- The file system with nothing at a path. -/
def remove (fs : FileSystem) (path : FilePath) : FileSystem :=
  { fs with root := Node.remove (fs.names path) fs.root }

end FileSystem

end ModuleLoader.File
