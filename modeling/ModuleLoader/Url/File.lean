import ModuleLoader.File.Path
import ModuleLoader.Url.Parse

/-! The URLs of files and the files of URLs. -/

namespace ModuleLoader.Url

def isLocal (u : Url) : Bool :=
  match u.host? with
  | none => true
  | some host => host == .domain "localhost"

/-- A path that ends in a drive letter gets a slash. -/
def closeDrive (bytes : List UInt8) : List UInt8 :=
  match bytes.reverse with
  | mark :: letter :: _ :: _ =>
    if isDriveMark (Char.ofNat letter.toNat) (Char.ofNat mark.toNat) then
      bytes ++ [FilePath.slash]
    else bytes
  | _ => bytes

/-- The path of the file that a URL names, whatever its scheme: its names, decoded. -/
def toFilePath? (u : Url) : Option FilePath :=
  match u.names? with
  | none => none
  | some names =>
    if u.isLocal then
      some ⟨closeDrive (names.flatMap fun name => FilePath.slash :: decode name.toList)⟩
    else none

/-- The name of a file as a name of a URL. -/
def encodeFileName (name : FileName) : String :=
  String.ofList (encodeBytes escapesInFileName name)

/-- The URL of the file at an absolute path. -/
def ofFilePath? (path : FilePath) : Option Url :=
  if path.isAbsolute then
    let names := path.names.map encodeFileName
    some
      { scheme := "file"
        authority := some {}
        path := .segments (if names.isEmpty then [""] else names) }
  else none

/-- The URL of the directory at an absolute path: it ends in a slash. -/
def ofDirectoryPath? (path : FilePath) : Option Url :=
  (ofFilePath? path).map fun u =>
    match u.names? with
    | some names =>
      if names.getLast? == some "" then u else { u with path := .segments (names ++ [""]) }
    | none => u

end ModuleLoader.Url
