import ModuleLoader.Text.Quoted
import ModuleLoader.Url.File
import ModuleLoader.Value

/-! What a module can learn about itself while it runs. -/

namespace ModuleLoader

/-- The value of `import.meta` in a module. -/
structure ImportMeta where
  url : String
  /-- The directory of the module's file, or nothing if it has no file. -/
  dirname : String
  /-- The path of the module's file, or nothing if it has no file. -/
  filename : String
  /-- The module is the entry of a program. -/
  main : Bool
  deriving DecidableEq

namespace ImportMeta

/-- The file of a URL, if its text is a URL and the URL names a file. -/
def file? (url : String) : Option FilePath :=
  match Url.parse url with
  | .ok u => u.toFilePath?
  | .error _ => none

/-- What the module at a URL can learn about itself. -/
def ofUrl (url : String) (main : Bool) : ImportMeta where
  url := url
  dirname := (((file? url).bind FilePath.parent?).map FilePath.text).getD ""
  filename := ((file? url).map FilePath.text).getD ""
  main := main

def properties (m : ImportMeta) : Properties :=
  .ofList
    [("url", .string m.url), ("dirname", .string m.dirname), ("filename", .string m.filename),
      ("main", .boolean m.main)]

def toValue (m : ImportMeta) (id : ObjectId) : Value := .object id m.properties.listed

def describe (m : ImportMeta) : String :=
  Text.record "ImportMeta"
    [("url", Text.quoted m.url), ("dirname", Text.quoted m.dirname),
      ("filename", Text.quoted m.filename), ("main", toString m.main)]

end ImportMeta

end ModuleLoader
