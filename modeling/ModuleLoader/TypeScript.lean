import ModuleLoader.File.Path

/-! Files in TypeScript, known by the extensions of their names. -/

namespace ModuleLoader.TypeScript

def extensions : List String := ["ts", "tsx", "mts", "cts"]

/-- The bytes are those of an extension of TypeScript files. -/
def isExtension (bytes : List UInt8) : Bool := (extensions.map Text.Utf8.ofString).contains bytes

/-- The name of the file has an extension of TypeScript files. -/
def isFile (path : FilePath) : Bool := path.extension?.any isExtension

end ModuleLoader.TypeScript
