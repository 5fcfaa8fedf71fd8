import ModuleLoader.Json.Read
import ModuleLoader.Text.Quoted
import ModuleLoader.Tsconfig.Dialect
import ModuleLoader.Tsconfig.Options

/-! Reading compiler options from the text of a configuration file. -/

namespace ModuleLoader.Tsconfig

/-- A reason for which a configuration file has no options. -/
inductive ConfigError where
  /-- The text is no document of the dialect, or has not the shape of a configuration. -/
  | malformed
  /-- An option has a value of another type than it wants. -/
  | wrongType (found wanted : String)
  /-- An option has a name that it does not know. -/
  | unknownName (kind name : String)
  deriving DecidableEq

def ConfigError.message : ConfigError → String
  | .malformed => "malformed configuration"
  | .wrongType found wanted => s!"invalid type: {found}, expected {wanted}"
  | .unknownName kind name => s!"unknown {kind} '{name}'"

/-- What a value is, for a reader who expected something else. -/
def describe : Json → String
  | .null => "null"
  | .boolean b => s!"boolean `{b}`"
  | .number (.double x) => s!"floating point `{Decimal.scientific x}`"
  | .number n => s!"integer `{n.text}`"
  | .string s => s!"string {Text.quoted s}"
  | .array _ => "sequence"
  | .object _ => "map"

def ofName {α : Type} [Named α] (text : String) : Except ConfigError α :=
  let name := String.ofList (text.toList.map Char.toLower)
  match (Named.names (α := α)).lookup name with
  | some value => .ok value
  | none => .error (.unknownName (Named.kind α) name)

def readString (wanted : String) : Json → Except ConfigError String
  | .string s => .ok s
  | value => .error (.wrongType (describe value) wanted)

def readName {α : Type} [Named α] (value : Json) : Except ConfigError α :=
  readString "a string" value >>= ofName

def readBoolean : Json → Except ConfigError Bool
  | .boolean b => .ok b
  | value => .error (.wrongType (describe value) "a boolean")

def readOptional {α : Type} (read : Json → Except ConfigError α) :
    Json → Except ConfigError (Option α)
  | .null => .ok none
  | value => (read value).map some

def readPath (value : Json) : Except ConfigError FilePath :=
  (readString "path string" value).map FilePath.ofString

/-- The options with one more field of the JSON object applied. -/
def applyField (o : CompilerOptions) (key : String) (value : Json) :
    Except ConfigError CompilerOptions :=
  match key with
  | "target" => do return { o with target := ← readName value }
  | "module" => do return { o with module := ← readName value }
  | "moduleResolution" => do return { o with moduleResolution := ← readOptional readName value }
  | "jsx" => do return { o with jsx := ← readOptional readName value }
  | "jsxFactory" => do return { o with jsxFactory := ← readOptional (readString "a string") value }
  | "jsxFragmentFactory" => do
    return { o with jsxFragmentFactory := ← readOptional (readString "a string") value }
  | "jsxImportSource" => do
    return { o with jsxImportSource := ← readOptional (readString "a string") value }
  | "allowJs" => do return { o with allowJs := ← readBoolean value }
  | "skipLibCheck" => do return { o with skipLibCheck := ← readBoolean value }
  | "strict" => do return { o with strict := ← readBoolean value }
  | "allowSyntheticDefaultImports" => do
    return { o with allowSyntheticDefaultImports := ← readBoolean value }
  | "experimentalDecorators" => do return { o with experimentalDecorators := ← readBoolean value }
  | "emitDecoratorMetadata" => do return { o with emitDecoratorMetadata := ← readBoolean value }
  | "verbatimModuleSyntax" => do return { o with verbatimModuleSyntax := ← readBoolean value }
  | "noEmitOnError" => do return { o with noEmitOnError := ← readBoolean value }
  | "baseUrl" => do return { o with baseUrl := ← readOptional readPath value }
  | "rootDir" => do return { o with rootDir := ← readOptional readPath value }
  | _ => .ok { o with extra := o.extra ++ [(key, value)] }

/-- The options with the fields of a JSON object applied in order; the first bad one decides. -/
def applyFields (o : CompilerOptions) : List (String × Json) → Except ConfigError CompilerOptions
  | [] => .ok o
  | (key, value) :: rest => do applyFields (← applyField o key value) rest

/-- The options of a JSON value, with defaults for what it leaves out. -/
def readOptions : Json → Except ConfigError CompilerOptions
  | .object fields => applyFields {} fields
  | value => .error (.wrongType (describe value) "struct CompilerOptions")

/-- The options whose paths start from the directory of the configuration file. -/
def CompilerOptions.locate (o : CompilerOptions) (directory : FilePath) : CompilerOptions :=
  { o with baseUrl := o.baseUrl.map directory.join, rootDir := o.rootDir.map directory.join }

/-- The value of a part of a configuration, which is nested in one container already. -/
def readPart (part : Json.Document) : Except ConfigError Json :=
  if Json.depthLimit < part.depth + 1 then .error .malformed
  else
    match Json.ofDocument? part with
    | some value => .ok value
    | none => .error .malformed

/-- The parts of an object that hold the compiler options. -/
def optionParts : List (List Char × Json.Document) → Except ConfigError (List Json.Document)
  | [] => .ok []
  | (key, part) :: rest =>
    match Json.unescape? key with
    | none => .error .malformed
    | some key => do
      let parts ← optionParts rest
      return if key = "compilerOptions" then part :: parts else parts

/-- The value of the compiler options in a configuration: the one field of that name, or the one
item of an array.  It may be absent. -/
def optionsValue : Json.Document → Except ConfigError (Option Json)
  | .array [] => .ok none
  | .array [part] => (readPart part).map some
  | .object members => do
    match ← optionParts members with
    | [] => return none
    | [part] => return some (← readPart part)
    | _ => throw .malformed
  | _ => .error .malformed

/-- The options in the text of a configuration file in the given directory. -/
def readConfig (text : String) (directory : FilePath) : Except ConfigError CompilerOptions :=
  match Json.Document.ofText? (plain text.toList) with
  | none => .error .malformed
  | some document => do
    let options ←
      match ← optionsValue document with
      | none | some .null => pure {}
      | some value => readOptions value
    return options.locate directory

end ModuleLoader.Tsconfig
