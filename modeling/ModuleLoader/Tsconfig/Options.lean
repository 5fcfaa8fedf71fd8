import ModuleLoader.File.Path
import ModuleLoader.Json.Basic

/-! Compiler options: the ones that the loader interprets, and all others by their JSON values. -/

namespace ModuleLoader.Tsconfig

/-- A type whose values are known by names without regard to case.  The first name of a value is
the one it is written with. -/
class Named (α : Type) where
  kind : String
  names : List (String × α)
  name : α → String

/-- The language level of the output. -/
inductive ScriptTarget where
  | es3 | es5 | es2015 | es2016 | es2017 | es2018 | es2019 | es2020 | es2021 | es2022 | es2023
  | es2024 | esNext
  deriving DecidableEq

/-- The module system of the output. -/
inductive ModuleKind where
  | none | commonJs | amd | umd | system | es2015 | es2020 | es2022 | esNext | node16 | nodeNext
  | preserve
  deriving DecidableEq

/-- The way in which imports are resolved. -/
inductive ModuleResolution where
  | classic | node10 | node16 | nodeNext | bundler
  deriving DecidableEq

/-- What becomes of JSX. -/
inductive JsxEmit where
  | preserve | react | reactJsx | reactJsxDev | reactNative
  deriving DecidableEq

instance : Named ScriptTarget where
  kind := "ScriptTarget"
  names :=
    [("es3", .es3), ("es5", .es5), ("es2015", .es2015), ("es6", .es2015), ("es2016", .es2016),
      ("es2017", .es2017), ("es2018", .es2018), ("es2019", .es2019), ("es2020", .es2020),
      ("es2021", .es2021), ("es2022", .es2022), ("es2023", .es2023), ("es2024", .es2024),
      ("esnext", .esNext)]
  name
    | .es3 => "es3"
    | .es5 => "es5"
    | .es2015 => "es2015"
    | .es2016 => "es2016"
    | .es2017 => "es2017"
    | .es2018 => "es2018"
    | .es2019 => "es2019"
    | .es2020 => "es2020"
    | .es2021 => "es2021"
    | .es2022 => "es2022"
    | .es2023 => "es2023"
    | .es2024 => "es2024"
    | .esNext => "esnext"

instance : Named ModuleKind where
  kind := "ModuleKind"
  names :=
    [("none", .none), ("commonjs", .commonJs), ("amd", .amd), ("umd", .umd), ("system", .system),
      ("es2015", .es2015), ("es6", .es2015), ("es2020", .es2020), ("es2022", .es2022),
      ("esnext", .esNext), ("node16", .node16), ("nodenext", .nodeNext), ("preserve", .preserve)]
  name
    | .none => "none"
    | .commonJs => "commonjs"
    | .amd => "amd"
    | .umd => "umd"
    | .system => "system"
    | .es2015 => "es2015"
    | .es2020 => "es2020"
    | .es2022 => "es2022"
    | .esNext => "esnext"
    | .node16 => "node16"
    | .nodeNext => "nodenext"
    | .preserve => "preserve"

instance : Named ModuleResolution where
  kind := "ModuleResolution"
  names :=
    [("classic", .classic), ("node10", .node10), ("node", .node10), ("nodejs", .node10),
      ("node16", .node16), ("nodenext", .nodeNext), ("bundler", .bundler)]
  name
    | .classic => "classic"
    | .node10 => "node10"
    | .node16 => "node16"
    | .nodeNext => "nodenext"
    | .bundler => "bundler"

instance : Named JsxEmit where
  kind := "JsxEmit"
  names :=
    [("preserve", .preserve), ("react", .react), ("react-jsx", .reactJsx),
      ("react-jsxdev", .reactJsxDev), ("react-native", .reactNative)]
  name
    | .preserve => "preserve"
    | .react => "react"
    | .reactJsx => "react-jsx"
    | .reactJsxDev => "react-jsxdev"
    | .reactNative => "react-native"

/-- The options of a project. -/
structure CompilerOptions where
  target : ScriptTarget := .esNext
  module : ModuleKind := .esNext
  moduleResolution : Option ModuleResolution := some .node10
  jsx : Option JsxEmit := none
  jsxFactory : Option String := none
  jsxFragmentFactory : Option String := none
  jsxImportSource : Option String := none
  allowJs : Bool := true
  skipLibCheck : Bool := true
  strict : Bool := false
  allowSyntheticDefaultImports : Bool := false
  experimentalDecorators : Bool := false
  emitDecoratorMetadata : Bool := false
  verbatimModuleSyntax : Bool := false
  noEmitOnError : Bool := false
  baseUrl : Option FilePath := none
  rootDir : Option FilePath := none
  /-- The options that the loader does not interpret, in the order of their keys. -/
  extra : List (String × Json) := []

namespace CompilerOptions

/-- The options under which every module is transpiled: the latest language and modules, and no
checks that could stand in the way. -/
def effective (o : CompilerOptions) : CompilerOptions :=
  { o with
    target := .esNext
    module := .esNext
    skipLibCheck := true
    strict := false
    allowSyntheticDefaultImports := true }

def named {α : Type} [Named α] (a : α) : Json := .string (Named.name a)

/-- A value that may be absent, as JSON. -/
def orNull {α : Type} (f : α → Json) : Option α → Json
  | none => .null
  | some a => f a

/-- A path as JSON, which has no strings but texts. -/
def pathJson (path : FilePath) : Except String Json :=
  match path.text? with
  | some text => .ok (.string text)
  | none => .error "path contains invalid UTF-8 characters"

/-- A path that may be absent, as JSON. -/
def pathOrNull : Option FilePath → Except String Json
  | none => .ok .null
  | some path => pathJson path

/-- The options as a JSON object with all interpreted keys, or the reason for which they cannot be
written. -/
def toJson? (o : CompilerOptions) : Except String Json := do
  let baseUrl ← pathOrNull o.baseUrl
  let rootDir ← pathOrNull o.rootDir
  return .ofFields
    (o.extra ++
      [("target", named o.target),
        ("module", named o.module),
        ("moduleResolution", orNull named o.moduleResolution),
        ("jsx", orNull named o.jsx),
        ("jsxFactory", orNull .string o.jsxFactory),
        ("jsxFragmentFactory", orNull .string o.jsxFragmentFactory),
        ("jsxImportSource", orNull .string o.jsxImportSource),
        ("allowJs", .boolean o.allowJs),
        ("skipLibCheck", .boolean o.skipLibCheck),
        ("strict", .boolean o.strict),
        ("allowSyntheticDefaultImports", .boolean o.allowSyntheticDefaultImports),
        ("experimentalDecorators", .boolean o.experimentalDecorators),
        ("emitDecoratorMetadata", .boolean o.emitDecoratorMetadata),
        ("verbatimModuleSyntax", .boolean o.verbatimModuleSyntax),
        ("noEmitOnError", .boolean o.noEmitOnError),
        ("baseUrl", baseUrl),
        ("rootDir", rootDir)])

/-- The options as they are shown: by nothing, where they cannot be written. -/
def toJson (o : CompilerOptions) : Json := o.toJson?.toOption.getD .null

end CompilerOptions

end ModuleLoader.Tsconfig
