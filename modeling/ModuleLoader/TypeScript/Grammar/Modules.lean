import ModuleLoader.TypeScript.Grammar.Declarations

/-! The rules for imports and exports, which are read by their parts. -/

namespace ModuleLoader.TypeScript.Modules

open Reader Words Parts

variable (g : Grammar)

def quoted (text : String) : String :=
  let escape (c : Char) : List Char :=
    if c = '"' then ['\\', '"']
    else if c = '\\' then ['\\', '\\']
    else if c = '\n' then ['\\', 'n']
    else if c = '\r' then ['\\', 'r']
    else [c]
  String.ofList ('"' :: text.toList.flatMap escape ++ ['"'])

/-- A name in a list of imports or exports. -/
inductive ListedName where
  | word (name : String)
  | string (value : String)
  deriving DecidableEq

namespace ListedName

def written : ListedName → String
  | .word name => name
  | .string value => quoted value

def text : ListedName → String
  | .word name => name
  | .string value => value

end ListedName

/-- Reads a name in a list of imports or exports. -/
def listedName : Reader ListedName := do
  let l ← take
  mistakeIf (!l.isWhole) "An export name cannot include a lone surrogate"
  match l.token with
  | .word name => return .word name
  | .string value => return .string value
  | _ => failure

/-- Reads a part of a statement, and gives the copy of it. -/
def copyOf (p : Reader Unit) : Reader String := do
  let kept := (← get).kept
  modify fun s => { s with kept := [] }
  p
  let copy := (← get).kept
  modify fun s => { s with kept := copy ++ kept }
  return String.ofList copy.reverse

/-- Reads the attributes of an import, if there are any. -/
def attributes : Reader Unit := do
  if (← atWord "with") || ((← atWord "assert") && !(← newlineAhead)) then
    keyword
    mark "\x7b"
    let _ ← listUntil "\x7d" do
      match (← take).token with
      | .word _ | .string _ => mark ":"
      | _ => failure
      string

/-- Reads the specifier of a module with what stands behind it. -/
def moduleName : Reader ModuleName := do
  let specifier ← string
  let attributes ← copyOf attributes
  endStatement
  return { specifier, attributes }

def source : Reader ModuleName := do
  word "from"
  moduleName

/-- An entry of a list of imports or exports. -/
structure Entry where
  isType : Bool := false
  name : ListedName
  other : Option ListedName := none

def entryEnds : Reader Bool := return (← atMark ",") || (← atMark "\x7d")

/-- Reads `as` and the name behind it, if they are there. -/
def otherName : Reader (Option ListedName) := do
  if ← acceptWord "as" then some <$> listedName else return none

/-- Reads an entry behind a word `type` that starts it, and that may be its name. -/
def typeEntry : Reader Entry := do
  let type := ListedName.word "type"
  let as := ListedName.word "as"
  if ← entryEnds then return { name := type }
  if !(← atWord "as") then
    let name ← listedName
    return { isType := true, name, other := ← otherName }
  skip
  if ← entryEnds then return { isType := true, name := as }
  if !(← atWord "as") then return { name := type, other := some (← listedName) }
  skip
  if ← entryEnds then return { name := type, other := some as }
  return { isType := true, name := as, other := some (← listedName) }

/-- Reads an entry of a list of imports or exports, where the whole list may be about types. -/
def entry (ofTypes : Bool) : Reader Entry := do
  if ← atWord "type" then
    skip
    let e ← typeEntry
    mistakeIf (ofTypes && e.isType)
      "The 'type' modifier cannot be used on a named import or export of types"
    return e
  let name ← listedName
  return { name, other := ← otherName }

def entries {α : Type} (p : Reader α) : Reader (List α) := do
  mark "\x7b"
  listUntil "\x7d" p

def importKind (isType : Bool) : BindingKind := if isType then .importedType else .imported

/-- Reads an entry of a list of imports, and binds its name. -/
def importedName (isType : Bool) : Reader ImportedName := do
  let e ← entry isType
  match e.other with
  | some (.word name) => do
    if reserved.contains name then failure
    checkName name
  | some (.string _) => failure
  | none =>
    mistakeIf (match e.name with
      | .word name => isReserved name
      | .string _ => true) "An import needs a name that can be bound"
  let name := (e.other.getD e.name).text
  bind (importKind (isType || e.isType)) name
  return { imported := e.name.written, name, isType := e.isType }

/-- Reads what an import binds behind a first name and a comma, or without a first name. -/
def furtherClause (isType : Bool) (default : Option String) : Reader ImportClause := do
  if ← acceptMark "*" then
    word "as"
    let name ← boundName (importKind isType)
    return { default, whole := some name }
  else return { default, named := some (← entries (importedName isType)) }

def clause (isType : Bool) : Reader ImportClause := do
  if isName (← peek) then
    let name ← boundName (importKind isType)
    if ← acceptMark "," then furtherClause isType (some name) else return { default := some name }
  else furtherClause isType none

/-- Reads a part of a program by its names behind points. -/
def path : Reader (List String) := do
  let first ← anyWord
  let others ← gather do
    if ← acceptMark "." then some <$> anyWord else return none
  return first :: others

/-- Reads the module that a name is bound to, if it is one. -/
def required : Reader (Option String) := do
  if (← atWord "require") && (← peekSecond) == .mark "(" then
    keyword
    skip
    let specifier ← string
    mark ")"
    return some specifier
  else return none

/-- Reads an import that is written as an assignment, from its name on. -/
def link (isExport isType : Bool) : Reader Outcome :=
  typed do
    let name ← variableName
    mark "="
    let specifier ← required
    let names ← match specifier with
      | some _ => pure []
      | none => path
    endStatement
    let root := names.headD ""
    if !isExport && !isType then mention (.link name root)
    else if !isType then use root
    bind (importKind isType) name
    if isType then return .erased { isExport, holds := !isExport }
    if isExport then return .stays true
    let text := match specifier with
      | some specifier => "const " ++ name ++ " = require(" ++ quoted specifier ++ ");"
      | none => "var " ++ name ++ " = " ++ ".".intercalate names ++ ";"
    return .parts (.link name text.toList)

/-- The next token starts what an import binds. -/
def atClause : Reader Bool := return isName (← peek) || (← atMark "\x7b") || (← atMark "*")

/-- The word `type` behind `import` says that the import is one of types, and is not what is
imported. -/
def marksTypes : Reader Bool := do
  if !(← hasTypes) || !(← atWord "type") then return false
  looks do
    skip
    if !(← atWord "from") then return ← atClause
    skip
    return (← atWord "from") || (← atMark "=")

/-- The next word says in which phase the module is imported, and is not what is imported. -/
def marksPhase : Reader Bool := do
  if ← atWord "defer" then return (← peekSecond) == .mark "*"
  if !(← atWord "source") then return false
  looks do
    skip
    if ← acceptWord "from" then atWord "from" else return isName (← peek)

/-- Reads an import, whose first word was read. -/
def importRest (isExport : Bool) : Reader Outcome := do
  match ← peek with
  | .string _ =>
    if isExport then failure
    return .parts (.importFrom false "" none (← moduleName))
  | _ => do
    let isType ← marksTypes
    if isType then skip
    let isLink := isName (← peek) && (← peekSecond) == .mark "="
    if isLink then link isExport isType
    else if isExport then failure
    else
      let phase ← if ← marksPhase then anyWord else pure ""
      let found ← clause isType
      return .parts (.importFrom isType phase (some found) (← source))

/-- Notes that the program exports a name, which it does once only in a program without types. -/
def noteExport (name : String) : Reader Unit := do
  let s ← get
  mistakeIf (!s.dialect.types && s.exported.contains name) s!"Duplicated export '{name}'"
  modify fun s => { s with exported := name :: s.exported }

/-- Notes the mistake of an export of what cannot be the name of a variable. -/
def checkLocal (e : Entry) : Reader Unit := do
  match e.name with
  | .string _ => mistake "A string literal cannot be used as an exported binding without 'from'"
  | .word name =>
    mistakeIf (isReserved name || isFutureReserved name)
      "A reserved word cannot be used as an exported binding without 'from'"

/-- Reads the module behind a list of exports, if there is one. -/
def exportSource : Reader (Option ModuleName) := do
  if ← acceptWord "from" then
    match ← peek with
    | .string _ => return some (← moduleName)
    | .number | .word "true" | .word "false" | .word "null" => failure
    | _ => pure ()
  endStatement
  return none

/-- Reads a list of exports.  Without a source its entries use the names. -/
def exportList (isType : Bool) : Reader Outcome := do
  let found ← entries (entry isType)
  for e in found do
    noteExport (e.other.getD e.name).text
  let source ← exportSource
  if source.isNone then
    for e in found do
      checkLocal e
      if !isType && !e.isType then use e.name.text
  let names := found.map fun e =>
    { name := e.name.written, exported := (e.other.getD e.name).written, isType := e.isType }
  return .parts (.exportNames isType names source)

/-- Reads an export of all that another module exports. -/
def exportAll (isType : Bool) : Reader Outcome := do
  mark "*"
  let name ← otherName
  match name with
  | some name => noteExport name.text
  | none => pure ()
  return .parts (.exportAll isType (name.map ListedName.written) (← source))

def exportedClass : Reader Outcome := do
  let words ← modifiers false
  if !(← atWord "class") then failure
  Declarations.declaration g words true true

/-- Reads a declaration, and notes the names that it binds as exports. -/
def exportedDeclaration : Reader Outcome := do
  let before := (← get).mentions.length
  let words ← modifiers false
  let outcome ← Declarations.declaration g words true false
  let mentions := (← get).mentions
  for m in mentions.take (mentions.length - before) do
    match m with
    | .binding b => noteExport b.name
    | _ => pure ()
  return outcome

/-- Reads what stands behind `export default` and the decorators before it. -/
def exportedDefault (isDecorated : Bool) : Reader Outcome := do
  noteExport "default"
  let second ← peekSecond
  if ← atMark "@" then
    let _ ← decorators g
    exportedClass g
  else if (← atWord "class") || ((← atWord "abstract") && second == .word "class") then
    let words ← modifiers false
    checkModifiers ["abstract"] words
    Classes.declaration g isDecorated
    return .stays true
  else if ← Functions.atFunction then
    let isAsync ← acceptWord "async"
    let f ← Functions.declaration g isAsync true
    return if f.isWhole then .stays true else Declarations.elsewhere true
  else
    let isInterface ← looks do
      typed (word "interface")
      return isName (← peek) && !(← newlineAhead)
    if isInterface then
      Declarations.interface g
      return Declarations.typeOnly true
    g.assignment
    endStatement
    return .stays true

/-- Reads an assignment of what the whole module exports. -/
def exportAssignment : Reader Outcome := do
  mark "="
  g.assignment
  endStatement
  return .stays false

/-- Reads the name by which scripts know the module. -/
def exportedNamespace : Reader Outcome := do
  skip
  skip
  let _ ← anyWord
  endStatement
  return .stays false

/-- Reads an export, with decorators before it or not. -/
def exportRest (isDecorated : Bool) : Reader Outcome := do
  keyword
  let second ← peekSecond
  let typed ← hasTypes
  match ← peek with
  | .mark "\x7b" => exportList false
  | .mark "*" => exportAll false
  | .mark "=" => if typed then exportAssignment g else failure
  | .mark "@" => do
    mistakeIf isDecorated "Decorators may not appear after 'export' if they also appear before it"
    let _ ← decorators g
    exportedClass g
  | .word "import" => do
    keyword
    importRest true
  | .word "default" => do
    keyword
    exportedDefault g isDecorated
  | .word "as" =>
    if typed && second == .word "namespace" then exportedNamespace else failure
  | .word "type" =>
    if typed && second == .mark "\x7b" then
      keyword
      exportList true
    else if typed && second == .mark "*" then
      keyword
      exportAll true
    else exportedDeclaration g
  | _ => if isDecorated then exportedClass g else exportedDeclaration g

end ModuleLoader.TypeScript.Modules
