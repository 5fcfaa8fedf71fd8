import ModuleLoader.TypeScript.Grammar.Classes

/-! The rules for declarations: of variables, functions and classes, and of what only programs with
types have. -/

namespace ModuleLoader.TypeScript.Declarations

open Reader Words Parts

variable (g : Grammar)

/-- What is left of a declaration that types only know. -/
def typeOnly (isExport : Bool) : Outcome := .erased { isExport, holds := !isExport }

/-- What is left of a declaration of what exists elsewhere. -/
def elsewhere (isExport : Bool) : Outcome :=
  .erased { isExport, holds := !isExport, isValue := true }

/-- The words that declare variables. -/
inductive VariableWord where
  | var
  | let
  | const
  | using
  deriving DecidableEq

namespace VariableWord

def kind : VariableWord → BindingKind
  | .var => .hoisted
  | _ => .lexical

end VariableWord

/-- A variable needs a value in its declaration. -/
def needsValue (w : VariableWord) (isPattern inLoop : Bool) : Bool :=
  isPattern || w == .const || (w == .using && !inLoop)

/-- Reads one variable of a declaration, and tells whether it lacks a value. -/
def oneVariable (w : VariableWord) (inLoop : Bool) : Reader Bool := do
  let isPattern := (← atMark "[") || (← atMark "\x7b")
  mistakeIf (w == .using && isPattern) "Using declarations may not have destructuring patterns"
  g.pattern w.kind
  if !isPattern then eraseIf (return (← atMark "!") && !(← newlineAhead)) skip
  eraseIf (atMark "?") skip
  let _ ← annotation g
  let hasValue ← initializer g
  return !hasValue && needsValue w isPattern inLoop && !(← get).context.isAmbient

/-- Reads variables behind the word that declares them, and tells whether one lacks a value. -/
def variableList (w : VariableWord) (inLoop : Bool) : Reader Bool := do
  needIf (w == .using) .resource
  let first ← oneVariable g w inLoop
  let others ← gather do
    if ← acceptMark "," then some <$> oneVariable g w inLoop else return none
  return first || others.any id

def checkValues (isLacking : Bool) : Reader Unit :=
  mistakeIf isLacking "Missing initializer in declaration"

def variableWord? (name : String) : Option VariableWord :=
  match name with
  | "var" => some .var
  | "let" => some .let
  | "const" => some .const
  | _ => none

def variableStatement (w : VariableWord) : Reader Unit := do
  keyword
  checkValues (← variableList g w false)
  endStatement

/-- Reads the name of a member of an enumeration. -/
def memberName : Reader Unit := do
  match ← peek with
  | .word name | .string name => do
    skip
    bind .member name
  | .mark "[" => do
    skip
    match ← peek with
    | .string name => do
      skip
      bind .member name
    | _ => do
      let _ ← template failure
    mark "]"
  | _ => failure

/-- Reads an enumeration, which has constant values only if `isConstant`. -/
def enumeration (isConstant : Bool) : Reader Unit := do
  word "enum"
  let _ ← boundName (if isConstant then .constantEnumeration else .enumeration)
  mark "\x7b"
  scope .block do
    let _ ← listUntil "\x7d" do
      memberName
      initializer g

/-- Reads what an interface says about others, at most `fuel` times. -/
def interfaceHeritage (extended : Bool) : (fuel : Nat) → Reader Unit
  | 0 => failure
  | fuel + 1 => do
    let isExtends ← atWord "extends"
    if isExtends || (← atWord "implements") then
      keyword
      mistakeIf (isExtends && extended) "'extends' clause already seen"
      mistakeIf (!isExtends) "Interface declaration cannot have 'implements' clause"
      let _ ← Types.reference g
      repeatWhile do
        if ← acceptMark "," then
          let _ ← Types.reference g
          return true
        else return false
      interfaceHeritage true fuel

def interface : Reader Unit := do
  word "interface"
  let _ ← boundName .interface
  scope .block do
    typeParameters g
    interfaceHeritage g false (← get).rounds
    Types.members g

def typeAlias : Reader Unit := do
  word "type"
  let _ ← boundName .alias
  scope .block do
    typeParameters g
    mark "="
    g.anyType
  endStatement

/-- Reads the statements of a namespace between braces. -/
def namespaceBlock : Reader (List Item) := do
  mark "\x7b"
  let context (c : Context) : Context :=
    { c with inNamespace := true, awaits := false, yields := false, returns := false }
  let items ← within context <| gather do
    if ← atMark "\x7d" then return none
    some <$> g (.statement .list)
  mark "\x7d"
  return items

/-- Reads the statements of a namespace, in the scopes of the names behind points. -/
def namespaceBody : (further : List String) → Reader (List Item)
  | [] => scope .function (namespaceBlock g)
  | name :: rest =>
    scope .function do
      bind .namespace name
      namespaceBody rest

/-- Reads a module that is named by a string. -/
def namedModule : Reader Outcome := do
  let _ ← string
  mistakeIf (!(← get).context.isAmbient) "Ambient modules cannot be nested in other modules"
  if ← atMark "\x7b" then
    let _ ← namespaceBody g []
  else endStatement
  return .erased {}

/-- Reads a namespace.  One of types only goes, and so does one that exists elsewhere. -/
def namespaceDeclaration (isExport : Bool) : Reader Outcome := do
  keyword
  match ← peek with
  | .string _ => namedModule g
  | _ => do
    let name ← variableName
    let further ← gather do
      if ← acceptMark "." then some <$> anyWord else return none
    let items ← namespaceBody g further
    let isValue := items.any Item.isValue
    bind (if isValue then .namespace else .typeNamespace) name
    if (← get).context.isAmbient then return .erased { isExport, isValue }
    if items.any Item.holds then return .stays isExport else return .erased { isValue }

/-- Reads what is added to the global scope. -/
def globalDeclaration : Reader Outcome := do
  keyword
  let _ ← namespaceBody g []
  return .erased {}

/-- Reads a function that is declared behind modifiers. -/
def functionDeclaration (isDeclared isAsync isExport : Bool) : Reader Outcome := do
  let isAsync := (← acceptWord "async") || isAsync
  let f ← Functions.declaration g isAsync false
  mistakeIf (isDeclared && f.isWhole) "An implementation cannot be declared in ambient contexts"
  return if f.isWhole then .stays isExport else elsewhere isExport

/-- Notes the mistake of a variable that a namespace gives to the outside and that can change. -/
def checkExported (w : VariableWord) (isExport : Bool) : Reader Unit := do
  let c := (← get).context
  mistakeIf (isExport && c.inNamespace && !c.isAmbient && w != .const)
    "Namespaces exporting non-const are not supported"

/-- Reads a declaration by its first word, behind modifiers. -/
def wordDeclaration (words : List String) (isExport isDecorated : Bool) (name : String) :
    Reader Outcome := do
  let allowed :=
    match name with
    | "class" => ["declare", "abstract"]
    | "enum" => ["declare", "const"]
    | _ => ["declare", "async"]
  checkModifiers allowed words
  match name with
  | "namespace" | "module" => namespaceDeclaration g isExport
  | "global" => globalDeclaration g
  | "type" => do
    typeAlias g
    return typeOnly isExport
  | "enum" => do
    enumeration g (words.contains "const")
    return .stays isExport
  | "interface" => do
    interface g
    return typeOnly isExport
  | "class" => do
    Classes.declaration g isDecorated
    return .stays isExport
  | "function" | "async" =>
    functionDeclaration g (words.contains "declare") (words.contains "async") isExport
  | name =>
    match variableWord? name with
    | some w => do
      checkExported w isExport
      variableStatement g w
      return .stays isExport
    | none => failure

/-- Reads a declaration behind modifiers.  What exists elsewhere goes, but in a program without
types everything stays. -/
def declaration (words : List String) (isExport isDecorated : Bool) : Reader Outcome := do
  match ← peek with
  | .word name => do
    let isDeclared := words.contains "declare"
    let outcome ← within (fun c => { c with isAmbient := c.isAmbient || isDeclared })
      (wordDeclaration g words isExport isDecorated name)
    if !(← hasTypes) then return .stays isExport
    match outcome with
    | .stays _ => return if isDeclared then elsewhere isExport else outcome
    | outcome => return outcome
  | _ => failure

/-- The next tokens start a declaration that only programs with types have, behind at most `fuel`
words. -/
def startsFrom : (fuel : Nat) → Reader Bool
  | 0 => return false
  | fuel + 1 => do
    match ← peek with
    | .word name =>
      skip
      let next ← peek
      let isSameLine := !(← newlineAhead)
      match name with
      | "var" | "let" | "const" | "function" | "class" | "enum" => return true
      | "interface" | "type" => return isName next && isSameLine
      | "module" | "namespace" =>
        match next with
        | .string _ => return isSameLine
        | _ => return isName next && isSameLine
      | "abstract" | "accessor" | "async" | "declare" | "private" | "protected" | "public"
      | "readonly" => if isSameLine then startsFrom fuel else return false
      | "global" => return next == .mark "\x7b" || isName next || next == .word "export"
      | "import" =>
        match next with
        | .string _ => return true
        | _ => return next == .mark "*" || next == .mark "\x7b" || isWord next
      | "static" => startsFrom fuel
      | _ => return false
    | _ => return false

/-- The words that may start a declaration that only programs with types have. -/
def isFirstWord (name : String) : Bool :=
  ["interface", "type", "module", "namespace", "declare", "enum", "private", "protected", "public",
    "abstract", "accessor", "static", "readonly", "global"].contains name

/-- The next tokens start a declaration that only programs with types have. -/
def starts (name : String) : Reader Bool := do
  if !(← hasTypes) then return false
  if name == "const" then return (← peekSecond) == .word "enum"
  if !isFirstWord name then return false
  looks (startsFrom (← get).rounds)

end ModuleLoader.TypeScript.Declarations
