import ModuleLoader.TypeScript.Grammar.Types

/-! The rules for functions. -/

namespace ModuleLoader.TypeScript

/-- What a function says besides its code. -/
structure FunctionHead where
  parameters : Parameters
  result : Option TypeShape := none
  isWhole : Bool := true
  /-- The function is neither asynchronous nor a generator. -/
  isPlain : Bool := true

namespace Functions

open Reader Words Parts

variable (g : Grammar)

def inFunction (isAsync isGenerator : Bool) (c : Context) : Context :=
  { c with
    withoutIn := false
    decorates := false
    awaits := isAsync
    yields := isGenerator
    inNamespace := false }

def body : Reader Unit := do
  mark "\x7b"
  within (fun c => { c with returns := true, withoutIn := false, decorates := false })
    (untilBrace (g.statement .list))

/-- Reads a function from its type parameters on, in a scope of its own.  In a program with types
the body may be missing.  Decorators learn the types that `learn` picks. -/
def learnedFunction (isAsync isGenerator : Bool) (learn : FunctionHead → List TypeShape) :
    Reader FunctionHead :=
  scope .function <| within (inFunction isAsync isGenerator) do
    typeParameters g
    let parameters ← Patterns.parameters g
    let result ← Types.resultAnnotation g
    mention .settled
    let isWhole ← atMark "\x7b"
    let head := { parameters, result, isWhole }
    for type in learn head do
      mention (.learned type)
    if isWhole then body g else typed endStatement
    return head

/-- Reads a function from its type parameters on, of which decorators learn nothing. -/
def functionRest (isAsync isGenerator : Bool) : Reader FunctionHead :=
  learnedFunction g isAsync isGenerator fun _ => []

def expression : Reader Unit := do
  let isAsync ← acceptWord "async"
  word "function"
  let isGenerator ← acceptMark "*"
  scope .block do
    if isName (← peek) then
      let _ ← within (inFunction isAsync isGenerator) (boundName .function)
    let _ ← functionRest g isAsync isGenerator

/-- Reads a function that is declared, from the word for it on.  Its name may be missing if
`nameless`. -/
def declaration (isAsync nameless : Bool) : Reader FunctionHead := do
  word "function"
  let isGenerator ← acceptMark "*"
  let token ← peek
  if isName token then
    let _ ← boundName .function
  else if isWord token then failure
  else mistakeIf (!nameless) "Expected function name"
  let head ← functionRest g isAsync isGenerator
  return { head with isPlain := !isAsync && !isGenerator }

def atFunction : Reader Bool := do
  if ← atWord "function" then return true
  if !(← atWord "async") then return false
  looks do
    skip
    return (← atWord "function") && !(← newlineAhead)

/-- Notes the mistakes in the parameters of a reader or a writer of a property. -/
def checkAccess (isReader : Bool) (p : Parameters) : Reader Unit := do
  if isReader then
    mistakeIf (!p.list.isEmpty) "A 'get' accessor must not have any formal parameters"
  else
    mistakeIf (p.list.length != 1 || p.list.any Parameter.isRest)
      "A 'set' accessor must have exactly one parameter"

end Functions

end ModuleLoader.TypeScript
