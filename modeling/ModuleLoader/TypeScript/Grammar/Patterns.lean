import ModuleLoader.TypeScript.Grammar.Parts

/-! The rules for targets of bindings and for parameters. -/

namespace ModuleLoader.TypeScript

/-- A parameter as it was read. -/
structure Parameter where
  type : Option TypeShape := none
  isDecorated : Bool := false
  /-- The parameter takes all arguments that are left. -/
  isRest : Bool := false

/-- The parameters of a function. -/
structure Parameters where
  hasThis : Bool := false
  list : List Parameter := []

namespace Parameters

def areDecorated (p : Parameters) : Bool := p.list.any Parameter.isDecorated

/-- The types of the parameters, of which nothing is known where none is given. -/
def types (p : Parameters) : List TypeShape := p.list.map fun q => q.type.getD .object

end Parameters

namespace Patterns

open Reader Words Parts

variable (g : Grammar)

/-- Gathers items between commas up to a mark.  An item that takes all the rest is the last one. -/
def listWithRest {α : Type} (close : String) (item rest : Reader α) : Reader (List α) := do
  let items ← list close true do
    if ← atMark "..." then
      let a ← rest
      if ← acceptMark "," then
        if !(← atMark close) then failure
        mistake "A rest element may not have a trailing comma"
      else if !(← atMark close) then failure
      return a
    else item
  mark close
  return items

def targetWithDefault (kind : BindingKind) : Reader Unit := do
  g.pattern kind
  defaultValue g

/-- Reads a target that takes all the rest. -/
def restTarget (kind : BindingKind) : Reader Unit := do
  mark "..."
  g.pattern kind

/-- Reads the name that takes all the rest of an object. -/
def restName (kind : BindingKind) : Reader Unit := do
  mark "..."
  let _ ← boundName kind

/-- Reads the target for one item of a list. -/
def itemTarget (kind : BindingKind) : Reader Unit := do
  if ← atMark "," then return
  targetWithDefault g kind

/-- Reads the target for one property of an object. -/
def propertyTarget (kind : BindingKind) : Reader Unit := do
  let token ← peek
  let isShort := isWord token && (← peekSecond) != .mark ":"
  if isShort then
    let _ ← boundName kind
    defaultValue g
  else
    let _ ← propertyName g
    mark ":"
    targetWithDefault g kind

def rule (kind : BindingKind) : Reader Unit := do
  if ← acceptMark "[" then
    let _ ← listWithRest "]" (itemTarget g kind) (restTarget g kind)
  else if ← acceptMark "\x7b" then
    let _ ← listWithRest "\x7d" (propertyTarget g kind) (restName kind)
  else
    let _ ← boundName kind

/-- Reads a parameter that takes all the rest. -/
def restParameter : Reader Parameter := do
  restTarget g .parameter
  eraseIf (atMark "?") skip
  let type ← annotation g
  if ← atMark "=" then
    mistake "A rest parameter cannot have an initializer"
    defaultValue g
  return { type, isRest := true }

def parameter : Reader Parameter := do
  let isDecorated ← decorators g
  let words ← modifiers false
  checkModifiers ["public", "private", "protected", "override", "readonly"] words
  g.pattern .parameter
  eraseIf (atMark "?") skip
  let type ← annotation g
  defaultValue g
  return { type, isDecorated }

/-- Reads the parameter that says what `this` stands for, if it is there, and tells whether it is.
The comma behind it goes with it. -/
def thisParameter : Reader Bool := do
  if (← hasTypes) && (← atWord "this") then
    erase do
      skip
      let _ ← annotation g
      if !(← atMark ")") then mark ","
    return true
  else return false

def parameters : Reader Parameters := do
  mark "("
  let hasThis ← enclosed (thisParameter g)
  let list ← enclosed (listWithRest ")" (parameter g) (restParameter g))
  return { hasThis, list }

end Patterns

end ModuleLoader.TypeScript
