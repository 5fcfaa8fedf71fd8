import ModuleLoader.TypeScript.Grammar.Goal
import ModuleLoader.TypeScript.Grammar.Words

/-! The rules for parts that types, expressions and statements share: names of properties,
annotations, type parameters, templates and decorators. -/

namespace ModuleLoader.TypeScript

/-- The name of a property or a member. -/
inductive PropertyName where
  /-- A name, which no modifier of the language takes for itself. -/
  | plain (name : String)
  | string (value : String)
  | number
  | hidden (name : String)
  | computed
  deriving DecidableEq

namespace PropertyName

def isText (text : String) : PropertyName → Bool
  | .plain name | .string name => name == text
  | _ => false

end PropertyName

namespace Parts

open Reader Words

variable (g : Grammar)

def propertyName : Reader PropertyName := do
  match (← take).token with
  | .word name => return .plain name
  | .string value => return .string value
  | .number => return .number
  | .privateName name => return .hidden name
  | .mark "[" => do
    g.enclosedAssignment
    mark "]"
    return .computed
  | _ => failure

/-- Reads the type behind a colon without copying it, if there is one. -/
def annotation : Reader (Option TypeShape) := do
  if (← hasTypes) && (← atMark ":") then
    erase do
      skip
      some <$> g.type
  else return none

/-- Reads the value behind a sign of equality, if there is one, and tells whether there is. -/
def initializer : Reader Bool := do
  if ← acceptMark "=" then
    g.assignment
    return true
  else return false

/-- Reads the value that stands for what is missing, if there is one. -/
def defaultValue : Reader Unit := do
  let _ ← enclosed (initializer g)

def typeParameter : Reader Unit := do
  let words ← modifiers true
  checkModifiers ["const", "in", "out"] words
  let _ ← boundName .typeParameter
  if ← acceptWord "extends" then g.anyType
  if ← acceptMark "=" then g.anyType

/-- Reads type parameters between angle brackets, if there are any, without copying them. -/
def typeParameters : Reader Unit :=
  eraseIf atLeftAngle do
    leftAngle
    let found ← listUntil ">" (typeParameter g)
    mistakeIf found.isEmpty "Type parameter list cannot be empty"

def typeArguments : Reader Unit := do
  leftAngle
  let found ← listUntil ">" g.type
  mistakeIf found.isEmpty "Type argument list cannot be empty"

/-- Reads types between angle brackets on the line before, if there are any. -/
def typeArgumentsOnLine : Reader Unit := do
  if (← atLeftAngle) && !(← newlineAhead) then typeArguments g

/-- A piece of a template between its signs. -/
structure TemplatePiece where
  /-- The number of characters, with the sign that ends the piece. -/
  length : Nat
  isSound : Bool
  /-- The template goes on behind what the sign starts. -/
  goesOn : Bool

/-- The piece of a template that a text starts with; `skip` characters of an escape are left to
drop. -/
def templatePiece : (skip : Nat) → List Char → Option TemplatePiece
  | _, [] => none
  | skip + 1, _ :: rest => (templatePiece skip rest).map longer
  | 0, '$' :: '\x7b' :: _ => some { length := 2, isSound := true, goesOn := true }
  | 0, '\x60' :: _ => some { length := 1, isSound := true, goesOn := false }
  | 0, c :: rest =>
    if c = '\\' then
      let escape := Escape.read rest
      (templatePiece escape.length rest).map fun p =>
        { longer p with isSound := escape.inTemplate && p.isSound }
    else (templatePiece 0 rest).map longer
where
  longer (p : TemplatePiece) : TemplatePiece := { p with length := p.length + 1 }

/-- Reads a piece of a template and what follows it, at most `fuel` times. -/
def templateFrom (part : Reader Unit) : (fuel : Nat) → Reader Bool
  | 0 => failure
  | fuel + 1 => do
    let l := (← get).next
    match templatePiece 0 l.rest with
    | none => failure
    | some piece =>
      passSeparator
      keep (l.spelling ++ l.rest.take piece.length)
      goOnWith (l.rest.drop piece.length)
      if piece.goesOn then
        part
        if !(← atMark "\x7d") then failure
        return (← templateFrom part fuel) && piece.isSound
      else return piece.isSound

/-- Reads a template whose parts between braces are read by `part`, and tells whether its escapes
are sound. -/
def template (part : Reader Unit) : Reader Bool := do
  if !(← atMark "\x60") then failure
  templateFrom part (← get).rounds

/-- Reads what stands behind the sign of a decorator. -/
def decorator : Reader Unit := do
  mark "@"
  let _ ← within (fun c => { c with decorates := true }) (g .leftHand)

/-- Reads decorators, and tells whether there are any. -/
def decorators : Reader Bool := do
  let present ← atMark "@"
  repeatWhile do
    if ← atMark "@" then
      decorator g
      return true
    else return false
  return present

end Parts

end ModuleLoader.TypeScript
