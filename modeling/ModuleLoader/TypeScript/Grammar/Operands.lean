import ModuleLoader.TypeScript.Grammar.Classes

/-! The rules for operands: values that are written down, and the accesses behind them. -/

namespace ModuleLoader.TypeScript.Operands

open Reader Words Parts

variable (g : Grammar)

/-- An item of an array or of an object, as it could be a part of a target. -/
structure Part where
  target : Option Target
  isRest : Bool := false
  /-- A comma stands behind the item, and the list ends there. -/
  isTrailed : Bool := false

/-- What the parts of a list mean together as a target.  The part that takes all the rest is the
last one. -/
def targetOf : List Part → Option Target
  | [] => some {}
  | part :: rest =>
    match part.target, targetOf rest with
    | some first, some others =>
      if part.isRest && !rest.isEmpty then none
      else
        some {
          finished := first.finished ++ others.finished
          trailing := first.trailing + others.trailing +
            if part.isRest && part.isTrailed then 1 else 0 }
    | _, _ => none

def spread (close : String) : Reader Part := do
  mark "..."
  let shape ← g (.assignment true)
  let isTrailed ← looks do
    mark ","
    atMark close
  return { target := shape.target?, isRest := true, isTrailed }

def arrayItem : Reader Part := do
  if ← atMark "," then return { target := some {} }
  if ← atMark "..." then spread g "]"
  else
    let shape ← g (.assignment true)
    return { target := shape.part? }

def array : Reader Shape := do
  mark "["
  return .literal (targetOf (← enclosed (listUntil "]" (arrayItem g))))

/-- Reads a property that is named like a variable. -/
def shortProperty : Reader Part := do
  let place := (← get).next.rest.length
  use (← variableName)
  if ← initializer g then
    modify fun s => { s with unfinished := place :: s.unfinished }
    return { target := some { finished := [place] } }
  else return { target := some {} }

def namedProperty : Reader Part := do
  let words ← modifiers false
  checkModifiers ["async"] words
  let isAsync := words.contains "async"
  let isReader ← atWord "get"
  let isAccess ← Types.accessWord
  mistakeIf (isAsync && isAccess) "'async' modifier cannot be used here"
  let isGenerator ← acceptMark "*"
  match ← propertyName g with
  | .hidden _ => failure
  | _ =>
    if (← atMark "(") || (← atLeftAngle) || isAsync || isGenerator || isAccess then
      let f ← Functions.functionRest g isAsync isGenerator
      if isAccess then Functions.checkAccess isReader f.parameters
      return { target := none }
    else
      mark ":"
      let shape ← g (.assignment true)
      return { target := shape.part? }

def property : Reader Part := do
  if ← atMark "..." then spread g "\x7d"
  else
    let second ← peekSecond
    let isShort := isName (← peek) &&
      (second == .mark "," || second == .mark "\x7d" || second == .mark "=")
    if isShort then shortProperty g else namedProperty g

def object : Reader Shape := do
  mark "\x7b"
  return .literal (targetOf (← enclosed (listUntil "\x7d" (property g))))

def parenthesized : Reader Shape := do
  mark "("
  let shape ← enclosed (g .expression)
  mark ")"
  return .parenthesized shape

def regularExpression : Reader Unit := do
  let s ← get
  match s.next.text with
  | '/' :: rest =>
    match RegularExpression.read rest with
    | some e =>
      if s.slipped || !e.isSound then failure
      passSeparator
      keep ('/' :: rest.take e.length)
      goOnWith (rest.drop e.length)
    | none => failure
  | _ => failure

def arguments : Reader Unit := do
  mark "("
  let _ ← enclosed <| listUntil ")" do
    let _ ← acceptMark "..."
    g.assignment

/-- Reads what a call of `import` is given. -/
def importArguments : Reader Unit := do
  mark "("
  enclosed do
    g.assignment
    if (← acceptMark ",") && !(← atMark ")") then
      g.assignment
      let _ ← acceptMark ","
  mark ")"

/-- Reads what stands behind `import` in an expression. -/
def importRest : Reader Shape := do
  keyword
  if ← acceptMark "." then
    if ← acceptWord "meta" then return .other
    if !((← acceptWord "defer") || (← acceptWord "source")) then failure
  importArguments g
  return .importCall

def superWord : Reader Shape := do
  keyword
  let goesOn := (← atMark ".") || (← atMark "[") || (← atMark "(")
  mistakeIf (!goesOn) "'super' can only be used with function calls or in property accesses"
  return .other

def isConstant (name : String) : Bool := ["this", "null", "true", "false"].contains name

/-- Reads an operand that starts with a word, unless the word is `new`. -/
def wordOperand (name : String) : Reader Shape := do
  match name with
  | "function" => do
    Functions.expression g
    return .other
  | "class" => do
    Classes.expression g
    return .other
  | "import" => importRest g
  | "super" => superWord
  | _ =>
    if isConstant name then
      keyword
      return .other
    else if name == "async" && (← Functions.atFunction) then
      Functions.expression g
      return .other
    else
      let name ← variableName
      use name
      return .name name

/-- The words that cannot be names and start an expression. -/
def expressionWords : List String :=
  ["class", "delete", "false", "function", "import", "new", "null", "super", "this", "true",
    "typeof", "void"]

/-- The next token may stand behind types that are arguments in an expression: it is no operator
that can be a sign of its own, and does not start an expression on the same line. -/
def followsTypes : Reader Bool := do
  match ← peek with
  | .mark text =>
    if text == "(" || text == "\x60" then return true
    if ["<", ">", "+", "-"].contains text then return false
    let isStart := ["[", "\x7b", "/=", "!", "~", "++", "--", "@"].contains text
    return !isStart || (← newlineAhead)
  | .word name =>
    let isOperator := name == "as" || name == "satisfies"
    let goesOn := !reserved.contains name || expressionWords.contains name
    return isOperator || !goesOn || (← newlineAhead)
  | .stop => return true
  | _ => newlineAhead

/-- Reads types as arguments in an expression, without copying them. -/
def typesInExpression : Reader Unit :=
  typed <| erase do
    leftAngle
    let found ← list ">" true g.type
    mistakeIf found.isEmpty "Type argument list cannot be empty"
    if (← get).next.rest.head? == some '=' then failure
    mark ">"
    if !(← followsTypes) then failure

def memberName : Reader Unit := do
  match (← take).token with
  | .word _ | .privateName _ => return
  | _ => failure

def index : Reader Unit := do
  mark "["
  enclosed g.expression
  mark "]"

/-- Reads a template with a function before it. -/
def taggedTemplate (isOptional : Bool) : Reader Unit := do
  mistakeIf isOptional "Tagged template expressions are not permitted in an optional chain"
  let _ ← template (enclosed g.expression)

/-- An operand with some accesses behind it. -/
structure Chain where
  shape : Shape
  isOptional : Bool := false

/-- Reads one access to a member behind an operand, if there is one. -/
def memberAccess (c : Chain) : Reader (Option Chain) := do
  let decorates := (← get).context.decorates
  match ← peek with
  | .mark "." => do
    skip
    memberName
    return some { c with shape := .member }
  | .mark "?." =>
    match ← peekSecond with
    | .mark "[" =>
      if decorates then return none
      skip
      index g
      return some { shape := .member, isOptional := true }
    | .mark "\x60" => do
      skip
      taggedTemplate g true
      return some { shape := .other, isOptional := true }
    | .word _ | .privateName _ => do
      skip
      memberName
      return some { shape := .member, isOptional := true }
    | _ => return none
  | .mark "[" =>
    if decorates then return none
    index g
    return some { c with shape := .member }
  | .mark "!" =>
    if (← hasTypes) && !(← newlineAhead) then
      erase skip
      return some { c with shape := .asserted false c.shape }
    else return none
  | .mark "\x60" => do
    taggedTemplate g c.isOptional
    return some { c with shape := .other }
  | _ =>
    if ← atLeftAngle then
      match ← attempt (typesInExpression g) with
      | some _ => return some { c with shape := .instantiated c.shape }
      | none => return none
    else return none

/-- Reads a call behind an operand, if there is one. -/
def call (c : Chain) : Reader (Option Chain) := do
  if ← atMark "(" then
    arguments g
    return some { c with shape := .other }
  else if ← acceptMark "?." then
    if ← atLeftAngle then typesInExpression g
    if ← atMark "\x60" then taggedTemplate g true else arguments g
    return some { shape := .other, isOptional := true }
  else return none

/-- Reads the accesses behind an operand, with the calls among them or without, at most `fuel` of
them. -/
def accesses (calls : Bool) (c : Chain) : (fuel : Nat) → Reader Chain
  | 0 => failure
  | fuel + 1 => do
    match ← memberAccess g c with
    | some next => accesses calls next fuel
    | none =>
      if !calls then return c
      match ← call g c with
      | some next => accesses calls next fuel
      | none => return c

/-- Reads what is made behind `new`; `operand` reads an operand without accesses. -/
def made (operand : Reader Shape) : Reader Shape := do
  keyword
  if ← acceptMark "." then
    word "target"
  else
    let c ← accesses g false { shape := ← operand } (← get).rounds
    match c.shape with
    | .importCall => mistake "Cannot use new with dynamic import"
    | _ => pure ()
    mistakeIf c.isOptional "Constructors in/after an Optional Chain are not allowed"
    if ← atMark "(" then arguments g
  return .other

/-- Reads an operand without the accesses behind it, with at most `fuel` words `new` before it. -/
def operand : (fuel : Nat) → Reader Shape
  | 0 => failure
  | fuel + 1 => do
    match ← peek with
    | .number | .string _ => do
      skip
      return .other
    | .mark "(" => parenthesized g
    | .mark "[" => array g
    | .mark "\x7b" => object g
    | .mark "\x60" => do
      mistakeIf (!(← template (enclosed g.expression))) "Bad escape sequence in untagged template"
      return .other
    | .mark "/" | .mark "/=" => do
      regularExpression
      return .other
    | .mark "@" => do
      Classes.expression g
      return .other
    | .word "new" => made g (operand fuel)
    | .word name => wordOperand g name
    | _ => failure

/-- Reads an operand with the accesses behind it. -/
def rule : Reader Shape := do
  let rounds := (← get).rounds
  let c ← accesses g true { shape := ← operand g rounds } rounds
  return if c.isOptional then .other else c.shape

end ModuleLoader.TypeScript.Operands
