import ModuleLoader.TypeScript.Grammar.Patterns

/-! The rules for types.  Whoever reads a type decides that it is not copied. -/

namespace ModuleLoader.TypeScript.Types

open Reader Words Parts

variable (g : Grammar)

/-- Reads a type that may go on with a condition. -/
def free : Reader TypeShape := within (fun c => { c with withoutConditions := false }) g.type

/-- Reads a type that does not go on with a condition. -/
def unconditional : Reader TypeShape :=
  within (fun c => { c with withoutConditions := true }) g.type

def furtherNames : Reader Unit :=
  repeatWhile do
    if ← acceptMark "." then
      let _ ← anyWord
      return true
    else return false

def entityName : Reader String := do
  let name ← anyWord
  furtherNames
  return name

def reference : Reader TypeShape := do
  let root ← entityName
  typeArgumentsOnLine g
  return .named root

/-- Reads the name that a function speaks about, and the word behind it. -/
def predicateName : Reader Unit := do
  let _ ← anyWord
  if ← newlineAhead then failure
  word "is"

/-- Reads the type of what a function gives back, which may say something about a parameter. -/
def result : Reader TypeShape := do
  match ← attempt predicateName with
  | some _ => do
    g.anyType
    return .constant "Boolean"
  | none => g.type

/-- Reads the type of what a function gives back behind a colon without copying it, if it is
there. -/
def resultAnnotation : Reader (Option TypeShape) := do
  if (← hasTypes) && (← atMark ":") then
    erase do
      skip
      some <$> result g
  else return none

/-- Reads the parameters and the result of a function behind a sign. -/
def signature (arrow : String) : Reader Parameters :=
  scope .function do
    typeParameters g
    let parameters ← Patterns.parameters g
    if ← acceptMark arrow then
      let _ ← result g
    else if arrow == "=>" then failure
    return parameters

def functionType : Reader TypeShape := do
  let _ ← acceptWord "abstract"
  let isMaker ← acceptWord "new"
  let parameters ← signature g "=>"
  mistakeIf (isMaker && parameters.hasThis) "A constructor type cannot have a 'this' parameter"
  return .constant "Function"

/-- The text goes on with a parameter's start. -/
def skipParameterStart : Reader Bool := do
  let _ ← modifiers false
  let token ← peek
  if isName token || token == .word "this" then
    skip
    return true
  if token == .mark "[" || token == .mark "\x7b" then
    g.pattern .parameter
    return true
  return false

/-- The text goes on with the parameters of a function type. -/
def startsFunctionType : Reader Bool :=
  looks do
    mark "("
    if (← atMark ")") || (← atMark "...") then return true
    if !(← skipParameterStart g) then return false
    match ← peek with
    | .mark ")" => return (← peekSecond) == .mark "=>"
    | .mark text => return [":", ",", "?", "="].contains text
    | _ => return false

/-- The text goes on with an index signature. -/
def startsIndexSignature : Reader Bool :=
  looks do
    mark "["
    match ← peek with
    | .mark text => return text == "..." || text == "["
    | .word name =>
      skip
      if isModifier name then
        if isName (← peek) then return true
      else if reserved.contains name then return false
      if (← atMark ":") || (← atMark ",") then return true
      if !(← acceptMark "?") then return false
      return (← atMark ":") || (← atMark ",") || (← atMark "]")
    | _ => return false

/-- Reads an index signature up to its end. -/
def indexSignature : Reader Unit := do
  mark "["
  let _ ← listUntil "]" do
    let _ ← anyWord
    if !(← atMark ":") then failure
    annotation g
  if !(← atMark ":") then failure
  let _ ← annotation g

/-- Reads the mark behind a member of a type, which may be missing. -/
def endMember : Reader Unit := do
  if !(← acceptMark ";") then
    let _ ← acceptMark ","

/-- Reads a word that says what kind of member stands behind it, if it does. -/
def accessWord : Reader Bool := do
  if (← atWord "get") || (← atWord "set") then
    let token ← peekSecond
    if isLiteralName token || token == .mark "[" then
      skip
      return true
  return false

/-- Reads a member of a type by its name. -/
def namedMember : Reader Unit := do
  let isAccess ← accessWord
  let mentions := (← get).mentions
  let _ ← propertyName g
  let _ ← acceptMark "?"
  if isAccess || (← atMark "(") || (← atLeftAngle) then
    let _ ← signature g ":"
  else
    modify fun s => { s with mentions }
    let _ ← annotation g

def member : Reader Unit := do
  if (← atMark "(") || (← atLeftAngle) then
    let _ ← signature g ":"
  else
    let second ← peekSecond
    if (← atWord "new") && (second == .mark "(" || second == .mark "<") then
      skip
      let _ ← signature g ":"
    else
      let words ← modifiers false
      checkModifiers ["readonly"] words
      if ← startsIndexSignature then indexSignature g else namedMember g
  endMember

/-- Reads the members of an object type between braces. -/
def members : Reader Unit := do
  mark "\x7b"
  untilBrace (member g)

/-- The text goes on with a type that is made for every key. -/
def startsMappedType : Reader Bool :=
  looks do
    mark "\x7b"
    if (← acceptMark "+") || (← acceptMark "-") then return ← atWord "readonly"
    let _ ← acceptWord "readonly"
    mark "["
    let _ ← anyWord
    atWord "in"

/-- Reads a sign before a word or a mark. -/
def acceptSign : Reader Bool := do return (← acceptMark "+") || (← acceptMark "-")

/-- Reads a type that is made for every key. -/
def mappedType : Reader Unit :=
  scope .block do
    mark "\x7b"
    if ← acceptSign then word "readonly"
    else
      let _ ← acceptWord "readonly"
    mark "["
    let name ← anyWord
    bind .typeParameter name
    word "in"
    g.anyType
    if ← acceptWord "as" then g.anyType
    mark "]"
    if ← acceptSign then mark "?"
    else
      let _ ← acceptMark "?"
    if ← acceptMark ":" then g.anyType
    endMember
    mark "\x7d"

/-- Reads an item of a tuple without a name. -/
def tupleElement : Reader Unit := do
  let _ ← acceptMark "..."
  g.anyType

/-- Reads the name of an item of a tuple. -/
def tupleName : Reader Unit := do
  let _ ← acceptMark "..."
  let _ ← anyWord
  let _ ← acceptMark "?"
  mark ":"

def tupleItem : Reader Unit := do
  let _ ← attempt tupleName
  tupleElement g

/-- Reads a type out of another module, from the parenthesis on.  The names behind it are looked up
as values unless the type is one of a value. -/
def importedType (ofValue : Bool) : Reader Unit := do
  word "import"
  mark "("
  g.anyType
  if ← acceptMark "," then
    if !(← atMark "\x7b") then failure
    let _ ← g .leftHand
  mark ")"
  if ← acceptMark "." then
    let root ← entityName
    if !ofValue then use root
  typeArgumentsOnLine g

def valueType : Reader Unit := do
  word "typeof"
  if ← atWord "import" then importedType g true
  else
    let _ ← entityName
    typeArgumentsOnLine g

/-- What decorators learn of the types that have words of their own. -/
def keywordShape? (name : String) : Option TypeShape :=
  match name with
  | "any" => some .any
  | "unknown" => some .unknown
  | "never" => some .never
  | "null" | "undefined" => some .nothing
  | "void" => some (.constant "undefined")
  | "string" => some (.constant "String")
  | "number" => some (.constant "Number")
  | "boolean" | "true" | "false" => some (.constant "Boolean")
  | "bigint" => some (.constant "BigInt")
  | "symbol" => some (.constant "Symbol")
  | "object" | "intrinsic" => some .object
  | _ => none

/-- Reads a type that starts with a word. -/
def wordType (name : String) : Reader TypeShape := do
  match name with
  | "typeof" => do
    valueType g
    return .object
  | "import" => do
    importedType g false
    return .object
  | "this" => do
    skip
    if (← atWord "is") && !(← newlineAhead) then
      skip
      g.anyType
      return .constant "Boolean"
    return .object
  | "asserts" =>
    let isAssertion ← looks do
      skip
      let subject ← peek
      return (isName subject || subject == .word "this") && !(← newlineAhead)
    if isAssertion then
      skip
      let _ ← anyWord
      if ← acceptWord "is" then g.anyType
      return .constant "undefined"
    else reference g
  | _ =>
    match keywordShape? name with
    | some shape =>
      if (← peekSecond) == .mark "." && name != "true" && name != "false" then reference g
      else
        skip
        return shape
    | none => reference g

def startsType : Reader Bool := do
  match ← peek with
  | .word name =>
    return !reserved.contains name ||
      ["void", "null", "this", "typeof", "new", "true", "false", "import", "function"].contains name
  | .string _ | .number => return true
  | .mark "-" => return (← peekSecond) == .number
  | .mark "(" =>
    looks do
      skip
      if ← atMark ")" then return true
      match ← peek with
      | .word name => return !reserved.contains name || name == "this" || name == "typeof" ||
          name == "new" || name == "void" || name == "null" || name == "true" || name == "false"
      | .string _ | .number => return true
      | .mark text =>
        return ["(", "[", "\x7b", "<", "|", "&", "...", "*", "?", "!", "-", "\x60",
          "@"].contains text
      | _ => return false
  | .mark text => return ["[", "\x7b", "<", "|", "&", "*", "?", "!", "...", "\x60"].contains text
  | _ => return false

def primary : Reader TypeShape := do
  match ← peek with
  | .mark "(" => do
    skip
    let shape ← g.type
    mark ")"
    return shape
  | .mark "[" => do
    skip
    let _ ← listUntil "]" (tupleItem g)
    return .array
  | .mark "\x7b" => do
    if ← startsMappedType then mappedType g else members g
    return .object
  | .mark "-" => do
    skip
    if (← take).token != .number then failure
    return .constant "Number"
  | .mark "\x60" => do
    let _ ← template g.anyType
    return .constant "String"
  | .mark "?" => do
    skip
    if ← startsType then
      let _ ← g.type
    return .object
  | .mark "!" => do
    skip
    let _ ← g.type
    return .object
  | .string _ => do
    skip
    return .constant "String"
  | .number => do
    skip
    return .constant "Number"
  | .word name => wordType g name
  | _ => failure

/-- Reads what makes another type of the type before it, if there is such a thing. -/
def postfixed : Reader (Option TypeShape) := do
  if ← newlineAhead then return none
  match ← peek with
  | .mark "!" => do
    skip
    return some .object
  | .mark "?" =>
    let goesOn ← looks do
      skip
      startsType
    if goesOn then return none
    skip
    return some .object
  | .mark "[" => do
    skip
    if ← acceptMark "]" then return some .array
    g.anyType
    mark "]"
    return some .object
  | _ => return none

/-- Reads a type with what stands behind it, at most `fuel` times. -/
def postfixFrom (shape : TypeShape) : (fuel : Nat) → Reader TypeShape
  | 0 => failure
  | fuel + 1 => do
    match ← postfixed g with
    | some next => postfixFrom next fuel
    | none => return shape

/-- Reads a type with what stands behind it. -/
def withPostfix : Reader TypeShape :=
  within (fun c => { c with withoutConditions := false }) do
    let shape ← primary g
    postfixFrom g shape (← get).rounds

/-- Reads the condition of a type that is found out. -/
def foundCondition : Reader Unit := do
  word "extends"
  let _ ← unconditional g
  if !(← get).context.withoutConditions && (← atMark "?") then failure

/-- Reads a type with the words before it, at most `fuel` of them. -/
def withWords : (fuel : Nat) → Reader TypeShape
  | 0 => failure
  | fuel + 1 => do
    match ← peek with
    | .word "keyof" | .word "unique" => do
      skip
      let _ ← withWords fuel
      return .object
    | .word "readonly" => do
      skip
      let shape ← withWords fuel
      mistakeIf (!shape.isArray)
        "'readonly' type modifier is only permitted on array and tuple literal types"
      return shape
    | .word "infer" => do
      skip
      let _ ← variableName
      let _ ← attempt (foundCondition g)
      return .object
    | _ => withPostfix g

/-- Reads types with a sign between them, and before the first one or not. -/
def joined (sign : String) (isIntersection : Bool) (part : Reader TypeShape) :
    Reader TypeShape := do
  let leads ← acceptMark sign
  let first ← part
  let others ← gather do
    if ← acceptMark sign then some <$> part else return none
  return if leads || !others.isEmpty then .combined isIntersection (first :: others) else first

def union : Reader TypeShape := do
  let rounds := (← get).rounds
  joined "|" false (joined "&" true (withWords g rounds))

/-- The text goes on with the type of a function. -/
def atFunctionType : Reader Bool := do
  if ← atLeftAngle then return true
  if ← atWord "new" then return true
  if (← atWord "abstract") && (← peekSecond) == .word "new" then return true
  startsFunctionType g

def rule : Reader TypeShape := do
  if ← atFunctionType g then functionType g
  else
    let tested ← union g
    if (← get).context.withoutConditions || (← newlineAhead) || !(← acceptWord "extends") then
      return tested
    let _ ← unconditional g
    mark "?"
    let first ← free g
    mark ":"
    let second ← free g
    return .combined false [first, second]

end ModuleLoader.TypeScript.Types
