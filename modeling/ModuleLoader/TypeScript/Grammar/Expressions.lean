import ModuleLoader.TypeScript.Grammar.Operands

/-! The rules for expressions: signs, operators, functions with arrows, and assignments. -/

namespace ModuleLoader.TypeScript.Expressions

open Reader Words Parts

variable (g : Grammar)

/-- Notes what an expression means as the target of an assignment, or as a simple target. -/
def assignTo (simple : Bool) (shape : Shape) : Reader Unit := do
  let target := if simple then (if shape.isSimpleTarget then some {} else none) else shape.target?
  match target with
  | none => failure
  | some target => do
    modify fun s => { s with unfinished := s.unfinished.filter (!target.finished.contains ·) }
    mistakeIf (target.trailing != 0) "A rest element may not have a trailing comma"

/-- A word on the same line, a string or a number stands behind the next token. -/
def operandBehind : Reader Bool :=
  looks do
    skip
    if ← newlineAhead then return false
    match ← peek with
    | .word _ | .string _ | .number => return true
    | _ => return false

def awaited : Reader Shape := do
  mistakeIf (!(← get).context.awaits) "'await' is only allowed within async functions"
  keyword
  let _ ← within (fun c => { c with awaits := true }) (g .unary)
  return .signed

/-- Reads a type that is asserted of the operand behind it. -/
def assertion : Reader Shape := do
  erase do
    leftAngle
    g.anyType
    mark ">"
  return .asserted true (← g .unary)

/-- The words that are signs before an operand. -/
def isSignWord (name : String) : Bool := ["typeof", "void", "delete"].contains name

/-- The marks that are signs before an operand. -/
def isSignMark (text : String) : Bool := ["!", "~", "+", "-"].contains text

/-- The marks that count a variable up or down. -/
def countsMark (text : String) : Bool := text == "++" || text == "--"

/-- Reads an operand, which may be counted up or down behind it. -/
def counted : Reader Shape := do
  let shape ← g .leftHand
  match ← peek with
  | .mark text =>
    if countsMark text && !(← newlineAhead) then
      assignTo true shape
      skip
      return .other
    else return shape
  | _ => return shape

/-- Reads an operand with the signs before it. -/
def unary : Reader Shape := do
  match ← peek with
  | .mark text =>
    if isSignMark text then
      skip
      let _ ← g .unary
      return .signed
    else if countsMark text then
      skip
      assignTo true (← g .unary)
      return .other
    else if text == "<" || text == "<<" then
      if (← get).dialect.markup then
        g .markup
        mark ">"
        return .other
      else typed (assertion g)
    else counted g
  | .word name =>
    if isSignWord name then
      keyword
      let _ ← g .unary
      return .signed
    else if name == "await" && ((← get).context.awaits || (← operandBehind)) then awaited g
    else counted g
  | _ => counted g

/-- An operator that stands next. -/
structure Operator where
  text : String
  strength : Nat

def strength? (text : String) : Option Nat :=
  match text with
  | "??" => some 1
  | "||" => some 2
  | "&&" => some 3
  | "|" => some 4
  | "^" => some 5
  | "&" => some 6
  | "==" | "!=" | "===" | "!==" => some 7
  | "<" | ">" | "<=" | ">=" | "instanceof" | "in" | "as" | "satisfies" => some 8
  | "<<" | ">>" | ">>>" => some 9
  | "+" | "-" => some 10
  | "*" | "/" | "%" => some 11
  | "**" => some 12
  | _ => none

/-- The text of the mark that stands next, where angle brackets to the right make up one mark with
what follows them directly. -/
def markText (l : Lexeme) : String :=
  match l.token with
  | .mark ">" =>
    let brackets := (l.rest.take 2).takeWhile (· == '>')
    let equals := if (l.rest.drop brackets.length).head? == some '=' then ['='] else []
    String.ofList ('>' :: brackets ++ equals)
  | .mark text | .word text => text
  | _ => ""

def operator? : Reader (Option Operator) := do
  let l := (← get).next
  let text := markText l
  match strength? text with
  | none => return none
  | some strength =>
    if text == "in" && (← get).context.withoutIn then return none
    if (text == "as" || text == "satisfies") && l.startsLine then return none
    return some { text, strength }

/-- Reads a mark of the given text, or a keyword. -/
def skipOperator (text : String) : Reader Unit := do
  let l := (← get).next
  match l.token with
  | .word _ => keyword
  | _ => do
    passSeparator
    keep text.toList
    goOnWith (l.text.drop text.length)

def assertedType : Reader Unit := do
  mistakeIf (!(← hasTypes)) "Type assertion expressions can only be used in TypeScript files"
  erase do
    keyword
    g.anyType

/-- Notes the mistakes of operators that cannot stand next to each other without parentheses. -/
def checkOperands (text : String) (left right : Shape) : Reader Unit := do
  mistakeIf (text == "??" && (left.isPlainLogical || right.isPlainLogical))
    "Logical expressions and coalesce expressions cannot be mixed"
  mistakeIf (text == "**" && left.isSigned)
    "Unary operators are not allowed on the left side of the exponentiation operator"

/-- The form of operands with an operator between them. -/
def shapeOf (text : String) : Shape :=
  if text == "??" then .logical true
  else if text == "||" || text == "&&" then .logical false
  else .other

/-- Reads operators that bind more strongly than `above` says, with the operands behind them; at
most `fuel` of them. -/
def operators (above : Nat) (left : Shape) : (fuel : Nat) → Reader Shape
  | 0 => failure
  | fuel + 1 => do
    match ← operator? with
    | none => return left
    | some { text, strength } =>
      let stops := if text == "**" then strength < above else strength ≤ above
      if stops then return left
      if text == "as" || text == "satisfies" then
        assertedType g
        operators above (.asserted false left) fuel
      else
        skipOperator text
        let right ← g (.binary strength)
        checkOperands text left right
        operators above (shapeOf text) fuel

/-- Reads a private name that is looked for in a value. -/
def privateIn : Reader Shape := do
  if (← get).context.withoutIn then failure
  skip
  word "in"
  match ← g (.binary 8) with
  | .privateIn => failure
  | _ => return .privateIn

/-- Reads operands with operators that bind more strongly than `above` says. -/
def binary (above : Nat) : Reader Shape := do
  let left ← match ← peek with
    | .privateName _ => privateIn g
    | _ => g .unary
  operators g above left (← get).rounds

/-- What the first tokens say about whether a function with an arrow starts. -/
inductive Guess where
  | no
  | maybe
  | yes
  deriving DecidableEq

def guessBehindParenthesis : Reader Guess := do
  let token ← peek
  match token with
  | .mark ")" =>
    match ← peekSecond with
    | .mark "=>" | .mark ":" | .mark "\x7b" => return .yes
    | _ => return .no
  | .mark "[" | .mark "\x7b" => return .maybe
  | .mark "..." => return .yes
  | .word name =>
    let second ← peekSecond
    if isModifier name && name != "async" && isName second then
      return if second == .word "as" then .no else .yes
    if !isName token && name != "this" then return .no
    skip
    match ← peek with
    | .mark ":" => return .yes
    | .mark "?" =>
      match ← peekSecond with
      | .mark ":" | .mark "," | .mark "=" | .mark ")" => return .yes
      | _ => return .no
    | .mark "," | .mark "=" | .mark ")" => return .maybe
    | _ => return .no
  | _ => return .no

def guessBehindAngle : Reader Guess := do
  let token ← peek
  if !isName token && token != .word "const" then return .no
  if !(← get).dialect.markup then return .maybe
  if token == .word "const" then skip
  skip
  match ← peek with
  | .word "extends" =>
    match ← peekSecond with
    | .mark "=" | .mark ">" | .mark "/" => return .no
    | _ => return .yes
  | .mark "," | .mark "=" => return .yes
  | _ => return .no

/-- Guesses from the first tokens whether a function with an arrow and parentheses starts. -/
def guess : Reader Guess :=
  lookahead (do
    if ← atWord "async" then
      skip
      if ← newlineAhead then return .no
    if ← acceptMark "(" then guessBehindParenthesis
    else if ← acceptMark "<" then guessBehindAngle
    else return .no) <|> pure .no

/-- Reads what stands behind the arrow of a function. -/
def arrowBody (isAsync annotated : Bool) : Reader Unit := do
  mistakeIf (← newlineAhead) "Line terminator not permitted before arrow"
  mark "=>"
  mention .settled
  within (fun c => { c with awaits := isAsync, yields := false }) do
    if ← atMark "\x7b" then Functions.body g
    else
      let _ ← g (.assignment annotated)

/-- Reads a function with an arrow and parentheses.  If not `annotated`, a type of its result is
only one if a colon stands behind the function. -/
def arrow (annotated : Bool) : Reader Unit :=
  scope .function do
    let isAsync ← acceptWord "async"
    let result ← within (fun c => { c with awaits := c.awaits || isAsync }) do
      typeParameters g
      let parameters ← Patterns.parameters g
      mistakeIf parameters.hasThis "An arrow function cannot have a 'this' parameter"
      Types.resultAnnotation g
    arrowBody g isAsync annotated
    if !annotated && result.isSome && !(← atMark ":") then failure

/-- Reads a function with an arrow behind the name of its parameter. -/
def shortArrow (isAsync annotated : Bool) : Reader Unit :=
  scope .function do
    if isAsync then keyword
    let _ ← boundName .parameter
    arrowBody g isAsync annotated

/-- The next token is a name with an arrow behind it. -/
def atShortArrow : Reader Bool := do
  let token ← peek
  if !isName token || (token == .word "await" && (← get).context.awaits) then return false
  return (← peekSecond) == .mark "=>"

/-- An asynchronous function starts with the name of its parameter. -/
def atShortAsync : Reader Bool := do
  if !(← atWord "async") then return false
  looks do
    skip
    return isName (← peek) && !(← newlineAhead) && (← peekSecond) == .mark "=>"

/-- Reads a function with an arrow, if one starts. -/
def arrow? (annotated : Bool) : Reader Bool := do
  if ← atShortAsync then
    shortArrow g true annotated
    return true
  if ← atShortArrow then
    shortArrow g false annotated
    return true
  match ← guess with
  | .no => return false
  | .yes => do
    arrow g true
    return true
  | .maybe => return (← attempt (arrow g annotated)).isSome

/-- The next token gives something to whoever goes through a generator. -/
def atYield : Reader Bool := do
  if !(← atWord "yield") then return false
  return (← get).context.yields || (← operandBehind)

def yielded : Reader Unit := do
  mistakeIf (!(← get).context.yields) "A 'yield' expression is only allowed in a generator body"
  keyword
  if ← newlineAhead then return
  let delegates ← acceptMark "*"
  let isAlone := [.mark ";", .mark "\x7d", .mark "]", .mark ")", .mark ":", .mark ",", .word "in",
    .stop].contains (← peek)
  if delegates || !isAlone then
    within (fun c => { c with yields := true }) g.assignment

def assignmentMarks : List String :=
  ["=", "+=", "-=", "*=", "/=", "%=", "**=", "<<=", ">>=", ">>>=", "&=", "|=", "^=", "&&=", "||=",
    "??="]

/-- Reads what an assignment gives to a target, from its sign on. -/
def assigned (text : String) (target : Shape) (annotated : Bool) : Reader Shape := do
  assignTo (text != "=") target
  skipOperator text
  let _ ← g (.assignment annotated)
  return if text == "=" then .assignment else .other

def choice (annotated : Bool) : Reader Shape := do
  mark "?"
  let _ ← within (fun c => { c with withoutIn := false }) (g (.assignment false))
  mark ":"
  let _ ← g (.assignment annotated)
  return .other

/-- Reads an expression without commas at its top. -/
def assignment (annotated : Bool) : Reader Shape := do
  if ← atYield then
    yielded g
    return .other
  if ← arrow? g annotated then return .other
  let shape ← g (.binary 0)
  let text := markText (← get).next
  if assignmentMarks.contains text then assigned g text shape annotated
  else if ← atMark "?" then choice g annotated
  else return shape

/-- Reads an expression, which may be a list of expressions. -/
def expression : Reader Shape := do
  let first ← g (.assignment true)
  let others ← gather do
    if ← acceptMark "," then some <$> g (.assignment true) else return none
  return if others.isEmpty then first else .other

end ModuleLoader.TypeScript.Expressions
