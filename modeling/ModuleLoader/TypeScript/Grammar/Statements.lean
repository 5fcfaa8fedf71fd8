import ModuleLoader.TypeScript.Grammar.Expressions
import ModuleLoader.TypeScript.Grammar.Markup
import ModuleLoader.TypeScript.Grammar.Modules

/-! The rules for statements. -/

namespace ModuleLoader.TypeScript

namespace Statements

open Reader Words Parts Declarations

variable (g : Grammar)

/-- Reads a statement.  The copy of it goes if nothing of it is left. -/
def item (p : Reader Outcome) : Reader Item := do
  let before := (← get).kept
  modify fun s => { s with kept := [] }
  let outcome ← p
  let copy := (← get).kept
  modify fun s => { s with kept := copy ++ before }
  match outcome with
  | .stays isExport => return .code isExport copy.reverse
  | .parts i => return i
  | .erased e => do
    modify fun s => { s with kept := before }
    return .erased e

/-- Reads statements up to the closing brace of a block. -/
def block : Reader Unit := do
  mark "\x7b"
  scope .block (untilBrace (g.statement .list))

def condition : Reader Unit := do
  mark "("
  enclosed g.expression
  mark ")"

def expressionStatement : Reader Unit := do
  g.expression
  endStatement

/-- The next tokens declare variables by `using`, of which `of` is none in a loop. -/
def startsUsing (inLoop : Bool) : Reader Bool := do
  if !(← atWord "using") then return false
  looks do
    skip
    if ← newlineAhead then return false
    if inLoop && (← atWord "of") then return false
    return isName (← peek) || (← atMark "\x7b")

/-- The next tokens declare variables by `await using`. -/
def startsAwaitUsing (inLoop : Bool) : Reader Bool := do
  if !(← atWord "await") then return false
  looks do
    skip
    return !(← newlineAhead) && (← startsUsing inLoop)

/-- The word `let` starts a declaration in the head of a loop. -/
def startsLet : Reader Bool := do
  match ← peekSecond with
  | .mark text => return text == "[" || text == "\x7b"
  | .word name => return name != "in" && name != "instanceof"
  | _ => return false

/-- Reads variables that a loop declares, if it does, and tells whether one lacks a value. -/
def loopVariables : Reader (Option Bool) := do
  let found : Option VariableWord ←
    match ← peek with
    | .word "var" => pure (some .var)
    | .word "const" => pure (some .const)
    | .word "let" => do pure (if ← startsLet then some .let else none)
    | .word "using" => do pure (if ← startsUsing true then some .using else none)
    | .word "await" => do
      if ← startsAwaitUsing true then
        keyword
        pure (some .using)
      else pure none
    | _ => pure none
  match found with
  | some w => do
    keyword
    some <$> within (fun c => { c with withoutIn := true }) (variableList g w true)
  | none => return none

/-- Reads what a loop goes through, up to the end of its head. -/
def loopSource (isAwait : Bool) : Reader Unit := do
  let isIn ← atWord "in"
  mistakeIf (isAwait && isIn) "await can only be used in conjunction with 'for...of' statements"
  keyword
  if isIn then g.expression else g.assignment
  mark ")"

/-- Reads an expression that may be missing before a mark. -/
def optional (close : String) : Reader Unit := do
  if !(← atMark close) then g.expression
  mark close

/-- Reads the rest of the head of a loop that counts. -/
def loopSteps (isAwait : Bool) : Reader Unit := do
  mistakeIf isAwait "await can only be used in conjunction with 'for...of' statements"
  mark ";"
  optional g ";"
  optional g ")"

/-- The next word leads to what a loop goes through. -/
def atSource : Reader Bool := return (← atWord "of") || (← atWord "in")

def loopHead (isAwait : Bool) : Reader Unit := do
  mark "("
  if ← atMark ";" then return ← loopSteps g isAwait
  match ← loopVariables g with
  | some isLacking =>
    if ← atSource then loopSource g isAwait
    else
      loopSteps g isAwait
      Declarations.checkValues isLacking
  | none =>
    let isLet ← atWord "let"
    let isAsync := (← atWord "async") && (← peekSecond) == .word "of"
    let shape ← within (fun c => { c with withoutIn := true }) (g .expression)
    if ← atSource then
      let isOf ← atWord "of"
      mistakeIf (isOf && (isLet || (isAsync && !isAwait)))
        "The left-hand side of a `for...of` statement may not be `async` or start with `let`"
      Expressions.assignTo false shape
      loopSource g isAwait
    else loopSteps g isAwait

/-- Reads a loop from its first word on. -/
def loopStatement : Reader Unit := do
  keyword
  let isAwait ← atWord "await"
  if isAwait then
    mistakeIf (!(← get).context.awaits) "'await' is only allowed within async functions"
    keyword
  scope .block do
    enclosed (loopHead g isAwait)
    g.statement .single

/-- Reads the cases of a choice between braces. -/
def cases : Reader Unit := do
  mark "\x7b"
  scope .block <| untilBrace do
    if ← acceptWord "case" then g.expression else word "default"
    mark ":"
    repeatWhile do
      if (← atMark "\x7d") || (← atWord "case") || (← atWord "default") then return false
      g.statement .list
      return true

def handler : Reader Unit :=
  scope .block do
    if ← acceptMark "(" then
      let isPattern := (← atMark "[") || (← atMark "\x7b")
      g.pattern (if isPattern then .lexical else .caught)
      let _ ← annotation g
      mark ")"
    mark "\x7b"
    untilBrace (g.statement .list)

/-- Reads a block with what handles its errors. -/
def guarded : Reader Unit := do
  keyword
  block g
  let isHandled ← acceptWord "catch"
  if isHandled then handler g
  let isFinished ← acceptWord "finally"
  if isFinished then block g
  mistakeIf (!isHandled && !isFinished) "Missing catch or finally clause"

/-- Reads the end of a statement, with a label before it or not. -/
def jump : Reader Unit := do
  keyword
  if isName (← peek) && !(← newlineAhead) then
    let _ ← variableName
  endStatement

/-- Reads a statement that gives a value back. -/
def returnStatement : Reader Unit := do
  mistakeIf (!(← get).context.returns)
    "A 'return' statement can only be used within a function body"
  keyword
  if !(← atEnd) then g.expression
  endStatement

def throwStatement : Reader Unit := do
  keyword
  mistakeIf (← newlineAhead) "Illegal newline after throw"
  expressionStatement g

/-- Reads a statement with a condition, which stands before it. -/
def conditional : Reader Unit := do
  keyword
  condition g
  g.statement .single

/-- Reads a statement that is repeated, with the condition behind it. -/
def repetition : Reader Unit := do
  keyword
  g.statement .single
  word "while"
  condition g
  let _ ← acceptMark ";"

/-- Reads variables, which a part of another statement cannot declare for a block. -/
def variableDeclaration (place : Place) (w : VariableWord) : Reader Unit := do
  mistakeIf (place == .single && w != .var)
    "Lexical declaration cannot appear in a single-statement context"
  variableStatement g w

/-- Reads a statement that starts with `let`, which is a name where it declares nothing. -/
def letStatement (place : Place) : Reader Unit := do
  let isExpression ← looks do
    skip
    let text := Expressions.markText (← get).next
    match ← peek with
    | .mark mark =>
      return mark == ";" || mark == "." || mark == "(" ||
        (Expressions.strength? text).isSome || Expressions.assignmentMarks.contains text
    | .word name => return name == "in" || name == "instanceof"
    | _ => return false
  let isName := place == .single && (← peekSecond) != .mark "["
  if (isExpression || isName) then expressionStatement g else variableDeclaration g place .let

/-- Reads a function, which as a part of another statement must be a plain one. -/
def functionStatement (place : Place) : Reader Outcome := do
  let isAsync ← acceptWord "async"
  let f ← Functions.declaration g isAsync false
  mistakeIf (place == .single && !f.isPlain)
    "Async functions and generators can only be declared at the top level or inside a block"
  return if f.isWhole then .stays false else elsewhere false

/-- Reads a class, which cannot be a part of another statement. -/
def classStatement (place : Place) : Reader Unit := do
  mistakeIf (place == .single) "Invalid class declaration"
  Classes.declaration g false

def decoratedStatement (place : Place) : Reader Outcome := do
  let _ ← decorators g
  if ← atWord "export" then Modules.exportRest g true
  else
    let words ← modifiers false
    if !(← atWord "class") then failure
    mistakeIf (place == .single) "Invalid class declaration"
    declaration g words false true

/-- Reads a label with its statement, or an expression. -/
def labelOrExpression : Reader Unit := do
  let token ← peek
  let context := (← get).context
  let isSign := (token == .word "await" && context.awaits) ||
    (token == .word "yield" && context.yields)
  if isName token && !isSign && (← peekSecond) == .mark ":" then
    let _ ← variableName
    skip
    g.statement .single
  else expressionStatement g

/-- Reads a statement that declares something behind modifiers. -/
def modifiedStatement : Reader Outcome := do
  let words ← modifiers false
  declaration g words false false

/-- Reads a statement that starts with a word and of which the copy stays. -/
def plainStatement (place : Place) (name : String) : Reader Unit := do
  match name with
  | "if" => do
    conditional g
    if ← acceptWord "else" then g.statement .single
  | "for" => loopStatement g
  | "while" | "with" => conditional g
  | "do" => repetition g
  | "switch" => do
    keyword
    condition g
    cases g
  | "try" => guarded g
  | "throw" => throwStatement g
  | "return" => returnStatement g
  | "break" | "continue" => jump
  | "debugger" => do
    keyword
    endStatement
  | "class" => classStatement g place
  | "var" => variableDeclaration g place .var
  | "const" => variableDeclaration g place .const
  | "let" =>
    if (← get).next.isEscaped then labelOrExpression g else letStatement g place
  | "using" =>
    if ← startsUsing false then variableDeclaration g place .using else labelOrExpression g
  | "await" =>
    if ← startsAwaitUsing false then
      keyword
      variableDeclaration g place .using
    else labelOrExpression g
  | _ => labelOrExpression g

def wordStatement (place : Place) (name : String) : Reader Outcome := do
  let second ← peekSecond
  if name == "import" && second != .mark "(" && second != .mark "." then
    keyword
    Modules.importRest false
  else if name == "export" then Modules.exportRest g false
  else if ← Functions.atFunction then functionStatement g place
  else if ← starts name then modifiedStatement g
  else
    plainStatement g place name
    return .stays false

def rule (place : Place) : Reader Item :=
  item do
    match ← peek with
    | .mark "\x7b" => do
      block g
      return .stays false
    | .mark ";" => do
      skip
      return .stays false
    | .mark "@" => decoratedStatement g place
    | .word name => wordStatement g place name
    | .stop => failure
    | _ => do
      expressionStatement g
      return .stays false

end Statements

/-- The grammar, whose rules use each other at most `fuel` levels deep. -/
def grammar : (fuel : Nat) → Grammar
  | 0, _ => failure
  | fuel + 1, goal =>
    let g := grammar fuel
    match goal with
    | .type => Types.rule g
    | .expression => Expressions.expression g
    | .assignment annotated => Expressions.assignment g annotated
    | .binary above => Expressions.binary g above
    | .unary => Expressions.unary g
    | .leftHand => Operands.rule g
    | .pattern kind => Patterns.rule g kind
    | .statement place => Statements.rule g place
    | .markup => Markup.rule g

end ModuleLoader.TypeScript
