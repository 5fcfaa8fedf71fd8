import ModuleLoader.TypeScript.Mention
import ModuleLoader.TypeScript.Token

/-! Reading TypeScript.  A reader goes through the text token by token, copies what it does not
erase, and notes what the code says about names.  Where the text has no meaning it fails, and then
nothing of what it did counts.  Mistakes that leave the meaning of the text clear are noted. -/

namespace ModuleLoader.TypeScript

/-- What a source text may contain besides JavaScript. -/
structure Dialect where
  types : Bool
  markup : Bool
  deriving DecidableEq

/-- What the place in which some code stands allows. -/
structure Context where
  withoutIn : Bool := false
  awaits : Bool := true
  yields : Bool := false
  returns : Bool := false
  /-- An opening bracket belongs to what is decorated. -/
  decorates : Bool := false
  isAmbient : Bool := false
  /-- A type does not go on with a condition. -/
  withoutConditions : Bool := false
  /-- The code makes the values of a namespace. -/
  inNamespace : Bool := false

/-- Something in a program that asks for more than a plain copy. -/
inductive Need where
  | element
  /-- An element whose key stands behind properties that are spread. -/
  | lateKey
  | fragment
  /-- An element whose name has two parts. -/
  | qualifiedTag
  | spreadChild
  | bareKey
  /-- A property that only the development of elements sets. -/
  | developerProperty
  | learnedType
  | decoratedParameter
  | decorator
  /-- A resource that is given up at the end of its block. -/
  | resource
  deriving DecidableEq

/-- How far a reader is. -/
structure ReadState where
  dialect : Dialect
  rounds : Nat
  next : Lexeme
  context : Context := {}
  kept : List Char := []
  /-- What the innermost scope says about names, backwards. -/
  mentions : List Mention := []
  needs : List Need := []
  comments : List (List Char) := []
  mistakes : List String := []
  /-- There was a token with a mistake in it. -/
  slipped : Bool := false
  /-- Where there are properties with a value by default outside any target. -/
  unfinished : List Nat := []
  /-- The names that the program exports, backwards. -/
  exported : List String := []

abbrev Reader := StateT ReadState Option

namespace Reader

variable {α : Type}

def lookahead (p : Reader α) : Reader α := do
  let s ← get
  let a ← p
  set s
  return a

/-- Looks whether the text goes on in a certain way. -/
def looks (p : Reader Bool) : Reader Bool := lookahead p <|> pure false

def attempt (p : Reader α) : Reader (Option α) := (some <$> p) <|> pure none

def erase (p : Reader α) : Reader α := do
  let kept := (← get).kept
  let a ← p
  modify fun s => { s with kept }
  return a

def within (change : Context → Context) (p : Reader α) : Reader α := do
  let context := (← get).context
  modify fun s => { s with context := change s.context }
  let a ← p
  modify fun s => { s with context }
  return a

/-- Reads where `in` is an operator and brackets belong to expressions. -/
def enclosed (p : Reader α) : Reader α :=
  within (fun c => { c with withoutIn := false, decorates := false }) p

/-- Repeats a reader until it says that it is done, at most `fuel` times. -/
def loop : (fuel : Nat) → Reader Bool → Reader Unit
  | 0, _ => failure
  | fuel + 1, p => do
    if ← p then loop fuel p

/-- Repeats a reader, which reads a token each time, until it says that it is done. -/
def repeatWhile (p : Reader Bool) : Reader Unit := do loop (← get).rounds p

/-- Gathers what a reader finds, at most `fuel` times, until it finds nothing. -/
def gatherWithin : (fuel : Nat) → Reader (Option α) → Reader (List α)
  | 0, _ => failure
  | fuel + 1, p => do
    match ← p with
    | some a => return a :: (← gatherWithin fuel p)
    | none => return []

/-- Gathers what a reader, which reads a token each time, finds until it finds nothing. -/
def gather (p : Reader (Option α)) : Reader (List α) := do gatherWithin (← get).rounds p

def mistake (text : String) : Reader Unit :=
  modify fun s => { s with mistakes := text :: s.mistakes }

def mistakeIf (condition : Bool) (text : String) : Reader Unit := do
  if condition then mistake text

def peek : Reader Token := return (← get).next.token

def peekSecond : Reader Token := return (Lexeme.read (← get).next.rest).token

def newlineAhead : Reader Bool := return (← get).next.startsLine

def keep (text : List Char) : Reader Unit :=
  modify fun s => { s with kept := text.reverse ++ s.kept }

/-- A token as it is copied: a string in double quotes, unless that takes an escape. -/
def copied (l : Lexeme) : List Char :=
  match l.token with
  | .string value =>
    if l.spelling.contains '\\' || value.toList.contains '"' then l.spelling
    else '"' :: value.toList ++ ['"']
  | _ => l.spelling

/-- Goes on with a text behind the next token. -/
def goOnWith (rest : List Char) : Reader Unit := modify fun s => { s with next := Lexeme.read rest }

/-- Notes what is before the next token, and copies it. -/
def passSeparator : Reader Unit := do
  let separator := (← get).next.separator
  keep separator
  if separator.contains '/' then
    modify fun s => { s with comments := separator :: s.comments }

def take : Reader Lexeme := do
  let l := (← get).next
  if l.token = .bad then failure
  passSeparator
  keep (copied l)
  if !l.isSound then
    mistake "Invalid token"
    modify fun s => { s with slipped := true }
  goOnWith l.rest
  return l

/-- Reads a token that is not the end of the text. -/
def skip : Reader Unit := do
  if (← take).token = .stop then failure

def atMark (text : String) : Reader Bool := return (← peek) == .mark text

def atWord (name : String) : Reader Bool := return (← peek) == .word name

def acceptMark (text : String) : Reader Bool := do
  if ← atMark text then
    skip
    return true
  else return false

/-- Reads a keyword, which must not be written with escapes. -/
def keyword : Reader Unit := do
  mistakeIf (← get).next.isEscaped "Keywords cannot contain escape characters"
  skip

def acceptWord (name : String) : Reader Bool := do
  if ← atWord name then
    keyword
    return true
  else return false

def mark (text : String) : Reader Unit := do
  if !(← acceptMark text) then failure

def word (name : String) : Reader Unit := do
  if !(← acceptWord name) then failure

def anyWord : Reader String := do
  match (← take).token with
  | .word name => return name
  | _ => failure

def string : Reader String := do
  match (← take).token with
  | .string value => return value
  | _ => failure

/-- Reads an angle bracket to the left, which may be the first of two or stand before a sign of
equality. -/
def leftAngle : Reader Unit := do
  let l := (← get).next
  match l.token, l.text with
  | .mark _, '<' :: rest => do
    passSeparator
    keep ['<']
    goOnWith rest
  | _, _ => failure

/-- The next token starts with an angle bracket to the left. -/
def atLeftAngle : Reader Bool := do
  match ← peek with
  | .mark text => return text == "<" || text == "<<" || text == "<=" || text == "<<="
  | _ => return false

/-- Gathers items between commas up to a mark, which is left.  A comma may stand behind the last
one if `trailing`. -/
def list (close : String) (trailing : Bool) (item : Reader α) : Reader (List α) := do
  if ← atMark close then return []
  let first ← item
  let others ← gather do
    if ← atMark close then return none
    mark ","
    if trailing && (← atMark close) then return none
    some <$> item
  return first :: others

/-- Gathers items between commas up to a mark, with a comma after the last one or not. -/
def listUntil (close : String) (item : Reader α) : Reader (List α) := do
  let items ← list close true item
  mark close
  return items

def untilBrace (item : Reader Unit) : Reader Unit :=
  repeatWhile do
    if ← acceptMark "\x7d" then return false
    item
    return true

def mention (m : Mention) : Reader Unit := modify fun s => { s with mentions := m :: s.mentions }

def use (name : String) : Reader Unit := mention (.use name)

/-- Binds a name, which stands for what exists elsewhere if the code says that. -/
def bind (kind : BindingKind) (name : String) : Reader Unit := do
  mention (.binding { name, kind, isAmbient := (← get).context.isAmbient })

/-- Reads what has a scope of its own. -/
def scope (kind : ScopeKind) (p : Reader α) : Reader α := do
  let mentions := (← get).mentions
  modify fun s => { s with mentions := [] }
  let a ← p
  modify fun s => { s with mentions := .scope kind s.mentions.reverse :: mentions }
  return a

def need (n : Need) : Reader Unit := modify fun s => { s with needs := n :: s.needs }

def needIf (condition : Bool) (n : Need) : Reader Unit := do
  if condition then need n

/-- A statement may end before the next token. -/
def atEnd : Reader Bool := do
  let next ← peek
  return next == .mark ";" || next == .mark "\x7d" || next == .stop || (← newlineAhead)

/-- Reads the end of a statement: a semicolon, which may be left out before a line's end, a closing
brace, or the end of the text. -/
def endStatement : Reader Unit := do
  if ← acceptMark ";" then return
  if ← atEnd then keep [';'] else failure

def hasTypes : Reader Bool := return (← get).dialect.types

def typed (p : Reader α) : Reader α := do
  if ← hasTypes then p else failure

/-- Reads what only programs with types have, if it is there, without copying it. -/
def eraseIf (present : Reader Bool) (p : Reader Unit) : Reader Unit := do
  if (← hasTypes) && (← present) then erase p

end Reader

end ModuleLoader.TypeScript
