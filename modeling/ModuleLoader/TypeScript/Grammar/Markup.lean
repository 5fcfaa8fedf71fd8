import ModuleLoader.TypeScript.Grammar.Parts

/-! The rules for JSX: elements and fragments, with their attributes and what they contain.  The
text in them is no series of tokens, so their rules leave the last mark before such text to whoever
goes on with it. -/

namespace ModuleLoader.TypeScript.Markup

open Reader Parts

variable (g : Grammar)

/-- The character belongs to a name in JSX. -/
def inName (c : Char) : Bool := isInName c || c == '-'

def name : Reader String := do
  let text := (← get).next.text
  let found := text.takeWhile inName
  if !found.head?.any startsName then failure
  passSeparator
  keep found
  goOnWith (text.drop found.length)
  return String.ofList found

/-- A name that stands for a value: it does not start with a small letter. -/
def isValueName (name : String) : Bool :=
  match name.toList with
  | c :: rest => !c.isLower && !(c :: rest).contains '-'
  | [] => false

/-- Reads the name of an element as it is written, and notes its use if it stands for a value. -/
def elementName (uses : Bool) : Reader String := do
  let first ← name
  if ← acceptMark ":" then
    let second ← name
    needIf uses .qualifiedTag
    return first ++ ":" ++ second
  let others ← gather do
    if ← acceptMark "." then some <$> name else return none
  let isValue := if others.isEmpty then isValueName first else first != "this"
  if uses && isValue then use first
  return ".".intercalate (first :: others)

/-- Reads an expression, in which commas are a mistake. -/
def contained : Reader Unit :=
  enclosed do
    g.assignment
    if ← acceptMark "," then
      mistake "JSX expressions may not use the comma operator"
      g.expression

/-- Reads an expression between braces as the value of an attribute. -/
def attributeExpression : Reader Unit := do
  mark "\x7b"
  if ← atMark "\x7d" then mistake "JSX attributes must only be assigned a non-empty expression"
  else contained g
  mark "\x7d"

/-- Reads the text of an attribute, in which a backslash stands for itself. -/
def attributeText : Reader Unit := do
  match (← get).next.text with
  | quote :: rest => do
    if quote != '"' && quote != '\'' then failure
    let value := rest.takeWhile (· != quote)
    if value.length = rest.length then failure
    passSeparator
    keep (quote :: value ++ [quote])
    goOnWith (rest.drop (value.length + 1))
  | [] => failure

def attributeValue : Reader Unit := do
  if ← atMark "\x7b" then attributeExpression g
  else if ← atLeftAngle then
    g .markup
    mark ">"
  else attributeText

/-- An attribute as it was read. -/
inductive Attribute where
  | spread
  | named (name : String) (hasValue : Bool)
  deriving DecidableEq

def oneAttribute : Reader Attribute := do
  if ← acceptMark "\x7b" then
    mark "..."
    enclosed g.assignment
    mark "\x7d"
    return .spread
  let first ← name
  let isQualified ← acceptMark ":"
  if isQualified then
    let _ ← name
  let hasValue ← acceptMark "="
  if hasValue then attributeValue g
  return .named (if isQualified then "" else first) hasValue

/-- Notes what the attributes of an element need. -/
def noteAttributes (attributes : List Attribute) : Reader Unit := do
  let behind := attributes.dropWhile (· != .spread)
  let isKey (a : Attribute) : Bool := a == .named "key" true || a == .named "key" false
  needIf (attributes.contains (.named "key" false)) .bareKey
  needIf (attributes.any fun a => [Attribute.named "__self" true, .named "__source" true,
    .named "__self" false, .named "__source" false].contains a) .developerProperty
  need (if behind.any isKey then .lateKey else .element)

/-- Reads the mark that stands next, and gives the text behind it. -/
def textBehind (sign : String) : Reader (List Char) := do
  let l := (← get).next
  if l.token != .mark sign then failure
  passSeparator
  keep l.spelling
  return l.rest

/-- Reads an expression between braces within an element, up to its closing brace. -/
def child : Reader Unit := do
  mark "\x7b"
  if ← acceptMark "..." then
    need .spreadChild
    contained g
  else if !(← atMark "\x7d") then contained g

/-- Reads what an element contains, from a text up to the sign that closes it; at most `fuel`
parts. -/
def children (text : List Char) : (fuel : Nat) → Reader Unit
  | 0 => failure
  | fuel + 1 => do
    let plain := text.takeWhile fun c => c != '\x7b' && c != '<'
    keep plain
    goOnWith (text.drop plain.length)
    if ← atMark "\x7b" then
      child g
      children (← textBehind "\x7d") fuel
    else
      let closes ← looks do
        leftAngle
        atMark "/"
      if !closes then
        g .markup
        children (← textBehind ">") fuel

/-- Reads what an element contains, behind the mark before it. -/
def content : Reader Unit := do children g (← textBehind ">") (← get).rounds

/-- Reads the sign that closes an element up to its name. -/
def closing : Reader Unit := do
  leftAngle
  mark "/"

def element : Reader Unit := do
  let opened ← elementName true
  eraseIf atLeftAngle (typeArguments g)
  let attributes ← gather do
    if (← atMark ">") || (← atMark "/") then return none
    some <$> oneAttribute g
  if !(← acceptMark "/") then
    content g
    closing
    let closed ← elementName false
    mistakeIf (closed != opened) "Expected corresponding JSX closing tag"
  if !(← atMark ">") then failure
  noteAttributes attributes

/-- Reads a fragment from the end of its first sign on. -/
def fragment : Reader Unit := do
  content g
  closing
  if !(← atMark ">") then failure
  need .fragment

/-- Reads an element or a fragment, without its last angle bracket. -/
def rule : Reader Unit := do
  leftAngle
  if ← atMark ">" then fragment g else element g

end ModuleLoader.TypeScript.Markup
