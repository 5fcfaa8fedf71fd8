import ModuleLoader.TypeScript.Reader

/-! Which words are names, and what modifiers are. -/

namespace ModuleLoader.TypeScript

namespace Words

/-- The words that cannot be names of variables. -/
def reserved : List String :=
  ["break", "case", "catch", "class", "const", "continue", "debugger", "default", "delete", "do",
    "else", "enum", "export", "extends", "false", "finally", "for", "function", "if", "import",
    "in", "instanceof", "new", "null", "return", "super", "switch", "this", "throw", "true", "try",
    "typeof", "var", "void", "while", "with"]

/-- The words that are reserved, or would be in some functions. -/
def isReserved (name : String) : Bool :=
  reserved.contains name || name == "await" || name == "yield"

/-- The words that are reserved for the future. -/
def isFutureReserved (name : String) : Bool :=
  ["implements", "interface", "let", "package", "private", "protected", "public",
    "static"].contains name

/-- The token can be the name of a variable. -/
def isName : Token → Bool
  | .word name => !reserved.contains name
  | _ => false

def isWord : Token → Bool
  | .word _ => true
  | _ => false

/-- The token is a word, a string or a number. -/
def isLiteralName : Token → Bool
  | .word _ | .string _ | .number | .privateName _ => true
  | _ => false

/-- The words that stand before declarations and members. -/
def isModifier (name : String) : Bool :=
  ["abstract", "accessor", "async", "const", "declare", "default", "export", "in", "out", "public",
    "private", "protected", "override", "readonly", "static"].contains name

/-- The words that say who may see a member. -/
def isAccess (name : String) : Bool :=
  name == "public" || name == "private" || name == "protected"

end Words

namespace Reader

open Words

/-- Notes the mistake of a name that the context takes for something else. -/
def checkName (name : String) : Reader Unit := do
  if name == "await" then mistake "The keyword 'await' is reserved"
  else
    mistakeIf (name == "yield" && (← get).context.yields)
      "Cannot use 'yield' as an identifier in a generator"

def variableName : Reader String := do
  if !isName (← peek) then failure
  let name ← anyWord
  checkName name
  return name

def boundName (kind : BindingKind) : Reader String := do
  let name ← variableName
  bind kind name
  return name

/-- The next token may stand behind a modifier. -/
def followsModifier : Reader Bool := do
  match ← peek with
  | .mark text => return ["[", "\x7b", "*", "..."].contains text
  | token => return isLiteralName token

/-- The next token is a modifier with what may stand behind one.  The word `const` stands before
`enum` only, unless it is `free`. -/
def atModifier (free : Bool) : Reader Bool := do
  match ← peek with
  | .word name =>
    if !isModifier name then return false
    looks do
      skip
      match name with
      | "const" => if free then return !(← newlineAhead) && (← followsModifier) else atWord "enum"
      | "static" => followsModifier
      | "export" => return !(← atMark "*") && !(← atMark "\x7b") && (← followsModifier)
      | "default" =>
        match ← peek with
        | .word next => return ["class", "function", "interface", "abstract", "async"].contains next
        | token => return token == .mark "@"
      | _ => return !(← newlineAhead) && (← followsModifier)
  | _ => return false

def modifiers (free : Bool) : Reader (List String) := do
  let words ← gather do
    if !(← atModifier free) then return none
    match ← peek with
    | .word name =>
      let isKept := !(← hasTypes) || ["static", "async", "accessor", "const"].contains name
      if isKept then keyword else erase keyword
      return some name
    | _ => return none
  mistakeIf (!words.Nodup || 1 < (words.filter isAccess).length) "Modifier already seen"
  return words

/-- Notes the mistake of modifiers that have no meaning where they stand. -/
def checkModifiers (allowed words : List String) : Reader Unit :=
  mistakeIf (words.any fun name => !allowed.contains name) "Modifier cannot be used here"

end Reader

end ModuleLoader.TypeScript
