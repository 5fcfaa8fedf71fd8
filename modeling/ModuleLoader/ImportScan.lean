import ModuleLoader.Text.Blank
import ModuleLoader.Text.Word

/-! The static imports of a program, found line by line without parsing it.  A declaration starts
its line, and its specifier is the text between the quotes that follow. -/

namespace ModuleLoader.ImportScan

open ModuleLoader.Text

/-- A specifier with the number of characters before it. -/
structure Found where
  offset : Nat
  specifier : List Char
  deriving DecidableEq

def isGap (c : Char) : Bool := c == ' ' || c == '\t'

def isQuote (c : Char) : Bool := c == '\'' || c == '"'

def isName (c : Char) : Bool := isWord c || c == '$'

/-- The character may stand among the names of an import. -/
def isClause (c : Char) : Bool := isName c || "*\x7b\x7d,".toList.contains c || isBlank c

/-- The text without the gaps it starts with. -/
def skipGaps (text : List Char) : List Char := text.dropWhile isGap

/-- A specifier between quotes at the start of a text: it is not empty, and holds neither quotes
nor newlines. -/
def quotedSpecifier? : List Char → Option (List Char)
  | quote :: rest =>
    let body := rest.takeWhile fun c => !isQuote c && c != '\n'
    if isQuote quote && !body.isEmpty && (rest.drop body.length).head?.any isQuote then some body
    else none
  | [] => none

/-- What stands between `import` and the quote: nothing but gaps, or names, then a gap or a newline,
then `from` and gaps. -/
def isImportClause (clause : List Char) : Bool :=
  clause.all isGap ||
    match skipGaps clause.reverse with
    | 'm' :: 'o' :: 'r' :: 'f' :: sep :: names =>
      (isGap sep || sep == '\n') && !names.isEmpty && names.all isClause
    | _ => false

/-- The specifier of an import declaration that starts the line. -/
def importAt? (line : List Char) : Option (List Char × List Char) := do
  let rest ← after? "import".toList (skipGaps line)
  let clause := rest.takeWhile (!isQuote ·)
  let tail := rest.drop clause.length
  let specifier ← quotedSpecifier? tail
  if isImportClause clause then some (tail.drop 1, specifier) else none

/-- What follows the name that an export gives to all names of a module: the name is a run of
characters of names, of which a last `from` may be the next word. -/
def behindAlias (text : List Char) : List (List Char) :=
  let name := text.takeWhile isName
  let rest := text.drop name.length
  let shared :=
    match name.reverse with
    | 'm' :: 'o' :: 'r' :: 'f' :: _ :: _ => ["from".toList ++ rest]
    | _ => []
  if name.isEmpty then [] else trimStart rest :: shared

/-- The places where `from` may stand behind the star of an export. -/
def behindStar (text : List Char) : List (List Char) :=
  let rest := trimStart text
  let named := do
    let tail ← after? "as".toList rest
    if rest.length < text.length && tail.head?.any isBlank then some (behindAlias (trimStart tail))
    else none
  rest :: named.getD []

/-- The places where `from` may stand behind what an export names. -/
def behindNames : List Char → List (List Char)
  | '*' :: rest => behindStar rest
  | '\x7b' :: rest =>
    match rest.dropWhile (· != '\x7d') with
    | _ :: tail => [trimStart tail]
    | [] => []
  | _ => []

def fromAt? (text : List Char) : Option (List Char × List Char) := do
  let tail := skipGaps (← after? "from".toList text)
  let specifier ← quotedSpecifier? tail
  return (tail.drop 1, specifier)

/-- The specifier of an export declaration that starts the line and names another module. -/
def exportAt? (line : List Char) : Option (List Char × List Char) := do
  let rest ← after? "export".toList (skipGaps line)
  (behindNames (skipGaps rest)).findSome? fromAt?

/-- The declarations of a text whose length is `total` and of which `text` is left.  A declaration
is looked for where a line starts, and the search goes on behind the last one that was found:
`skip` is what is left to skip of it. -/
def scanFrom (declaration? : List Char → Option (List Char × List Char)) (total : Nat) :
    (atStart : Bool) → (skip : Nat) → List Char → List Found
  | _, _, [] => []
  | _, skip + 1, c :: rest => scanFrom declaration? total (c == '\n') skip rest
  | atStart, 0, c :: rest =>
    match if atStart then declaration? (c :: rest) else none with
    | some (tail, specifier) =>
      let offset := total - tail.length
      ⟨offset, specifier⟩ ::
        scanFrom declaration? total (c == '\n')
          (rest.length + specifier.length + 1 - tail.length) rest
    | none => scanFrom declaration? total (c == '\n') 0 rest

/-- The declarations of a text in their order. -/
def scan (declaration? : List Char → Option (List Char × List Char)) (text : List Char) :
    List Found :=
  scanFrom declaration? text.length true 0 text

/-- The specifiers of a text's imports and of its exports from other modules, in the order of the
text and without repetition. -/
def staticImports (source : String) : List String :=
  let text := source.toList
  let found := (scan importAt? text).merge (scan exportAt? text) fun a b => a.offset ≤ b.offset
  (distinct (found.map Found.specifier)).map String.ofList

end ModuleLoader.ImportScan
