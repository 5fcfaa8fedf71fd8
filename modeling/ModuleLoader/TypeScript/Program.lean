import ModuleLoader.Text.Blank
import ModuleLoader.TypeScript.Grammar.Statements
import ModuleLoader.TypeScript.Scope

/-! Whole programs: the imports and exports of a module by their parts, all other statements by the
text that is left of them without types, and what the module says about names. -/

namespace ModuleLoader.TypeScript

/-- A module as it was read. -/
structure Program where
  /-- The first line, if it names an interpreter. -/
  interpreter : Option (List Char) := none
  items : List Item
  /-- The comments at the end, on lines of their own. -/
  lastComments : List Comment
  comments : List Comment
  scopes : Scopes
  needs : List Need
  mistakes : List String

namespace Program

open Reader

/-- The comments before the end of a text that stand on lines of their own, in a separator, which is
the whole text if `first`.  Where no line ends, comments do not belong to the code before them. -/
def commentsAtEnd (first : Bool) (separator : List Char) : List Comment :=
  let comments := Comment.list first separator
  let endsLine := (Comment.list first (separator ++ "/**/".toList)).getLast?.any Comment.startsLine
  if endsLine then comments.filter Comment.startsLine else comments

/-- Reads statements up to the end of the text. -/
def statements (g : Grammar) : Reader (List Item) :=
  gather do
    if (← peek) == .stop then return none
    some <$> g (.statement .list)

/-- Reads a module, and gives its statements and the separator before its end. -/
def whole (g : Grammar) : Reader (List Item × List Char) := do
  let found ← statements g
  let last ← take
  return (found, last.separator)

/-- The module without anything that could be left of it. -/
def hollow (p : Program) : Program :=
  { p with interpreter := none, items := [], lastComments := [], needs := [] }

/-- The mistakes that a reader noted in a whole module. -/
def mistakesOf (s : ReadState) (scopes : Scopes) : List String :=
  s.mistakes.reverse ++
    (s.unfinished.map fun _ => "Invalid assignment in object literal") ++
    scopes.clashes.reverse.map fun name => s!"Identifier '{name}' has already been declared"

/-- A first line that names an interpreter, and the text behind it. -/
def splitInterpreter : List Char → Option (List Char) × List Char
  | '#' :: '!' :: rest =>
    let line := rest.takeWhile (!endsLine ·)
    (some ('#' :: '!' :: line), rest.drop line.length)
  | text => (none, text)

/-- The module of a source text, if the text is one. -/
def ofText? (dialect : Dialect) (text : String) : Option Program := do
  let (interpreter, text) := splitInterpreter (text.toList.dropWhile (· == '\uFEFF'))
  let rounds := text.length + 2
  let start : ReadState := { dialect, rounds, next := Lexeme.read text }
  let ((items, separator), s) ← (whole (grammar (16 * rounds))).run start
  let scopes := Scopes.ofProgram dialect.types s.mentions.reverse
  return {
    interpreter, items, scopes
    lastComments := commentsAtEnd (separator.length == text.length) separator
    comments := s.comments.reverse.flatMap (Comment.list false)
    needs := s.needs.reverse
    mistakes := mistakesOf s scopes }

end Program

end ModuleLoader.TypeScript
