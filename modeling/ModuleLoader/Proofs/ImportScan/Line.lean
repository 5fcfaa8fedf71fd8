import ModuleLoader.ImportScan
import ModuleLoader.TypeScript.Output

/-! Modules that are written line by line: each declaration of an import starts a line of its own, and
so does everything else.  A list between braces may be broken over several lines. -/

namespace ModuleLoader.ImportScan

open Text

structure Name where
  text : List Char
  ne_nil : text ≠ []
  named : ∀ c ∈ text, isName c = true

/-- The character may stand in a list between braces: in a name, as a comma or as a blank. -/
def isListed (c : Char) : Bool := isName c || c == ',' || isBlank c

/-- Names with commas and blanks between them, in any order.  Among the blanks are newlines. -/
structure NameList where
  text : List Char
  listed : ∀ c ∈ text, isListed c = true

/-- What stands behind a statement on its line. -/
structure Ending where
  text : List Char
  closed : ∀ c ∈ text, c = ';' ∨ isBlank c = true ∧ c ≠ '\n'

/-- What an import takes from a module. -/
inductive Taken where
  | default (name : Name)
  | whole (name : Name)
  | names (list : NameList)
  | defaultAndNames (name : Name) (list : NameList)
  | defaultAndWhole (name other : Name)

/-- What an export passes on from a module. -/
inductive Passed where
  | all
  | allAs (name : Name)
  | names (list : NameList)

inductive Clause where
  /-- Nothing is imported but what the module does. -/
  | bare
  | takes (taken : Taken)
  | passes (passed : Passed)

def NameList.inBraces (list : NameList) : List Char := '\x7b' :: list.text ++ ['\x7d']

/-- The whole of a module by a name. -/
def Name.asWhole (name : Name) : List Char := "* as ".toList ++ name.text

def Taken.text : Taken → List Char
  | .default name => name.text
  | .whole name => name.asWhole
  | .names list => list.inBraces
  | .defaultAndNames name list => name.text ++ ", ".toList ++ list.inBraces
  | .defaultAndWhole name other => name.text ++ ", ".toList ++ other.asWhole

def Passed.text : Passed → List Char
  | .all => ['*']
  | .allAs name => name.asWhole
  | .names list => list.inBraces

def importing (text : List Char) : List Char := "import ".toList ++ text

def exporting (text : List Char) : List Char := "export ".toList ++ text

/-- What stands before the specifier. -/
def Clause.text : Clause → List Char
  | .bare => importing []
  | .takes taken => importing (taken.text ++ " from ".toList)
  | .passes passed => exporting (passed.text ++ " from ".toList)

/-- A declaration that names another module. -/
structure Declaration where
  clause : Clause
  quote : Char
  quoted : isQuote quote = true
  specifier : List Char
  ne_nil : specifier ≠ []
  plain : ∀ c ∈ specifier, isQuote c = false ∧ c ≠ '\n'
  ending : Ending

/-- What stands behind the quote that opens the specifier. -/
def Declaration.behind (d : Declaration) : List Char :=
  d.specifier ++ d.quote :: d.ending.text

def Declaration.text (d : Declaration) : List Char := d.clause.text ++ d.quote :: d.behind

/-- A line that declares no import.  If `import` starts it, something stands before the first quote
that no list of imports has, such as a parenthesis or a point.  If `export` starts it, neither a star
nor a brace follows. -/
def isOther (line : List Char) : Bool :=
  let imports := after? "import".toList (skipGaps line)
  let exports := after? "export".toList (skipGaps line)
  !line.contains '\n' &&
    imports.all (fun rest => (rest.takeWhile (!isQuote ·)).any (!isClause ·)) &&
    exports.all fun rest => !(skipGaps rest).head?.any fun c => c == '*' || c == '\x7b'

inductive Content where
  | declaration (d : Declaration)
  /-- A list of exports from the module itself. -/
  | locals (list : NameList) (ending : Ending)
  | other (line : List Char) (h : isOther line = true)

namespace Content

def text : Content → List Char
  | .declaration d => d.text
  | .locals list ending => exporting (list.inBraces ++ ';' :: ending.text)
  | .other line _ => line

def specifier? : Content → Option (List Char)
  | .declaration d => some d.specifier
  | .locals .. | .other .. => none

end Content

/-- A statement on its own line or lines, behind gaps. -/
structure Line where
  indent : List Char
  gaps : ∀ c ∈ indent, isGap c = true
  content : Content

def Line.text (line : Line) : List Char := line.indent ++ line.content.text

def textOf (lines : List Line) : String :=
  String.ofList (['\n'].intercalate (lines.map Line.text))

/-- The specifiers of the declarations, in order. -/
def declared (lines : List Line) : List String :=
  lines.filterMap fun line => line.content.specifier?.map String.ofList

/-! ## The statements of such modules -/

open TypeScript (Item)

/-- The statement is that of the declaration. -/
def Declaration.Is (d : Declaration) : Item → Prop
  | .importFrom isType _ _ source =>
    (∀ passed, d.clause ≠ .passes passed) ∧ isType = false ∧
      source.specifier = String.ofList d.specifier
  | .exportAll isType _ source | .exportNames isType _ (some source) =>
    (∃ passed, d.clause = .passes passed) ∧ isType = false ∧
      source.specifier = String.ofList d.specifier
  | _ => False

/-- The statements are those of the lines.  A line that declares no import has some part in
statements that import nothing. -/
inductive Reads : List Line → List Item → Prop where
  | nil : Reads [] []
  | declaration {line : Line} {lines : List Line} {d : Declaration} {item : Item}
      {items : List Item} (hLine : line.content = .declaration d) (hItem : d.Is item)
      (hRest : Reads lines items) : Reads (line :: lines) (item :: items)
  | other {line : Line} {lines : List Line} {found items : List Item}
      (hLine : line.content.specifier? = none) (hFound : ∀ item ∈ found, item.specifier? = none)
      (hRest : Reads lines items) : Reads (line :: lines) (found ++ items)

end ModuleLoader.ImportScan
