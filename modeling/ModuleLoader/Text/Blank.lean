import ModuleLoader.Text.Split

/-! The characters with the Unicode property `White_Space`, and the texts around them. -/

namespace ModuleLoader.Text

def isBlank (c : Char) : Bool :=
  let n := c.toNat
  (9 ≤ n && n ≤ 13) || n == 0x20 || n == 0x85 || n == 0xA0 || n == 0x1680 ||
    (0x2000 ≤ n && n ≤ 0x200A) || n == 0x2028 || n == 0x2029 || n == 0x202F || n == 0x205F ||
    n == 0x3000

def trimStart (text : List Char) : List Char := text.dropWhile isBlank

def trimEnd (text : List Char) : List Char := (trimStart text.reverse).reverse

/-- The text without the blanks at both ends. -/
def trim (text : List Char) : List Char := trimEnd (trimStart text)

/-- The maximal runs of characters that are not blank; `run` is the run being read. -/
def wordsFrom (run : List Char) : List Char → List (List Char)
  | [] => if run.isEmpty then [] else [run.reverse]
  | c :: rest =>
    if isBlank c then
      if run.isEmpty then wordsFrom [] rest else run.reverse :: wordsFrom [] rest
    else wordsFrom (c :: run) rest

/-- The maximal runs of characters that are not blank, in order. -/
def words (text : List Char) : List (List Char) := wordsFrom [] text

/-- The lines of a text, each with the newline that ends it; `line` is the line being read. -/
def linesFrom (line : List Char) : List Char → List (List Char)
  | [] => if line.isEmpty then [] else [line.reverse]
  | c :: rest =>
    if c = '\n' then (c :: line).reverse :: linesFrom [] rest else linesFrom (c :: line) rest

/-- The lines of a text, each with the newline that ends it. -/
def lines (text : List Char) : List (List Char) := linesFrom [] text

end ModuleLoader.Text
