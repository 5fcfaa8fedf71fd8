import ModuleLoader.Text.Blank

/-! What stands between tokens: blanks, the ends of lines, and comments. -/

namespace ModuleLoader.TypeScript

open Text

def isSpace (c : Char) : Bool := isBlank c || c == '\u200B' || c == '\uFEFF'

def endsLine (c : Char) : Bool := c == '\n' || c == '\r' || c == '\u2028' || c == '\u2029'

/-- Where a separator is being read. -/
inductive Between where
  | blanks
  | lineComment
  | blockComment

/-- What separates a text from its first token. -/
structure Separator where
  text : List Char
  rest : List Char
  unclosed : Bool := false

namespace Separator

def behind (text : List Char) (s : Separator) : Separator := { s with text := text ++ s.text }

/-- Reads a separator from the middle of one on.  A comment that is not closed goes on to the end
of the text. -/
def readFrom : Between → List Char → Separator
  | .blockComment, [] => { text := [], rest := [], unclosed := true }
  | _, [] => { text := [], rest := [] }
  | .blanks, '/' :: '/' :: rest => (readFrom .lineComment rest).behind ['/', '/']
  | .blanks, '/' :: '*' :: rest => (readFrom .blockComment rest).behind ['/', '*']
  | .blanks, c :: rest =>
    if isSpace c then (readFrom .blanks rest).behind [c] else { text := [], rest := c :: rest }
  | .lineComment, c :: rest =>
    (readFrom (if endsLine c then .blanks else .lineComment) rest).behind [c]
  | .blockComment, '*' :: '/' :: rest => (readFrom .blanks rest).behind ['*', '/']
  | .blockComment, c :: rest => (readFrom .blockComment rest).behind [c]

/-- Reads the separator that a text starts with. -/
def read (text : List Char) : Separator := readFrom .blanks text

def endsLine (s : Separator) : Bool := s.text.any TypeScript.endsLine

end Separator

/-- A comment. -/
structure Comment where
  /-- The comment goes on to the end of its line. -/
  isLine : Bool
  text : List Char
  /-- A line ends somewhere between the comment and the token before it. -/
  startsLine : Bool

namespace Comment

/-- The comments of a separator from the middle of one on, where `seen` is the text of the comment
that is being read, backwards, and `startsLine` says whether a line has ended. -/
def listFrom (startsLine : Bool) (seen : List Char) : Between → List Char → List Comment
  | .blanks, [] => []
  | .lineComment, [] => [⟨true, seen.reverse, startsLine⟩]
  | .blockComment, [] => [⟨false, seen.reverse, startsLine⟩]
  | .blanks, '/' :: '/' :: rest => listFrom startsLine [] .lineComment rest
  | .blanks, '/' :: '*' :: rest => listFrom startsLine [] .blockComment rest
  | .blanks, c :: rest => listFrom (startsLine || endsLine c) [] .blanks rest
  | .lineComment, c :: rest =>
    if endsLine c then ⟨true, seen.reverse, startsLine⟩ :: listFrom true [] .blanks rest
    else listFrom startsLine (c :: seen) .lineComment rest
  | .blockComment, '*' :: '/' :: rest =>
    ⟨false, seen.reverse, startsLine⟩ :: listFrom startsLine [] .blanks rest
  | .blockComment, c :: rest => listFrom startsLine (c :: seen) .blockComment rest

/-- The comments of a separator, which stands at the start of the text if `first`. -/
def list (first : Bool) (separator : List Char) : List Comment :=
  listFrom first [] .blanks separator

end Comment

end ModuleLoader.TypeScript
