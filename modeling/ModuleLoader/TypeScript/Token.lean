import ModuleLoader.Text.Split
import ModuleLoader.TypeScript.Token.Escape

/-! The tokens of TypeScript.  A slash, a backquote and the text of JSX are read by those who know
what may stand there; here a slash is a mark like others. -/

namespace ModuleLoader.TypeScript

open Text

/-- A token. -/
inductive Token where
  | word (name : String)
  | privateName (name : String)
  | number
  /-- A string by what it stands for. -/
  | string (value : String)
  | mark (text : String)
  | stop
  /-- The text goes on with what is no token. -/
  | bad
  deriving DecidableEq

/-- A token in its place. -/
structure Lexeme where
  token : Token
  /-- What separates the token from the one before it. -/
  separator : List Char := []
  spelling : List Char
  rest : List Char
  /-- A name in the token is written with escapes. -/
  isEscaped : Bool := false
  /-- Nothing is wrong inside the token or in the separator. -/
  isSound : Bool := true
  /-- The token is a string of whole characters, or no string. -/
  isWhole : Bool := true

namespace Lexeme

/-- The marks of more than one character; of two that fit, the one that comes first is meant.  An
angle bracket to the right is always a mark of its own. -/
def longMarks : List (List Char) :=
  ["...", "??=", "**=", "===", "!==", "<<=", "&&=", "||=", "=>", "?.", "??", "**", "==", "!=", "<<",
    "<=", "&&", "||", "++", "--", "+=", "-=", "*=", "/=", "%=", "&=", "|=", "^="].map String.toList

def shortMarks : List Char := "\x7b\x7d()[];,<>+-*/%&|^!~?:=.@\x60".toList

/-- The mark at the start of a text. -/
def mark? (text : List Char) : Option (List Char) :=
  match longMarks.find? fun long => (after? long text).isSome with
  | some ['?', '.'] => if (text.drop 2).head?.any Char.isDigit then some ['?'] else some ['?', '.']
  | some found => some found
  | none =>
    match text with
    | c :: _ => if shortMarks.contains c then some [c] else none
    | [] => none

/-- The token of the given length at the start of a text. -/
def ofLength (token : Token) (length : Nat) (text : List Char) : Lexeme :=
  { token, spelling := text.take length, rest := text.drop length }

def bad (text : List Char) : Lexeme := ofLength .bad 0 text

/-- The name or keyword at the start of a text. -/
def ofWord (text : List Char) : Lexeme :=
  match NameText.read true 0 text with
  | some n =>
    if n.name.isEmpty then bad text
    else
      { ofLength (.word (String.ofList n.name)) n.length text with isEscaped := n.isEscaped }
  | none => bad text

/-- The number at the start of a text.  Neither a digit nor a name may follow it directly. -/
def ofNumber (text : List Char) : Lexeme :=
  match Number.length? text with
  | some n =>
    if (text.drop n).head?.any fun c => startsName c || c.isDigit then bad text
    else ofLength .number n text
  | none => bad text

/-- The string at the start of a text. -/
def ofString (quote : Char) (text : List Char) : Lexeme :=
  match StringText.read quote 0 (text.drop 1) with
  | some s =>
    { ofLength (.string s.text) (s.length + 1) text with
      isSound := s.isSound
      isWhole := s.isWhole }
  | none => bad text

/-- The first token of a text that starts with one. -/
def first (text : List Char) : Lexeme :=
  match text with
  | [] => ofLength .stop 0 []
  | c :: rest =>
    if startsName c || c == '\\' then ofWord text
    else if c == '#' then
      match ofWord rest with
      | { token := .word name, spelling, rest, .. } =>
        { token := .privateName name, spelling := '#' :: spelling, rest }
      | _ => bad text
    else if Number.isStart text then ofNumber text
    else if c == '"' || c == '\'' then ofString c text
    else
      match mark? text with
      | some mark => ofLength (.mark (String.ofList mark)) mark.length text
      | none => bad text

/-- The first token of a text, with what stands before it. -/
def read (text : List Char) : Lexeme :=
  let separator := Separator.read text
  let lexeme := first separator.rest
  { lexeme with
    separator := separator.text
    isSound := lexeme.isSound && !separator.unclosed }

def startsLine (l : Lexeme) : Bool := l.separator.any endsLine

def text (l : Lexeme) : List Char := l.spelling ++ l.rest

end Lexeme

/-- A regular expression as it was read. -/
structure RegularExpression where
  /-- The number of characters behind its first slash. -/
  length : Nat
  isSound : Bool

namespace RegularExpression

/-- The number of characters up to the slash that ends the pattern, with the slash. -/
def patternLength : (inClass : Bool) → (skip : Bool) → List Char → Option Nat
  | _, _, [] => none
  | inClass, skip, c :: rest =>
    if endsLine c then none
    else if skip then (patternLength inClass false rest).map (· + 1)
    else if c == '/' && !inClass then some 1
    else
      (patternLength (c == '[' || (inClass && c != ']')) (c == '\\') rest).map (· + 1)

def isFlag (c : Char) : Bool := c.isAlphanum || c == '$' || c == '_'

/-- The flags are known and each is given once. -/
def areSound (flags : List Char) : Bool :=
  flags.all ("dgimsuvy".toList.contains ·) && flags.Nodup

def read (text : List Char) : Option RegularExpression := do
  let pattern ← patternLength false false text
  let flags := (text.drop pattern).takeWhile isFlag
  return { length := pattern + flags.length, isSound := areSound flags }

end RegularExpression

end ModuleLoader.TypeScript
