import ModuleLoader.Text.Split
import ModuleLoader.Url.Encode

/-! The tokens of JSON texts.  A token of a string or a number keeps its spelling, so that the
tokens of a text determine the text up to blanks. -/

namespace ModuleLoader.Json

/-- A token of a JSON text. -/
inductive Token where
  | openBracket
  | closeBracket
  | openBrace
  | closeBrace
  | comma
  | colon
  | null
  | boolean (b : Bool)
  /-- A number in the spelling of the text. -/
  | number (spelling : List Char)
  /-- A string as the text spells it between the quotes. -/
  | string (spelling : List Char)
  deriving DecidableEq

def Token.text : Token → List Char
  | .openBracket => ['[']
  | .closeBracket => [']']
  | .openBrace => ['\x7b']
  | .closeBrace => ['\x7d']
  | .comma => [',']
  | .colon => [':']
  | .null => "null".toList
  | .boolean true => "true".toList
  | .boolean false => "false".toList
  | .number spelling => spelling
  | .string spelling => '"' :: spelling ++ ['"']

def isSpace (c : Char) : Bool := c == ' ' || c == '\n' || c == '\t' || c == '\r'

def mark? (c : Char) : Option Token :=
  match c with
  | '[' => some .openBracket
  | ']' => some .closeBracket
  | '\x7b' => some .openBrace
  | '\x7d' => some .closeBrace
  | ',' => some .comma
  | ':' => some .colon
  | _ => none

/-- The character may belong to a number or to one of the words. -/
def isPlain (c : Char) : Bool := c.isAlphanum || c == '+' || c == '-' || c == '.'

/-- Digits, at least one, followed by a text that `rest` accepts. -/
def someDigits (rest : List Char → Bool) (text : List Char) : Bool :=
  (text.head?.any Char.isDigit) && rest (text.dropWhile Char.isDigit)

def isExponent : List Char → Bool
  | [] => true
  | c :: rest =>
    (c == 'e' || c == 'E') &&
      match rest with
      | '+' :: digits | '-' :: digits => someDigits List.isEmpty digits
      | digits => someDigits List.isEmpty digits

/-- A fraction and an exponent, or one of them, or nothing. -/
def isFraction : List Char → Bool
  | '.' :: rest => someDigits isExponent rest
  | rest => isExponent rest

/-- The spelling of a number without a sign. -/
def isUnsigned : List Char → Bool
  | '0' :: rest => isFraction rest
  | text => someDigits isFraction text

def isNumber : List Char → Bool
  | '-' :: rest => isUnsigned rest
  | text => isUnsigned text

/-- The token of a run of plain characters. -/
def plain? (run : List Char) : Option Token :=
  if run = "null".toList then some .null
  else if run = "true".toList then some (.boolean true)
  else if run = "false".toList then some (.boolean false)
  else if isNumber run then some (.number run)
  else none

/-- Where the lexer stands: between tokens, in a run of plain characters, or in a string, where it
may be behind a backslash or owe hexadecimal digits.  Runs and strings are kept last character
first. -/
inductive Lexing where
  | between
  | plain (run : List Char)
  | string (seen : List Char)
  | escape (seen : List Char)
  | digits (owed : Nat) (seen : List Char)

/-- The state after a character that follows no unfinished token, and the token it completes. -/
def Lexing.start (c : Char) : Option (Lexing × List Token) :=
  if isSpace c then some (.between, [])
  else if c = '"' then some (.string [], [])
  else match mark? c with
    | some token => some (.between, [token])
    | none => if isPlain c then some (.plain [c], []) else none

/-- The state after one more character, and the tokens that it completes. -/
def Lexing.step : Lexing → Char → Option (Lexing × List Token)
  | .between, c => start c
  | .plain run, c =>
    if isPlain c then some (.plain (c :: run), [])
    else do
      let token ← plain? run.reverse
      let (state, tokens) ← start c
      return (state, token :: tokens)
  | .string seen, c =>
    if c = '"' then some (.between, [.string seen.reverse])
    else if c = '\\' then some (.escape (c :: seen), [])
    else if c.toNat < 0x20 then none
    else some (.string (c :: seen), [])
  | .escape seen, c =>
    if c = 'u' then some (.digits 4 (c :: seen), [])
    else if "\"\\/bfnrt".toList.contains c then some (.string (c :: seen), [])
    else none
  | .digits owed seen, c =>
    if (Url.hexValue? c).isNone then none
    else if owed ≤ 1 then some (.string (c :: seen), [])
    else some (.digits (owed - 1) (c :: seen), [])

/-- The tokens that the end of the text completes. -/
def Lexing.finish : Lexing → Option (List Token)
  | .between => some []
  | .plain run => (plain? run.reverse).map ([·])
  | _ => none

/-- The tokens of a text from a state. -/
def tokensFrom (state : Lexing) : List Char → Option (List Token)
  | [] => state.finish
  | c :: rest => do
    let (state, tokens) ← state.step c
    return tokens ++ (← tokensFrom state rest)

def tokens? (text : List Char) : Option (List Token) := tokensFrom .between text

end ModuleLoader.Json
