/-! Numbers as they are written in programs. -/

namespace ModuleLoader.TypeScript.Number

/-- The character is a digit to base sixteen. -/
def isHexadecimal (c : Char) : Bool :=
  c.isDigit || ('a' ≤ c && c ≤ 'f') || ('A' ≤ c && c ≤ 'F')

/-- How many characters of a text are digits, and single signs between digits that set them apart;
none if such a sign stands elsewhere.  A digit stands right before the text if `behindDigit`. -/
def digits (isDigit : Char → Bool) : (behindDigit : Bool) → List Char → Option Nat
  | behindDigit, '_' :: c :: rest =>
    if behindDigit && isDigit c then (digits isDigit true rest).map (· + 2) else none
  | _, ['_'] => none
  | _, c :: rest => if isDigit c then (digits isDigit true rest).map (· + 1) else some 0
  | _, [] => some 0

def someDigits (isDigit : Char → Bool) (text : List Char) : Option Nat :=
  match digits isDigit false text with
  | some 0 | none => none
  | some n => some n

/-- The length of the exponent that a text starts with; zero if it starts with none. -/
def exponent : List Char → Option Nat
  | 'e' :: '+' :: rest | 'e' :: '-' :: rest | 'E' :: '+' :: rest | 'E' :: '-' :: rest =>
    (someDigits Char.isDigit rest).map (· + 2)
  | 'e' :: rest | 'E' :: rest => (someDigits Char.isDigit rest).map (· + 1)
  | _ => some 0

/-- The length of the fraction and the exponent that a text starts with. -/
def fraction : List Char → Option Nat
  | '.' :: rest => do
    let n ← if rest.head? = some '_' then none else digits Char.isDigit false rest
    let e ← exponent (rest.drop n)
    return 1 + n + e
  | text => exponent text

/-- The length of a number to another base than ten behind its first two characters. -/
def based (isDigit : Char → Bool) (text : List Char) : Option Nat := do
  let n ← someDigits isDigit text
  return if (text.drop n).head? = some 'n' then n + 3 else n + 2

/-- The length of a number that starts with a zero and another digit, behind its zero. -/
def padded (text : List Char) : Option Nat := do
  let n := (text.takeWhile Char.isDigit).length
  if (text.take n).all fun c => c < '8' then return n + 1
  else return n + 1 + (← fraction (text.drop n))

/-- The length of the number that a text starts with.  There is none if the number is not written
as numbers are. -/
def length? : List Char → Option Nat
  | '.' :: rest => fraction ('.' :: rest)
  | '0' :: c :: rest =>
    if c == 'x' || c == 'X' then based isHexadecimal rest
    else if c == 'o' || c == 'O' then based (fun d => '0' ≤ d && d ≤ '7') rest
    else if c == 'b' || c == 'B' then based (fun d => d == '0' || d == '1') rest
    else if c.isDigit then padded (c :: rest)
    else if c == '_' then none
    else whole ('0' :: c :: rest)
  | text => whole text
where
  /-- The length of a number to base ten. -/
  whole (text : List Char) : Option Nat := do
    let n ← digits Char.isDigit false text
    let behind := text.drop n
    if behind.head? = some 'n' then return n + 1
    return n + (← fraction behind)

/-- The text starts with what must be a number. -/
def isStart : List Char → Bool
  | '.' :: c :: _ => c.isDigit
  | c :: _ => c.isDigit
  | [] => false

end ModuleLoader.TypeScript.Number
