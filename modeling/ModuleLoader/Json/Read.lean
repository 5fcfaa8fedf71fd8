import ModuleLoader.Json.Basic
import ModuleLoader.Json.Document

/-! Values of JSON documents.  A document has no value if a string of it escapes half of a
surrogate pair, or if a number of it is out of the range of doubles. -/

namespace ModuleLoader.Json

def hexUnit? (a b c d : Char) : Option Nat := do
  let a ← Url.hexValue? a
  let b ← Url.hexValue? b
  let c ← Url.hexValue? c
  let d ← Url.hexValue? d
  return ((a * 16 + b) * 16 + c) * 16 + d

/-- The character that a backslash and a letter stand for. -/
def shortEscape? (c : Char) : Option Char :=
  match c with
  | '"' => some '"'
  | '\\' => some '\\'
  | '/' => some '/'
  | 'b' => some '\x08'
  | 'f' => some '\x0C'
  | 'n' => some '\n'
  | 'r' => some '\r'
  | 't' => some '\t'
  | _ => none

/-- The number is the first half of a surrogate pair. -/
def isHighSurrogate (n : Nat) : Bool := 0xD800 ≤ n && n < 0xDC00

/-- The number is the second half of a surrogate pair. -/
def isLowSurrogate (n : Nat) : Bool := 0xDC00 ≤ n && n < 0xE000

/-- The text that a string spells; `high` is the first half of a pair whose second half has to
follow. -/
def unescapeFrom (high : Option Nat) : List Char → Option (List Char)
  | [] => if high.isSome then none else some []
  | '\\' :: 'u' :: a :: b :: c :: d :: rest => do
    let n ← hexUnit? a b c d
    match high with
    | some h =>
      if isLowSurrogate n then
        let c := Char.ofNat (0x10000 + (h - 0xD800) * 0x400 + (n - 0xDC00))
        return c :: (← unescapeFrom none rest)
      else none
    | none =>
      if isHighSurrogate n then unescapeFrom (some n) rest
      else if isLowSurrogate n then none
      else return Char.ofNat n :: (← unescapeFrom none rest)
  | '\\' :: c :: rest => do
    if high.isSome then none
    let c ← shortEscape? c
    return c :: (← unescapeFrom none rest)
  | c :: rest => do
    if high.isSome then none
    return c :: (← unescapeFrom none rest)

def unescape? (spelling : List Char) : Option String :=
  (unescapeFrom none spelling).map String.ofList

/-- The least number that does not fit in 64 bits. -/
def wordLimit : Nat := Nat.pow 2 64

/-- The digits of a number that make up its significand, up to 64 bits, and what follows them. -/
def takeSignificand (significand : Nat) : List Char → Nat × List Char
  | [] => (significand, [])
  | c :: rest =>
    if c.isDigit then
      let next := significand * 10 + (c.toNat - 48)
      if next < wordLimit then takeSignificand next rest else (significand, c :: rest)
    else (significand, c :: rest)

/-- A double scaled by a power of ten in steps of at most `10 ^ 308`, if it stays finite. -/
def scaleDown : (fuel : Nat) → (x : Float) → (places : Nat) → Float
  | 0, x, _ => x
  | fuel + 1, x, places =>
    if places ≤ 308 then x / Decimal.toDouble 1 places
    else if x == 0 then x
    else scaleDown fuel (x / Decimal.toDouble 1 308) (places - 308)

/-- The double of a significand and an exponent: the nearest double of the significand, multiplied
or divided by a power of ten. -/
def double? (significand : Nat) (exponent : Int) : Option Float :=
  let x := Decimal.toDouble significand 0
  if exponent < 0 then some (scaleDown (exponent.natAbs / 308 + 1) x exponent.natAbs)
  else if 308 < exponent then if x == 0 then some x else none
  else
    let y := x * Decimal.toDouble 1 exponent
    if y.isInf then none else some y

/-- The least exponent that is too large to be counted. -/
def exponentLimit : Nat := Nat.pow 2 31

/-- The double of a significand whose exponent so far is `places`, and of what follows it. -/
def withExponent? (significand : Nat) (places : Int) : List Char → Option Float
  | [] => double? significand places
  | _ :: rest =>
    let (negative, digits) := match rest with
      | '-' :: digits => (true, digits)
      | '+' :: digits => (false, digits)
      | digits => (false, digits)
    let n := Decimal.digitsValue digits
    if exponentLimit ≤ n then if significand ≠ 0 && !negative then none else some 0
    else double? significand (if negative then places - n else places + n)

/-- The double of a significand that was cut after `dropped` digits, and of a fraction or an
exponent. -/
def withFraction? (significand dropped : Nat) : List Char → Option Float
  | '.' :: rest =>
    let digits := rest.takeWhile Char.isDigit
    let (significand, uncounted) := takeSignificand significand digits
    withExponent? significand (dropped - (digits.length - uncounted.length : Nat))
      (rest.dropWhile Char.isDigit)
  | rest => withExponent? significand dropped rest

/-- The number that a spelling without a sign denotes. -/
def unsigned? (negative : Bool) (text : List Char) : Option JsonNumber :=
  let (significand, rest) := takeSignificand 0 text
  let dropped := (rest.takeWhile Char.isDigit).length
  match rest with
  | [] =>
    if !negative then some (.natural significand)
    else if significand = 0 || Nat.pow 2 63 < significand then
      some (.double (-(Decimal.toDouble significand 0)))
    else some (.negative (significand - 1))
  | _ =>
    (withFraction? significand dropped (rest.drop dropped)).map fun x =>
      .double (if negative then -x else x)

def number? : List Char → Option JsonNumber
  | '-' :: rest => unsigned? true rest
  | text => unsigned? false text

mutual

def ofDocument? : Document → Option Json
  | .null => some .null
  | .boolean b => some (.boolean b)
  | .number spelling => (number? spelling).map .number
  | .string spelling => (unescape? spelling).map .string
  | .array items => (itemsOf? items).map .array
  | .object members => (fieldsOf? members).map ofFields

def itemsOf? : List Document → Option (List Json)
  | [] => some []
  | item :: rest => do
    let value ← ofDocument? item
    return value :: (← itemsOf? rest)

/-- The fields of members, in the order of the text. -/
def fieldsOf? : List (List Char × Document) → Option (List (String × Json))
  | [] => some []
  | (key, item) :: rest => do
    let key ← unescape? key
    let value ← ofDocument? item
    return (key, value) :: (← fieldsOf? rest)

end

/-- The number of containers that may stand around each other. -/
def depthLimit : Nat := 127

def ofText? (text : String) : Option Json := do
  let document ← Document.ofText? text.toList
  if depthLimit < document.depth then none
  ofDocument? document

end ModuleLoader.Json
