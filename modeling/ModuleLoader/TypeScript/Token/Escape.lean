import ModuleLoader.Text.Name
import ModuleLoader.TypeScript.Token.Number
import ModuleLoader.TypeScript.Token.Separator
import ModuleLoader.Url.Encode

/-! Names and strings, in which a backslash starts an escape. -/

namespace ModuleLoader.TypeScript

def hexadecimalValue (digits : List Char) : Nat :=
  digits.foldl (fun n c => n * 16 + (Url.hexValue? c).getD 0) 0

/-- The digits to base sixteen that a text starts with, at most `limit` of them. -/
def hexadecimalDigits (limit : Nat) (text : List Char) : List Char :=
  (text.take limit).takeWhile Number.isHexadecimal

/-- A piece of the value of a string. -/
inductive StringPiece where
  | char (c : Char)
  /-- One half of a character, without the other half. -/
  | half (number : Nat)
  deriving DecidableEq

/-- What a backslash in a string stands for. -/
structure Escape where
  value : List StringPiece := []
  /-- How many characters behind the backslash belong to it. -/
  length : Nat
  /-- The escape is written as escapes are. -/
  isSound : Bool := true
  /-- The escape may stand in a template. -/
  inTemplate : Bool := isSound

namespace Escape

/-- The number is one of the first halves of characters. -/
def isFirstHalf (n : Nat) : Bool := 0xD800 ≤ n && n < 0xDC00

/-- The number is one of the second halves of characters. -/
def isSecondHalf (n : Nat) : Bool := 0xDC00 ≤ n && n < 0xE000

def piece (n : Nat) : StringPiece :=
  if isFirstHalf n || isSecondHalf n then .half n else .char (Char.ofNat n)

/-- The escape by a number in braces, behind the first brace. -/
def braced (text : List Char) : Escape :=
  let digits := text.takeWhile Number.isHexadecimal
  let n := hexadecimalValue digits
  if !digits.isEmpty && n ≤ 0x10FFFF && (text.drop digits.length).head? = some '\x7d' then
    { value := [piece n], length := digits.length + 3 }
  else { length := digits.length + 2, isSound := false }

/-- The escape by four digits.  Two halves of a character that follow each other make it up. -/
def fourDigits (text : List Char) : Escape :=
  let digits := hexadecimalDigits 4 text
  let n := hexadecimalValue digits
  if digits.length < 4 then { length := digits.length + 1, isSound := false }
  else
    match text.drop 4 with
    | '\\' :: 'u' :: rest =>
      let others := hexadecimalDigits 4 rest
      let m := hexadecimalValue others
      if isFirstHalf n && others.length = 4 && isSecondHalf m then
        { value := [.char (Char.ofNat (0x10000 + (n - 0xD800) * 0x400 + (m - 0xDC00)))],
          length := 11 }
      else { value := [piece n], length := 5 }
    | _ => { value := [piece n], length := 5 }

def octal (text : List Char) : Escape :=
  let limit := if text.head?.any (· < '4') then 3 else 2
  let digits := (text.take limit).takeWhile fun c => '0' ≤ c && c ≤ '7'
  let isPlain := digits == ['0'] && !(text.drop 1).head?.any Char.isDigit
  { value := [piece (digits.foldl (fun n c => n * 8 + (c.toNat - 48)) 0)],
    length := digits.length, inTemplate := isPlain }

/-- The escape that a text behind a backslash starts with. -/
def read : List Char → Escape
  | 'n' :: _ => { value := [.char '\n'], length := 1 }
  | 't' :: _ => { value := [.char '\t'], length := 1 }
  | 'r' :: _ => { value := [.char '\r'], length := 1 }
  | 'b' :: _ => { value := [.char '\x08'], length := 1 }
  | 'f' :: _ => { value := [.char '\x0C'], length := 1 }
  | 'v' :: _ => { value := [.char '\x0B'], length := 1 }
  | 'x' :: rest =>
    let digits := hexadecimalDigits 2 rest
    if digits.length < 2 then { length := digits.length + 1, isSound := false }
    else { value := [piece (hexadecimalValue digits)], length := 3 }
  | 'u' :: '\x7b' :: rest => braced rest
  | 'u' :: rest => fourDigits rest
  | '\r' :: '\n' :: _ => { length := 2 }
  | c :: rest =>
    if endsLine c then { length := 1 }
    else if '0' ≤ c && c ≤ '7' then octal (c :: rest)
    else { value := [.char c], length := 1, inTemplate := c != '8' && c != '9' }
  | [] => { length := 0 }

end Escape

/-- A string as it was read. -/
structure StringText where
  value : List StringPiece := []
  length : Nat
  isSound : Bool := true

namespace StringText

def behind (value : List StringPiece) (length : Nat) (s : StringText) : StringText :=
  { s with value := value ++ s.value, length := length + s.length }

/-- Reads a string up to its quote; `skip` characters of an escape are left to drop. -/
def read (quote : Char) : (skip : Nat) → List Char → Option StringText
  | _, [] => none
  | skip + 1, _ :: rest => (read quote skip rest).map (behind [] 1)
  | 0, c :: rest =>
    if c = quote then some { length := 1 }
    else if c = '\\' then
      let escape := Escape.read rest
      (read quote escape.length rest).map fun s =>
        { s.behind escape.value 1 with isSound := escape.isSound && s.isSound }
    else if c = '\n' || c = '\r' then none
    else (read quote 0 rest).map (behind [.char c] 1)

/-- A number as four digits to base sixteen. -/
def fourDigits (n : Nat) : List Char :=
  let digits := Nat.toDigits 16 n
  List.replicate (4 - digits.length) '0' ++ digits

/-- The value as a text.  Halves of characters are written by their numbers behind the sign for what
is no character, and then that sign is written in the same way. -/
def text (s : StringText) : String :=
  let spell (p : StringPiece) : List Char :=
    match p with
    | .char c => if c == '\uFFFD' then c :: fourDigits 0xFFFD else [c]
    | .half n => '\uFFFD' :: fourDigits n
  let plain (p : StringPiece) : Option Char :=
    match p with
    | .char c => some c
    | .half _ => none
  match s.value.mapM plain with
  | some text => String.ofList text
  | none => String.ofList (s.value.flatMap spell)

def isWhole (s : StringText) : Bool :=
  s.value.all fun
    | .char _ => true
    | .half _ => false

end StringText

def startsName (c : Char) : Bool := c == '_' || c == '$' || Text.startsName c

def isInName (c : Char) : Bool := c == '$' || Text.isInName c

/-- A name as it was read. -/
structure NameText where
  name : List Char := []
  length : Nat := 0
  isEscaped : Bool := false

namespace NameText

/-- The character that a text behind a backslash stands for in a name, and the number of its
characters. -/
def escape? : List Char → Option (Char × Nat)
  | 'u' :: '\x7b' :: rest => single (Escape.braced rest)
  | 'u' :: rest => single (Escape.fourDigits rest)
  | _ => none
where
  /-- The one character that an escape stands for. -/
  single (e : Escape) : Option (Char × Nat) :=
    match e with
    | { value := [.char c], length, .. } => some (c, length)
    | _ => none

/-- Reads the name that a text starts with, or the rest of a name; `skip` characters of an escape
are left to drop.  There is none if a backslash stands for nothing that belongs to a name. -/
def read : (first : Bool) → (skip : Nat) → List Char → Option NameText
  | _, _, [] => some {}
  | first, skip + 1, _ :: rest =>
    (read first skip rest).map fun n => { n with length := n.length + 1 }
  | first, 0, c :: rest =>
    let fits (c : Char) : Bool := if first then startsName c else isInName c
    if c = '\\' then
      match escape? rest with
      | some (d, length) =>
        if fits d then
          (read false length rest).map fun n =>
            { name := d :: n.name, length := n.length + 1, isEscaped := true }
        else none
      | none => none
    else if fits c then
      (read false 0 rest).map fun n => { n with name := c :: n.name, length := n.length + 1 }
    else some {}

end NameText

end ModuleLoader.TypeScript
