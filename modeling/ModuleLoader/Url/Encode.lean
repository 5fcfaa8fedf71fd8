import ModuleLoader.Text.Utf8

/-! Percent-encoding.  Each part of a URL has its own set of ASCII characters that it writes as
percent signs with hexadecimal digits; characters past ASCII are always written so. -/

namespace ModuleLoader.Url

/-- Control characters, which no part of a URL shows. -/
def escapesControl (c : Char) : Bool := c.toNat < 0x20 || c.toNat == 0x7F

def escapesInFragment (c : Char) : Bool := escapesControl c || " \"<>`".toList.contains c

def escapesInPath (c : Char) : Bool := escapesInFragment c || "#?\x7b\x7d".toList.contains c

/-- The characters that a user name or password escapes. -/
def escapesInUser (c : Char) : Bool := escapesInPath c || "/:;=@[\\]^|".toList.contains c

def escapesInQuery (c : Char) : Bool := escapesControl c || " \"#<>".toList.contains c

/-- The characters that a query escapes in the schemes with a hierarchy of their own. -/
def escapesInSpecialQuery (c : Char) : Bool := escapesInQuery c || c == '\''

/-- The characters that the name of a file escapes when it becomes a name of a URL. -/
def escapesInFileName (c : Char) : Bool := escapesInPath c || "/%\\".toList.contains c

/-- The uppercase hexadecimal digit of a number below sixteen. -/
def hexDigit (n : Nat) : Char := if n < 10 then Char.ofNat (48 + n) else Char.ofNat (55 + n)

/-- A byte as a percent sign and two hexadecimal digits. -/
def percentByte (b : UInt8) : List Char := ['%', hexDigit (b.toNat / 16), hexDigit (b.toNat % 16)]

/-- A byte as itself, or escaped if it is past ASCII or in the set. -/
def encodeByte (escapes : Char → Bool) (b : UInt8) : List Char :=
  let c := Char.ofNat b.toNat
  if b < 0x80 && !escapes c then [c] else percentByte b

/-- Bytes with the set and all past ASCII escaped. -/
def encodeBytes (escapes : Char → Bool) (bytes : List UInt8) : List Char :=
  bytes.flatMap (encodeByte escapes)

/-- A text with the set and all past ASCII escaped. -/
def encode (escapes : Char → Bool) (text : List Char) : List Char :=
  encodeBytes escapes (Text.Utf8.encode text)

def hexValue? (c : Char) : Option Nat :=
  if '0' ≤ c && c ≤ '9' then some (c.toNat - 48)
  else if 'a' ≤ c && c ≤ 'f' then some (c.toNat - 87)
  else if 'A' ≤ c && c ≤ 'F' then some (c.toNat - 55)
  else none

/-- The bytes of a text in which percent signs with two hexadecimal digits stand for bytes. -/
def decode : List Char → List UInt8
  | '%' :: high :: low :: rest =>
    match hexValue? high, hexValue? low with
    | some h, some l => (h * 16 + l).toUInt8 :: decode rest
    | _, _ => String.utf8EncodeChar '%' ++ decode (high :: low :: rest)
  | c :: rest => String.utf8EncodeChar c ++ decode rest
  | [] => []

end ModuleLoader.Url
