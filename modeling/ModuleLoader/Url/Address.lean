import ModuleLoader.Text.Split
import ModuleLoader.Url.Encode

/-! Numeric hosts: IPv4 addresses in decimal, octal or hexadecimal numbers, and IPv6 addresses. -/

namespace ModuleLoader.Url

/-- The value of digits in a base, if all of them are digits. -/
def digitsValue? (base : Nat) (digits : List Char) : Option Nat :=
  digits.foldlM (fun n c =>
    match hexValue? c with
    | some d => if d < base then some (n * base + d) else none
    | none => none) 0

/-- A number of an IPv4 address: hexadecimal behind `0x`, octal behind another zero. -/
def ipv4Number? (text : List Char) : Option Nat :=
  match text with
  | [] => none
  | '0' :: 'x' :: rest | '0' :: 'X' :: rest => digitsValue? 16 rest
  | '0' :: d :: rest => digitsValue? 8 (d :: rest)
  | _ => digitsValue? 10 text

/-- A host whose last label is a number has to be an IPv4 address. -/
def endsInNumber (labels : List (List Char)) : Bool :=
  let last? := match labels.reverse with
    | [] :: label :: _ => some label
    | [[]] => none
    | label :: _ => some label
    | [] => none
  match last? with
  | none => false
  | some label => (!label.isEmpty && label.all Char.isDigit) || (ipv4Number? label).isSome

/-- The address of the labels of an IPv4 host: each but the last is one byte, and the last one
fills what is left. -/
def ipv4Address? (labels : List (List Char)) : Option Nat := do
  let labels := if labels.getLast? == some [] then labels.dropLast else labels
  if 4 < labels.length then none
  let numbers ← labels.mapM ipv4Number?
  let last ← numbers.getLast?
  let front := numbers.dropLast
  if front.any (255 < ·) then none
  if Nat.pow 256 (4 - front.length) ≤ last then none
  let high := (front.zip [16777216, 65536, 256]).map fun (n, unit) => n * unit
  return high.foldl (· + ·) last

/-- A byte in decimal without needless zeros, and what follows it. -/
def decimalByte? (text : List Char) : Option (Nat × List Char) :=
  let digits := text.takeWhile Char.isDigit
  if digits.isEmpty || (1 < digits.length && digits.head? == some '0') then none
  else do
    let value ← digitsValue? 10 digits
    if 255 < value then none else some (value, text.drop digits.length)

/-- The four bytes of an IPv4 address that ends an IPv6 address. -/
def ipv4Tail? (text : List Char) : Option (List Nat) := do
  let (a, text) ← decimalByte? text
  let (b, text) ← decimalByte? (← Text.after? ['.'] text)
  let (c, text) ← decimalByte? (← Text.after? ['.'] text)
  let (d, text) ← decimalByte? (← Text.after? ['.'] text)
  if text.isEmpty then some [a * 256 + b, c * 256 + d] else none

/-- The groups of an IPv6 address and the number of groups before the gap.  `read` holds the
groups before the text, and a gap counts as one group that is zero. -/
def ipv6Groups? : (fuel : Nat) → (read : List Nat) → (gap : Option Nat) → List Char →
    Option (List Nat × Option Nat)
  | _, read, gap, [] => some (read, gap)
  | 0, _, _, _ :: _ => none
  | fuel + 1, read, gap, c :: rest =>
    if read.length = 8 then none
    else if c = ':' then
      if gap.isSome then none
      else ipv6Groups? fuel (read ++ [0]) (some (read.length + 1)) rest
    else
      let text := c :: rest
      let digits := (text.take 4).takeWhile fun c => (hexValue? c).isSome
      let value := (digitsValue? 16 digits).getD 0
      match text.drop digits.length with
      | [] => some (read ++ [value], gap)
      | ':' :: tail =>
        if tail.isEmpty then none else ipv6Groups? fuel (read ++ [value]) gap tail
      | '.' :: _ =>
        if digits.isEmpty || 6 < read.length then none
        else (ipv4Tail? text).map fun tail => (read ++ tail, gap)
      | _ => none

def ipv6Address? (text : List Char) : Option (List Nat) := do
  let start ← match text with
    | ':' :: ':' :: rest => some ([0], some 1, rest)
    | ':' :: _ => none
    | [] => none
    | [_] => none
    | _ => some ([], none, text)
  let (read, gap, rest) := start
  let (groups, gap) ← ipv6Groups? text.length read gap rest
  match gap with
  | none => if groups.length = 8 then some groups else none
  | some front =>
    if 8 < groups.length then none
    else some (groups.take front ++ List.replicate (8 - groups.length) 0 ++ groups.drop front)

end ModuleLoader.Url
