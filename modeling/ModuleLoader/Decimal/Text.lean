import ModuleLoader.Decimal.Double
import ModuleLoader.Text.Split

/-! Texts of doubles.  `positional` never writes an exponent; `scientific` writes one outside a
range and always shows that the number is not an integer literal; `read?` reads both, and the names
of infinity and of the number that is none. -/

namespace ModuleLoader.Decimal

/-- The sign bit of a double is set. -/
def isNegative (x : Float) : Bool := x.toBits ≥ 0x8000000000000000

/-- The text of a double made from the text of its magnitude, with the names that every text of
doubles shares. -/
def signed (x : Float) (zero : String) (magnitude : Scaled → String) : String :=
  let bits := x.toBits &&& 0x7FFFFFFFFFFFFFFF
  if bits > 0x7FF0000000000000 then "NaN"
  else
    (if isNegative x then "-" else "") ++
      if bits = 0x7FF0000000000000 then "inf"
      else if bits = 0 then zero
      else magnitude (shortest (Binary.ofBits bits))

/-- Digits with a point after the first `point` of them, and zeros where digits are missing. -/
def withPoint (digits : List Char) (point : Int) : String :=
  if point ≤ 0 then
    "0." ++ String.ofList (List.replicate (-point).toNat '0' ++ digits)
  else
    let whole := digits.take point.toNat
    let whole := whole ++ List.replicate (point.toNat - whole.length) '0'
    let rest := digits.drop point.toNat
    String.ofList (if rest.isEmpty then whole else whole ++ '.' :: rest)

/-- The shortest digits that read back, without an exponent: `1`, `-0`, `0.000001`. -/
def positional (x : Float) : String :=
  signed x "0" fun s =>
    let digits := Nat.toDigits 10 s.digits
    withPoint digits (digits.length + s.exponent)

/-- The shortest digits that read back, with a point or an exponent: `1.0`, `1e16`, `1.5e-7`. -/
def scientific (x : Float) : String :=
  signed x "0.0" fun s =>
    let digits := Nat.toDigits 10 s.digits
    let point : Int := digits.length + s.exponent
    if 0 ≤ s.exponent && point ≤ 16 then withPoint digits point ++ ".0"
    else if -5 < point && point ≤ 16 then withPoint digits point
    else
      let front := match digits with
        | [] => []
        | [d] => [d]
        | d :: rest => d :: '.' :: rest
      String.ofList front ++ "e" ++ toString (point - 1)

def digitsValue (digits : List Char) : Nat :=
  digits.foldl (fun n c => n * 10 + (c.toNat - '0'.toNat)) 0

/-- An exponent after its mark: an optional sign, and at least one digit up to the end. -/
def readExponent? (text : List Char) : Option Int :=
  let (negative, digits) := match text with
    | '-' :: rest => (true, rest)
    | '+' :: rest => (false, rest)
    | _ => (false, text)
  if digits.isEmpty || !digits.all Char.isDigit then none
  else some (if negative then -(digitsValue digits : Int) else digitsValue digits)

/-- A magnitude: digits with an optional point among or around them, and an optional exponent. -/
def readMagnitude? (text : List Char) : Option Float :=
  let whole := text.takeWhile Char.isDigit
  let rest := text.dropWhile Char.isDigit
  let (fraction, rest) := match rest with
    | '.' :: tail => (tail.takeWhile Char.isDigit, tail.dropWhile Char.isDigit)
    | _ => ([], rest)
  if whole.isEmpty && fraction.isEmpty then none
  else
    let value (exponent : Int) :=
      toDouble (digitsValue (whole ++ fraction)) (exponent - fraction.length)
    match rest with
    | [] => some (value 0)
    | c :: tail => if c = 'e' || c = 'E' then (readExponent? tail).map value else none

/-- The double that a text denotes, correctly rounded. -/
def read? (text : String) : Option Float :=
  let (negative, rest) := match text.toList with
    | '-' :: rest => (true, rest)
    | '+' :: rest => (false, rest)
    | rest => (false, rest)
  let name := String.ofList (rest.map Char.toLower)
  let magnitude :=
    if name = "inf" || name = "infinity" then some (Float.ofBits 0x7FF0000000000000)
    else if name = "nan" then some (Float.ofBits 0x7FF8000000000000)
    else readMagnitude? rest
  magnitude.map fun x => if negative then -x else x

end ModuleLoader.Decimal
