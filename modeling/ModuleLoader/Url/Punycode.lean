import ModuleLoader.Text.Split

/-! Punycode: a text as its ASCII characters followed by the places of all others, written in
digits of a base of thirty-six whose weights adapt to what was written before. -/

namespace ModuleLoader.Url.Punycode

/-- The digit of a number below thirty-six: a letter, or a decimal digit from twenty-six on. -/
def digit (n : Nat) : Char := if n < 26 then Char.ofNat (97 + n) else Char.ofNat (22 + n)

def value? (c : Char) : Option Nat :=
  if '0' ≤ c && c ≤ '9' then some (c.toNat - 22)
  else if 'a' ≤ c && c ≤ 'z' then some (c.toNat - 97)
  else if 'A' ≤ c && c ≤ 'Z' then some (c.toNat - 65)
  else none

/-- The steps by which a distance is brought below the limit of the bias, with their number. -/
def damp : (fuel : Nat) → (delta steps : Nat) → Nat × Nat
  | 0, delta, steps => (delta, steps)
  | fuel + 1, delta, steps =>
    if 455 < delta then damp fuel (delta / 35) (steps + 36) else (delta, steps)

/-- The bias after a distance was written, where `count` characters are placed. -/
def adapt (delta count : Nat) (isFirst : Bool) : Nat :=
  let delta := if isFirst then delta / 700 else delta / 2
  let (delta, steps) := damp 16 (delta + delta / count) 0
  steps + 36 * delta / (delta + 38)

/-- The limit of the digit at position `k`. -/
def threshold (k bias : Nat) : Nat := if k ≤ bias then 1 else if bias + 26 ≤ k then 26 else k - bias

def distanceDigits : (fuel : Nat) → (q k bias : Nat) → List Char
  | 0, q, _, _ => [digit q]
  | fuel + 1, q, k, bias =>
    let t := threshold k bias
    if q < t then [digit q]
    else digit (t + (q - t) % (36 - t)) :: distanceDigits fuel ((q - t) / (36 - t)) (k + 36) bias

/-- What the encoder carries along the text for one character: the distance since the last one
written, the bias, the characters placed, and the digits. -/
structure Writer where
  delta : Nat
  bias : Nat
  placed : Nat
  basic : Nat
  output : List Char

/-- One pass over the text that places every occurrence of the character `n`. -/
def Writer.pass (w : Writer) (n : Nat) (text : List Char) : Writer :=
  text.foldl (fun w c =>
    if c.toNat < n then { w with delta := w.delta + 1 }
    else if c.toNat = n then
      { w with
        output := w.output ++ distanceDigits 16 w.delta 36 w.bias
        bias := adapt w.delta (w.placed + 1) (w.placed == w.basic)
        delta := 0
        placed := w.placed + 1 }
    else w) w

/-- The passes for the characters of `order`, which rises from above `n`. -/
def Writer.passes (w : Writer) (n : Nat) (text : List Char) : List Nat → Writer
  | [] => w
  | m :: order =>
    let w := { w with delta := w.delta + (m - n) * (w.placed + 1) }
    let w := w.pass m text
    passes { w with delta := w.delta + 1 } (m + 1) text order

def encode (text : List Char) : List Char :=
  let basic := text.filter fun c => c.toNat < 128
  let order := (Text.distinct ((text.map Char.toNat).filter (128 ≤ ·))).mergeSort
  let start : Writer :=
    ⟨0, 72, basic.length, basic.length, if basic.isEmpty then [] else basic ++ ['-']⟩
  (start.passes 128 text order).output

/-- A distance read off digits, with the digits behind it. -/
def readDistance : (digits : List Char) → (total weight k bias : Nat) → Option (Nat × List Char)
  | [], _, _, _, _ => none
  | c :: rest, total, weight, k, bias =>
    match value? c with
    | none => none
    | some d =>
      let total := total + d * weight
      let t := threshold k bias
      if d < t then some (total, rest)
      else readDistance rest total (weight * (36 - t)) (k + 36) bias

/-- The text with the characters placed that the digits describe. -/
def place : (fuel : Nat) → (digits text : List Char) → (i n bias : Nat) → Option (List Char)
  | _, [], text, _, _, _ => some text
  | 0, _ :: _, _, _, _, _ => none
  | fuel + 1, digits, text, i, n, bias => do
    let (distance, rest) ← readDistance digits 0 1 36 bias
    let length := text.length + 1
    let i' := i + distance
    let n := n + i' / length
    let i' := i' % length
    if 0x10FFFF < n || (0xD800 ≤ n && n ≤ 0xDFFF) then none
    place fuel rest (text.take i' ++ Char.ofNat n :: text.drop i') (i' + 1) n
      (adapt distance length (i == 0))

def decode? (code : List Char) : Option (List Char) :=
  let (basic, digits) := (Text.splitLast? '-' code).getD ([], code)
  place code.length digits basic 0 128 72

end ModuleLoader.Url.Punycode
