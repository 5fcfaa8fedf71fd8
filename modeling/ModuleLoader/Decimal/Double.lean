/-! Double-precision numbers in exact arithmetic: the double nearest to a ratio, the parts of a
double, and the shortest decimal that reads back as a given double. -/

namespace ModuleLoader.Decimal

/-- The quotient of two numbers rounded to the nearest integer, a half to the even neighbour. -/
def roundDiv (num den : Nat) : Nat :=
  let q := num / den
  let twice := 2 * (num % den)
  if twice < den then q else if den < twice then q + 1 else if q % 2 = 0 then q else q + 1

/-- The bits of the double nearest to `num / den`, a tie going to the even significand; past the
largest double they are those of infinity. -/
def bitsOfRatio (num den : Nat) : UInt64 :=
  if num = 0 then 0
  else
    -- The exponent is chosen so that the significand has 53 bits, or fewer near zero.
    let guess : Int := (Nat.log2 num : Int) - (Nat.log2 den : Int) - 53
    let scaled (e : Int) : Nat × Nat :=
      if e < 0 then (num * Nat.pow 2 (-e).toNat, den) else (num, den * Nat.pow 2 e.toNat)
    let fits (e : Int) : Bool := let (n, d) := scaled e; n < d * Nat.pow 2 53
    let exponent := max (if fits guess then guess else if fits (guess + 1) then guess + 1
      else guess + 2) (-1074)
    let (n, d) := scaled exponent
    let significand := roundDiv n d
    let (significand, exponent) :=
      if significand = Nat.pow 2 53 then (Nat.pow 2 52, exponent + 1) else (significand, exponent)
    if exponent > 971 then 0x7FF0000000000000
    else if significand < Nat.pow 2 52 then significand.toUInt64
    else ((exponent + 1075).toNat * Nat.pow 2 52 + (significand - Nat.pow 2 52)).toUInt64

/-- The double nearest to `significand * 10 ^ exponent`. -/
def toDouble (significand : Nat) (exponent : Int) : Float :=
  let size : Int := (Nat.toDigits 10 significand).length + exponent
  if significand = 0 || size < -400 then 0
  else if size > 400 then Float.ofBits 0x7FF0000000000000
  else if exponent < 0 then Float.ofBits (bitsOfRatio significand (Nat.pow 10 (-exponent).toNat))
  else Float.ofBits (bitsOfRatio (significand * Nat.pow 10 exponent.toNat) 1)

/-- A positive number as an integer times a power of ten. -/
structure Scaled where
  digits : Nat
  exponent : Int

/-- A positive finite double: `significand * 2 ^ exponent`, and whether the gap below it is half
of the gap above it. -/
structure Binary where
  significand : Nat
  exponent : Int
  narrowBelow : Bool

/-- The parts of the finite double with the given bits, its sign left out. -/
def Binary.ofBits (bits : UInt64) : Binary :=
  let fraction : Nat := bits.toNat % Nat.pow 2 52
  let biased : Nat := bits.toNat / Nat.pow 2 52 % Nat.pow 2 11
  if biased = 0 then ⟨fraction, -1074, false⟩
  else ⟨Nat.pow 2 52 + fraction, (biased : Int) - 1075, fraction = 0 && biased > 1⟩

/-- The numbers that read back as a given double, as `low / den` to `high / den`, with the double
itself at `value / den`; the ends belong to them when `closed`. -/
structure Interval where
  low : Nat
  value : Nat
  high : Nat
  den : Nat
  closed : Bool

def Binary.interval (b : Binary) : Interval :=
  let up := Nat.pow 2 (b.exponent - 2).toNat
  let down := Nat.pow 2 (2 - b.exponent).toNat
  { low := (4 * b.significand - if b.narrowBelow then 1 else 2) * up
    value := 4 * b.significand * up
    high := (4 * b.significand + 2) * up
    den := down
    closed := b.significand % 2 = 0 }

/-- The multiple `n * 10 ^ k` lies in the interval. -/
def Interval.contains (i : Interval) (n : Nat) (k : Int) : Bool :=
  let x := n * Nat.pow 10 k.toNat * i.den
  let low := i.low * Nat.pow 10 (-k).toNat
  let high := i.high * Nat.pow 10 (-k).toNat
  if i.closed then low ≤ x && x ≤ high else low < x && x < high

/-- The multiple of `10 ^ k` that lies in the interval and is nearest to its value. -/
def Interval.nearest? (i : Interval) (k : Int) : Option Nat :=
  let num := i.value * Nat.pow 10 (-k).toNat
  let den := i.den * Nat.pow 10 k.toNat
  let below := num / den
  match i.contains below k, i.contains (below + 1) k with
  | true, true => some (roundDiv num den)
  | true, false => some below
  | false, true => some (below + 1)
  | false, false => none

/-- The number of digits before the point, negative for zeros after it. -/
def Interval.magnitude (i : Interval) : Int :=
  if i.den ≤ i.value then (Nat.toDigits 10 (i.value / i.den)).length
  else
    let inverse := (Nat.toDigits 10 (i.den / i.value)).length
    if i.den ≤ i.value * Nat.pow 10 (inverse - 1) then 2 - inverse else 1 - inverse

/-- The digits without the zeros at their end, which go to the exponent. -/
def Scaled.normal (s : Scaled) : Scaled :=
  let digits := (Nat.toDigits 10 s.digits).reverse
  let zeros := (digits.takeWhile (· == '0')).length
  if s.digits = 0 then s else ⟨s.digits / Nat.pow 10 zeros, s.exponent + zeros⟩

/-- The shortest decimal that reads back as the given positive double; of several, the nearest. -/
def shortest (b : Binary) : Scaled :=
  let i := b.interval
  let grids : List Int := (List.range 17).map fun (n : Nat) => i.magnitude - (n + 1 : Nat)
  match grids.findSome? fun k => (i.nearest? k).map fun n => Scaled.mk n k with
  | some s => s.normal
  | none => ⟨b.significand, 0⟩

end ModuleLoader.Decimal
