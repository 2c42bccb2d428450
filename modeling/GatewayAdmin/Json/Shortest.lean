import GatewayAdmin.Text.Numeral
/-! The fewest decimal digits that read back as a given floating-point number, found by exact
arithmetic on natural numbers, and how they are written in a JSON text. -/
namespace GatewayAdmin.Json.Shortest

/-- The positive number `mantissa * 2 ^ exponent`. -/
structure Binary where
  mantissa : Nat
  exponent : Int
  /-- At a power of two the next smaller number is only half as far away. -/
  atPower : Bool

def ofBits (bits : UInt64) : Binary :=
  let n : Nat := bits.toNat % Nat.pow 2 63
  let e : Nat := n / Nat.pow 2 52
  let fraction : Nat := n % Nat.pow 2 52
  if e = 0 then ⟨fraction, -1074, false⟩
  else ⟨fraction + Nat.pow 2 52, (e : Int) - 1075, fraction = 0 && 1 < e⟩

/-- The number and the ends of the interval that rounds to it, over a common denominator. -/
structure Interval where
  low : Nat
  value : Nat
  high : Nat
  denominator : Nat
  closed : Bool

/-- In quarters of the last binary place, so that both midpoints are whole. -/
def Binary.interval (b : Binary) : Interval :=
  let unit := if 0 ≤ b.exponent then Nat.pow 2 b.exponent.toNat else 1
  let denominator := if 0 ≤ b.exponent then 4 else 4 * Nat.pow 2 b.exponent.natAbs
  let below := if b.atPower then 1 else 2
  ⟨(4 * b.mantissa - below) * unit, 4 * b.mantissa * unit, (4 * b.mantissa + 2) * unit, denominator,
    b.mantissa % 2 = 0⟩

/-- Multiplies by `10 ^ places`. -/
def Interval.shift (i : Interval) (places : Int) : Interval :=
  if 0 ≤ places then
    let p := Nat.pow 10 places.toNat
    { i with low := i.low * p, value := i.value * p, high := i.high * p }
  else { i with denominator := i.denominator * Nat.pow 10 places.natAbs }

/-- Does the whole number `n` round to the value? -/
def Interval.contains (i : Interval) (n : Nat) : Bool :=
  let m := n * i.denominator
  if i.closed then i.low ≤ m && m ≤ i.high else i.low < m && m < i.high

/-- The whole number in the interval that is nearest to the value; a tie goes to the even one. -/
def Interval.nearest? (i : Interval) : Option Nat :=
  let below := i.value / i.denominator
  let above := below + 1
  let gapBelow := i.value - below * i.denominator
  let gapAbove := above * i.denominator - i.value
  let preferred :=
    if gapBelow < gapAbove || (gapBelow = gapAbove && below % 2 = 0) then [below, above]
    else [above, below]
  preferred.find? i.contains

/-- A positive decimal number: digits without a zero at the end, and the power of ten of the
first one. -/
structure Decimal where
  digits : List Char
  exponent : Int

def Decimal.ofNat (n : Nat) (lastPlace : Int) : Decimal :=
  let digits := Text.decimalChars n
  ⟨(digits.reverse.dropWhile (· = '0')).reverse, lastPlace + digits.length - 1⟩

/-- The power of ten of the first digit, or one less. -/
def Interval.exponentGuess (i : Interval) : Int :=
  if i.denominator ≤ i.value then ((Text.decimalChars (i.value / i.denominator)).length : Int) - 1
  else -((Text.decimalChars (i.denominator / i.value)).length : Int)

/-- Tries ever finer decimal grids; at the finest of 17 digits there always is a number. -/
def digits (b : Binary) : Decimal :=
  let i := b.interval
  let e := i.exponentGuess
  let hit := (List.range 19).findSome? fun (k : Nat) =>
    let places : Int := (k : Int) - e
    ((i.shift places).nearest?.filter (· ≠ 0)).map fun n => Decimal.ofNat n (-places)
  hit.getD ⟨['0'], 0⟩

/-- Exponents from -5 to 15 are written out, with a fraction always; the others are marked by `e`
and have a sign. -/
def write (d : Decimal) : List Char :=
  let count : Int := d.digits.length
  if 0 ≤ d.exponent ∧ d.exponent < 16 then
    let wholeLength := d.exponent.toNat + 1
    let zeros := List.replicate (wholeLength - d.digits.length) '0'
    let fraction := d.digits.drop wholeLength
    d.digits.take wholeLength ++ zeros ++ ['.'] ++ (if fraction.isEmpty then ['0'] else fraction)
  else if -5 ≤ d.exponent ∧ d.exponent < 0 then
    ['0', '.'] ++ List.replicate (d.exponent.natAbs - 1) '0' ++ d.digits
  else
    let fraction := d.digits.drop 1
    d.digits.take 1 ++ (if count = 1 then [] else '.' :: fraction) ++
      ['e', if d.exponent < 0 then '-' else '+'] ++ Text.decimalChars d.exponent.natAbs

/-- Numbers that are neither infinite nor undefined. -/
def text (bits : UInt64) : List Char :=
  let minus := if bits.toNat / Nat.pow 2 63 % 2 = 1 then ['-'] else []
  if bits.toNat % Nat.pow 2 63 = 0 then minus ++ ['0', '.', '0']
  else minus ++ write (digits (ofBits bits))

end GatewayAdmin.Json.Shortest
