import GatewayAdmin.Json.Token
/-! The numbers that a JSON text denotes: integers of 64 bits, signed or unsigned, and otherwise
floating-point numbers, which are kept by their bits. -/
namespace GatewayAdmin.Json

inductive Number where
  | integer (n : Int)
  | float (bits : UInt64)
deriving DecidableEq

def maxUInt64 : Nat := 18446744073709551615

/-- Decimal digits taken up while the value fits in 64 bits, and how many were left. -/
structure Significand where
  value : Nat
  left : Nat
deriving DecidableEq

/-- Once a digit does not fit, none of the later ones is taken up. -/
def Significand.push (s : Significand) (d : Nat) : Significand :=
  if s.left = 0 && 10 * s.value + d ≤ maxUInt64 then ⟨10 * s.value + d, 0⟩
  else ⟨s.value, s.left + 1⟩

def Significand.ofDigits (value : Nat) (digits : List Nat) : Significand :=
  digits.foldl Significand.push ⟨value, 0⟩

def maxExponent : Nat := 2147483647

/-- The exponent that is written, unless it is too large to be kept. -/
def exponentValue? (digits : List Nat) : Option Nat :=
  digits.foldl (fun acc d => acc.bind fun n =>
    if 10 * n + d ≤ maxExponent then some (10 * n + d) else none) (some 0)

def powerOfTen (n : Nat) : Float := Float.ofScientific 1 false n

/-- Divides by a power of ten in steps, each within the range of the powers that are numbers. -/
def divideByPower (f : Float) (n : Nat) : Float :=
  if h : n ≤ 308 then f / powerOfTen n
  else if f == 0.0 then f
  else divideByPower (f / powerOfTen 308) (n - 308)
termination_by n
decreasing_by omega

/-- `none` when the number is too large. -/
def scale? (significand : Nat) (exponent : Int) : Option Float :=
  let f := (UInt64.ofNat significand).toFloat
  if exponent < 0 then some (divideByPower f exponent.natAbs)
  else if exponent ≤ 308 then
    let g := f * powerOfTen exponent.toNat
    if g.isInf then none else some g
  else if f == 0.0 then some f else none

def signedFloat (negative : Bool) (f : Float) : Number :=
  .float (if negative then -f else f).toBits

/-- A number with a fraction, an exponent or more digits than an integer may have. -/
def NumberText.float? (n : NumberText) : Option Number :=
  let whole := Significand.ofDigits 0 n.whole
  let (significand, exponent) := match n.fraction with
    | none => (whole.value, (whole.left : Int))
    | some digits =>
      let all := Significand.ofDigits whole.value digits
      (all.value, (whole.left : Int) - ((digits.length - all.left : Nat) : Int))
  match n.exponent with
  | none => (scale? significand exponent).map (signedFloat n.negative)
  | some (down, digits) =>
    match exponentValue? digits with
    | some e =>
      let exponent := if down then exponent - e else exponent + e
      (scale? significand exponent).map (signedFloat n.negative)
    | none => if significand ≠ 0 && !down then none else some (signedFloat n.negative 0.0)

/-- A negative zero is no integer. -/
def NumberText.number? (n : NumberText) : Option Number :=
  let whole := Significand.ofDigits 0 n.whole
  if n.fraction.isNone && n.exponent.isNone && whole.left = 0 then
    if !n.negative then some (.integer whole.value)
    else if 1 ≤ whole.value && whole.value ≤ 9223372036854775808 then
      some (.integer (-(whole.value : Int)))
    else some (signedFloat true (UInt64.ofNat whole.value).toFloat)
  else n.float?

end GatewayAdmin.Json
