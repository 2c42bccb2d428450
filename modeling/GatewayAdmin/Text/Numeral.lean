/-! Numbers written in digits: decimal and hexadecimal digits, integers of a bounded type. -/
namespace GatewayAdmin.Text

def digitValue? (c : Char) : Option Nat :=
  if '0' ≤ c ∧ c ≤ '9' then some (c.toNat - '0'.toNat) else none

def hexValue? (c : Char) : Option Nat :=
  if '0' ≤ c ∧ c ≤ '9' then some (c.toNat - '0'.toNat)
  else if 'a' ≤ c ∧ c ≤ 'f' then some (c.toNat - 'a'.toNat + 10)
  else if 'A' ≤ c ∧ c ≤ 'F' then some (c.toNat - 'A'.toNat + 10)
  else none

def digitsValue? (cs : List Char) : Option Nat :=
  cs.foldl (fun acc c => acc.bind fun n => (digitValue? c).map (10 * n + ·)) (some 0)

/-- Only digits, and at least one. -/
def natural? (cs : List Char) : Option Nat :=
  if cs.isEmpty then none else digitsValue? cs

/-- Digits after an optional plus sign, for a number not above `bound`. -/
def unsigned? (bound : Nat) (s : String) : Option Nat :=
  let digits := match s.toList with
    | '+' :: r => r
    | r => r
  (natural? digits).filter (· ≤ bound)

/-- Digits after an optional sign, for a number between `low` and `high`. -/
def signed? (low high : Int) (s : String) : Option Int :=
  let value := match s.toList with
    | '-' :: r => (natural? r).map fun n => -(n : Int)
    | '+' :: r => (natural? r).map Int.ofNat
    | r => (natural? r).map Int.ofNat
  value.filter fun n => low ≤ n && n ≤ high

def decimalChars (n : Nat) : List Char := Nat.toDigits 10 n

def decimal (n : Nat) : String := String.ofList (decimalChars n)

def integerChars (n : Int) : List Char :=
  if n < 0 then '-' :: decimalChars n.natAbs else decimalChars n.natAbs

def integer (n : Int) : String := String.ofList (integerChars n)

/-- At least `width` digits, with zeros in front. -/
def paddedChars (width n : Nat) : List Char :=
  let digits := decimalChars n
  List.replicate (width - digits.length) '0' ++ digits

def hexDigit (n : Nat) : Char := Nat.digitChar n

def hexDigitUpper (n : Nat) : Char :=
  if n < 10 then Char.ofNat (48 + n) else Char.ofNat (55 + n)

end GatewayAdmin.Text
