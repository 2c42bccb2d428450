import GatewayAdmin.Instant
import GatewayAdmin.Text.Cut
/-! Reading an instant from text. The form is that of RFC 3339, read loosely: white space may
surround the components, leading zeros may be missing, and there are several ways to write the
offset. -/
namespace GatewayAdmin.Timestamp

open Text Calendar

def isDigit (c : Char) : Bool := '0' ≤ c && c ≤ '9'

def skipBlanks (cs : List Char) : List Char := cs.dropWhile isBlank

/-- At least one digit and at most `width`. -/
def number? (width : Nat) (cs : List Char) : Option (Nat × List Char) := do
  let digits := (cs.takeWhile isDigit).take width
  let n ← natural? digits
  return (n, cs.drop digits.length)

def longNumber? (cs : List Char) : Option (Nat × List Char) :=
  number? cs.length cs

def literal? (c : Char) (cs : List Char) : Option (List Char) :=
  match cs with
  | d :: r => if d = c then some r else none
  | [] => none

/-- A number of one or two digits. -/
def component? (cs : List Char) : Option (Nat × List Char) := number? 2 (skipBlanks cs)

/-- Four digits at most, unless a sign stands before them. -/
def year? (cs : List Char) : Option (Int × List Char) :=
  match skipBlanks cs with
  | '-' :: r => (longNumber? r).map fun p => (-(p.1 : Int), p.2)
  | '+' :: r => (longNumber? r).map fun p => (p.1, p.2)
  | r => (number? 4 r).map fun p => (p.1, p.2)

def date? (cs : List Char) : Option (Date × List Char) := do
  let (year, cs) ← year? cs
  let cs ← literal? '-' (skipBlanks cs)
  let (month, cs) ← component? cs
  let cs ← literal? '-' (skipBlanks cs)
  let (day, cs) ← component? cs
  return (⟨year, month, day⟩, cs)

def separator? (cs : List Char) : Option (List Char) :=
  match cs with
  | 'T' :: r | 't' :: r | ' ' :: r => some r
  | _ => none

/-- Nanoseconds; digits after the ninth are dropped. -/
def fraction? (cs : List Char) : Option (Nat × List Char) :=
  match cs with
  | '.' :: r => do
    let digits := r.takeWhile isDigit
    let kept := digits.take 9
    let n ← natural? kept
    return (n * Nat.pow 10 (9 - kept.length), r.drop digits.length)
  | _ => some (0, cs)

structure Clock where
  hour : Nat
  minute : Nat
  second : Nat
  nanos : Nat
deriving DecidableEq

/-- Second 60 is a leap second in any minute. -/
def Clock.isValid (c : Clock) : Bool := c.hour ≤ 23 && c.minute ≤ 59 && c.second ≤ 60

def clock? (cs : List Char) : Option (Clock × List Char) := do
  let (hour, cs) ← component? cs
  let cs ← literal? ':' (skipBlanks cs)
  let (minute, cs) ← component? cs
  let cs ← literal? ':' (skipBlanks cs)
  let (second, cs) ← component? cs
  let (nanos, cs) ← fraction? cs
  return (⟨hour, minute, second, nanos⟩, cs)

def twoDigits? (cs : List Char) : Option (Nat × List Char) :=
  match cs with
  | a :: b :: r => (natural? [a, b]).map (·, r)
  | _ => none

/-- Minutes east of Greenwich, after the sign. -/
def offsetMinutes? (cs : List Char) : Option (Int × List Char) := do
  let (hours, cs) ← twoDigits? cs
  let (minutes, cs) ← twoDigits? (cs.dropWhile fun c => c = ':' || isBlank c)
  if hours < 24 ∧ minutes < 60 then some (60 * hours + minutes, cs) else none

def isUtcName (cs : List Char) : Bool := (cs.take 3).map Char.toUpper = ['U', 'T', 'C']

def offset? (cs : List Char) : Option (Int × List Char) :=
  if isUtcName cs then some (0, cs.drop 3)
  else match cs with
    | 'Z' :: r | 'z' :: r => some (0, r)
    | '+' :: r => offsetMinutes? r
    | '-' :: r | '\u2212' :: r => (offsetMinutes? r).map fun p => (-p.1, p.2)
    | _ => none

def isYearInRange (y : Int) : Bool := -262143 ≤ y && y ≤ 262142

/-- The instant at which a place with this offset has this date and time. -/
def instant? (date : Date) (clock : Clock) (offsetMinutes : Int) : Option Instant :=
  if date.isValid && clock.isValid && isYearInRange date.year then
    let second := min clock.second 59
    let leap := if clock.second = 60 then 1000000000 else 0
    let secondOfDay := clock.hour * 3600 + clock.minute * 60 + second
    Instant.ofUnix? (date.toDays * 86400 + secondOfDay - offsetMinutes * 60) (clock.nanos + leap)
  else none

def read? (s : String) : Option Instant := do
  let (date, cs) ← date? s.toList
  let cs ← separator? cs
  let (clock, cs) ← clock? cs
  let (offset, cs) ← offset? (skipBlanks cs)
  if (skipBlanks cs).isEmpty then instant? date clock offset else none

end GatewayAdmin.Timestamp
