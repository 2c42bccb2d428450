/-! The proleptic Gregorian calendar: day numbers counted from 1970-01-01, and dates. -/
namespace GatewayAdmin.Calendar

structure Date where
  year : Int
  month : Nat
  day : Nat
deriving DecidableEq, Repr

def isLeapYear (y : Int) : Bool := y % 4 = 0 && (y % 100 ≠ 0 || y % 400 = 0)

def daysInMonth (y : Int) (m : Nat) : Nat :=
  match m with
  | 4 | 6 | 9 | 11 => 30
  | 2 => if isLeapYear y then 29 else 28
  | _ => 31

def Date.isValid (d : Date) : Bool :=
  1 ≤ d.month && d.month ≤ 12 && 1 ≤ d.day && d.day ≤ daysInMonth d.year d.month

/-- Days from 0000-03-01 to 1970-01-01. -/
def epochShift : Int := 719468

/-- Years are counted from March, so that the leap day is the last day of its year. -/
def Date.toDays (d : Date) : Int :=
  let y := if d.month ≤ 2 then d.year - 1 else d.year
  let monthFromMarch : Int := if d.month ≤ 2 then d.month + 9 else d.month - 3
  365 * y + y / 4 - y / 100 + y / 400 + (153 * monthFromMarch + 2) / 5 + d.day - 1 - epochShift

/-- Cuts the days since 0000-03-01 into spans of 400, 100, 4 and 1 years; the last span of a
century and of a leap cycle may be a day longer. -/
def Date.ofDays (days : Int) : Date :=
  let z := days + epochShift
  let cycle := z / 146097
  let inCycle := z % 146097
  let century := min (inCycle / 36524) 3
  let inCentury := inCycle - 36524 * century
  let leapCycle := inCentury / 1461
  let inLeapCycle := inCentury % 1461
  let yearOfLeap := min (inLeapCycle / 365) 3
  let inYear := inLeapCycle - 365 * yearOfLeap
  let monthFromMarch := (5 * inYear + 2) / 153
  let day := inYear - (153 * monthFromMarch + 2) / 5 + 1
  let month := if monthFromMarch < 10 then monthFromMarch + 3 else monthFromMarch - 9
  let year := 400 * cycle + 100 * century + 4 * leapCycle + yearOfLeap
  ⟨if month ≤ 2 then year + 1 else year, month.toNat, day.toNat⟩

end GatewayAdmin.Calendar
