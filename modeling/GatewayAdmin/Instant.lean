import GatewayAdmin.Calendar
import GatewayAdmin.Text.Numeral
/-! Instants in universal time, with nanoseconds and leap seconds, and how they are written. -/
namespace GatewayAdmin

open Calendar Text

/-- Seconds since 1970-01-01T00:00:00Z within the years -262143 to 262142. A leap second is the
last second of its minute with `nanos` from 10^9 upwards; any other second can be given as many. -/
structure Instant where
  seconds : Int
  nanos : Nat
  seconds_bounds : -8334601228800 ≤ seconds ∧ seconds ≤ 8210266876799
  nanos_lt : nanos < 2000000000
deriving DecidableEq

namespace Instant

def epoch : Instant := ⟨0, 0, by decide, by decide⟩

/-- Nanoseconds from 10^9 upwards stand only for a leap second. -/
def IsProper (t : Instant) : Prop := t.nanos < 1000000000 ∨ t.seconds % 60 = 59

instance (t : Instant) : Decidable t.IsProper := inferInstanceAs (Decidable (_ ∨ _))

def ofUnix? (seconds : Int) (nanos : Nat) : Option Instant :=
  if h : (-8334601228800 ≤ seconds ∧ seconds ≤ 8210266876799) ∧ nanos < 2000000000 then
    let t : Instant := ⟨seconds, nanos, h.1, h.2⟩
    if t.IsProper then some t else none
  else none

def date (t : Instant) : Date := Date.ofDays (t.seconds / 86400)

def secondOfDay (t : Instant) : Nat := (t.seconds % 86400).toNat

def hour (t : Instant) : Nat := t.secondOfDay / 3600

def minute (t : Instant) : Nat := t.secondOfDay / 60 % 60

/-- Up to 60: nanoseconds from 10^9 upwards lie in the second that follows, and after second 59 that
is a leap second. -/
def second (t : Instant) : Nat := t.secondOfDay % 60 + t.nanos / 1000000000

/-- Four digits for the years 0 to 9999, otherwise a sign and at least four digits. -/
def yearChars (y : Int) : List Char :=
  if 0 ≤ y ∧ y ≤ 9999 then paddedChars 4 y.toNat
  else (if y < 0 then '-' else '+') :: paddedChars 4 y.natAbs

def dateStampChars (t : Instant) : List Char :=
  yearChars t.date.year ++ paddedChars 2 t.date.month ++ paddedChars 2 t.date.day

def clockChars (t : Instant) : List Char :=
  paddedChars 2 t.hour ++ paddedChars 2 t.minute ++ paddedChars 2 t.second

/-- `yyyyMMdd`. -/
def dateStamp (t : Instant) : String := String.ofList t.dateStampChars

/-- `yyyyMMddTHHmmssZ`. -/
def amzDate (t : Instant) : String :=
  String.ofList (t.dateStampChars ++ ['T'] ++ t.clockChars ++ ['Z'])

/-- No fraction, or the fewest of 3, 6 and 9 digits that lose nothing. -/
def fractionChars (nanos : Nat) : List Char :=
  if nanos = 0 then []
  else if nanos % 1000000 = 0 then '.' :: paddedChars 3 (nanos / 1000000)
  else if nanos % 1000 = 0 then '.' :: paddedChars 6 (nanos / 1000)
  else '.' :: paddedChars 9 nanos

/-- `yyyy-MM-ddTHH:mm:ssZ`, with a fraction of the second where there is one. -/
def rfc3339 (t : Instant) : String :=
  String.ofList (yearChars t.date.year ++ ['-'] ++ paddedChars 2 t.date.month ++ ['-'] ++
    paddedChars 2 t.date.day ++ ['T'] ++ paddedChars 2 t.hour ++ [':'] ++ paddedChars 2 t.minute ++
    [':'] ++ paddedChars 2 t.second ++ fractionChars (t.nanos % 1000000000) ++ ['Z'])

end Instant
end GatewayAdmin
