import Mathlib.Data.List.TakeWhile
import GatewayAdmin.Proofs.CalendarDate
import GatewayAdmin.Proofs.DecimalText
import GatewayAdmin.Timestamp

/-! The written form of an instant is read as that instant: every component is read off the front of
the text, whatever follows it, and together they name the second that they came from. -/
namespace GatewayAdmin

open Text Calendar

namespace Timestamp

theorem isDigit_eq (c : Char) : isDigit c = c.isDigit := by
  rw [Bool.eq_iff_iff]
  simp only [isDigit, Char.isDigit_iff_toNat, Bool.and_eq_true, decide_eq_true_eq]
  exact Iff.rfl

theorem isBlank_of_isDigit {c : Char} (h : c.isDigit = true) : isBlank c = false := by
  obtain ⟨hlow, hhigh⟩ := Char.isDigit_iff_toNat.mp h
  change 48 ≤ c.toNat at hlow
  change c.toNat ≤ 57 at hhigh
  simp only [isBlank, Bool.or_eq_false_iff, Bool.and_eq_false_iff, decide_eq_false_iff_not]
  omega

theorem skipBlanks_cons {c : Char} (h : isBlank c = false) (rest : List Char) :
    skipBlanks (c :: rest) = c :: rest := by
  rw [skipBlanks, List.dropWhile_cons_of_neg (by simp [h])]

/-- The mark that stands between two components, with the blanks in front of it that may be. -/
theorem literal?_skipBlanks {c : Char} (h : isBlank c = false) (rest : List Char) :
    literal? c (skipBlanks (c :: rest)) = some rest := by
  rw [skipBlanks_cons h, literal?, if_pos rfl]

section
variable (width n : Nat) (rest : List Char)

theorem exists_paddedChars : ∃ c cs, paddedChars width n = c :: cs ∧ c.isDigit = true := by
  obtain ⟨c, cs, hcons⟩ := List.exists_cons_of_ne_nil (paddedChars_ne_nil width n)
  exact ⟨c, cs, hcons, isDigit_of_mem_paddedChars (hcons ▸ List.mem_cons_self)⟩

theorem skipBlanks_paddedChars :
    skipBlanks (paddedChars width n ++ rest) = paddedChars width n ++ rest := by
  obtain ⟨c, cs, hcons, hc⟩ := exists_paddedChars width n
  rw [hcons, List.cons_append, skipBlanks_cons (isBlank_of_isDigit hc)]

theorem takeWhile_paddedChars :
    (paddedChars width n ++ rest).takeWhile isDigit =
      paddedChars width n ++ rest.takeWhile isDigit :=
  List.takeWhile_append_of_pos fun c hc => by rw [isDigit_eq, isDigit_of_mem_paddedChars hc]

variable {width n}

theorem number?_paddedChars (hwidth : 0 < width) (h : n < 10 ^ width) :
    number? width (paddedChars width n ++ rest) = some (n, rest) := by
  have hlength := length_paddedChars hwidth h
  have hdigits : ((paddedChars width n ++ rest).takeWhile isDigit).take width =
      paddedChars width n := by
    rw [takeWhile_paddedChars, List.take_left' hlength]
  rw [number?, hdigits, natural?_paddedChars]
  simp

theorem component?_paddedChars (h : n < 100) :
    component? (paddedChars 2 n ++ rest) = some (n, rest) := by
  rw [component?, skipBlanks_paddedChars, number?_paddedChars rest (by decide) h]

/-- A number of any length goes on to the next mark. -/
theorem longNumber?_paddedChars (width n : Nat) :
    longNumber? (paddedChars width n ++ '-' :: rest) = some (n, '-' :: rest) := by
  have hdigits : ((paddedChars width n ++ '-' :: rest).takeWhile isDigit).take
      (paddedChars width n ++ '-' :: rest).length = paddedChars width n := by
    rw [takeWhile_paddedChars, List.takeWhile_cons_of_neg (by decide), List.append_nil,
      List.take_of_length_le (by simp)]
  rw [longNumber?, number?, hdigits, natural?_paddedChars]
  simp

end

theorem year?_yearChars (y : Int) (rest : List Char) :
    year? (Instant.yearChars y ++ '-' :: rest) = some (y, '-' :: rest) := by
  unfold Instant.yearChars
  split_ifs with hplain hminus
  · have hyear : (y.toNat : Int) = y := by omega
    have hwidth : y.toNat < 10 ^ 4 := by omega
    have hread := number?_paddedChars ('-' :: rest) (by decide) hwidth
    obtain ⟨c, cs, hcons, hc⟩ := exists_paddedChars 4 y.toNat
    have hm : c ≠ '-' := by rintro rfl; exact absurd hc (by decide)
    have hp : c ≠ '+' := by rintro rfl; exact absurd hc (by decide)
    rw [year?, skipBlanks_paddedChars]
    rw [hcons, List.cons_append] at hread ⊢
    split
    · simp_all
    · simp_all
    · simp [hread, hyear]
  · have hyear : -(y.natAbs : Int) = y := by omega
    rw [List.cons_append, year?, skipBlanks_cons (by decide)]
    simp only [longNumber?_paddedChars, Option.map_some, hyear]
  · have hyear : (y.natAbs : Int) = y := by omega
    rw [List.cons_append, year?, skipBlanks_cons (by decide)]
    simp only [longNumber?_paddedChars, Option.map_some, hyear]

theorem date?_written (date : Date) (hmonth : date.month < 100) (hday : date.day < 100)
    (rest : List Char) :
    date? (Instant.yearChars date.year ++ '-' :: (paddedChars 2 date.month ++
      '-' :: (paddedChars 2 date.day ++ rest))) = some (date, rest) := by
  rw [date?, year?_yearChars]
  simp [literal?_skipBlanks (show isBlank '-' = false by decide), component?_paddedChars, hmonth,
    hday]

/-- Three, six or nine digits of a fraction. -/
theorem fraction?_paddedChars {width n : Nat} (hwidth : 0 < width) (hmax : width ≤ 9)
    (h : n < 10 ^ width) :
    fraction? ('.' :: paddedChars width n ++ ['Z']) = some (n * 10 ^ (9 - width), ['Z']) := by
  have hlength := length_paddedChars hwidth h
  have hdigits : (paddedChars width n ++ ['Z']).takeWhile isDigit = paddedChars width n := by
    rw [takeWhile_paddedChars, List.takeWhile_cons_of_neg (by decide), List.append_nil]
  have hkept : (paddedChars width n).take 9 = paddedChars width n :=
    List.take_of_length_le (by omega)
  simp [fraction?, hdigits, hkept, natural?_paddedChars, hlength]

theorem fraction?_fractionChars {nanos : Nat} (h : nanos < 1000000000) :
    fraction? (Instant.fractionChars nanos ++ ['Z']) = some (nanos, ['Z']) := by
  unfold Instant.fractionChars
  split_ifs with hzero hmilli hmicro
  · rw [hzero]
    rfl
  · rw [fraction?_paddedChars (by decide) (by decide) (by omega)]
    congr 2
    omega
  · rw [fraction?_paddedChars (by decide) (by decide) (by omega)]
    congr 2
    omega
  · rw [fraction?_paddedChars (by decide) (by decide) (by omega)]
    congr 2
    omega

theorem clock?_written {clock : Clock} (hvalid : clock.isValid = true)
    (hnanos : clock.nanos < 1000000000) :
    clock? (paddedChars 2 clock.hour ++ ':' :: (paddedChars 2 clock.minute ++
      ':' :: (paddedChars 2 clock.second ++ (Instant.fractionChars clock.nanos ++ ['Z'])))) =
        some (clock, ['Z']) := by
  simp only [Clock.isValid, Bool.and_eq_true, decide_eq_true_eq] at hvalid
  have hhour : clock.hour < 100 := by omega
  have hminute : clock.minute < 100 := by omega
  have hsecond : clock.second < 100 := by omega
  rw [clock?, component?_paddedChars _ hhour]
  simp [literal?_skipBlanks (show isBlank ':' = false by decide), component?_paddedChars, hminute,
    hsecond, fraction?_fractionChars hnanos]

end Timestamp

namespace Instant

open Timestamp (Clock)

/-- The time of day that is written. -/
def clock (t : Instant) : Clock := ⟨t.hour, t.minute, t.second, t.nanos % 1000000000⟩

theorem isValid_clock (t : Instant) : t.clock.isValid = true := by
  have hbounds := t.clock_bounds
  have hsecond := t.second_le
  simp only [Clock.isValid, Bool.and_eq_true, decide_eq_true_eq]
  simp only [clock]
  omega

theorem isYearInRange_date (t : Instant) : Timestamp.isYearInRange t.date.year = true := by
  obtain ⟨hlow, hhigh⟩ := t.seconds_bounds
  have hdays : -96465292 ≤ t.seconds / 86400 ∧ t.seconds / 86400 ≤ 95026236 := by omega
  have hyear := year_ofDays_bounds hdays.1 hdays.2
  simp only [Timestamp.isYearInRange, Bool.and_eq_true, decide_eq_true_eq]
  exact hyear

/-- The date and the time of day name the instant; a leap second is told by its number 60. -/
theorem IsProper.instant?_written {t : Instant} (h : t.IsProper) :
    Timestamp.instant? t.date t.clock 0 = some t := by
  have hvalid : t.date.isValid = true := isValid_ofDays _
  have hdays : t.date.toDays = t.seconds / 86400 := toDays_ofDays _
  have hsecondOfDay : (t.secondOfDay : Int) = t.seconds % 86400 := by
    unfold secondOfDay
    omega
  have hsplit := t.secondOfDay_eq
  have hleap := h.leap_cases
  have hseconds : t.date.toDays * 86400 +
      (t.hour * 3600 + t.minute * 60 + min t.second 59 : Nat) - 0 * 60 = t.seconds := by
    unfold second
    omega
  have hparts : t.nanos % 1000000000 + (if t.second = 60 then 1000000000 else 0) = t.nanos := by
    unfold second
    split_ifs <;> omega
  rw [Timestamp.instant?, if_pos (by rw [hvalid, isValid_clock, isYearInRange_date]; rfl)]
  change ofUnix? (t.date.toDays * 86400 +
    (t.hour * 3600 + t.minute * 60 + min t.second 59 : Nat) - 0 * 60) (t.nanos % 1000000000 +
      (if t.second = 60 then 1000000000 else 0)) = some t
  rw [hseconds, hparts]
  exact ofUnix?_eq_some_iff.mpr ⟨rfl, rfl, h⟩

end Instant

namespace Timestamp

theorem read?_rfc3339_of_isProper {t : Instant} (h : t.IsProper) : read? t.rfc3339 = some t := by
  obtain ⟨hmonth, hday⟩ := t.date_bounds
  have htext : t.rfc3339.toList = Instant.yearChars t.date.year ++ '-' ::
      (paddedChars 2 t.date.month ++ '-' :: (paddedChars 2 t.date.day ++ 'T' ::
        (paddedChars 2 t.clock.hour ++ ':' :: (paddedChars 2 t.clock.minute ++ ':' ::
          (paddedChars 2 t.clock.second ++ (Instant.fractionChars t.clock.nanos ++ ['Z'])))))) := by
    simp [Instant.rfc3339, Instant.clock]
  have hnanos : t.clock.nanos < 1000000000 := Nat.mod_lt _ (by decide)
  have hoffset : offset? (skipBlanks ['Z']) = some (0, []) := by decide
  rw [read?, htext, date?_written t.date hmonth hday]
  simp [separator?, clock?_written t.isValid_clock hnanos, hoffset, h.instant?_written,
    show skipBlanks [] = [] from rfl]

/-- Whatever the year, and in a leap second too, the instant that is shown is the one that is
read. -/
theorem read?_rfc3339 (t : Instant) : read? t.rfc3339 = some t.shown := by
  rw [← t.rfc3339_shown, read?_rfc3339_of_isProper t.isProper_shown]

theorem isProper_of_instant? {date : Date} {clock : Clock} {offset : Int} {t : Instant}
    (h : instant? date clock offset = some t) : t.IsProper := by
  unfold instant? at h
  split at h
  · exact (Instant.ofUnix?_eq_some_iff.mp h).2.2
  · simp at h

/-- No text names nanoseconds from 10^9 upwards but those of a leap second. -/
theorem isProper_of_read? {s : String} {t : Instant} (h : read? s = some t) : t.IsProper := by
  simp only [read?, Option.bind_eq_bind, Option.bind_eq_some_iff] at h
  obtain ⟨_, -, _, -, _, -, _, -, h⟩ := h
  split_ifs at h
  exact isProper_of_instant? h

end Timestamp
end GatewayAdmin
