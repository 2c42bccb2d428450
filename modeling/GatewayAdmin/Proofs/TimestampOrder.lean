import GatewayAdmin.Proofs.CalendarDate
import GatewayAdmin.Proofs.DecimalText
import GatewayAdmin.Proofs.Utf8Text
import Mathlib.Data.Prod.Lex

/-! Written timestamps in the order of time. Digits of a fixed number of places compare, octet for
octet, as the numbers that they stand for; dates compare as days do, and the clock as the seconds of
a day, a leap second coming last in its minute. -/
namespace GatewayAdmin

open Calendar Text

namespace Text

theorem utf8Chars_cons_of_isDigit {c : Char} (h : c.isDigit = true) (cs : List Char) :
    utf8Chars (c :: cs) = UInt8.ofNat c.toNat :: utf8Chars cs := by
  obtain ⟨-, hhigh⟩ := Char.isDigit_iff_toNat.mp h
  change c.toNat ≤ 57 at hhigh
  rw [utf8Chars_cons, utf8EncodeChar_of_ascii (by omega), List.singleton_append]

theorem length_utf8Chars_of_isDigit {cs : List Char} (h : ∀ c ∈ cs, c.isDigit = true) :
    (utf8Chars cs).length = cs.length := by
  induction cs with
  | nil => rfl
  | cons c cs ih =>
    obtain ⟨hc, hcs⟩ := List.forall_mem_cons.mp h
    rw [utf8Chars_cons_of_isDigit hc, List.length_cons, ih hcs, List.length_cons]

/-- Equally many digits, read behind numbers `m` and `n`, compare as what is read. -/
theorem ofDigitChars_lt_iff {xs ys : List Char} (hx : ∀ c ∈ xs, c.isDigit = true)
    (hy : ∀ c ∈ ys, c.isDigit = true) (h : xs.length = ys.length) (m n : Nat) :
    Nat.ofDigitChars 10 xs m < Nat.ofDigitChars 10 ys n ↔
      m < n ∨ m = n ∧ utf8Chars xs < utf8Chars ys := by
  -- the numbers are free, since each digit makes them into what the next one is read behind
  induction xs generalizing ys m n with
  | nil =>
    obtain rfl := List.length_eq_zero_iff.mp h.symm
    simp [utf8Chars]
  | cons c cs ih =>
    cases ys with
    | nil => exact absurd h (Nat.succ_ne_zero _)
    | cons d ds =>
      obtain ⟨hc, hcs⟩ := List.forall_mem_cons.mp hx
      obtain ⟨hd, hds⟩ := List.forall_mem_cons.mp hy
      rw [Nat.ofDigitChars_cons, Nat.ofDigitChars_cons, ih hcs hds (Nat.succ.inj h),
        utf8Chars_cons_of_isDigit hc, utf8Chars_cons_of_isDigit hd, List.cons_lt_cons_iff,
        UInt8.lt_iff_toNat_lt, ← UInt8.toNat_inj, UInt8.toNat_ofNat', UInt8.toNat_ofNat']
      obtain ⟨hclow, hchigh⟩ := Char.isDigit_iff_toNat.mp hc
      obtain ⟨hdlow, hdhigh⟩ := Char.isDigit_iff_toNat.mp hd
      change 48 ≤ c.toNat at hclow
      change c.toNat ≤ 57 at hchigh
      change 48 ≤ d.toNat at hdlow
      change d.toNat ≤ 57 at hdhigh
      change 10 * m + (c.toNat - 48) < 10 * n + (d.toNat - 48) ∨ 10 * m + (c.toNat - 48) =
        10 * n + (d.toNat - 48) ∧ _ ↔ _
      by_cases hrest : utf8Chars cs < utf8Chars ds
      · simp only [hrest, and_true]
        omega
      · simp only [hrest, and_false, or_false]
        omega

theorem paddedChars_inj {width m n : Nat} :
    paddedChars width m = paddedChars width n ↔ m = n :=
  (Function.LeftInverse.injective (ofDigitChars_paddedChars width)).eq_iff

theorem paddedChars_lt_iff {width m n : Nat} (hwidth : 0 < width) (hm : m < 10 ^ width)
    (hn : n < 10 ^ width) :
    utf8Chars (paddedChars width m) < utf8Chars (paddedChars width n) ↔ m < n := by
  have hlength : (paddedChars width m).length = (paddedChars width n).length := by
    rw [length_paddedChars hwidth hm, length_paddedChars hwidth hn]
  have hdigits := ofDigitChars_lt_iff (fun _ => isDigit_of_mem_paddedChars)
    (fun _ => isDigit_of_mem_paddedChars) hlength 0 0
  rw [ofDigitChars_paddedChars, ofDigitChars_paddedChars] at hdigits
  simpa using hdigits.symm

/-- A number of a fixed width decides the order, unless it is the same on both sides. -/
theorem paddedChars_append_lt_iff {width m n : Nat} (hwidth : 0 < width) (hm : m < 10 ^ width)
    (hn : n < 10 ^ width) (us vs : List Char) :
    utf8Chars (paddedChars width m ++ us) < utf8Chars (paddedChars width n ++ vs) ↔
      m < n ∨ m = n ∧ utf8Chars us < utf8Chars vs := by
  have hlength :
      (utf8Chars (paddedChars width m)).length = (utf8Chars (paddedChars width n)).length := by
    rw [length_utf8Chars_of_isDigit fun _ => isDigit_of_mem_paddedChars,
      length_utf8Chars_of_isDigit fun _ => isDigit_of_mem_paddedChars,
      length_paddedChars hwidth hm, length_paddedChars hwidth hn]
  rw [utf8Chars_append, utf8Chars_append, append_lt_append_iff hlength,
    paddedChars_lt_iff hwidth hm hn, utf8Chars_injective.eq_iff, paddedChars_inj]

end Text

namespace Instant

/-- Years that are written with four digits and no sign. -/
def HasPlainYear (t : Instant) : Prop := 0 ≤ t.date.year ∧ t.date.year ≤ 9999

/-- The place of an instant in time: a leap second comes behind all of the second before it. -/
def time (t : Instant) : Int ×ₗ Nat := toLex (t.seconds, t.nanos)

/-- The beginning of the second in which an instant lies. -/
def wholeSecond (t : Instant) : Instant where
  seconds := t.seconds
  nanos := t.nanos / 1000000000 * 1000000000
  seconds_bounds := t.seconds_bounds
  nanos_lt := by
    have := t.nanos_lt
    omega

theorem length_clockChars (t : Instant) : t.clockChars.length = 6 := by
  have hbounds := t.clock_bounds
  have hsecond := t.second_le
  simp only [clockChars, List.length_append]
  rw [length_paddedChars (by decide) (by omega), length_paddedChars (by decide) (by omega),
    length_paddedChars (by decide) (by omega)]

/-- The clock shows the seconds of a day in their order, and a leap second behind its second. -/
theorem clockChars_append_lt_iff {t u : Instant} (ht : t.IsProper) (hu : u.IsProper)
    (us vs : List Char) :
    utf8Chars (t.clockChars ++ us) < utf8Chars (u.clockChars ++ vs) ↔
      t.secondOfDay < u.secondOfDay ∨ t.secondOfDay = u.secondOfDay ∧
        (t.nanos / 1000000000 < u.nanos / 1000000000 ∨
          t.nanos / 1000000000 = u.nanos / 1000000000 ∧ utf8Chars us < utf8Chars vs) := by
  have htbounds := t.clock_bounds
  have hubounds := u.clock_bounds
  have htsecond := t.second_le
  have husecond := u.second_le
  simp only [clockChars, List.append_assoc]
  rw [paddedChars_append_lt_iff (by decide) (by omega) (by omega),
    paddedChars_append_lt_iff (by decide) (by omega) (by omega),
    paddedChars_append_lt_iff (by decide) (by omega) (by omega), second, second]
  have htday := t.secondOfDay_eq
  have huday := u.secondOfDay_eq
  have htleap := ht.leap_cases
  have huleap := hu.leap_cases
  generalize t.secondOfDay % 60 = s at *
  generalize u.secondOfDay % 60 = s' at *
  generalize t.nanos / 1000000000 = n at *
  generalize u.nanos / 1000000000 = n' at *
  by_cases hrest : utf8Chars us < utf8Chars vs
  · simp only [hrest, and_true]
    omega
  · simp only [hrest, and_false, or_false]
    omega

theorem HasPlainYear.dateStampChars_eq {t : Instant} (h : t.HasPlainYear) :
    t.dateStampChars = paddedChars 4 t.date.year.toNat ++ paddedChars 2 t.date.month ++
      paddedChars 2 t.date.day := by
  have hyear : 0 ≤ t.date.year ∧ t.date.year ≤ 9999 := h
  rw [dateStampChars, yearChars, if_pos hyear]

theorem HasPlainYear.year_lt {t : Instant} (h : t.HasPlainYear) : t.date.year.toNat < 10 ^ 4 := by
  obtain ⟨hlow, hhigh⟩ := h
  omega

theorem HasPlainYear.length_dateStampChars {t : Instant} (h : t.HasPlainYear) :
    t.dateStampChars.length = 8 := by
  obtain ⟨hmonth, hday⟩ := t.date_bounds
  rw [h.dateStampChars_eq, List.length_append, List.length_append,
    length_paddedChars (by decide) h.year_lt, length_paddedChars (by decide) hmonth,
    length_paddedChars (by decide) hday]

/-- The date shows the days in their order. -/
theorem dateStampChars_append_lt_iff {t u : Instant} (ht : t.HasPlainYear) (hu : u.HasPlainYear)
    (us vs : List Char) :
    utf8Chars (t.dateStampChars ++ us) < utf8Chars (u.dateStampChars ++ vs) ↔
      t.seconds / 86400 < u.seconds / 86400 ∨
        t.seconds / 86400 = u.seconds / 86400 ∧ utf8Chars us < utf8Chars vs := by
  obtain ⟨htmonth, htday⟩ := t.date_bounds
  obtain ⟨humonth, huday⟩ := u.date_bounds
  rw [ht.dateStampChars_eq, hu.dateStampChars_eq]
  simp only [List.append_assoc]
  rw [paddedChars_append_lt_iff (by decide) ht.year_lt hu.year_lt,
    paddedChars_append_lt_iff (by decide) htmonth humonth,
    paddedChars_append_lt_iff (by decide) htday huday, ← ofDays_before_iff, ← ofDays_inj]
  change _ ↔ t.date.Before u.date ∨ t.date = u.date ∧ _
  obtain ⟨htlow, -⟩ := ht
  obtain ⟨hulow, -⟩ := hu
  rw [Date.eq_iff, Date.Before]
  by_cases hrest : utf8Chars us < utf8Chars vs
  · simp only [hrest, and_true]
    omega
  · simp only [hrest, and_false, or_false]
    omega

theorem hasPlainYear_shown {t : Instant} : t.shown.HasPlainYear ↔ t.HasPlainYear := by
  rw [HasPlainYear, HasPlainYear, t.shown_fields.1]

theorem IsProper.amzDate_lt_iff {t u : Instant} (ht : t.IsProper) (hu : u.IsProper)
    (htyear : t.HasPlainYear) (huyear : u.HasPlainYear) :
    utf8 t.amzDate < utf8 u.amzDate ↔ t.wholeSecond.time < u.wholeSecond.time := by
  rw [utf8, utf8, toList_amzDate, toList_amzDate, dateStampChars_append_lt_iff htyear huyear,
    utf8Chars_cons, utf8Chars_cons, append_lt_append_iff rfl, clockChars_append_lt_iff ht hu, time,
    time, Prod.Lex.toLex_lt_toLex]
  simp only [List.lt_irrefl, false_or, or_false, and_false, true_and, wholeSecond, secondOfDay]
  omega

/-- Any two instants are written in the order of the seconds that are shown. -/
theorem amzDate_lt_iff {t u : Instant} (ht : t.HasPlainYear) (hu : u.HasPlainYear) :
    utf8 t.amzDate < utf8 u.amzDate ↔ t.shown.wholeSecond.time < u.shown.wholeSecond.time := by
  rw [← t.amzDate_shown, ← u.amzDate_shown]
  exact t.isProper_shown.amzDate_lt_iff u.isProper_shown (hasPlainYear_shown.mpr ht)
    (hasPlainYear_shown.mpr hu)

theorem amzDate_wholeSecond (t : Instant) : t.wholeSecond.amzDate = t.amzDate := by
  have hleap : t.wholeSecond.nanos / 1000000000 = t.nanos / 1000000000 :=
    Nat.mul_div_cancel _ (by decide)
  have hsecond : t.wholeSecond.second = t.second := by rw [second, second, hleap]; rfl
  rw [amzDate, amzDate, clockChars, clockChars, hsecond]
  rfl

theorem time_injective : Function.Injective time := by
  rintro ⟨seconds, nanos, _, _⟩ ⟨seconds', nanos', _, _⟩ h
  obtain ⟨rfl, rfl⟩ := Prod.mk.inj (toLex.injective h)
  rfl

theorem amzDate_eq_iff {t u : Instant} (ht : t.HasPlainYear) (hu : u.HasPlainYear) :
    t.amzDate = u.amzDate ↔ t.shown.wholeSecond = u.shown.wholeSecond := by
  constructor
  · intro h
    have htu : ¬t.shown.wholeSecond.time < u.shown.wholeSecond.time := by
      rw [← amzDate_lt_iff ht hu, h]
      exact List.lt_irrefl _
    have hut : ¬u.shown.wholeSecond.time < t.shown.wholeSecond.time := by
      rw [← amzDate_lt_iff hu ht, h]
      exact List.lt_irrefl _
    exact time_injective (le_antisymm (not_lt.mp hut) (not_lt.mp htu))
  · intro h
    rw [← amzDate_shown t, ← amzDate_wholeSecond t.shown, h, amzDate_wholeSecond, amzDate_shown]

/-- The full form is the date, `T`, the clock and `Z`. In the years 0 to 9999 both forms have a
fixed length, and the full form is in the order of the seconds of time, an instant being in the
second that is shown: the one in which it lies, unless its nanoseconds go on into the next one and
that is no leap second. -/
theorem amzDate_in_order_of_time (t u : Instant) :
    (∃ clock : List Char, clock.length = 6 ∧ (∀ c ∈ clock, c.isDigit = true) ∧
      t.amzDate = t.dateStamp ++ "T" ++ String.ofList clock ++ "Z") ∧
    (t.HasPlainYear → t.amzDate.length = 16 ∧ t.dateStamp.length = 8) ∧
    (t.HasPlainYear → u.HasPlainYear →
      (utf8 t.amzDate < utf8 u.amzDate ↔ t.shown.wholeSecond.time < u.shown.wholeSecond.time) ∧
      (t.amzDate = u.amzDate ↔ t.shown.wholeSecond = u.shown.wholeSecond)) ∧
    (t.shown = t ↔ t.nanos < 1000000000 ∨ t.seconds % 60 = 59) := by
  refine ⟨⟨t.clockChars, t.length_clockChars, fun _ => isDigit_of_mem_clockChars, ?_⟩, ?_, ?_,
    shown_eq_self_iff⟩
  · apply String.toList_injective
    simp [toList_amzDate, dateStamp]
  · intro h
    have hdate : t.dateStamp.length = 8 := by
      rw [dateStamp, String.length_ofList, h.length_dateStampChars]
    refine ⟨?_, hdate⟩
    rw [← String.length_toList, toList_amzDate, List.length_append, List.length_cons,
      List.length_append, h.length_dateStampChars, length_clockChars, List.length_singleton]
  · intro ht hu
    exact ⟨amzDate_lt_iff ht hu, amzDate_eq_iff ht hu⟩

/-- Half a second into the leap second at the end of 2016, and the second behind it. -/
theorem amzDate_in_order_of_time_leap :
    let leap : Instant := ⟨1483228799, 1500000000, by decide, by decide⟩
    let next : Instant := ⟨1483228800, 0, by decide, by decide⟩
    leap.HasPlainYear ∧ next.HasPlainYear ∧ leap.shown = leap ∧
      leap.amzDate = "20161231T235960Z" ∧ next.amzDate = "20170101T000000Z" ∧
      utf8 leap.amzDate < utf8 next.amzDate ∧ leap.amzDate ≠ next.amzDate := by
  intro leap next
  have hleap : leap.HasPlainYear := ⟨by decide, by decide⟩
  have hnext : next.HasPlainYear := ⟨by decide, by decide⟩
  obtain ⟨-, -, horder, hshown⟩ := amzDate_in_order_of_time leap next
  obtain ⟨hlt, heq⟩ := horder hleap hnext
  have htime : leap.shown.wholeSecond.time < next.shown.wholeSecond.time :=
    Prod.Lex.toLex_lt_toLex.mpr (.inl (by decide))
  have hsecond : leap.shown.wholeSecond ≠ next.shown.wholeSecond := by decide
  exact ⟨hleap, hnext, hshown.mpr (.inr rfl), by decide, by decide, hlt.mpr htime,
    mt heq.mp hsecond⟩

/-- A second and a half behind noon, counted from the second of noon: the instant comes before the
second that follows, and is written like it. -/
theorem same_amzDate_in_two_seconds :
    let late : Instant := ⟨1440936000, 1500000000, by decide, by decide⟩
    let next : Instant := ⟨1440936001, 0, by decide, by decide⟩
    late.HasPlainYear ∧ next.HasPlainYear ∧ late.wholeSecond.time < next.wholeSecond.time ∧
      late.wholeSecond ≠ next.wholeSecond ∧ late.amzDate = "20150830T120001Z" ∧
      late.amzDate = next.amzDate ∧ ¬utf8 late.amzDate < utf8 next.amzDate := by
  intro late next
  have hsame : late.amzDate = next.amzDate := by decide
  have htime : late.wholeSecond.time < next.wholeSecond.time :=
    Prod.Lex.toLex_lt_toLex.mpr (.inl (by decide))
  refine ⟨⟨by decide, by decide⟩, ⟨by decide, by decide⟩, htime, by decide, by decide, hsame, ?_⟩
  rw [hsame]
  exact List.lt_irrefl _

end Instant
end GatewayAdmin
