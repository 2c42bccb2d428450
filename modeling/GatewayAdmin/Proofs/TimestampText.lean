import GatewayAdmin.Instant
import GatewayAdmin.Proofs.CalendarDate
import GatewayAdmin.Proofs.VisibleText

/-! What written timestamps are made of: all parts but the year fit into two digits, and the date is
digits and at most a sign, so the first `T` of the full form is the one that ends it. -/
namespace GatewayAdmin

open Calendar Text

namespace Text

theorem isDigit_of_mem_decimalChars {n : Nat} {c : Char} (h : c ∈ decimalChars n) :
    c.isDigit = true := Nat.isDigit_of_mem_toDigits (by decide) (by decide) h

theorem isDigit_of_mem_paddedChars {width n : Nat} {c : Char} (h : c ∈ paddedChars width n) :
    c.isDigit = true := by
  rcases List.mem_append.mp h with h | h
  · rw [List.eq_of_mem_replicate h]
    decide
  · exact isDigit_of_mem_decimalChars h

theorem isVisible_of_isDigit {c : Char} (h : c.isDigit = true) : isVisible c = true := by
  obtain ⟨hl, hh⟩ := Char.isDigit_iff_toNat.mp h
  exact isVisible_of_between hl hh (by decide) (by decide)

theorem allVisible_decimalChars (n : Nat) : AllVisible (decimalChars n) :=
  fun _ h => isVisible_of_isDigit (isDigit_of_mem_decimalChars h)

end Text

namespace Instant

theorem date_bounds (t : Instant) : t.date.month < 100 ∧ t.date.day < 100 := by
  have hvalid : t.date.isValid = true := isValid_ofDays _
  have := Date.bounds_of_isValid hvalid
  omega

theorem clock_bounds (t : Instant) : t.hour < 24 ∧ t.minute < 60 ∧ t.secondOfDay % 60 < 60 := by
  have hday : t.secondOfDay < 86400 := by
    unfold secondOfDay
    omega
  simp only [hour, minute]
  omega

theorem secondOfDay_eq (t : Instant) :
    t.secondOfDay = 3600 * t.hour + 60 * t.minute + t.secondOfDay % 60 := by
  simp only [hour, minute]
  omega

theorem second_le (t : Instant) : t.second ≤ 60 := by
  obtain ⟨-, -, hsecond⟩ := t.clock_bounds
  have hnanos := t.nanos_lt
  unfold second
  omega

theorem ofUnix?_eq_some_iff {seconds : Int} {nanos : Nat} {t : Instant} :
    ofUnix? seconds nanos = some t ↔ t.seconds = seconds ∧ t.nanos = nanos ∧ t.IsProper := by
  unfold ofUnix?
  dsimp only
  constructor
  · intro h
    split_ifs at h with hbounds hproper
    obtain rfl := Option.some.inj h
    exact ⟨rfl, rfl, hproper⟩
  · rintro ⟨rfl, rfl, hproper⟩
    rw [dif_pos ⟨t.seconds_bounds, t.nanos_lt⟩]
    exact if_pos hproper

/-! ### The second that is shown -/

/-- Only the last second of a minute is followed by a leap second. -/
theorem IsProper.leap_cases {t : Instant} (h : t.IsProper) :
    t.nanos / 1000000000 = 0 ∨ t.nanos / 1000000000 = 1 ∧ t.secondOfDay % 60 = 59 := by
  have hminute : t.secondOfDay % 60 = (t.seconds % 60).toNat := by
    unfold secondOfDay
    omega
  have hnanos := t.nanos_lt
  unfold IsProper at h
  omega

/-- The instant that the written forms name. Nanoseconds from 10^9 upwards that stand for no leap
second lie in the second that follows. -/
def shown (t : Instant) : Instant :=
  if h : t.IsProper then t
  else
    { seconds := t.seconds + 1
      nanos := t.nanos - 1000000000
      seconds_bounds := by
        have := t.seconds_bounds
        unfold IsProper at h
        omega
      nanos_lt := by
        have := t.nanos_lt
        omega }

theorem shown_of_isProper {t : Instant} (h : t.IsProper) : t.shown = t := dif_pos h

theorem isProper_shown (t : Instant) : t.shown.IsProper := by
  have hnanos := t.nanos_lt
  unfold shown
  split_ifs with h
  · exact h
  · left
    change t.nanos - 1000000000 < 1000000000
    omega

theorem shown_eq_self_iff {t : Instant} : t.shown = t ↔ t.IsProper :=
  ⟨fun h => h ▸ t.isProper_shown, shown_of_isProper⟩

/-- All that is written of an instant. The next second is in the same minute. -/
theorem shown_fields (t : Instant) :
    t.shown.date = t.date ∧ t.shown.hour = t.hour ∧ t.shown.minute = t.minute ∧
      t.shown.second = t.second ∧ t.shown.nanos % 1000000000 = t.nanos % 1000000000 := by
  have hnanos := t.nanos_lt
  unfold shown
  split_ifs with h
  · exact ⟨rfl, rfl, rfl, rfl, rfl⟩
  · unfold IsProper at h
    have hday : (t.seconds + 1) / 86400 = t.seconds / 86400 := by omega
    have hsecond : ((t.seconds + 1) % 86400).toNat = (t.seconds % 86400).toNat + 1 := by omega
    simp only [date, hour, minute, second, secondOfDay, hday, hsecond, true_and]
    omega

theorem rfc3339_shown (t : Instant) : t.shown.rfc3339 = t.rfc3339 := by
  obtain ⟨hdate, hhour, hminute, hsecond, hfraction⟩ := t.shown_fields
  simp only [rfc3339, hdate, hhour, hminute, hsecond, hfraction]

theorem amzDate_shown (t : Instant) : t.shown.amzDate = t.amzDate := by
  obtain ⟨hdate, hhour, hminute, hsecond, -⟩ := t.shown_fields
  simp only [amzDate, dateStampChars, clockChars, hdate, hhour, hminute, hsecond]

/-! ### Characters -/

/-- Digits, and the sign of a year outside 0 to 9999. -/
def isDateChar (c : Char) : Bool := c = '+' || c = '-' || c.isDigit

theorem isDateChar_of_mem_paddedChars {width n : Nat} {c : Char} (h : c ∈ paddedChars width n) :
    isDateChar c = true := by
  rw [isDateChar, isDigit_of_mem_paddedChars h, Bool.or_true]

theorem isDateChar_of_mem_yearChars {y : Int} {c : Char} (h : c ∈ yearChars y) :
    isDateChar c = true := by
  unfold yearChars at h
  split_ifs at h with hy hs
  · exact isDateChar_of_mem_paddedChars h
  · rcases List.mem_cons.mp h with rfl | h
    · decide
    · exact isDateChar_of_mem_paddedChars h
  · rcases List.mem_cons.mp h with rfl | h
    · decide
    · exact isDateChar_of_mem_paddedChars h

theorem isDateChar_of_mem_dateStampChars {t : Instant} {c : Char} (h : c ∈ t.dateStampChars) :
    isDateChar c = true := by
  rcases List.mem_append.mp h with h | h
  · rcases List.mem_append.mp h with h | h
    · exact isDateChar_of_mem_yearChars h
    · exact isDateChar_of_mem_paddedChars h
  · exact isDateChar_of_mem_paddedChars h

theorem isDigit_of_mem_clockChars {t : Instant} {c : Char} (h : c ∈ t.clockChars) :
    c.isDigit = true := by
  rcases List.mem_append.mp h with h | h
  · rcases List.mem_append.mp h with h | h
    · exact isDigit_of_mem_paddedChars h
    · exact isDigit_of_mem_paddedChars h
  · exact isDigit_of_mem_paddedChars h

theorem toList_amzDate (t : Instant) :
    t.amzDate.toList = t.dateStampChars ++ 'T' :: (t.clockChars ++ ['Z']) := by
  simp [amzDate]

/-- The date can be taken back from the full form, whatever the year. -/
theorem takeWhile_amzDate (t : Instant) :
    t.amzDate.toList.takeWhile (· ≠ 'T') = t.dateStampChars := by
  have hno : 'T' ∉ t.dateStampChars :=
    not_mem_of_class (fun _ => isDateChar_of_mem_dateStampChars) (by decide)
  have hd : ∀ c ∈ t.dateStampChars, decide (c ≠ 'T') = true :=
    fun c hc => decide_eq_true (ne_of_mem_of_not_mem hc hno)
  rw [toList_amzDate, List.takeWhile_append_of_pos hd]
  simp

theorem isVisible_of_isDateChar {c : Char} (h : isDateChar c = true) : isVisible c = true := by
  simp only [isDateChar, Bool.or_eq_true, decide_eq_true_eq] at h
  rcases h with (rfl | rfl) | h
  · decide
  · decide
  · exact isVisible_of_isDigit h

theorem allVisible_dateStampChars (t : Instant) : AllVisible t.dateStampChars :=
  fun _ h => isVisible_of_isDateChar (isDateChar_of_mem_dateStampChars h)

theorem allVisible_amzDate (t : Instant) : AllVisible t.amzDate.toList := by
  have hc : AllVisible t.clockChars := fun _ h => isVisible_of_isDigit (isDigit_of_mem_clockChars h)
  rw [toList_amzDate]
  simp only [allVisible_append, allVisible_cons, AllVisible.nil]
  exact ⟨t.allVisible_dateStampChars, by decide, hc, by decide, trivial⟩

end Instant
end GatewayAdmin
