import Mathlib.Tactic.IntervalCases
import Mathlib.Tactic.SplitIfs
import GatewayAdmin.Calendar

/-! Day numbers and dates are two names of one thing: the date of a day number is a date of the
calendar, and its day number is the one it came from. Later days have later dates, and dates are
compared by year, month and day. -/
namespace GatewayAdmin.Calendar

theorem daysInMonth_le (y : Int) (m : Nat) : daysInMonth y m ≤ 31 := by
  unfold daysInMonth
  split
  · omega
  · omega
  · omega
  · omega
  · split_ifs <;> omega
  · omega

theorem Date.bounds_of_isValid {d : Date} (h : d.isValid = true) :
    1 ≤ d.month ∧ d.month ≤ 12 ∧ 1 ≤ d.day ∧ d.day ≤ daysInMonth d.year d.month ∧ d.day ≤ 31 := by
  have hlength := daysInMonth_le d.year d.month
  simp only [isValid, Bool.and_eq_true, decide_eq_true_eq] at h
  omega

/-- The day of a year that begins in March. -/
structure YearPlace where
  cycle : Int
  century : Int
  leapCycle : Int
  yearOfLeap : Int
  inYear : Int

namespace YearPlace

/-- The number of the year, counted from March. -/
def year (p : YearPlace) : Int := 400 * p.cycle + 100 * p.century + 4 * p.leapCycle + p.yearOfLeap

/-- Days since 0000-03-01. -/
def days (p : YearPlace) : Int :=
  146097 * p.cycle + 36524 * p.century + 1461 * p.leapCycle + 365 * p.yearOfLeap + p.inYear

/-- The last century of a cycle and the last year of a leap cycle may be a day longer; a leap cycle
that ends a century, unless the century ends a cycle, is not. -/
structure Valid (p : YearPlace) : Prop where
  century : 0 ≤ p.century ∧ p.century ≤ 3
  leapCycle : 0 ≤ p.leapCycle ∧ p.leapCycle ≤ 24
  yearOfLeap : 0 ≤ p.yearOfLeap ∧ p.yearOfLeap ≤ 3
  inYear : 0 ≤ p.inYear ∧ p.inYear ≤ 365
  longYear : p.inYear = 365 → p.yearOfLeap = 3 ∧ (p.leapCycle = 24 → p.century = 3)

/-- The place of a day that is counted from 0000-03-01. -/
def ofDays (z : Int) : YearPlace :=
  let inCycle := z % 146097
  let century := min (inCycle / 36524) 3
  let inCentury := inCycle - 36524 * century
  let inLeapCycle := inCentury % 1461
  let yearOfLeap := min (inLeapCycle / 365) 3
  ⟨z / 146097, century, inCentury / 1461, yearOfLeap, inLeapCycle - 365 * yearOfLeap⟩

theorem days_ofDays (z : Int) : (ofDays z).days = z := by
  simp only [ofDays, days]
  omega

theorem valid_ofDays (z : Int) : (ofDays z).Valid := by
  constructor <;> simp only [ofDays] <;> omega

/-- In the count of the days before a year, no span but the long ones is cut. -/
theorem Valid.leapDays {p : YearPlace} (h : p.Valid) :
    p.year / 4 = 100 * p.cycle + 25 * p.century + p.leapCycle ∧
      p.year / 100 = 4 * p.cycle + p.century ∧ p.year / 400 = p.cycle := by
  obtain ⟨hcentury, hleap, hyear, -, -⟩ := h
  simp only [year]
  omega

theorem Valid.days_eq {p : YearPlace} (h : p.Valid) :
    p.days = 365 * p.year + p.year / 4 - p.year / 100 + p.year / 400 + p.inYear := by
  obtain ⟨h4, h100, h400⟩ := h.leapDays
  rw [h4, h100, h400, days, year]
  omega

/-- Months are counted from March as well. -/
def month (p : YearPlace) : Int := (5 * p.inYear + 2) / 153

def date (p : YearPlace) : Date :=
  let month := if p.month < 10 then p.month + 3 else p.month - 9
  ⟨if month ≤ 2 then p.year + 1 else p.year, month.toNat,
    (p.inYear - (153 * p.month + 2) / 5 + 1).toNat⟩

/-- What the date of a place looks like, in the two parts of the year. -/
theorem Valid.date_cases {p : YearPlace} (h : p.Valid) :
    (p.month < 10 ∧ p.inYear ≤ 305 ∧ p.date.year = p.year ∧ (p.date.month : Int) = p.month + 3 ∨
      10 ≤ p.month ∧ 306 ≤ p.inYear ∧ p.date.year = p.year + 1 ∧
        (p.date.month : Int) = p.month - 9) ∧
      (p.date.day : Int) = p.inYear - (153 * p.month + 2) / 5 + 1 ∧ 0 ≤ p.month ∧ p.month ≤ 11 := by
  obtain ⟨hlow, hhigh⟩ := h.inYear
  have hmonth : p.month = (5 * p.inYear + 2) / 153 := rfl
  by_cases hm : p.month < 10
  · have hlate : ¬p.month + 3 ≤ 2 := by omega
    simp only [date, hm, hlate, if_true, if_false, true_and]
    omega
  · have hearly : p.month - 9 ≤ 2 := by omega
    simp only [date, hm, hearly, if_true, if_false, true_and]
    omega

theorem Valid.toDays_date {p : YearPlace} (h : p.Valid) : p.date.toDays = p.days - epochShift := by
  obtain ⟨hmonth, hday, hlow, hhigh⟩ := h.date_cases
  rw [h.days_eq, Date.toDays]
  rcases hmonth with ⟨hm, -, hyear, hmonth⟩ | ⟨hm, -, hyear, hmonth⟩
  · have hlate : ¬p.date.month ≤ 2 := by omega
    simp only [hlate, if_false, hyear]
    omega
  · have hearly : p.date.month ≤ 2 := by omega
    simp only [hearly, if_true, hyear]
    omega

/-- The year that ends with a long February is a leap year. -/
theorem Valid.isLeapYear_next {p : YearPlace} (h : p.Valid) (hlong : p.inYear = 365) :
    isLeapYear (p.year + 1) = true := by
  obtain ⟨hcentury, hleap, -, -, hlast⟩ := h
  obtain ⟨hyear, hend⟩ := hlast hlong
  have hp : p.year = 400 * p.cycle + 100 * p.century + 4 * p.leapCycle + p.yearOfLeap := rfl
  simp only [isLeapYear, Bool.and_eq_true, Bool.or_eq_true, decide_eq_true_eq]
  omega

theorem Valid.isValid_date {p : YearPlace} (h : p.Valid) : p.date.isValid = true := by
  obtain ⟨hmonth, hday, hlow, hhigh⟩ := h.date_cases
  obtain ⟨hfirst, hlast⟩ := h.inYear
  have hplace : p.month = (5 * p.inYear + 2) / 153 := rfl
  have hlength : p.date.day ≤ daysInMonth p.date.year p.date.month := by
    unfold daysInMonth
    split
    · omega
    · omega
    · omega
    · omega
    · rcases hmonth with ⟨-, -, -, hm⟩ | ⟨-, -, hyear, hm⟩
      · omega
      · split_ifs with hl
        · omega
        · have hshort : p.inYear ≠ 365 := fun hlong => hl (hyear ▸ h.isLeapYear_next hlong)
          omega
    · omega
  simp only [Date.isValid, Bool.and_eq_true, decide_eq_true_eq]
  omega

end YearPlace

theorem ofDays_eq_date (days : Int) :
    Date.ofDays days = (YearPlace.ofDays (days + epochShift)).date := rfl

theorem toDays_ofDays (days : Int) : (Date.ofDays days).toDays = days := by
  rw [ofDays_eq_date, (YearPlace.valid_ofDays _).toDays_date, YearPlace.days_ofDays]
  omega

theorem ofDays_inj {m n : Int} : Date.ofDays m = Date.ofDays n ↔ m = n :=
  (Function.LeftInverse.injective toDays_ofDays).eq_iff

theorem isValid_ofDays (days : Int) : (Date.ofDays days).isValid = true :=
  (YearPlace.valid_ofDays _).isValid_date

/-- The first and the last day of the years that timestamps may have. -/
theorem year_ofDays_bounds {days : Int} (hlow : -96465292 ≤ days) (hhigh : days ≤ 95026236) :
    -262143 ≤ (Date.ofDays days).year ∧ (Date.ofDays days).year ≤ 262142 := by
  rw [ofDays_eq_date]
  have hvalid := YearPlace.valid_ofDays (days + epochShift)
  have hdays := YearPlace.days_ofDays (days + epochShift)
  rw [hvalid.days_eq, epochShift] at hdays
  obtain ⟨hmonth, -⟩ := hvalid.date_cases
  obtain ⟨hfirst, hlast⟩ := hvalid.inYear
  rw [epochShift] at hmonth hfirst hlast ⊢
  generalize YearPlace.ofDays (days + 719468) = p at *
  have hmin : -262144 ≤ p.year := by omega
  have hmax : p.year ≤ 262142 := by omega
  -- The first year and the last one are cut, at a day that only integers tell from its neighbours.
  by_cases hfirstYear : p.year = -262144
  · omega
  · by_cases hlastYear : p.year = 262142
    · omega
    · omega

/-! ### The order of dates -/

/-- By year, then by month, then by day. -/
def Date.Before (d e : Date) : Prop :=
  d.year < e.year ∨ d.year = e.year ∧
    (d.month < e.month ∨ d.month = e.month ∧ d.day < e.day)

/-- Days from 0000-03-01 to the first of March of a year. -/
def marchStart (y : Int) : Int := 365 * y + y / 4 - y / 100 + y / 400

theorem marchStart_le {y z : Int} (h : y ≤ z) : marchStart y ≤ marchStart z := by
  simp only [marchStart]
  omega

/-- A year from March to February has the leap day of the year in which it ends. -/
theorem marchStart_eq (y : Int) :
    marchStart y = marchStart (y - 1) + if isLeapYear y then 366 else 365 := by
  have h4 : y % 4 = 0 ∧ y / 4 = (y - 1) / 4 + 1 ∨ y % 4 ≠ 0 ∧ y / 4 = (y - 1) / 4 := by omega
  have h100 : y % 100 = 0 ∧ y / 100 = (y - 1) / 100 + 1 ∨
      y % 100 ≠ 0 ∧ y / 100 = (y - 1) / 100 := by omega
  have h400 : y % 400 = 0 ∧ y / 400 = (y - 1) / 400 + 1 ∨
      y % 400 ≠ 0 ∧ y / 400 = (y - 1) / 400 := by omega
  simp only [marchStart]
  split_ifs with h
  · simp only [isLeapYear, Bool.and_eq_true, Bool.or_eq_true, decide_eq_true_eq] at h
    omega
  · simp only [isLeapYear, Bool.and_eq_true, Bool.or_eq_true, decide_eq_true_eq] at h
    omega

namespace Date

theorem toDays_of_early {d : Date} (h : d.month ≤ 2) :
    d.toDays =
      marchStart (d.year - 1) + (153 * (d.month + 9) + 2) / 5 + d.day - 1 - epochShift := by
  simp only [toDays, marchStart, h, if_true]

theorem toDays_of_late {d : Date} (h : ¬d.month ≤ 2) :
    d.toDays = marchStart d.year + (153 * (d.month - 3) + 2) / 5 + d.day - 1 - epochShift := by
  simp only [toDays, marchStart, h, if_false]

/-- A month from March on is as long as the way to the next. -/
theorem length_of_late {y : Int} {m : Nat} (hlow : 3 ≤ m) (hhigh : m ≤ 12) :
    (daysInMonth y m : Int) =
      (153 * ((m : Int) - 2) + 2) / 5 - (153 * ((m : Int) - 3) + 2) / 5 := by
  interval_cases m <;> rfl

/-- A year lies between two first days of January. -/
theorem toDays_bounds {d : Date} (h : d.isValid = true) :
    marchStart (d.year - 1) + 306 ≤ d.toDays + epochShift ∧
      d.toDays + epochShift < marchStart d.year + 306 := by
  obtain ⟨hfirst, hlast, hday, -, hlength⟩ := bounds_of_isValid h
  have hstep := marchStart_eq d.year
  have hyear : marchStart (d.year - 1) + 365 ≤ marchStart d.year := by
    rw [hstep]
    split_ifs <;> omega
  by_cases hm : d.month ≤ 2
  · rw [toDays_of_early hm]
    omega
  · rw [toDays_of_late hm]
    omega

theorem toDays_lt_of_year_lt {d e : Date} (hd : d.isValid = true) (he : e.isValid = true)
    (h : d.year < e.year) : d.toDays < e.toDays := by
  have hend := (toDays_bounds hd).2
  have hstart := (toDays_bounds he).1
  have hyears := marchStart_le (show d.year ≤ e.year - 1 by omega)
  omega

theorem toDays_lt_of_month_lt {d e : Date} (hd : d.isValid = true) (he : e.isValid = true)
    (hyear : d.year = e.year) (h : d.month < e.month) : d.toDays < e.toDays := by
  obtain ⟨hfirst, hlast, hday, hlength, hlong⟩ := bounds_of_isValid hd
  obtain ⟨hfirst', hlast', hday', -, -⟩ := bounds_of_isValid he
  by_cases hm : d.month ≤ 2
  · by_cases hm' : e.month ≤ 2
    · obtain ⟨hjanuary, hfebruary⟩ : d.month = 1 ∧ e.month = 2 := by omega
      rw [toDays_of_early hm, toDays_of_early hm', hyear, hjanuary, hfebruary]
      omega
    · rw [toDays_of_early hm, toDays_of_late hm', ← hyear, marchStart_eq d.year]
      have hfebruary : d.month = 2 → d.day ≤ if isLeapYear d.year then 29 else 28 := by
        intro htwo
        rw [htwo] at hlength
        exact hlength
      split_ifs at hfebruary ⊢ with hleap
      · omega
      · omega
  · have hm' : ¬e.month ≤ 2 := by omega
    have hmonth := length_of_late (y := d.year) (show 3 ≤ d.month by omega) hlast
    rw [toDays_of_late hm, toDays_of_late hm', hyear]
    omega

theorem toDays_lt_of_day_lt {d e : Date} (hyear : d.year = e.year) (hmonth : d.month = e.month)
    (h : d.day < e.day) : d.toDays < e.toDays := by
  simp only [toDays, hyear, hmonth]
  omega

theorem toDays_lt_of_before {d e : Date} (hd : d.isValid = true) (he : e.isValid = true)
    (h : d.Before e) : d.toDays < e.toDays := by
  rcases h with hyear | ⟨hyear, hmonth | ⟨hmonth, hday⟩⟩
  · exact toDays_lt_of_year_lt hd he hyear
  · exact toDays_lt_of_month_lt hd he hyear hmonth
  · exact toDays_lt_of_day_lt hyear hmonth hday

theorem eq_iff {d e : Date} :
    d = e ↔ d.year = e.year ∧ d.month = e.month ∧ d.day = e.day := by
  cases d
  cases e
  rw [mk.injEq]

theorem before_or_eq_or_before (d e : Date) : d.Before e ∨ d = e ∨ e.Before d := by
  rw [eq_iff]
  unfold Before
  omega

theorem before_iff {d e : Date} (hd : d.isValid = true) (he : e.isValid = true) :
    d.Before e ↔ d.toDays < e.toDays := by
  constructor
  · exact toDays_lt_of_before hd he
  · intro h
    rcases before_or_eq_or_before d e with hbefore | rfl | hafter
    · exact hbefore
    · omega
    · have := toDays_lt_of_before he hd hafter
      omega

end Date

/-- Dates are in the order of the days. -/
theorem ofDays_before_iff {m n : Int} : (Date.ofDays m).Before (Date.ofDays n) ↔ m < n := by
  rw [Date.before_iff (isValid_ofDays m) (isValid_ofDays n), toDays_ofDays, toDays_ofDays]

end GatewayAdmin.Calendar
