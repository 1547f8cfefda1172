/-
The Gregorian calendar, extended to all years: the date of a day that is
counted from 1970-01-01, and the Julian day number of a date, which counts the
days again.  The dates from the year 1 on follow each other by the lengths of
the months.
-/
import Mathlib.Logic.Function.Iterate
import Mathlib.Order.Basic
import Mathlib.Tactic.IntervalCases
import Mathlib.Tactic.SplitIfs

/-- A date of the Gregorian calendar. -/
structure Date where
  year : Int
  month : Int
  day : Int
deriving DecidableEq

namespace Date

/-- A day within the cycles of the calendar.  The years begin with March, so
that a leap day is the last day of its year, of its four years and of its
cycle. -/
structure Cycle where
  /-- Cycles of 400 years. -/
  era : Int
  century : Int
  /-- Groups of four years. -/
  olympiad : Int
  year : Int
  day : Int

/-- The day so many days after 1970-01-01 within its cycles. -/
def Cycle.ofDays (days : Int) : Cycle :=
  let ofEra := (days + 719468) % 146097
  let century := min (ofEra / 36524) 3
  let ofCentury := ofEra - century * 36524
  let ofOlympiad := ofCentury % 1461
  let year := min (ofOlympiad / 365) 3
  { era := (days + 719468) / 146097
    century := century
    olympiad := ofCentury / 1461
    year := year
    day := ofOlympiad - year * 365 }

/-- The date so many days after 1970-01-01. -/
def ofDays (days : Int) : Date :=
  let cycle := Cycle.ofDays days
  let month := (5 * cycle.day + 2) / 153
  let year := 400 * cycle.era + 100 * cycle.century + 4 * cycle.olympiad +
    cycle.year
  { year := if month < 10 then year else year + 1
    month := if month < 10 then month + 3 else month - 9
    day := cycle.day - (153 * month + 2) / 5 + 1 }

example : ofDays 0 = ⟨1970, 1, 1⟩ := by decide

example : ofDays 19782 = ⟨2024, 2, 29⟩ := by decide

/-- The Julian day number. -/
def julianDay (date : Date) : Int :=
  let a := (14 - date.month) / 12
  let year := date.year + 4800 - a
  let month := date.month + 12 * a - 3
  date.day + (153 * month + 2) / 5 + 365 * year + year / 4 - year / 100 +
    year / 400 - 32045

/-- The ranges of a day within its cycles, and the day again. -/
structure Cycle.Exact (cycle : Cycle) (days : Int) : Prop where
  century : 0 ≤ cycle.century ∧ cycle.century ≤ 3
  olympiad : 0 ≤ cycle.olympiad ∧ cycle.olympiad ≤ 24
  year : 0 ≤ cycle.year ∧ cycle.year ≤ 3
  day : 0 ≤ cycle.day ∧ cycle.day ≤ 365
  days : days + 719468 = 146097 * cycle.era + 36524 * cycle.century +
    1461 * cycle.olympiad + 365 * cycle.year + cycle.day

theorem Cycle.ofDays_exact (days : Int) : (Cycle.ofDays days).Exact days := by
  unfold Cycle.ofDays
  constructor <;> dsimp only <;> omega

/-- The leap days before a year that begins with March. -/
theorem Cycle.Exact.leapDays {cycle : Cycle} {days : Int} (h : cycle.Exact days) :
    let year := 400 * cycle.era + 100 * cycle.century + 4 * cycle.olympiad +
      cycle.year + 4800
    365 * year + year / 4 - year / 100 + year / 400 =
      146097 * cycle.era + 36524 * cycle.century + 1461 * cycle.olympiad +
        365 * cycle.year + 1753164 := by
  obtain ⟨hcentury, holympiad, hyear, -, -⟩ := h
  intro year
  have hfour : year / 4 =
      100 * cycle.era + 25 * cycle.century + cycle.olympiad + 1200 := by omega
  have hhundred : year / 100 = 4 * cycle.era + cycle.century + 48 := by omega
  have hcycles : year / 400 = cycle.era + 12 := by omega
  omega

theorem julianDay_ofDays (days : Int) :
    (ofDays days).julianDay = days + 2440588 := by
  have hexact := Cycle.ofDays_exact days
  have hleap := hexact.leapDays
  obtain ⟨-, -, -, hday, hdays⟩ := hexact
  unfold ofDays julianDay
  generalize Cycle.ofDays days = cycle at *
  dsimp only at hleap ⊢
  generalize hmonth : (5 * cycle.day + 2) / 153 = month
  have hrange : 0 ≤ month ∧ month ≤ 11 := by omega
  split_ifs with hspring
  · have ha : (14 - (month + 3)) / 12 = 0 := by omega
    rw [ha, Int.sub_zero, Int.mul_zero, Int.add_zero, Int.add_sub_cancel]
    omega
  · have ha : (14 - (month - 9)) / 12 = 1 := by omega
    have hback : month - 9 + 12 * 1 - 3 = month := by omega
    have hyear : 400 * cycle.era + 100 * cycle.century + 4 * cycle.olympiad +
        cycle.year + 1 + 4800 - 1 = 400 * cycle.era + 100 * cycle.century +
          4 * cycle.olympiad + cycle.year + 4800 := by omega
    rw [ha, hback, hyear]
    omega

/-- Whether a year has a leap day. -/
def Leap (year : Int) : Prop := year % 4 = 0 ∧ (year % 100 ≠ 0 ∨ year % 400 = 0)

instance (year : Int) : Decidable (Leap year) := inferInstanceAs (Decidable (_ ∧ _))

def daysInMonth (year month : Int) : Int :=
  if month = 2 then if Leap year then 29 else 28
  else if month = 4 ∨ month = 6 ∨ month = 9 ∨ month = 11 then 30
  else 31

/-- A date of the calendar from the year 1 on. -/
structure Valid (date : Date) : Prop where
  year : 1 ≤ date.year
  month : 1 ≤ date.month ∧ date.month ≤ 12
  day : 1 ≤ date.day ∧ date.day ≤ daysInMonth date.year date.month

/-- The next date of the calendar. -/
def next (date : Date) : Date :=
  if date.day < daysInMonth date.year date.month then { date with day := date.day + 1 }
  else if date.month < 12 then ⟨date.year, date.month + 1, 1⟩
  else ⟨date.year + 1, 1, 1⟩

/-- The date before. -/
def prev (date : Date) : Date :=
  if 1 < date.day then { date with day := date.day - 1 }
  else if 1 < date.month then
    ⟨date.year, date.month - 1, daysInMonth date.year (date.month - 1)⟩
  else ⟨date.year - 1, 12, 31⟩

theorem daysInMonth_bounds (year month : Int) :
    28 ≤ daysInMonth year month ∧ daysInMonth year month ≤ 31 := by
  unfold daysInMonth
  split_ifs <;> omega

theorem Valid.next {date : Date} (h : date.Valid) : date.next.Valid := by
  obtain ⟨hyear, hmonth, hday⟩ := h
  unfold Date.next
  split_ifs with hwithin hearly
  · exact ⟨hyear, hmonth, by dsimp only; omega, hwithin⟩
  · have hbounds := daysInMonth_bounds date.year (date.month + 1)
    exact ⟨hyear, by dsimp only; omega, by dsimp only; omega⟩
  · have hbounds := daysInMonth_bounds (date.year + 1) 1
    exact ⟨by dsimp only; omega, by dsimp only; omega, by dsimp only; omega⟩

/-- A day later the day number is greater by one. -/
theorem Valid.julianDay_next {date : Date} (h : date.Valid) :
    date.next.julianDay = date.julianDay + 1 := by
  obtain ⟨year, month, day⟩ := date
  obtain ⟨-, hmonth, hday⟩ := h
  unfold Date.next
  dsimp only at hmonth hday ⊢
  split_ifs with hwithin hearly
  · unfold julianDay
    dsimp only
    omega
  · have hlast : day = daysInMonth year month := by omega
    unfold daysInMonth Leap at hlast
    unfold julianDay
    dsimp only
    obtain ⟨hfirst, -⟩ := hmonth
    interval_cases month <;> simp at hlast ⊢ <;> omega
  · have hmonth' : month = 12 := by omega
    have hlast : day = daysInMonth year month := by omega
    subst hmonth'
    unfold daysInMonth at hlast
    unfold julianDay
    dsimp only
    omega

/-- The first date of the year 1. -/
def first : Date := ⟨1, 1, 1⟩

theorem Valid.first_le {date : Date} (h : date.Valid) :
    first.julianDay ≤ date.julianDay := by
  obtain ⟨year, month, day⟩ := date
  obtain ⟨hyear, hmonth, hday⟩ := h
  unfold first julianDay
  dsimp only at hyear hmonth hday ⊢
  obtain ⟨hfirst, hlast⟩ := hmonth
  interval_cases month <;> omega

/-- The date before a date other than the first is followed by it. -/
theorem Valid.prev {date : Date} (h : date.Valid) (hne : date ≠ first) :
    date.prev.Valid ∧ date.prev.next = date := by
  obtain ⟨year, month, day⟩ := date
  obtain ⟨hyear, hmonth, hday⟩ := h
  unfold Date.prev
  dsimp only at hyear hmonth hday ⊢
  split_ifs with hlater hspring
  · refine ⟨⟨hyear, hmonth, by dsimp only; omega⟩, ?_⟩
    unfold Date.next
    rw [if_pos (by dsimp only; omega)]
    simp
  · have hbounds := daysInMonth_bounds year (month - 1)
    refine ⟨⟨hyear, by dsimp only; omega, by dsimp only; omega⟩, ?_⟩
    unfold Date.next
    rw [if_neg (lt_irrefl _), if_pos (by dsimp only; omega)]
    simp
    omega
  · have hfirst : month = 1 ∧ day = 1 := by omega
    obtain ⟨rfl, rfl⟩ := hfirst
    have hlate : 1 < year := by
      by_contra hnot
      have hone : year = 1 := by omega
      exact hne (by rw [hone]; rfl)
    have hmonth' : daysInMonth (year - 1) 12 = 31 := by simp [daysInMonth]
    refine ⟨⟨by dsimp only; omega, by dsimp only; omega, by dsimp only; omega⟩, ?_⟩
    simp [Date.next, hmonth']

theorem Valid.iterate_next {date : Date} (h : date.Valid) (n : Nat) :
    (Date.next^[n] date).Valid ∧ (Date.next^[n] date).julianDay = date.julianDay + n := by
  induction n with
  | zero => exact ⟨h, by simp⟩
  | succ n ih =>
      obtain ⟨hvalid, hdays⟩ := ih
      rw [Function.iterate_succ_apply']
      refine ⟨hvalid.next, ?_⟩
      rw [hvalid.julianDay_next, hdays]
      omega

/-- Every date is reached from the first one. -/
theorem Valid.iterate_first {date : Date} (h : date.Valid) {n : Nat}
    (hn : date.julianDay = first.julianDay + n) : Date.next^[n] first = date := by
  induction n generalizing date with
  | zero =>
      by_contra hne
      obtain ⟨hvalid, hnext⟩ := h.prev (Ne.symm hne)
      have hdays := hvalid.julianDay_next
      have hle := hvalid.first_le
      rw [hnext] at hdays
      omega
  | succ n ih =>
      have hne : date ≠ first := by
        rintro rfl
        omega
      obtain ⟨hvalid, hnext⟩ := h.prev hne
      have hdays := hvalid.julianDay_next
      rw [hnext] at hdays
      rw [Function.iterate_succ_apply', ih hvalid (by omega), hnext]

/-- So many days lie between two dates: the later one is reached from the
earlier one by as many steps to the next date. -/
def DaysBetween (d1 d2 : Date) (n : Int) : Prop :=
  (0 ≤ n ∧ Date.next^[n.toNat] d1 = d2) ∨ (n ≤ 0 ∧ Date.next^[(-n).toNat] d2 = d1)

/-- A later date is reached. -/
theorem Valid.iterate_sub {d1 d2 : Date} (h1 : d1.Valid) (h2 : d2.Valid)
    (hle : d1.julianDay ≤ d2.julianDay) :
    Date.next^[(d2.julianDay - d1.julianDay).toNat] d1 = d2 := by
  have hfirst := h1.first_le
  have hlater := h2.first_le
  have hstart : Date.next^[(d1.julianDay - first.julianDay).toNat] first = d1 :=
    h1.iterate_first (by omega)
  have hend : Date.next^[(d2.julianDay - first.julianDay).toNat] first = d2 :=
    h2.iterate_first (by omega)
  have hsplit : (d2.julianDay - first.julianDay).toNat =
      (d2.julianDay - d1.julianDay).toNat + (d1.julianDay - first.julianDay).toNat := by
    omega
  rw [hsplit, Function.iterate_add_apply, hstart] at hend
  exact hend

/-- The days between two dates are the difference of their day numbers. -/
theorem Valid.daysBetween_iff {d1 d2 : Date} (h1 : d1.Valid) (h2 : d2.Valid) (n : Int) :
    DaysBetween d1 d2 n ↔ n = d2.julianDay - d1.julianDay := by
  constructor
  · rintro (⟨hn, hreach⟩ | ⟨hn, hreach⟩)
    · have hdays := (h1.iterate_next n.toNat).2
      rw [hreach] at hdays
      omega
    · have hdays := (h2.iterate_next (-n).toNat).2
      rw [hreach] at hdays
      omega
  · rintro rfl
    rcases le_total d1.julianDay d2.julianDay with hle | hle
    · exact Or.inl ⟨by omega, h1.iterate_sub h2 hle⟩
    · refine Or.inr ⟨by omega, ?_⟩
      rw [Int.neg_sub]
      exact h2.iterate_sub h1 hle

end Date
