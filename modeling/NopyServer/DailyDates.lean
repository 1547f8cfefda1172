/-
The days between two dates as `DateDiffDays` counts them.  Its day number is
computed in `int`: the dates after 5874898-06-03 are too late for it.
-/
import NopyServer.DailyReward

namespace NopyServer

namespace DailyReward

/-- `ToDaysSinceEpoch`.  A sum of `int` is taken modulo `2 ^ 32`, and a division
rounds towards zero. -/
def toDaysSinceEpoch (y m d : Int) : Int :=
  let a := Int.tdiv (14 - m) 12
  let yr := int32 (y + 4800 - a)
  let mn := m + 12 * a - 3
  int32 (d + Int.tdiv (153 * mn + 2) 5 + 365 * yr + Int.tdiv yr 4 - Int.tdiv yr 100 +
    Int.tdiv yr 400 - 32045)

/-- `DateDiffDays` with the overflow of `int`. -/
def dateDiffDaysInt (first second : Date) : Int :=
  let a := toDaysSinceEpoch first.year first.month first.day
  let b := toDaysSinceEpoch second.year second.month second.day
  let diff := b - a
  if diff < 0 then 0 else if 1000 < diff then 1000 else diff

/-- The day number is the Julian day number as long as an `int` can hold it. -/
theorem toDaysSinceEpoch_eq {date : Date} (h : date.Valid)
    (hfits : date.julianDay < 2 ^ 31) :
    toDaysSinceEpoch date.year date.month date.day = date.julianDay := by
  have hlow := h.first_le
  obtain ⟨year, month, day⟩ := date
  obtain ⟨hyear, hmonth, hday⟩ := h
  have hbounds := Date.daysInMonth_bounds year month
  unfold toDaysSinceEpoch
  unfold Date.julianDay at *
  dsimp only [Date.first] at *
  have ha : Int.tdiv (14 - month) 12 = (14 - month) / 12 :=
    Int.tdiv_eq_ediv_of_nonneg (by omega)
  rw [ha]
  have hyr : int32 (year + 4800 - (14 - month) / 12) = year + 4800 - (14 - month) / 12 :=
    int32_of_range (by omega) (by omega)
  rw [hyr, Int.tdiv_eq_ediv_of_nonneg (by omega), Int.tdiv_eq_ediv_of_nonneg (by omega),
    Int.tdiv_eq_ediv_of_nonneg (by omega), Int.tdiv_eq_ediv_of_nonneg (by omega)]
  exact int32_of_range (by omega) hfits

theorem dateDiffDaysInt_eq_dateDiffDays {first second : Date} (hfirst : first.Valid)
    (hsecond : second.Valid) (hfits : first.julianDay < 2 ^ 31)
    (hfits' : second.julianDay < 2 ^ 31) :
    dateDiffDaysInt first second = dateDiffDays first second := by
  unfold dateDiffDaysInt dateDiffDays
  rw [toDaysSinceEpoch_eq hfirst hfits, toDaysSinceEpoch_eq hsecond hfits']

/-- `DateDiffDays` counts the days to the later date, up to a thousand. -/
theorem dateDiffDaysInt_counts_days (d1 d2 : Date) (h1 : d1.Valid) (h2 : d2.Valid)
    (hfits1 : d1.julianDay < 2 ^ 31) (hfits2 : d2.julianDay < 2 ^ 31) :
    (∃ n, d1.DaysBetween d2 n) ∧
      ∀ n, d1.DaysBetween d2 n → dateDiffDaysInt d1 d2 = min 1000 (max 0 n) := by
  constructor
  · exact ⟨_, (h1.daysBetween_iff h2 _).mpr rfl⟩
  · intro n hn
    rw [(h1.daysBetween_iff h2 n).mp hn,
      dateDiffDaysInt_eq_dateDiffDays h1 h2 hfits1 hfits2]
    unfold dateDiffDays
    dsimp only
    split_ifs <;> omega

theorem dateDiffDaysInt_of_leap_day :
    (∃ n, Date.DaysBetween ⟨2024, 2, 28⟩ ⟨2024, 3, 1⟩ n) ∧
      ∀ n, Date.DaysBetween ⟨2024, 2, 28⟩ ⟨2024, 3, 1⟩ n →
        dateDiffDaysInt ⟨2024, 2, 28⟩ ⟨2024, 3, 1⟩ = min 1000 (max 0 n) :=
  dateDiffDaysInt_counts_days ⟨2024, 2, 28⟩ ⟨2024, 3, 1⟩
    ⟨by decide, by decide, by decide⟩ ⟨by decide, by decide, by decide⟩ (by decide)
    (by decide)

/-- The last day number of an `int` and the one after it. -/
theorem dateDiffDaysInt_overflows :
    ¬ ∀ d1 d2 : Date, d1.Valid → d2.Valid →
      ∀ n, d1.DaysBetween d2 n → dateDiffDaysInt d1 d2 = min 1000 (max 0 n) := by
  intro h
  have hnext := h ⟨5874898, 6, 3⟩ ⟨5874898, 6, 4⟩ ⟨by decide, by decide, by decide⟩
    ⟨by decide, by decide, by decide⟩ 1 (Or.inl ⟨by decide, by decide⟩)
  exact absurd hnext (by decide)

end DailyReward

end NopyServer
