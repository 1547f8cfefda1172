/-
The days that `SkipMissedReward` passes over, and how many it counts.  Both its
loops go round the cycle of thirty days; only the step before the second loop
does not, so that a thirtieth day which was not claimed is followed by a day 31.
-/
import Mathlib.Data.Finset.Card
import Mathlib.Data.Finset.Range
import NopyServer.DailyRewardRuns

namespace NopyServer

namespace DailyReward

open PlayerDailyData

/-- The data and the variable `skipped` of `SkipMissedReward`. -/
structure Skipping where
  data : PlayerDailyData
  skipped : Int := 0

namespace Skipping

/-- The current day is lost unless something is noted for it, and is counted. -/
def skipDay (st : Skipping) : Skipping :=
  if 1 ≤ st.data.currentDay ∧ st.data.currentDay ≤ 30 ∧
      st.data.statusOf st.data.currentDay = 0 then
    { data := { st.data with
        status := st.data.status.set (st.data.currentDay - 1).toNat 2
        missedDaysTotal := st.data.missedDaysTotal + 1 }
      skipped := st.skipped + 1 }
  else st

/-- The day after, the first one after the thirtieth. -/
def advance (st : Skipping) : Skipping :=
  { st with data := st.data.advance }

/-- The loop over the days after a claimed one. -/
def advanceClaimed (daysToAdvance : Nat) (st : Skipping) : Skipping :=
  (List.range daysToAdvance).foldl
    (fun st i => (if i = 0 then st else st.skipDay).advance) st

/-- The loop over the days after one that was not claimed, with the step before
it. -/
def advanceUnclaimed (daysGap : Nat) (st : Skipping) : Skipping :=
  let st := st.skipDay
  let st := { st with data := { st.data with currentDay := st.data.currentDay + 1 } }
  (List.range (daysGap - 1)).foldl (fun st _ => st.skipDay.advance) st

end Skipping

/-- `SkipMissedReward`: the data afterwards, and the number it returns. -/
def skipMissedRewardCount (offset now : Int) (data : PlayerDailyData) : Skipping :=
  if data.lastLoginDate = 0 then { data := data }
  else
    let daysGap := daysElapsed offset data.lastLoginDate now
    if daysGap ≤ 0 then { data := data }
    else
      let st :=
        if data.claimedToday then Skipping.advanceClaimed daysGap.toNat { data := data }
        else Skipping.advanceUnclaimed daysGap.toNat { data := data }
      { st with data := { st.data with claimedToday := false, lastLoginDate := now } }

/-- The days that are passed over without a claim: those before the new current
day, from the current one on unless it is claimed. -/
def PassedOver (data : PlayerDailyData) (gap day : Int) : Prop :=
  ∃ i : Nat, (if data.claimedToday then 1 else 0) ≤ i ∧ (i : Int) < gap ∧
    day = (data.currentDay - 1 + i) % 30 + 1

/-- How many days are marked as skipped afterwards that were not before. -/
def newlySkipped (before after : PlayerDailyData) : Int :=
  ((Finset.range 30).filter fun k : Nat =>
    before.statusOf (k + 1) ≠ 2 ∧ after.statusOf (k + 1) = 2).card

/-- What `SkipMissedReward` does to the data when days have passed. -/
structure SkipLaw (now gap : Int) (before : PlayerDailyData) (result : Skipping) : Prop where
  currentDay : result.data.currentDay = (before.currentDay - 1 + gap) % 30 + 1
  claimedToday : result.data.claimedToday = false
  lastLoginDate : result.data.lastLoginDate = now
  marked : ∀ day, 1 ≤ day → day ≤ 30 → PassedOver before gap day →
    before.statusOf day = 0 → result.data.statusOf day = 2
  others : ∀ day, 1 ≤ day → day ≤ 30 → ¬ (PassedOver before gap day ∧ before.statusOf day = 0) →
    result.data.statusOf day = before.statusOf day
  returned : result.skipped = newlySkipped before result.data
  missed : result.data.missedDaysTotal = before.missedDaysTotal + newlySkipped before result.data

section Skipping

variable {st : Skipping} {offset now : Int} {data : PlayerDailyData}

theorem data_skipDay : st.skipDay.data = st.data.skipDay := by
  unfold Skipping.skipDay PlayerDailyData.skipDay
  split_ifs <;> rfl

theorem data_advance : st.advance.data = st.data.advance := rfl

/-- A loop keeps the data that the same loop keeps without a count. -/
theorem data_foldl {f : Skipping → Nat → Skipping} {g : PlayerDailyData → Nat → PlayerDailyData}
    (hstep : ∀ st i, (f st i).data = g st.data i) (days : List Nat) (st : Skipping) :
    (days.foldl f st).data = days.foldl g st.data := by
  induction days generalizing st with
  | nil => rfl
  | cons i days ih => rw [List.foldl_cons, List.foldl_cons, ih, hstep]

/-- Without its count it is the function that the dialogs call. -/
theorem data_skipMissedRewardCount :
    (skipMissedRewardCount offset now data).data = data.skipMissedReward offset now := by
  have hclaimed : ∀ n, (Skipping.advanceClaimed n { data := data }).data =
      data.advanceClaimed n := by
    intro n
    apply data_foldl
    intro st i
    split_ifs
    · rfl
    · rw [data_advance, data_skipDay]
  have hunclaimed : ∀ n, (Skipping.advanceUnclaimed n { data := data }).data =
      data.advanceUnclaimed n := by
    intro n
    unfold Skipping.advanceUnclaimed PlayerDailyData.advanceUnclaimed
    dsimp only
    rw [data_foldl (g := fun data _ => data.skipDay.advance), data_skipDay]
    intro st _
    rw [data_advance, data_skipDay]
  unfold skipMissedRewardCount skipMissedReward
  dsimp only
  split_ifs
  · rfl
  · rfl
  · rw [hclaimed]
  · rw [hunclaimed]

/-- A day whose entry is zero is marked and counted. -/
theorem skipDay_of_zero {k : Nat} (hk : k < 30) (hday : st.data.currentDay = k + 1)
    (hzero : st.data.statusOf (k + 1) = 0) :
    st.skipDay = { data := { st.data with
                     status := st.data.status.set k 2
                     missedDaysTotal := st.data.missedDaysTotal + 1 }
                   skipped := st.skipped + 1 } := by
  have hindex : (st.data.currentDay - 1).toNat = k := by omega
  unfold Skipping.skipDay
  rw [if_pos ⟨by omega, by omega, by rw [hday]; exact hzero⟩, hindex]

/-- A day with another entry is left alone. -/
theorem skipDay_of_ne {k : Nat} (hday : st.data.currentDay = k + 1)
    (hne : st.data.statusOf (k + 1) ≠ 0) : st.skipDay = st := by
  unfold Skipping.skipDay
  rw [if_neg]
  rintro ⟨-, -, hzero⟩
  rw [hday] at hzero
  exact hne hzero

theorem statusOf_of_set {before after : PlayerDailyData} {k : Nat}
    (hlength : before.status.length = 30) (hk : k < 30)
    (hset : after.status = before.status.set k 2) (j : Nat) :
    after.statusOf (j + 1) = if j = k then 2 else before.statusOf (j + 1) := by
  have hindex : ((j : Int) + 1 - 1).toNat = j := by omega
  unfold statusOf
  rw [hset, hindex, List.getD_eq_getElem?_getD, List.getD_eq_getElem?_getD]
  by_cases hj : j = k
  · subst hj
    simp [hlength, hk]
  · rw [List.getElem?_set_ne (Ne.symm hj), if_neg hj]

/-- One entry more is newly marked. -/
theorem newlySkipped_set {before mid after : PlayerDailyData} {k : Nat} (hk : k < 30)
    (hbefore : before.statusOf (k + 1) ≠ 2) (hmid : mid.statusOf (k + 1) ≠ 2)
    (hafter : ∀ j : Nat, after.statusOf (j + 1) = if j = k then 2 else mid.statusOf (j + 1)) :
    newlySkipped before after = newlySkipped before mid + 1 := by
  unfold newlySkipped
  have hinsert : ((Finset.range 30).filter fun j : Nat =>
        before.statusOf (j + 1) ≠ 2 ∧ after.statusOf (j + 1) = 2) =
      insert k ((Finset.range 30).filter fun j : Nat =>
        before.statusOf (j + 1) ≠ 2 ∧ mid.statusOf (j + 1) = 2) := by
    ext j
    simp only [Finset.mem_insert, Finset.mem_filter, Finset.mem_range, hafter]
    by_cases hj : j = k
    · subst hj
      simp [hk, hbefore]
    · simp [hj]
  rw [hinsert, Finset.card_insert_of_notMem]
  · omega
  · simp [hmid]

/-- The entry is one of the first so many from the current day on. -/
def Visited (data : PlayerDailyData) (n k : Nat) : Prop :=
  ∃ i < n, (k : Int) = (data.currentDay - 1 + i) % 30

theorem visited_succ {n k : Nat} : Visited data (n + 1) k ↔
    Visited data n k ∨ (k : Int) = (data.currentDay - 1 + n) % 30 := by
  constructor
  · rintro ⟨i, hi, hk⟩
    rcases Nat.lt_succ_iff_lt_or_eq.mp hi with hlt | rfl
    · exact Or.inl ⟨i, hlt, hk⟩
    · exact Or.inr hk
  · rintro (⟨i, hi, hk⟩ | hk)
    · exact ⟨i, Nat.lt_succ_of_lt hi, hk⟩
    · exact ⟨n, Nat.lt_succ_self n, hk⟩

/-- What passing over so many days leaves. -/
structure Passed (start : Skipping) (n : Nat) (after : Skipping) : Prop where
  currentDay : after.data.currentDay = (start.data.currentDay - 1 + n) % 30 + 1
  length : after.data.status.length = 30
  marked : ∀ k < 30, Visited start.data n k → start.data.statusOf (k + 1) = 0 →
    after.data.statusOf (k + 1) = 2
  others : ∀ k < 30, ¬ (Visited start.data n k ∧ start.data.statusOf (k + 1) = 0) →
    after.data.statusOf (k + 1) = start.data.statusOf (k + 1)
  skipped : after.skipped = start.skipped + newlySkipped start.data after.data
  missed : after.data.missedDaysTotal =
    start.data.missedDaysTotal + newlySkipped start.data after.data

theorem newlySkipped_self : newlySkipped data data = 0 := by
  unfold newlySkipped
  simp only [Nat.cast_eq_zero, Finset.card_eq_zero, Finset.filter_eq_empty_iff]
  intro k _ hboth
  exact hboth.1 hboth.2

theorem passed_zero (hlength : st.data.status.length = 30) (hday : 1 ≤ st.data.currentDay)
    (hlast : st.data.currentDay ≤ 30) : Passed st 0 st where
  currentDay := by omega
  length := hlength
  marked := by
    rintro k - ⟨i, hi, -⟩
    exact absurd hi (Nat.not_lt_zero i)
  others := fun _ _ _ => rfl
  skipped := by rw [newlySkipped_self, Int.add_zero]
  missed := by rw [newlySkipped_self, Int.add_zero]

/-- One more day is passed over. -/
theorem Passed.succ {start after : Skipping} {n : Nat} (h : Passed start n after) :
    Passed start (n + 1) after.skipDay.advance := by
  obtain ⟨hday, hlength, hmarked, hothers, hskipped, hmissed⟩ := h
  obtain ⟨k, hk⟩ : ∃ k : Nat, (k : Int) = (start.data.currentDay - 1 + n) % 30 :=
    ⟨((start.data.currentDay - 1 + n) % 30).toNat, by omega⟩
  have hlt : k < 30 := by omega
  rw [← hk] at hday
  have hnext : (if 30 < (k : Int) + 1 + 1 then 1 else (k : Int) + 1 + 1) =
      (start.data.currentDay - 1 + (n + 1 : Nat)) % 30 + 1 := by
    split_ifs <;> omega
  by_cases hzero : after.data.statusOf (k + 1) = 0
  · have hnot : ¬ (Visited start.data n k ∧ start.data.statusOf (k + 1) = 0) := by
      rintro ⟨hvisited, hstart⟩
      rw [hmarked k hlt hvisited hstart] at hzero
      cases hzero
    have hstart : start.data.statusOf (k + 1) = 0 := (hothers k hlt hnot).symm.trans hzero
    rw [skipDay_of_zero hlt hday hzero]
    have hentries := @statusOf_of_set after.data
      (Skipping.advance ⟨{ after.data with
        status := after.data.status.set k 2
        missedDaysTotal := after.data.missedDaysTotal + 1 }, after.skipped + 1⟩).data
      k hlength hlt rfl
    have hcount := newlySkipped_set hlt (by rw [hstart]; decide) (by rw [hzero]; decide) hentries
    refine ⟨?_, ?_, ?_, ?_, ?_, ?_⟩
    · rw [data_advance, currentDay_advance]
      dsimp only
      rw [hday, hnext]
    · exact (List.length_set ..).trans hlength
    · intro j hj hvisited hzero'
      rw [hentries]
      split_ifs with hsame
      · rfl
      · apply hmarked j hj _ hzero'
        rcases visited_succ.mp hvisited with hearlier | hnow
        · exact hearlier
        · exact absurd (by omega) hsame
    · intro j hj hfree
      rw [hentries]
      split_ifs with hsame
      · subst hsame
        exact absurd ⟨visited_succ.mpr (Or.inr hk), hstart⟩ hfree
      · apply hothers j hj
        rintro ⟨hvisited, hzero'⟩
        exact hfree ⟨visited_succ.mpr (Or.inl hvisited), hzero'⟩
    · rw [hcount]
      change after.skipped + 1 = _
      omega
    · rw [hcount]
      change after.data.missedDaysTotal + 1 = _
      omega
  · rw [skipDay_of_ne hday hzero]
    refine ⟨?_, hlength, ?_, ?_, hskipped, hmissed⟩
    · rw [data_advance, currentDay_advance, hday, hnext]
    · intro j hj hvisited hzero'
      rcases visited_succ.mp hvisited with hearlier | hnow
      · exact hmarked j hj hearlier hzero'
      · have hsame : j = k := by omega
        subst hsame
        by_cases hearlier : Visited start.data n j
        · exact hmarked j hj hearlier hzero'
        · have hentry := hothers j hj fun hboth => hearlier hboth.1
          exact absurd (hentry.trans hzero') hzero
    · intro j hj hfree
      apply hothers j hj
      rintro ⟨hvisited, hzero'⟩
      exact hfree ⟨visited_succ.mpr (Or.inl hvisited), hzero'⟩

theorem passed_iterate {start : Skipping} (hlength : start.data.status.length = 30)
    (hday : 1 ≤ start.data.currentDay) (hlast : start.data.currentDay ≤ 30) (n : Nat) :
    Passed start n ((fun st => st.skipDay.advance)^[n] start) := by
  induction n with
  | zero => exact passed_zero hlength hday hlast
  | succ n ih =>
      rw [Function.iterate_succ_apply']
      exact ih.succ

/-- A loop that does not look at its index. -/
theorem foldl_range_const {α : Type*} (f : α → α) (n : Nat) (a : α) :
    (List.range n).foldl (fun a _ => f a) a = f^[n] a := by
  rw [List.foldl_const, List.length_range]

theorem advanceClaimed_succ (n : Nat) :
    st.advanceClaimed (n + 1) = (fun st => st.skipDay.advance)^[n] st.advance := by
  unfold Skipping.advanceClaimed
  rw [List.range_succ_eq_map, List.foldl_cons, if_pos rfl, List.foldl_map]
  simp only [Nat.succ_ne_zero, if_false]
  exact foldl_range_const (fun st : Skipping => st.skipDay.advance) n _

theorem advanceUnclaimed_succ (hday : st.data.currentDay < 30) (n : Nat) :
    st.advanceUnclaimed (n + 1) = (fun st => st.skipDay.advance)^[n + 1] st := by
  have hstep : ({ st.skipDay with data := { st.skipDay.data with
      currentDay := st.skipDay.data.currentDay + 1 } } : Skipping) = st.skipDay.advance := by
    unfold Skipping.advance PlayerDailyData.advance
    rw [if_neg]
    rw [data_skipDay, currentDay_skipDay]
    omega
  unfold Skipping.advanceUnclaimed
  dsimp only
  rw [hstep, Nat.add_sub_cancel, Function.iterate_succ_apply]
  exact foldl_range_const (fun st : Skipping => st.skipDay.advance) n _

/-- The law holds when the days that a loop visited are those passed over. -/
theorem law_of_passed {start after : Skipping} {n : Nat} {gap : Int}
    (hpassed : Passed start n after) (hstatus : start.data.status = data.status)
    (hskipped : start.skipped = 0)
    (hmissed : start.data.missedDaysTotal = data.missedDaysTotal)
    (hday : (start.data.currentDay - 1 + n) % 30 = (data.currentDay - 1 + gap) % 30)
    (hvisited : ∀ k < 30, Visited start.data n k ↔ PassedOver data gap (k + 1)) :
    SkipLaw now gap data { after with
      data := { after.data with claimedToday := false, lastLoginDate := now } } := by
  obtain ⟨hcurrent, -, hmarked, hothers, hreturned, htotal⟩ := hpassed
  have hentry : start.data.statusOf = data.statusOf := by
    unfold statusOf
    rw [hstatus]
  have hcount : newlySkipped start.data after.data = newlySkipped data after.data := by
    unfold newlySkipped
    rw [hentry]
  have hindex : ∀ day : Int, 1 ≤ day → day ≤ 30 → ∃ k : Nat, k < 30 ∧ day = k + 1 :=
    fun day hlow hhigh => ⟨(day - 1).toNat, by omega, by omega⟩
  rw [hentry] at hmarked hothers
  rw [hcount] at hreturned htotal
  constructor
  · exact hcurrent.trans (by rw [hday])
  · rfl
  · rfl
  · intro day hlow hhigh hpast hzero
    obtain ⟨k, hk, rfl⟩ := hindex day hlow hhigh
    exact hmarked k hk ((hvisited k hk).mpr hpast) hzero
  · intro day hlow hhigh hfree
    obtain ⟨k, hk, rfl⟩ := hindex day hlow hhigh
    exact hothers k hk fun hboth => hfree ⟨(hvisited k hk).mp hboth.1, hboth.2⟩
  · exact hreturned.trans (by rw [hskipped, Int.zero_add]; rfl)
  · exact htotal.trans (by rw [hmissed]; rfl)

/-- When days have passed, the law holds unless the thirtieth day was not
claimed. -/
theorem skipMissedRewardCount_law_iff (offset now : Int) (data : PlayerDailyData)
    (hlength : data.status.length = 30) (hday : 1 ≤ data.currentDay)
    (hlast : data.currentDay ≤ 30) (hlogin : data.lastLoginDate ≠ 0)
    (hgap : 0 < daysElapsed offset data.lastLoginDate now) :
    SkipLaw now (daysElapsed offset data.lastLoginDate now) data
        (skipMissedRewardCount offset now data) ↔
      data.claimedToday = true ∨ data.currentDay ≠ 30 := by
  constructor
  · intro hlaw
    have hafter := hlaw.currentDay
    rw [data_skipMissedRewardCount, currentDay_skipMissedReward hday hlast] at hafter
    unfold dayAfter at hafter
    rw [if_neg (by omega)] at hafter
    by_contra hnot
    obtain ⟨hclaimed, hthirty⟩ := not_or.mp hnot
    rw [if_neg (not_or.mpr ⟨hclaimed, by omega⟩)] at hafter
    split_ifs at hafter <;> omega
  · intro hgood
    obtain ⟨n, hn⟩ : ∃ n : Nat, daysElapsed offset data.lastLoginDate now = n + 1 :=
      ⟨(daysElapsed offset data.lastLoginDate now - 1).toNat, by omega⟩
    unfold skipMissedRewardCount
    dsimp only
    rw [if_neg hlogin, if_neg (by omega), hn]
    have hcount : ((n : Int) + 1).toNat = n + 1 := by omega
    rw [hcount]
    by_cases hclaimed : data.claimedToday = true
    · have hnext : (Skipping.advance { data := data }).data.currentDay =
          data.currentDay % 30 + 1 := by
        change data.advance.currentDay = _
        rw [currentDay_advance]
        split_ifs <;> omega
      have hpassed := @passed_iterate (Skipping.advance { data := data }) hlength (by omega)
        (by omega) n
      rw [if_pos hclaimed, advanceClaimed_succ]
      apply @law_of_passed now data _ _ n _ hpassed rfl rfl rfl
      · omega
      · intro k hk
        unfold Visited PassedOver
        rw [if_pos hclaimed, hnext]
        constructor
        · rintro ⟨i, hi, hk'⟩
          exact ⟨i + 1, by omega, by omega, by omega⟩
        · rintro ⟨i, hone, hi, hk'⟩
          exact ⟨i - 1, by omega, by omega⟩
    · have hearly : data.currentDay < 30 := by
        have hne := hgood.resolve_left hclaimed
        omega
      have hpassed := @passed_iterate { data := data } hlength hday hlast (n + 1)
      rw [if_neg hclaimed, advanceUnclaimed_succ hearly]
      apply @law_of_passed now data _ _ (n + 1) _ hpassed rfl rfl rfl
      · rfl
      · intro k hk
        change (∃ i < n + 1, (k : Int) = (data.currentDay - 1 + i) % 30) ↔ _
        unfold PassedOver
        rw [if_neg hclaimed]
        constructor
        · rintro ⟨i, hi, hk'⟩
          exact ⟨i, Nat.zero_le i, by omega, by omega⟩
        · rintro ⟨i, -, hi, hk'⟩
          exact ⟨i, by omega, by omega⟩

theorem skipMissedRewardCount_law_of_two_days :
    SkipLaw 259200 2 { lastLoginDate := 86400, currentDay := 29 }
        (skipMissedRewardCount 0 259200 { lastLoginDate := 86400, currentDay := 29 }) :=
  (skipMissedRewardCount_law_iff 0 259200 { lastLoginDate := 86400, currentDay := 29 }
    (by decide) (by decide) (by decide) (by decide) (by decide)).mpr (Or.inr (by decide))

/-- The day after a thirtieth day that was not claimed is a day 31. -/
theorem thirtieth_day_is_not_followed_by_first :
    ¬ ∀ (offset now : Int) (data : PlayerDailyData), data.status.length = 30 →
      1 ≤ data.currentDay → data.currentDay ≤ 30 → data.lastLoginDate ≠ 0 →
      0 < daysElapsed offset data.lastLoginDate now →
      SkipLaw now (daysElapsed offset data.lastLoginDate now) data
        (skipMissedRewardCount offset now data) := by
  intro h
  have hlaw := h 0 172800 { lastLoginDate := 86400, currentDay := 30 } (by decide) (by decide)
    (by decide) (by decide) (by decide)
  exact absurd hlaw.currentDay (by decide)

end Skipping

end DailyReward

end NopyServer
