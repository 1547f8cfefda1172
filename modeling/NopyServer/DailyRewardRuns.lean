/-
Runs of the daily rewards of one player.  A claim is accepted once on each
local day.  The two dialogs agree until the cycle of thirty days begins again:
`Status` is never cleared, and a day that was claimed in an earlier cycle shows
as claimed while `ClaimReward` would accept it.
-/
import NopyServer.DailyReward

namespace NopyServer

namespace DailyReward

open PlayerDailyData

/-- The session of the player and the loaded rewards. -/
structure DailyState where
  session : Session
  rewards : List Reward := []

/-- A call on the daily rewards of the player, or anything else that leaves
their members alone. -/
inductive DailyCall where
  | claimReward (now : Int)
  | buildDialog (now : Int) (loaded : List Reward)
  | elsewhere (s : Session)

/-- The time of a call on the daily rewards. -/
def DailyCall.time : DailyCall → Option Int
  | .claimReward now => some now
  | .buildDialog now _ => some now
  | .elsewhere _ => none

/-- `ClaimReward` at a time. -/
def DailyState.claim (env : Env) (offset now : Int) (st : DailyState) : Claim :=
  claimReward env offset st.rewards { st.session with now := now }

/-- The state after one more call. -/
def DailyState.step (env : Env) (offset : Int) (st : DailyState) :
    DailyCall → DailyState
  | .claimReward now => { st with session := (st.claim env offset now).session }
  | .buildDialog now loaded =>
      { session := { st.session with
          pl := (DailyReward.buildDialog offset now loaded st.session.pl).2 }
        rewards := loaded }
  | .elsewhere s =>
      { st with session := { s with
          pl := { s.pl with daily := st.session.pl.daily } } }

/-- The state after a history. -/
def DailyState.run (env : Env) (offset : Int) (st : DailyState)
    (calls : List DailyCall) : DailyState :=
  calls.foldl (DailyState.step env offset) st

section Skips

variable {offset now : Int} {data : PlayerDailyData} {pl : Player}

theorem skipMissedReward_of_daysElapsed
    (hgap : daysElapsed offset data.lastLoginDate now ≤ 0) :
    data.skipMissedReward offset now = data := by
  unfold skipMissedReward
  dsimp only
  rw [if_pos hgap, ite_self]

@[simp] theorem currentDay_skipDay : data.skipDay.currentDay = data.currentDay := by
  unfold skipDay
  split_ifs <;> rfl

theorem currentDay_advance : data.advance.currentDay =
    if 30 < data.currentDay + 1 then 1 else data.currentDay + 1 := rfl

theorem length_status_skipDay : data.skipDay.status.length = data.status.length := by
  unfold skipDay
  split_ifs <;> simp

theorem statusOf_skipDay (day : Int) :
    data.skipDay.statusOf day = 1 ↔ data.statusOf day = 1 := by
  unfold skipDay
  split_ifs with hlost
  · obtain ⟨-, -, hzero⟩ := hlost
    unfold statusOf at hzero ⊢
    dsimp only
    rw [List.getD_eq_getElem?_getD, List.getD_eq_getElem?_getD, List.getElem?_set]
    rw [List.getD_eq_getElem?_getD] at hzero
    split_ifs with hsame hlength
    · rw [← hsame, hzero]
      simp
    · rw [← hsame, hzero]
      simp
    · rfl
  · rfl

/-- What the steps over the days keep: the claimed days and the length. -/
structure SameClaims (before after : PlayerDailyData) : Prop where
  claimed : ∀ day, after.statusOf day = 1 ↔ before.statusOf day = 1
  length : after.status.length = before.status.length

theorem SameClaims.skipDay {before after : PlayerDailyData}
    (h : SameClaims before after) : SameClaims before after.skipDay :=
  ⟨fun day => (statusOf_skipDay day).trans (h.claimed day),
    length_status_skipDay.trans h.length⟩

theorem SameClaims.advance {before after : PlayerDailyData}
    (h : SameClaims before after) : SameClaims before after.advance :=
  ⟨h.claimed, h.length⟩

theorem sameClaims_advanceClaimed (n : Nat) :
    SameClaims data (data.advanceClaimed n) := by
  unfold advanceClaimed
  induction n with
  | zero => exact ⟨fun _ => Iff.rfl, rfl⟩
  | succ n ih =>
      rw [List.range_succ, List.foldl_append]
      apply SameClaims.advance
      split_ifs
      · exact ih
      · exact ih.skipDay

theorem sameClaims_advanceUnclaimed (n : Nat) :
    SameClaims data (data.advanceUnclaimed n) := by
  unfold advanceUnclaimed
  dsimp only
  induction n - 1 with
  | zero => exact ⟨fun day => statusOf_skipDay day, length_status_skipDay⟩
  | succ n ih =>
      rw [List.range_succ, List.foldl_append]
      exact ih.skipDay.advance

theorem sameClaims_skipMissedReward :
    SameClaims data (data.skipMissedReward offset now) := by
  unfold skipMissedReward
  dsimp only
  split_ifs with hnew hsame hclaimed
  · exact ⟨fun _ => Iff.rfl, rfl⟩
  · exact ⟨fun _ => Iff.rfl, rfl⟩
  · obtain ⟨hclaims, hlength⟩ := @sameClaims_advanceClaimed data
      (daysElapsed offset data.lastLoginDate now).toNat
    exact ⟨hclaims, hlength⟩
  · obtain ⟨hclaims, hlength⟩ := @sameClaims_advanceUnclaimed data
      (daysElapsed offset data.lastLoginDate now).toNat
    exact ⟨hclaims, hlength⟩

/-- The day that is current when so many days have passed: after the thirtieth
day comes the first, unless it is missed alone. -/
def dayAfter (data : PlayerDailyData) (gap : Int) : Int :=
  if gap ≤ 0 then data.currentDay
  else if data.claimedToday = true ∨ data.currentDay < 30 then
    (data.currentDay - 1 + gap) % 30 + 1
  else if gap = 1 then 31
  else (gap - 2) % 30 + 1

/-- A loop over days each of which moves on to the day after. -/
theorem currentDay_foldl {f : PlayerDailyData → Nat → PlayerDailyData}
    (hf : ∀ data i, (f data i).currentDay = data.advance.currentDay)
    (days : List Nat) (start : PlayerDailyData) (hday : 1 ≤ start.currentDay)
    (hlast : start.currentDay ≤ 30) :
    (days.foldl f start).currentDay =
      (start.currentDay - 1 + days.length) % 30 + 1 := by
  induction days generalizing start with
  | nil =>
      simp only [List.foldl_nil, List.length_nil]
      omega
  | cons i days ih =>
      have hnext := hf start i
      rw [currentDay_advance] at hnext
      have hbounds : 1 ≤ (f start i).currentDay ∧ (f start i).currentDay ≤ 30 := by
        split_ifs at hnext <;> omega
      rw [List.foldl_cons, List.length_cons, ih _ hbounds.1 hbounds.2, hnext]
      split_ifs <;> omega

/-- The same from behind the thirtieth day. -/
theorem currentDay_foldl_late {f : PlayerDailyData → Nat → PlayerDailyData}
    (hf : ∀ data i, (f data i).currentDay = data.advance.currentDay)
    (i : Nat) (days : List Nat) (start : PlayerDailyData)
    (hday : start.currentDay = 31) :
    ((i :: days).foldl f start).currentDay = (days.length : Int) % 30 + 1 := by
  have hfirst : (f start i).currentDay = 1 := by
    rw [hf, currentDay_advance, hday]
    rfl
  rw [List.foldl_cons, currentDay_foldl hf days _ (by omega) (by omega), hfirst]
  omega

theorem currentDay_advanceClaimed (hday : 1 ≤ data.currentDay)
    (hlast : data.currentDay ≤ 30) (n : Nat) :
    (data.advanceClaimed n).currentDay = (data.currentDay - 1 + n) % 30 + 1 := by
  rw [advanceClaimed, currentDay_foldl _ _ _ hday hlast, List.length_range]
  intro data i
  split_ifs <;> simp [currentDay_advance]

theorem currentDay_advanceUnclaimed (hday : 1 ≤ data.currentDay)
    (hlast : data.currentDay ≤ 30) (n : Nat) :
    (data.advanceUnclaimed (n + 1)).currentDay =
      if data.currentDay < 30 then (data.currentDay - 1 + (n + 1)) % 30 + 1
      else if n = 0 then 31
      else ((n : Int) - 1) % 30 + 1 := by
  have hstep : ∀ (data : PlayerDailyData) (_ : Nat),
      data.skipDay.advance.currentDay = data.advance.currentDay := by
    intro data _
    simp [currentDay_advance]
  simp only [advanceUnclaimed, Nat.add_sub_cancel]
  split_ifs with hearly hnext
  · rw [currentDay_foldl hstep _ _ (by simp; omega) (by simp; omega),
      List.length_range]
    simp only [currentDay_skipDay]
    omega
  · subst hnext
    change data.skipDay.currentDay + 1 = 31
    rw [currentDay_skipDay]
    omega
  · obtain ⟨m, rfl⟩ := Nat.exists_eq_succ_of_ne_zero hnext
    rw [List.range_succ_eq_map, currentDay_foldl_late hstep _ _ _ (by simp; omega),
      List.length_map, List.length_range]
    omega

theorem currentDay_skipMissedReward (hday : 1 ≤ data.currentDay)
    (hlast : data.currentDay ≤ 30) :
    (data.skipMissedReward offset now).currentDay =
      dayAfter data (daysElapsed offset data.lastLoginDate now) := by
  have hnew : data.lastLoginDate = 0 →
      daysElapsed offset data.lastLoginDate now = 0 := fun h => if_pos h
  unfold skipMissedReward dayAfter
  generalize daysElapsed offset data.lastLoginDate now = gap at *
  dsimp only
  by_cases hzero : data.lastLoginDate = 0
  · rw [if_pos hzero, if_pos (Int.le_of_eq (hnew hzero))]
  rw [if_neg hzero]
  by_cases hgap : gap ≤ 0
  · rw [if_pos hgap, if_pos hgap]
  rw [if_neg hgap, if_neg hgap]
  by_cases hclaimed : data.claimedToday = true
  · rw [if_pos hclaimed, if_pos (Or.inl hclaimed)]
    dsimp only
    rw [currentDay_advanceClaimed hday hlast]
    omega
  · rw [if_neg hclaimed]
    simp only [hclaimed, Bool.false_eq_true, false_or]
    obtain ⟨n, hn⟩ : ∃ n : Nat, gap = n + 1 := ⟨(gap - 1).toNat, by omega⟩
    have hcount : gap.toNat = n + 1 := by omega
    rw [hcount, currentDay_advanceUnclaimed hday hlast]
    split_ifs <;> omega

theorem claimedToday_skipMissedReward :
    (data.skipMissedReward offset now).claimedToday =
      (data.claimedToday &&
        decide (daysElapsed offset data.lastLoginDate now ≤ 0)) := by
  unfold skipMissedReward
  dsimp only
  split_ifs with hnew hsame
  · have hzero : daysElapsed offset data.lastLoginDate now = 0 := if_pos hnew
    simp [hzero]
  · simp [hsame]
  · simp [hsame]
  · simp [hsame]

/-- Nothing is left to skip at the same time. -/
theorem daysElapsed_skipMissedReward :
    daysElapsed offset (data.skipMissedReward offset now).lastLoginDate now ≤ 0 := by
  unfold skipMissedReward
  dsimp only
  split_ifs with hnew hsame
  · exact Int.le_of_eq (if_pos hnew)
  · exact hsame
  · exact Int.le_of_eq (daysElapsed_of_sameDay rfl)
  · exact Int.le_of_eq (daysElapsed_of_sameDay rfl)

theorem length_readFromPlayer : (readFromPlayer pl).status.length = 30 := by
  unfold readFromPlayer
  dsimp only
  split_ifs with hlong
  · rw [List.length_take]
    omega
  · exact List.length_replicate

theorem currentDay_readFromPlayer :
    1 ≤ (readFromPlayer pl).currentDay ∧ (readFromPlayer pl).currentDay ≤ 30 := by
  unfold readFromPlayer
  dsimp only
  split_ifs <;> omega

/-- What is read back of what was written. -/
theorem readFromPlayer_writeToPlayer (hlength : data.status.length = 30) :
    readFromPlayer (data.writeToPlayer pl) =
      { data with
        currentDay := if data.currentDay < 1 ∨ 30 < data.currentDay then 1
          else data.currentDay
        totalClaim := 0
        missedDaysTotal := 0 } := by
  by_cases hday : data.currentDay < 1 ∨ 30 < data.currentDay
  · simp [readFromPlayer, writeToPlayer, hlength, hday]
  · simp [readFromPlayer, writeToPlayer, hlength, hday]

end Skips

section Dialogs

/-- When `BuildDialog` is called: it offers a claim exactly when `ClaimReward`
would accept one, on the current day, and the dialog of each day says the
same. -/
structure DialogsAgree (items : Items) (offset now : Int)
    (rewards : List Reward) (pl : Player) : Prop where
  offered :
    (∃ button ∈ (buildDialog offset now rewards pl).1,
      button.buttonId = "claim_daily_reward") ↔
    ((readFromPlayer (buildDialog offset now rewards pl).2).skipMissedReward
      offset now).canClaimToday = true
  onlyCurrent : ∀ (i : Nat) (button : DayButton),
    (buildDialog offset now rewards pl).1[i]? = some button →
    button.buttonId = "claim_daily_reward" →
    (i : Int) + 1 =
      (readFromPlayer (buildDialog offset now rewards pl).2).currentDay
  sameStatus : ∀ day : Int, 1 ≤ day → day ≤ 30 →
    (buildInfoDialog items rewards (buildDialog offset now rewards pl).2 day).map
        InfoDialog.status =
      ((buildDialog offset now rewards pl).1[(day - 1).toNat]?).map
        DayButton.status

/-- The day of the clock is one of the thirty, and it was claimed today or it
has a reward and was not claimed in an earlier cycle. -/
def TodayShown (offset now : Int) (rewards : List Reward) (pl : Player) : Prop :=
  let data := readFromPlayer pl
  let gap := daysElapsed offset data.lastLoginDate now
  let day := dayAfter data gap
  day ≠ 31 ∧ ((gap ≤ 0 ∧ data.claimedToday = true) ∨
    (data.statusOf day ≠ 1 ∧ day ≤ rewards.length))

variable {offset now : Int} {rewards : List Reward} {pl : Player}
  {data : PlayerDailyData} {day : Int} {rew : Reward} {items : Items}

theorem status_dayButton :
    (dayButton data day rew).status = dialogStatus data day := by
  unfold dayButton
  cases dialogStatus data day <;> rfl

theorem buttonId_dayButton_iff :
    (dayButton data day rew).buttonId = "claim_daily_reward" ↔
      dialogStatus data day = .ready := by
  have hother : "dr_day_" ++ toString day ≠ "claim_daily_reward" := by
    intro hsame
    have hchars := congrArg String.toList hsame
    rw [String.toList_append] at hchars
    have hhead : ("dr_day_".toList ++ (toString day).toList).head? = some 'd' := rfl
    rw [hchars] at hhead
    exact absurd hhead (by decide)
  unfold dayButton
  cases dialogStatus data day with
  | ready => exact iff_of_true rfl rfl
  | claimed => exact iff_of_false hother (by decide)
  | skipped => exact iff_of_false hother (by decide)
  | upcoming => exact iff_of_false hother (by decide)

theorem buildDialog_getElem? (i : Nat) :
    (buildDialog offset now rewards pl).1[i]? =
      if i < 30 then rewards[i]?.map fun rew =>
        dayButton ((readFromPlayer pl).skipMissedReward offset now) (i + 1) rew
      else none := by
  simp only [buildDialog, List.getElem?_mapIdx, List.getElem?_take]
  split_ifs <;> rfl

theorem status_buildInfoDialog (hday : 1 ≤ day) (hlast : day ≤ 30) :
    (buildInfoDialog items rewards pl day).map InfoDialog.status =
      rewards[(day - 1).toNat]?.map fun _ =>
        infoStatus (readFromPlayer pl) day := by
  have hmod : (day - 1) % 30 = day - 1 := by omega
  unfold buildInfoDialog getReward
  rw [if_neg (by omega), hmod, Option.map_map]
  congr 1
  funext rew
  dsimp only [Function.comp]
  cases infoStatus (readFromPlayer pl) day <;> rfl

/-- The past of the current day is what is noted for it, until it is claimed. -/
theorem pastStatus_of_current (hday : day = data.currentDay)
    (hclaimed : data.claimedToday = false) :
    data.pastStatus day = data.statusOf day := by
  unfold pastStatus
  simp only [hday, hclaimed]
  split_ifs with hnone hearly
  · exact absurd hearly (Int.lt_irrefl _)
  · simp_all
  · simp_all
  · rfl

theorem dialogStatus_eq_ready_iff :
    dialogStatus data day = .ready ↔
      day = data.currentDay ∧ data.claimedToday = false ∧
        data.statusOf day ≠ 1 := by
  by_cases hcurrent : day = data.currentDay ∧ data.claimedToday = false
  · obtain ⟨hday, hclaimed⟩ := hcurrent
    unfold dialogStatus
    rw [pastStatus_of_current hday hclaimed]
    by_cases hone : data.statusOf day = 1
    · simp [hone]
    · simp [hday, hclaimed]
  · unfold dialogStatus
    rw [if_neg hcurrent]
    constructor
    · intro hready
      split_ifs at hready
    · rintro ⟨hday, hclaimed, -⟩
      exact absurd ⟨hday, hclaimed⟩ hcurrent

/-- The two chains of tests agree on every day but a current one that shows as
claimed. -/
theorem infoStatus_eq_dialogStatus
    (h : ¬ (day = data.currentDay ∧ data.claimedToday = false ∧
      data.statusOf day = 1)) :
    infoStatus data day = dialogStatus data day := by
  by_cases hcurrent : day = data.currentDay ∧ data.claimedToday = false
  · have hready : dialogStatus data day = .ready :=
      dialogStatus_eq_ready_iff.mpr
        ⟨hcurrent.1, hcurrent.2, fun hone => h ⟨hcurrent.1, hcurrent.2, hone⟩⟩
    rw [hready, infoStatus, if_pos hcurrent]
  · unfold infoStatus dialogStatus
    rw [if_neg hcurrent, if_neg hcurrent]

/-- Both dialogs and the claim read the saved player as it was written, a day
behind the thirtieth being the first. -/
theorem readFromPlayer_buildDialog :
    let data := (readFromPlayer pl).skipMissedReward offset now
    readFromPlayer (buildDialog offset now rewards pl).2 =
      { data with
        currentDay := if data.currentDay < 1 ∨ 30 < data.currentDay then 1
          else data.currentDay
        totalClaim := 0
        missedDaysTotal := 0 } :=
  readFromPlayer_writeToPlayer
    (sameClaims_skipMissedReward.length.trans length_readFromPlayer)

theorem canClaimToday_eq_true_iff :
    data.canClaimToday = true ↔
      data.claimedToday = false ∧ 1 ≤ data.currentDay ∧ data.currentDay ≤ 30 := by
  unfold canClaimToday
  by_cases hclaimed : data.claimedToday = true
  · simp [hclaimed]
  · by_cases hday : data.currentDay < 1 ∨ 30 < data.currentDay
    · simp [hclaimed, hday]
      omega
    · simp [hclaimed, hday]
      omega

theorem dayAfter_bounds (hday : 1 ≤ data.currentDay) (hlast : data.currentDay ≤ 30)
    (gap : Int) : 1 ≤ dayAfter data gap ∧ dayAfter data gap ≤ 31 := by
  unfold dayAfter
  split_ifs <;> omega

/-- When the dialog has the button. -/
theorem offers_iff
    (hdata : (readFromPlayer pl).skipMissedReward offset now = data)
    (hday : 1 ≤ data.currentDay) :
    (∃ button ∈ (buildDialog offset now rewards pl).1,
      button.buttonId = "claim_daily_reward") ↔
    data.claimedToday = false ∧ data.currentDay ≤ 30 ∧
      data.currentDay ≤ rewards.length ∧ data.statusOf data.currentDay ≠ 1 := by
  constructor
  · rintro ⟨button, hmem, hid⟩
    obtain ⟨i, hi⟩ := List.mem_iff_getElem?.mp hmem
    rw [buildDialog_getElem?, hdata] at hi
    split_ifs at hi with hthirty
    obtain ⟨rew, hrew, rfl⟩ := Option.map_eq_some_iff.mp hi
    obtain ⟨hcurrent, hclaimed, hstatus⟩ :=
      dialogStatus_eq_ready_iff.mp (buttonId_dayButton_iff.mp hid)
    have hlength := (List.getElem?_eq_some_iff.mp hrew).1
    exact ⟨hclaimed, by omega, by omega, hcurrent ▸ hstatus⟩
  · rintro ⟨hclaimed, hthirty, hlength, hstatus⟩
    have hi : (data.currentDay - 1).toNat < rewards.length := by omega
    have hback : ((data.currentDay - 1).toNat : Int) + 1 = data.currentDay := by
      omega
    refine ⟨dayButton data data.currentDay rewards[(data.currentDay - 1).toNat],
      List.mem_iff_getElem?.mpr ⟨(data.currentDay - 1).toNat, ?_⟩,
      buttonId_dayButton_iff.mpr
        (dialogStatus_eq_ready_iff.mpr ⟨rfl, hclaimed, hstatus⟩)⟩
    rw [buildDialog_getElem?, if_pos (by omega), List.getElem?_eq_getElem hi,
      Option.map_some, hback, hdata]

/-- When `ClaimReward` would accept a claim right after the dialog. -/
theorem accepts_iff :
    ((readFromPlayer (buildDialog offset now rewards pl).2).skipMissedReward offset
      now).canClaimToday = true ↔
    ((readFromPlayer pl).skipMissedReward offset now).claimedToday = false := by
  have hcurrent := @currentDay_readFromPlayer (buildDialog offset now rewards pl).2
  rw [skipMissedReward_of_daysElapsed, canClaimToday_eq_true_iff,
    and_iff_left hcurrent, readFromPlayer_buildDialog]
  rw [readFromPlayer_buildDialog]
  exact daysElapsed_skipMissedReward

theorem todayShown_iff
    (hdata : (readFromPlayer pl).skipMissedReward offset now = data) :
    TodayShown offset now rewards pl ↔ data.currentDay ≠ 31 ∧
      (data.claimedToday = true ∨ (data.statusOf data.currentDay ≠ 1 ∧
        data.currentDay ≤ rewards.length)) := by
  unfold TodayShown
  dsimp only
  rw [← hdata, claimedToday_skipMissedReward, Bool.and_eq_true, decide_eq_true_eq,
    and_comm (b := _ = true)]
  simp only [ne_eq, sameClaims_skipMissedReward.claimed,
    currentDay_skipMissedReward currentDay_readFromPlayer.1
      currentDay_readFromPlayer.2]

/-- A day that is claimed is one of the thirty. -/
theorem currentDay_le_of_claimedToday
    (hdata : (readFromPlayer pl).skipMissedReward offset now = data)
    (hclaimed : data.claimedToday = true) : data.currentDay ≤ 30 := by
  rw [← hdata, claimedToday_skipMissedReward, Bool.and_eq_true,
    decide_eq_true_eq] at hclaimed
  rw [← hdata, skipMissedReward_of_daysElapsed hclaimed.2]
  exact currentDay_readFromPlayer.2

theorem currentDay_of_button
    (hdata : (readFromPlayer pl).skipMissedReward offset now = data) {i : Nat}
    {button : DayButton} (hi : (buildDialog offset now rewards pl).1[i]? = some button)
    (hid : button.buttonId = "claim_daily_reward") :
    (i : Int) + 1 = data.currentDay := by
  rw [buildDialog_getElem?, hdata] at hi
  split_ifs at hi with hthirty
  obtain ⟨rew, hrew, rfl⟩ := Option.map_eq_some_iff.mp hi
  exact (dialogStatus_eq_ready_iff.mp (buttonId_dayButton_iff.mp hid)).1

/-- The dialog of a day says what is shown for it, unless an open day is noted
as claimed. -/
theorem status_agrees
    (hdata : (readFromPlayer pl).skipMissedReward offset now = data)
    (hday : 1 ≤ data.currentDay ∧ data.currentDay ≤ 30)
    (hshown : data.claimedToday = true ∨ data.statusOf data.currentDay ≠ 1)
    (hfirst : 1 ≤ day) (hlast : day ≤ 30) :
    (buildInfoDialog items rewards (buildDialog offset now rewards pl).2 day).map
        InfoDialog.status =
      ((buildDialog offset now rewards pl).1[(day - 1).toNat]?).map
        DayButton.status := by
  have hsaved : readFromPlayer (buildDialog offset now rewards pl).2 =
      { data with totalClaim := 0, missedDaysTotal := 0 } := by
    rw [readFromPlayer_buildDialog, hdata, if_neg (by omega)]
  have hnat : (((day - 1).toNat : Int) + 1) = day := by omega
  rw [status_buildInfoDialog hfirst hlast, buildDialog_getElem?,
    if_pos (by omega), hdata, hsaved, Option.map_map, hnat]
  congr 1
  funext rew
  rw [Function.comp, status_dayButton]
  apply infoStatus_eq_dialogStatus
  rintro ⟨rfl, hclaimed, hone⟩
  rcases hshown with hnot | hstatus
  · rw [hclaimed] at hnot
    cases hnot
  · exact hstatus hone

/-- The dialogs agree at a call exactly when the day of the clock is shown. -/
theorem dialogsAgree_iff :
    DialogsAgree items offset now rewards pl ↔
      TodayShown offset now rewards pl := by
  have hbounds := @dayAfter_bounds (readFromPlayer pl)
    currentDay_readFromPlayer.1 currentDay_readFromPlayer.2
    (daysElapsed offset (readFromPlayer pl).lastLoginDate now)
  have hcurrent := @currentDay_skipMissedReward offset now (readFromPlayer pl)
    currentDay_readFromPlayer.1 currentDay_readFromPlayer.2
  have hread := @readFromPlayer_buildDialog offset now rewards pl
  have haccepts := @accepts_iff offset now rewards pl
  generalize hdata : (readFromPlayer pl).skipMissedReward offset now = data at *
  have hoffers := @offers_iff offset now rewards pl data hdata (by omega)
  rw [todayShown_iff hdata]
  constructor
  · intro hagree
    have hsame := hagree.offered
    rw [hoffers, haccepts] at hsame
    by_cases hclaimed : data.claimedToday = true
    · have hthirty := currentDay_le_of_claimedToday hdata hclaimed
      exact ⟨by omega, Or.inl hclaimed⟩
    · obtain ⟨-, hthirty, hlength, hstatus⟩ := hsame.mpr (by simpa using hclaimed)
      exact ⟨by omega, Or.inr ⟨hstatus, hlength⟩⟩
  · rintro ⟨hday, hshown⟩
    constructor
    · rw [hoffers, haccepts]
      constructor
      · exact And.left
      · intro hclaimed
        rcases hshown with hnot | ⟨hstatus, hlength⟩
        · rw [hclaimed] at hnot
          cases hnot
        · exact ⟨hclaimed, by omega, hlength, hstatus⟩
    · intro i button hi hid
      rw [hread, if_neg (by omega)]
      exact currentDay_of_button hdata hi hid
    · intro day hfirst hlast
      exact status_agrees hdata (by omega) (hshown.imp id And.left) hfirst hlast

end Dialogs

section Claims

variable {env : Env} {offset : Int} {rewards : List Reward} {s : Session}

theorem giveReward_of_false {r : Reward} (h : (giveReward env r s).1 = false) :
    (giveReward env r s).2 = s := by
  unfold giveReward at h ⊢
  cases htype : r.type with
  | item =>
      rw [htype] at h
      exact Inventory.modify_session_of_ret_ne_zero (by simpa using h)
  | gems => simp [htype] at h
  | coins => simp [htype] at h
  | opc => simp [htype] at h

/-- A claim that fails writes back which days were skipped, and nothing else. -/
theorem session_of_claim_failed (h : (claimReward env offset rewards s).ok = false) :
    (claimReward env offset rewards s).session =
      s.mapPlayer
        ((readFromPlayer s.pl).skipMissedReward offset s.now).writeToPlayer := by
  unfold claimReward at h ⊢
  dsimp only at h ⊢
  split_ifs at h ⊢ with hcan
  · rfl
  · cases hreward : getReward rewards
        ((readFromPlayer s.pl).skipMissedReward offset s.now).currentDay with
    | none => rfl
    | some r =>
        simp only [hreward] at h ⊢
        split_ifs at h ⊢ with hquantity hgiven
        · rfl
        · rw [giveReward_of_false hgiven]

/-- A claim that succeeds was open before it and is closed after it. -/
theorem claim_succeeded (h : (claimReward env offset rewards s).ok = true) :
    ((readFromPlayer s.pl).skipMissedReward offset s.now).claimedToday = false ∧
      (claimReward env offset rewards s).session.pl.daily.claimedDailyToday =
        true ∧
      (claimReward env offset rewards s).session.pl.daily.dailyLoginDay = s.now := by
  unfold claimReward at h ⊢
  dsimp only at h ⊢
  split_ifs at h ⊢ with hcan
  have hopen := (canClaimToday_eq_true_iff.mp (by simpa using hcan)).1
  cases hreward : getReward rewards
      ((readFromPlayer s.pl).skipMissedReward offset s.now).currentDay with
  | none => simp [hreward] at h
  | some r =>
      simp only [hreward] at h ⊢
      split_ifs at h ⊢ with hquantity hgiven
      exact ⟨hopen, rfl, rfl⟩

/-- The player has claimed on a local day. -/
structure ClaimedOn (offset day : Int) (pl : Player) : Prop where
  claimed : pl.daily.claimedDailyToday = true
  sameDay : localDay offset pl.daily.dailyLoginDay = day

/-- On the day of a claim there is nothing to skip. -/
theorem ClaimedOn.skipMissedReward {day now : Int} {pl : Player}
    (h : ClaimedOn offset day pl) (hnow : localDay offset now = day) :
    (readFromPlayer pl).skipMissedReward offset now = readFromPlayer pl := by
  have hgap : daysElapsed offset pl.daily.dailyLoginDay now = 0 :=
    daysElapsed_of_sameDay (h.sameDay.trans hnow.symm)
  exact skipMissedReward_of_daysElapsed (Int.le_of_eq hgap)

theorem ClaimedOn.claim_failed {day : Int} (h : ClaimedOn offset day s.pl)
    (hnow : localDay offset s.now = day) :
    (claimReward env offset rewards s).ok = false := by
  rw [← Bool.not_eq_true]
  intro hok
  have hopen := (claim_succeeded hok).1
  rw [h.skipMissedReward hnow] at hopen
  have hclaimed : s.pl.daily.claimedDailyToday = false := hopen
  rw [h.claimed] at hclaimed
  cases hclaimed

/-- No call on the same day opens the claim again. -/
theorem ClaimedOn.step {day : Int} {st : DailyState}
    (h : ClaimedOn offset day st.session.pl) {call : DailyCall}
    (hcall : ∀ now, call.time = some now → localDay offset now = day) :
    ClaimedOn offset day (st.step env offset call).session.pl := by
  have hwritten : ∀ now, localDay offset now = day →
      ClaimedOn offset day
        (((readFromPlayer st.session.pl).skipMissedReward offset now).writeToPlayer
          st.session.pl) := by
    intro now hnow
    rw [h.skipMissedReward hnow]
    exact ⟨h.claimed, h.sameDay⟩
  cases call with
  | elsewhere s => exact ⟨h.claimed, h.sameDay⟩
  | buildDialog now loaded => exact hwritten now (hcall now rfl)
  | claimReward now =>
      have hnow := hcall now rfl
      have hfailed : (st.claim env offset now).ok = false :=
        ClaimedOn.claim_failed h hnow
      change ClaimedOn offset day (st.claim env offset now).session.pl
      rw [DailyState.claim, session_of_claim_failed hfailed]
      exact hwritten now hnow

/-- The times of the calls on the daily rewards, in order. -/
def times (calls : List DailyCall) : List Int := calls.filterMap DailyCall.time

theorem ClaimedOn.run {day : Int} {st : DailyState}
    (h : ClaimedOn offset day st.session.pl) {calls : List DailyCall}
    (hcalls : ∀ now ∈ times calls, localDay offset now = day) :
    ClaimedOn offset day (st.run env offset calls).session.pl := by
  induction calls generalizing st with
  | nil => exact h
  | cons call calls ih =>
      have hfirst : ClaimedOn offset day (st.step env offset call).session.pl := by
        apply h.step
        intro now hnow
        exact hcalls now (List.mem_filterMap.mpr ⟨call, List.mem_cons_self, hnow⟩)
      apply ih hfirst
      intro now hnow
      obtain ⟨later, hlater, htime⟩ := List.mem_filterMap.mp hnow
      exact hcalls now
        (List.mem_filterMap.mpr ⟨later, List.mem_cons_of_mem _ hlater, htime⟩)

/-- What happens between two claims of one day happens on that day. -/
theorem localDay_between {before mid after : List DailyCall} {first second : Int}
    (horder : (times (before ++ .claimReward first ::
      (mid ++ .claimReward second :: after))).Pairwise (· ≤ ·))
    (hsame : localDay offset first = localDay offset second) :
    ∀ now ∈ times mid, localDay offset now = localDay offset first := by
  intro now hnow
  simp only [times, List.filterMap_append, List.filterMap_cons,
    DailyCall.time] at horder
  obtain ⟨-, hrest, -⟩ := List.pairwise_append.mp horder
  obtain ⟨hfrom, hrest⟩ := List.pairwise_cons.mp hrest
  obtain ⟨-, -, hto⟩ := List.pairwise_append.mp hrest
  have hafter := hfrom now (List.mem_append_left _ hnow)
  have hbefore := hto now hnow second List.mem_cons_self
  unfold localDay at hsame ⊢
  omega

/-- A claim that fails grants nothing. -/
structure GrantsNothing (offset now : Int) (pl : Player) (after : Session) :
    Prop where
  gems : after.pl.gems = pl.gems
  gtwl : after.pl.account.gtwl = pl.account.gtwl
  opc : after.pl.opc = pl.opc
  inv : after.pl.inv = pl.inv
  skipped : after.pl =
    ((readFromPlayer pl).skipMissedReward offset now).writeToPlayer pl

/-- Along every history a claim is accepted at most once on a local day, and a
claim that is not accepted grants nothing. -/
theorem rewards_claimed_along_runs (env : Env) (offset : Int) (st : DailyState)
    (calls : List DailyCall) (horder : (times calls).Pairwise (· ≤ ·)) :
    (∀ before first mid second after,
      calls = before ++ .claimReward first ::
        (mid ++ .claimReward second :: after) →
      ((st.run env offset before).claim env offset first).ok = true →
      ((st.run env offset (before ++ .claimReward first :: mid)).claim env offset
        second).ok = true →
      localDay offset first ≠ localDay offset second) ∧
    ∀ before now after, calls = before ++ .claimReward now :: after →
      ((st.run env offset before).claim env offset now).ok = false →
      GrantsNothing offset now (st.run env offset before).session.pl
        ((st.run env offset before).claim env offset now).session := by
  constructor
  · intro before first mid second after hcalls hfirst hsecond hsame
    obtain ⟨-, hclaimed, hlogin⟩ := claim_succeeded hfirst
    have hstart : ClaimedOn offset (localDay offset first)
        ((st.run env offset before).step env offset
          (.claimReward first)).session.pl :=
      ⟨hclaimed, congrArg (localDay offset) hlogin⟩
    have hmid : ClaimedOn offset (localDay offset first)
        (st.run env offset (before ++ .claimReward first :: mid)).session.pl := by
      rw [DailyState.run, List.foldl_append]
      exact hstart.run (localDay_between (hcalls ▸ horder) hsame)
    have hclosed : ((st.run env offset
        (before ++ .claimReward first :: mid)).claim env offset second).ok = false :=
      ClaimedOn.claim_failed hmid hsame.symm
    rw [hclosed] at hsecond
    cases hsecond
  · intro before now after hcalls hfailed
    rw [DailyState.claim, session_of_claim_failed hfailed]
    exact ⟨rfl, rfl, rfl, rfl, rfl⟩

/-- Thirty days of five gems. -/
def fiveGems : List Reward := List.replicate 30 { quantity := 5, type := .gems }

/-- A new player. -/
def newPlayer : DailyState where
  session := { pl := {} }
  rewards := fiveGems

theorem claims_on_two_days :
    (times [.claimReward 1000000, .claimReward 1100000]).Pairwise (· ≤ ·) ∧
      localDay 0 1000000 ≠ localDay 0 1100000 :=
  ⟨by decide, (rewards_claimed_along_runs { items := ⟨0, fun _ => {}⟩ } 0 newPlayer
    [.claimReward 1000000, .claimReward 1100000] (by decide)).1
      [] 1000000 [] 1100000 [] rfl (by decide +kernel) (by decide +kernel)⟩

end Claims

/-- Along every history the dialogs agree at each call of `BuildDialog` exactly
when the day of the clock is shown at each of them. -/
theorem dialogs_agree_along_runs (env : Env) (offset : Int) (st : DailyState)
    (calls : List DailyCall) :
    (∀ before now loaded after, calls = before ++ .buildDialog now loaded :: after →
      DialogsAgree env.items offset now loaded
        (st.run env offset before).session.pl) ↔
    ∀ before now loaded after, calls = before ++ .buildDialog now loaded :: after →
      TodayShown offset now loaded (st.run env offset before).session.pl := by
  constructor
  · intro hagree before now loaded after hcalls
    exact dialogsAgree_iff.mp (hagree before now loaded after hcalls)
  · intro hshown before now loaded after hcalls
    exact dialogsAgree_iff.mpr (hshown before now loaded after hcalls)

/-- Thirty days after the first claim the first day shows as claimed, and
`ClaimReward` would accept a claim. -/
theorem second_cycle_shows_claimed :
    ¬ ∀ calls : List DailyCall, (times calls).Pairwise (· ≤ ·) →
      ∀ before now loaded after,
        calls = before ++ .buildDialog now loaded :: after →
        DialogsAgree ⟨0, fun _ => {}⟩ 0 now loaded
          (newPlayer.run { items := ⟨0, fun _ => {}⟩ } 0 before).session.pl := by
  intro hall
  have hagree := (hall [.claimReward 1000000, .buildDialog 3592000 fiveGems]
    (by decide) [.claimReward 1000000] 3592000 fiveGems [] rfl).offered
  exact absurd (hagree.mpr (by decide +kernel)) (by decide +kernel)

end DailyReward

end NopyServer
