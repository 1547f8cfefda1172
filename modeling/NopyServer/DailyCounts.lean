/-
What of the daily data lasts from one call to the next.  Every call loads the
data of the player into a fresh mirror and stores it again; the player has no
place for the two totals, while the JSON of the data has one for every field.
-/
import NopyServer.DailySkips
import NopyServer.Lib.Json

namespace NopyServer

namespace DailyReward

open PlayerDailyData

namespace PlayerDailyData

/-- `LoadPlayerData` into a mirror that already holds some data. -/
def loadPlayerData (pl : Player) (out : PlayerDailyData) : PlayerDailyData :=
  { out with
    lastLoginDate := pl.daily.dailyLoginDay
    currentDay :=
      if pl.daily.isDay < 1 ∨ 30 < pl.daily.isDay then 1 else pl.daily.isDay
    claimedToday := pl.daily.claimedDailyToday
    status :=
      if 30 ≤ pl.daily.dailyStatus.length then pl.daily.dailyStatus.take 30
      else out.status }

/-- `SavePlayerData`. -/
def savePlayerData (pl : Player) (data : PlayerDailyData) : Player := data.writeToPlayer pl

/-- `SaveToJson`. -/
def saveToJson (data : PlayerDailyData) : Json :=
  .obj [("daily_last_login", .int data.lastLoginDate),
    ("daily_current_day", .int data.currentDay),
    ("daily_claimed", .bool data.claimedToday),
    ("daily_total_claim", .int data.totalClaim),
    ("daily_missed", .int data.missedDaysTotal),
    ("daily_status", .arr (data.status.map .int))]

/-- `LoadFromJson`; nothing when a member has another type. -/
def loadFromJson (j : Json) (data : PlayerDailyData) : Option PlayerDailyData := do
  let lastLoginDate ← j.value "daily_last_login" data.lastLoginDate Json.asInt
  let currentDay ← j.value "daily_current_day" data.currentDay Json.asInt
  let claimedToday ← j.value "daily_claimed" data.claimedToday Json.asBool
  let totalClaim ← j.value "daily_total_claim" data.totalClaim Json.asInt
  let missedDaysTotal ← j.value "daily_missed" data.missedDaysTotal Json.asInt
  let status ←
    match j.find "daily_status" with
    | some (.arr items) => do
        let read ← (items.take 30).mapM Json.asInt
        some (read ++ data.status.drop read.length)
    | _ => some data.status
  some
    { lastLoginDate := lastLoginDate
      currentDay := if currentDay < 1 ∨ 30 < currentDay then 1 else currentDay
      claimedToday := claimedToday
      totalClaim := totalClaim
      missedDaysTotal := missedDaysTotal
      status := status }

end PlayerDailyData

/-- The claims that a call accepts. -/
def DailyState.claimed (env : Env) (offset : Int) (st : DailyState) : DailyCall → Int
  | .claimReward now => if (st.claim env offset now).ok then 1 else 0
  | _ => 0

/-- The days that are newly marked at a time. -/
def daysSkipped (offset now : Int) (pl : Player) : Int :=
  newlySkipped (readFromPlayer pl) ((readFromPlayer pl).skipMissedReward offset now)

/-- The days that a call marks as skipped. -/
def DailyState.skipped (offset : Int) (st : DailyState) : DailyCall → Int
  | .claimReward now => daysSkipped offset now st.session.pl
  | .buildDialog now _ => daysSkipped offset now st.session.pl
  | .elsewhere _ => 0

/-- The successful claims of a history. -/
def DailyState.claims (env : Env) (offset : Int) : DailyState → List DailyCall → Int
  | _, [] => 0
  | st, call :: calls =>
      st.claimed env offset call + claims env offset (st.step env offset call) calls

/-- The days that a history marks as skipped. -/
def DailyState.skips (env : Env) (offset : Int) : DailyState → List DailyCall → Int
  | _, [] => 0
  | st, call :: calls =>
      st.skipped offset call + skips env offset (st.step env offset call) calls

section Mirror

variable {data out : PlayerDailyData} {pl : Player}

/-- Every call loads into a fresh mirror. -/
theorem loadPlayerData_fresh : loadPlayerData pl {} = readFromPlayer pl := rfl

/-- What is loaded back has the totals of the mirror it is loaded into. -/
theorem loadPlayerData_savePlayerData (hlength : data.status.length = 30)
    (hday : 1 ≤ data.currentDay) (hlast : data.currentDay ≤ 30) :
    loadPlayerData (savePlayerData pl data) out =
      { data with
        totalClaim := out.totalClaim
        missedDaysTotal := out.missedDaysTotal } := by
  have hin : ¬ (data.currentDay < 1 ∨ 30 < data.currentDay) := by omega
  simp [loadPlayerData, savePlayerData, writeToPlayer, hlength, hin]

theorem loadPlayerData_savePlayerData_iff (hlength : data.status.length = 30)
    (hday : 1 ≤ data.currentDay) (hlast : data.currentDay ≤ 30) :
    loadPlayerData (savePlayerData pl data) out = data ↔
      data.totalClaim = out.totalClaim ∧ data.missedDaysTotal = out.missedDaysTotal := by
  rw [loadPlayerData_savePlayerData hlength hday hlast]
  constructor
  · intro hsame
    rw [← hsame]
    exact ⟨rfl, rfl⟩
  · rintro ⟨hclaim, hmissed⟩
    rw [← hclaim, ← hmissed]

theorem mapM_asInt_int (items : List Int) :
    items.mapM (Json.asInt ∘ Json.int) = some items := by
  induction items with
  | nil => rfl
  | cons n items ih => simp [List.mapM_cons, ih, Json.asInt]

/-- The JSON of the data gives every field back. -/
theorem loadFromJson_saveToJson (hlength : data.status.length = 30)
    (hday : 1 ≤ data.currentDay) (hlast : data.currentDay ≤ 30)
    (hout : out.status.length = 30) :
    loadFromJson data.saveToJson out = some data := by
  have hin : ¬ (data.currentDay < 1 ∨ 30 < data.currentDay) := by omega
  have htake : (data.status.map Json.int).take 30 = data.status.map Json.int :=
    List.take_of_length_le (by simp [hlength])
  have hrest : out.status.drop data.status.length = [] :=
    List.drop_of_length_le (by omega)
  simp [loadFromJson, saveToJson, Json.value, Json.find, List.lookup_cons, htake,
    mapM_asInt_int, hin, hrest, Json.asInt, Json.asBool]

end Mirror

section Runs

variable {env : Env} {offset : Int}

/-- The totals of the data that is loaded after a history. -/
theorem totals_of_run (st : DailyState) (calls : List DailyCall) :
    (loadPlayerData (st.run env offset calls).session.pl {}).totalClaim = 0 ∧
      (loadPlayerData (st.run env offset calls).session.pl {}).missedDaysTotal = 0 := ⟨rfl, rfl⟩

/-- The two totals do not last: the data is loaded back only while they are
zero, and after a history they are right only when nothing was claimed and
nothing was skipped in it. -/
theorem saved_totals_iff (pl : Player) (data : PlayerDailyData)
    (hlength : data.status.length = 30) (hday : 1 ≤ data.currentDay)
    (hlast : data.currentDay ≤ 30) (env : Env) (offset : Int) (st : DailyState)
    (calls : List DailyCall) :
    (loadPlayerData (savePlayerData pl data) {} = data ↔
      data.totalClaim = 0 ∧ data.missedDaysTotal = 0) ∧
    let loaded := loadPlayerData (st.run env offset calls).session.pl {}
    (loaded.totalClaim = st.claims env offset calls ∧
        loaded.missedDaysTotal = st.skips env offset calls) ↔
      st.claims env offset calls = 0 ∧ st.skips env offset calls = 0 := by
  constructor
  · exact loadPlayerData_savePlayerData_iff hlength hday hlast
  · intro loaded
    obtain ⟨hclaim, hmissed⟩ := @totals_of_run env offset st calls
    rw [hclaim, hmissed]
    exact and_congr eq_comm eq_comm

/-- A player who claims, stays away for three days, claims again and stays away for one
has two claims and four skipped days in the list of days, but not in the totals. -/
theorem saved_totals_of_returning_player :
    let env : Env := { items := ⟨0, fun _ => {}⟩ }
    let calls : List DailyCall :=
      [.claimReward 1000000, .claimReward 1345600, .buildDialog 1518400 []]
    let data : PlayerDailyData :=
      { lastLoginDate := 17, currentDay := 7, totalClaim := 2, missedDaysTotal := 4
        status := [1, 2, 2, 2, 1, 2] ++ List.replicate 24 0 }
    let loaded := loadPlayerData (newPlayer.run env 0 calls).session.pl {}
    loadPlayerData (savePlayerData {} data) {} ≠ data ∧
      (loaded.currentDay = 7 ∧ loaded.status = data.status) ∧
      newPlayer.claims env 0 calls = 2 ∧ newPlayer.skips env 0 calls = 4 ∧
      ¬ (loaded.totalClaim = 2 ∧ loaded.missedDaysTotal = 4) := by
  intro env calls data loaded
  obtain ⟨htrip, hrun⟩ := saved_totals_iff {} data (by decide) (by decide) (by decide) env 0
    newPlayer calls
  have hclaims : newPlayer.claims env 0 calls = 2 := by decide +kernel
  have hskips : newPlayer.skips env 0 calls = 4 := by decide +kernel
  rw [hclaims, hskips] at hrun
  exact ⟨fun hsame => absurd (htrip.mp hsame).1 (by decide), by decide +kernel, hclaims, hskips,
    fun hcounted => absurd (hrun.mp hcounted).1 (by decide)⟩

/-- A claim is counted in the mirror, and the count is gone when the data is
loaded again. -/
theorem claim_is_not_counted :
    (¬ ∀ (pl : Player) (data : PlayerDailyData), data.status.length = 30 →
      1 ≤ data.currentDay → data.currentDay ≤ 30 →
      loadPlayerData (savePlayerData pl data) {} = data) ∧
    ¬ ∀ (env : Env) (offset : Int) (st : DailyState) (calls : List DailyCall),
      (loadPlayerData (st.run env offset calls).session.pl {}).totalClaim =
        st.claims env offset calls := by
  constructor
  · intro h
    have hback := h {} { currentDay := 1, claimedToday := true, totalClaim := 1 } (by decide)
      (by decide) (by decide)
    exact absurd (congrArg PlayerDailyData.totalClaim hback) (by decide)
  · intro h
    have hcount := h { items := ⟨0, fun _ => {}⟩ } 0 newPlayer [.claimReward 1000000]
    exact absurd hcount (by decide +kernel)

end Runs

end DailyReward

end NopyServer
