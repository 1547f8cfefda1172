/-
The daily rewards: thirty days in a cycle, one claim a day, and days that are
lost when nobody claims them.  `BuildDialog` and `ClaimReward` both move the
current day on to the day of the clock before they look at it; `BuildInfoDialog`
shows the day that was saved.
-/
import NopyServer.InventoryRuns
import NopyServer.Lib.Calendar
import NopyServer.Server

namespace NopyServer

namespace DailyReward

open Inventory

/-- `RewardType`. -/
inductive RewardType where
  | item
  | gems
  | coins
  | opc
deriving DecidableEq

structure Reward where
  itemID : Int := 0
  itemName : String := ""
  quantity : Int := 1
  type : RewardType := .item
deriving DecidableEq

/-- `RewardConfig::Get`. -/
def getReward (rewards : List Reward) (day : Int) : Option Reward :=
  rewards[((day - 1) % 30).toNat]?

/-- The local day of a timestamp, counted from 1970-01-01; local time is a
fixed number of seconds ahead of UTC. -/
def localDay (offset timestamp : Int) : Int := (timestamp + offset) / 86400

/-- `ToCalendar`. -/
def toCalendar (offset timestamp : Int) : Date :=
  Date.ofDays (localDay offset timestamp)

/-- `DateDiffDays`; its day number is the Julian day number in the years after
-4800, where the divisions of the source round down. -/
def dateDiffDays (first second : Date) : Int :=
  let diff := second.julianDay - first.julianDay
  if diff < 0 then 0 else if 1000 < diff then 1000 else diff

/-- `DaysElapsed`. -/
def daysElapsed (offset lastTs nowTs : Int) : Int :=
  if lastTs = 0 then 0
  else if nowTs < lastTs then 0
  else if 1000 * 86400 < nowTs - lastTs then 1000
  else dateDiffDays (toCalendar offset lastTs) (toCalendar offset nowTs)

structure PlayerDailyData where
  lastLoginDate : Int := 0
  currentDay : Int := 1
  claimedToday : Bool := false
  totalClaim : Int := 0
  missedDaysTotal : Int := 0
  /-- Thirty entries: 1 for a claimed day, 2 for a skipped one. -/
  status : List Int := List.replicate 30 0

namespace PlayerDailyData

/-- `Status[day - 1]`. -/
def statusOf (data : PlayerDailyData) (day : Int) : Int :=
  data.status.getD (day - 1).toNat 0

/-- `ReadFromPlayer`. -/
def readFromPlayer (pl : Player) : PlayerDailyData where
  lastLoginDate := pl.daily.dailyLoginDay
  currentDay :=
    if pl.daily.isDay < 1 ∨ 30 < pl.daily.isDay then 1 else pl.daily.isDay
  claimedToday := pl.daily.claimedDailyToday
  status :=
    if 30 ≤ pl.daily.dailyStatus.length then pl.daily.dailyStatus.take 30
    else List.replicate 30 0

/-- `WriteToPlayer`; a status list that is too short becomes thirty long. -/
def writeToPlayer (data : PlayerDailyData) (pl : Player) : Player :=
  { pl with daily :=
    { isDay := data.currentDay
      claimedDailyToday := data.claimedToday
      dailyLoginDay := data.lastLoginDate
      dailyStatus := data.status ++ pl.daily.dailyStatus.drop 30 } }

/-- `CanClaimToday`. -/
def canClaimToday (data : PlayerDailyData) : Bool :=
  if data.claimedToday then false
  else if data.currentDay < 1 ∨ 30 < data.currentDay then false
  else true

/-- The current day is lost unless something is noted for it. -/
def skipDay (data : PlayerDailyData) : PlayerDailyData :=
  if 1 ≤ data.currentDay ∧ data.currentDay ≤ 30 ∧
      data.statusOf data.currentDay = 0 then
    { data with
      status := data.status.set (data.currentDay - 1).toNat 2
      missedDaysTotal := data.missedDaysTotal + 1 }
  else data

/-- The day after, the first one after the thirtieth. -/
def advance (data : PlayerDailyData) : PlayerDailyData :=
  { data with
    currentDay := if 30 < data.currentDay + 1 then 1 else data.currentDay + 1 }

/-- The loop over the days after a claimed one; nothing is lost of the first. -/
def advanceClaimed (daysToAdvance : Nat) (data : PlayerDailyData) :
    PlayerDailyData :=
  (List.range daysToAdvance).foldl
    (fun data i => (if i = 0 then data else data.skipDay).advance) data

/-- The loop over the days after one that was not claimed.  The step before the
loop does not go back to the first day. -/
def advanceUnclaimed (daysGap : Nat) (data : PlayerDailyData) :
    PlayerDailyData :=
  let data := data.skipDay
  let data := { data with currentDay := data.currentDay + 1 }
  (List.range (daysGap - 1)).foldl (fun data _ => data.skipDay.advance) data

/-- `SkipMissedReward`; how many days it skipped is not used. -/
def skipMissedReward (offset now : Int) (data : PlayerDailyData) :
    PlayerDailyData :=
  if data.lastLoginDate = 0 then data
  else
    let daysGap := daysElapsed offset data.lastLoginDate now
    if daysGap ≤ 0 then data
    else
      let data :=
        if data.claimedToday then data.advanceClaimed daysGap.toNat
        else data.advanceUnclaimed daysGap.toNat
      { data with claimedToday := false, lastLoginDate := now }

/-- The update of `ClaimReward` once the reward is given. -/
def recordClaim (now : Int) (data : PlayerDailyData) : PlayerDailyData :=
  let dayIdx := data.currentDay - 1
  { data with
    status :=
      if 0 ≤ dayIdx ∧ dayIdx < 30 then data.status.set dayIdx.toNat 1
      else data.status
    claimedToday := true
    totalClaim := data.totalClaim + 1
    lastLoginDate := now }

/-- The status both dialogs begin with: a day that is over counts as claimed
when nothing is noted for it. -/
def pastStatus (data : PlayerDailyData) (day : Int) : Int :=
  if data.statusOf day = 0 then
    if day < data.currentDay then 1
    else if day = data.currentDay ∧ data.claimedToday = true then 1
    else 0
  else data.statusOf day

end PlayerDailyData

/-- What a dialog says of a day. -/
inductive DayStatus where
  | claimed
  | ready
  | skipped
  | upcoming
deriving DecidableEq

/-- The branches of `BuildDialog` for a day. -/
def dialogStatus (data : PlayerDailyData) (day : Int) : DayStatus :=
  if data.pastStatus day = 1 then .claimed
  else if day = data.currentDay ∧ data.claimedToday = false then .ready
  else if data.pastStatus day = 2 then .skipped
  else .upcoming

/-- The branches of `BuildInfoDialog` for its day. -/
def infoStatus (data : PlayerDailyData) (day : Int) : DayStatus :=
  if day = data.currentDay ∧ data.claimedToday = false then .ready
  else if data.pastStatus day = 1 then .claimed
  else if data.pastStatus day = 2 then .skipped
  else .upcoming

/-- A button of the dialog. -/
structure DayButton where
  status : DayStatus
  buttonId : String
  label : String
  displayItemId : Int
  displayQuantity : Int

/-- The button of a day. -/
def dayButton (data : PlayerDailyData) (day : Int) (rew : Reward) : DayButton :=
  match dialogStatus data day with
  | .claimed =>
      ⟨.claimed, "dr_day_" ++ toString day, "`2CLAIMED!", 15634, rew.quantity⟩
  | .ready =>
      ⟨.ready, "claim_daily_reward", "Day " ++ toString day ++ ": `2 Claim Now!",
        rew.itemID, rew.quantity⟩
  | .skipped =>
      ⟨.skipped, "dr_day_" ++ toString day, "Day " ++ toString day ++ ": `4 Skipped",
        rew.itemID, rew.quantity⟩
  | .upcoming =>
      ⟨.upcoming, "dr_day_" ++ toString day, "Day " ++ toString day, rew.itemID,
        rew.quantity⟩

/-- `BuildDialog` once the configuration is loaded: the buttons, the first day
first, and the player with the days that were skipped. -/
def buildDialog (offset now : Int) (rewards : List Reward) (pl : Player) :
    List DayButton × Player :=
  let data := (PlayerDailyData.readFromPlayer pl).skipMissedReward offset now
  ((rewards.take 30).mapIdx fun i rew => dayButton data (i + 1) rew,
    data.writeToPlayer pl)

/-- The dialog of one day. -/
structure InfoDialog where
  status : DayStatus
  label : String
  textbox : String
  /-- Whether it has the button `claim_daily_reward`. -/
  claimButton : Bool

/-- `BuildInfoDialog` once the configuration is loaded. -/
def buildInfoDialog (items : Items) (rewards : List Reward) (pl : Player)
    (day : Int) : Option InfoDialog :=
  if day < 1 ∨ 30 < day then none
  else
    let data := PlayerDailyData.readFromPlayer pl
    (getReward rewards day).map fun (rew : Reward) =>
      let itemName :=
        if 0 < rew.itemID ∧ rew.itemID < (items.size : Int) then
          (items.item rew.itemID).name
        else "Unknown Item"
      let label := "`wDay " ++ toString day ++ ": " ++ toString rew.quantity ++
        " " ++ itemName ++ "``"
      match infoStatus data day with
      | .ready => ⟨.ready, label, "`2Status: Ready to claim!``", true⟩
      | .claimed => ⟨.claimed, label, "`2Status: Already Claimed``", false⟩
      | .skipped =>
          ⟨.skipped, label, "`4Status: Skipped (Missed Day)``", false⟩
      | .upcoming =>
          ⟨.upcoming, label,
            "`oStatus: Available on Day `w" ++ toString day ++ "``", false⟩

/-- What `ClaimReward` leaves behind. -/
structure Claim where
  ok : Bool
  outMessage : String
  session : Session

/-- The switch on the type of a reward. -/
def giveReward (env : Env) (r : Reward) (s : Session) : Bool × Session :=
  match r.type with
  | .item =>
      let added := modify env s r.itemID r.quantity false
      (added.ret == 0, added.session)
  | .gems => (true, s.mapPlayer fun pl => { pl with gems := pl.gems + r.quantity })
  | .coins =>
      (true, s.mapPlayer fun pl => { pl with
        account := { pl.account with gtwl := pl.account.gtwl + r.quantity } })
  | .opc =>
      (true, s.mapPlayer fun pl => { pl with opc := pl.opc + UInt16.ofInt r.quantity })

/-- The name of a reward in a message. -/
def rewardName (items : Items) (r : Reward) : String :=
  let name :=
    if (r.itemName = "" ∨ r.itemName = "Unknown") ∧ 0 < r.itemID ∧
        r.itemID < (items.size : Int) then (items.item r.itemID).name
    else r.itemName
  if name = "" then "Unknown Item" else name

/-- `ClaimReward` of a connected player at the time of the session. -/
def claimReward (env : Env) (offset : Int) (rewards : List Reward)
    (s : Session) : Claim :=
  let data := (PlayerDailyData.readFromPlayer s.pl).skipMissedReward offset s.now
  let save := fun (data : PlayerDailyData) (s : Session) =>
    s.mapPlayer data.writeToPlayer
  if data.canClaimToday = false then
    ⟨false, "You already claimed today's daily reward!", save data s⟩
  else
    match getReward rewards data.currentDay with
    | none => ⟨false, "Error: invalid reward configuration.", save data s⟩
    | some r =>
        if r.quantity ≤ 0 then
          ⟨false, "Error: invalid reward configuration.", save data s⟩
        else
          let given := giveReward env r s
          if given.1 = false then
            ⟨false, "Inventory full! Make space and try again.",
              save data given.2⟩
          else
            ⟨true, "You claimed Day " ++ toString data.currentDay ++ " reward: " ++
                rewardName env.items r ++ " x" ++ toString r.quantity ++ "!",
              save (data.recordClaim s.now) given.2⟩

section Days

variable {offset first second : Int}

/-- The days between two times, as far as they are counted. -/
theorem daysElapsed_eq (offset : Int) {last now : Int} (hlast : last ≠ 0)
    (hle : last ≤ now) :
    daysElapsed offset last now =
      min 1000 (localDay offset now - localDay offset last) := by
  unfold daysElapsed
  rw [if_neg hlast, if_neg (Int.not_lt.mpr hle)]
  have hmono : localDay offset last ≤ localDay offset now := by
    unfold localDay
    omega
  split_ifs with hfar
  · have hmany : 1000 ≤ localDay offset now - localDay offset last := by
      unfold localDay
      omega
    omega
  · unfold dateDiffDays toCalendar
    rw [Date.julianDay_ofDays, Date.julianDay_ofDays]
    dsimp only
    split_ifs <;> omega

/-- No day has passed on the same local day. -/
theorem daysElapsed_of_sameDay {last now : Int}
    (hday : localDay offset last = localDay offset now) :
    daysElapsed offset last now = 0 := by
  by_cases hlast : last = 0
  · exact if_pos hlast
  · by_cases hle : last ≤ now
    · rw [daysElapsed_eq offset hlast hle, hday]
      omega
    · rw [daysElapsed, if_neg hlast, if_pos (Int.not_le.mp hle)]

end Days

end DailyReward

end NopyServer
