/-
The bans of addresses: `AntiDDoS`.  Two tables hold bans that `IsBanned` asks
for.  The floods leave an address that is banned alone; an invalid packet, a
login or `BanIP` writes a ban over the one that is there, a longer one as well.
-/
import Mathlib.Data.List.Induction
import Mathlib.Logic.Function.Iterate
import Mathlib.Tactic.SplitIfs
import NopyServer.Text

namespace NopyServer

structure AntiDDoSConfig where
  maxPacketsPerSecond : Int := 80
  maxConnectPerMinute : Int := 15
  maxInvalidPackets : Int := 10
  maxTextPacketsPerSecond : Int := 30
  maxTankPacketsPerSecond : Int := 60
  maxLoginAttemptsPerMinute : Int := 5
  violationThreshold : Int := 3
  banDurationSeconds : Int := 300
  escalationMultiplier : Int := 2
  maxBanDurationSeconds : Int := 3600
  cleanupIntervalSeconds : Int := 120
  enabled : Bool := true

/-- The members that a `FloodEntry` and a `ConnectionEntry` have in common. -/
structure Ban where
  banUntil : Int := 0
  isBanned : Bool := false

structure FloodEntry extends Ban where
  firstPacketTime : Int := 0
  packetCount : Int := 0
  violationCount : Int := 0
  lastViolationTime : Int := 0

structure ConnectionEntry extends Ban where
  firstConnectTime : Int := 0
  connectCount : Int := 0
  lastConnectTime : Int := 0

/-- The tables, by the address of a peer.  A counter that is not there is zero. -/
structure AntiDDoS where
  floodTable : UInt32 → Option FloodEntry := fun _ => none
  connectTable : UInt32 → Option ConnectionEntry := fun _ => none
  textFloodTable : UInt32 → Option FloodEntry := fun _ => none
  tankFloodTable : UInt32 → Option FloodEntry := fun _ => none
  invalidPacketTable : UInt32 → Int := fun _ => 0
  loginAttemptTable : UInt32 → Int := fun _ => 0
  peerCountTable : UInt32 → Int := fun _ => 0
  lastCleanup : Int := 0
  totalBlocked : Int := 0
  totalPackets : Int := 0

/-- The loop of `calculate_ban_duration`, in `int`. -/
def AntiDDoSConfig.escalated (config : AntiDDoSConfig) (violations : Int) : Int :=
  Nat.iterate (fun duration => int32 (duration * config.escalationMultiplier))
    (min violations 5 - 1).toNat config.banDurationSeconds

/-- `calculate_ban_duration`. -/
def AntiDDoSConfig.calculateBanDuration (config : AntiDDoSConfig)
    (violations : Int) : Int :=
  let duration := config.escalated violations
  if config.maxBanDurationSeconds < duration then config.maxBanDurationSeconds
  else duration

/-- What a check does to an entry: its answer, the entry, and whether it was
banned now. -/
structure Verdict (α : Type) where
  answer : Bool
  entry : α
  blocked : Bool := false

/-- `check_flood_generic` on the entry of an address. -/
def FloodEntry.checkFloodGeneric (config : AntiDDoSConfig) (maxPerSecond : Int)
    (now : Int) (entry : FloodEntry) : Verdict FloodEntry :=
  if entry.isBanned = true ∧ now < entry.banUntil then ⟨true, entry, false⟩
  else
    let entry :=
      if entry.isBanned then
        { entry with isBanned := false, violationCount := 0, packetCount := 0 }
      else entry
    if 1000 < now - entry.firstPacketTime then
      ⟨false, { entry with firstPacketTime := now, packetCount := 1 }, false⟩
    else
      let entry := { entry with packetCount := entry.packetCount + 1 }
      if maxPerSecond < entry.packetCount then
        let entry := { entry with
          violationCount := entry.violationCount + 1, lastViolationTime := now }
        if config.violationThreshold ≤ entry.violationCount then
          let banSecs := config.calculateBanDuration entry.violationCount
          ⟨true, { entry with banUntil := now + banSecs * 1000, isBanned := true },
            true⟩
        else ⟨true, entry, false⟩
      else ⟨false, entry, false⟩

/-- `CheckConnectionFlood` on the entry of an address. -/
def ConnectionEntry.checkConnectionFlood (config : AntiDDoSConfig) (now : Int)
    (entry : ConnectionEntry) : Verdict ConnectionEntry :=
  if entry.isBanned = true ∧ now < entry.banUntil then ⟨true, entry, false⟩
  else
    let entry :=
      if entry.isBanned then { entry with isBanned := false, connectCount := 0 }
      else entry
    if 60000 < now - entry.firstConnectTime then
      ⟨false, { entry with
        firstConnectTime := now, connectCount := 1, lastConnectTime := now }, false⟩
    else
      let entry := { entry with
        connectCount := entry.connectCount + 1, lastConnectTime := now }
      if config.maxConnectPerMinute < entry.connectCount then
        ⟨true, { entry with
          banUntil := now + config.banDurationSeconds * 1000, isBanned := true },
          true⟩
      else ⟨false, entry, false⟩

namespace AntiDDoS

/-- `CheckPacketFlood` of a peer with an address; `none` is a null peer. -/
def checkPacketFlood (config : AntiDDoSConfig) (now : Int)
    (peer : Option UInt32) (s : AntiDDoS) : Bool × AntiDDoS :=
  match peer with
  | none => (false, s)
  | some ip =>
      if config.enabled = false then (false, s)
      else
        let verdict := ((s.floodTable ip).getD {}).checkFloodGeneric config
          config.maxPacketsPerSecond now
        (verdict.answer, { s with
          floodTable := Function.update s.floodTable ip (some verdict.entry)
          totalBlocked := s.totalBlocked + if verdict.blocked then 1 else 0
          totalPackets := s.totalPackets + 1 })

/-- `CheckTextFlood`. -/
def checkTextFlood (config : AntiDDoSConfig) (now : Int) (peer : Option UInt32)
    (s : AntiDDoS) : Bool × AntiDDoS :=
  match peer with
  | none => (false, s)
  | some ip =>
      if config.enabled = false then (false, s)
      else
        let verdict := ((s.textFloodTable ip).getD {}).checkFloodGeneric config
          config.maxTextPacketsPerSecond now
        (verdict.answer, { s with
          textFloodTable :=
            Function.update s.textFloodTable ip (some verdict.entry)
          totalBlocked := s.totalBlocked + if verdict.blocked then 1 else 0 })

/-- `CheckTankPacketFlood`. -/
def checkTankPacketFlood (config : AntiDDoSConfig) (now : Int)
    (peer : Option UInt32) (s : AntiDDoS) : Bool × AntiDDoS :=
  match peer with
  | none => (false, s)
  | some ip =>
      if config.enabled = false then (false, s)
      else
        let verdict := ((s.tankFloodTable ip).getD {}).checkFloodGeneric config
          config.maxTankPacketsPerSecond now
        (verdict.answer, { s with
          tankFloodTable :=
            Function.update s.tankFloodTable ip (some verdict.entry)
          totalBlocked := s.totalBlocked + if verdict.blocked then 1 else 0 })

/-- `CheckConnectionFlood`. -/
def checkConnectionFlood (config : AntiDDoSConfig) (now : Int)
    (peer : Option UInt32) (s : AntiDDoS) : Bool × AntiDDoS :=
  match peer with
  | none => (false, s)
  | some ip =>
      if config.enabled = false then (false, s)
      else
        let verdict :=
          ((s.connectTable ip).getD {}).checkConnectionFlood config now
        (verdict.answer, { s with
          connectTable := Function.update s.connectTable ip (some verdict.entry)
          totalBlocked := s.totalBlocked + if verdict.blocked then 1 else 0 })

/-- A ban of an address in the table of floods. -/
def banFlood (ip : UInt32) (until_ : Int) (s : AntiDDoS) : AntiDDoS :=
  { s with
    floodTable := Function.update s.floodTable ip (some
      { (s.floodTable ip).getD {} with isBanned := true, banUntil := until_ })
    totalBlocked := s.totalBlocked + 1 }

/-- A ban of an address in the table of connections. -/
def banConnect (ip : UInt32) (until_ : Int) (s : AntiDDoS) : AntiDDoS :=
  { s with
    connectTable := Function.update s.connectTable ip (some
      { (s.connectTable ip).getD {} with isBanned := true, banUntil := until_ })
    totalBlocked := s.totalBlocked + 1 }

/-- `CheckInvalidPacket`. -/
def checkInvalidPacket (config : AntiDDoSConfig) (now : Int)
    (peer : Option UInt32) (s : AntiDDoS) : Bool × AntiDDoS :=
  match peer with
  | none => (false, s)
  | some ip =>
      if config.enabled = false then (false, s)
      else
        let count := s.invalidPacketTable ip + 1
        let s := { s with
          invalidPacketTable := Function.update s.invalidPacketTable ip count }
        if config.maxInvalidPackets < count then
          (true, s.banFlood ip (now + config.banDurationSeconds * 1000))
        else (false, s)

/-- `CheckLoginFlood`. -/
def checkLoginFlood (config : AntiDDoSConfig) (now : Int)
    (peer : Option UInt32) (s : AntiDDoS) : Bool × AntiDDoS :=
  match peer with
  | none => (false, s)
  | some ip =>
      if config.enabled = false then (false, s)
      else
        let count := s.loginAttemptTable ip + 1
        let s := { s with
          loginAttemptTable := Function.update s.loginAttemptTable ip count }
        if config.maxLoginAttemptsPerMinute < count then
          (true, s.banConnect ip (now + config.banDurationSeconds * 1000))
        else (false, s)

/-- `OnPeerConnect`. -/
def onPeerConnect (peer : Option UInt32) (s : AntiDDoS) : AntiDDoS :=
  match peer with
  | none => s
  | some ip =>
      { s with peerCountTable :=
          Function.update s.peerCountTable ip (s.peerCountTable ip + 1) }

/-- `OnPeerDisconnect`. -/
def onPeerDisconnect (peer : Option UInt32) (s : AntiDDoS) : AntiDDoS :=
  match peer with
  | none => s
  | some ip =>
      { s with peerCountTable :=
          if 0 < s.peerCountTable ip then
            Function.update s.peerCountTable ip (s.peerCountTable ip - 1)
          else s.peerCountTable }

/-- `IsBanned`. -/
def isBanned (config : AntiDDoSConfig) (now : Int) (peer : Option UInt32)
    (s : AntiDDoS) : Bool :=
  match peer with
  | none => false
  | some ip =>
      config.enabled &&
        ((s.floodTable ip).any (fun e => e.isBanned && now < e.banUntil) ||
          (s.connectTable ip).any fun e => e.isBanned && now < e.banUntil)

/-- `BanIP`. -/
def banIP (now : Int) (peer : Option UInt32) (durationSeconds : Int)
    (s : AntiDDoS) : AntiDDoS :=
  match peer with
  | none => s
  | some ip => s.banFlood ip (now + durationSeconds * 1000)

/-- `UnbanIP`. -/
def unbanIP (ip : UInt32) (s : AntiDDoS) : AntiDDoS :=
  { s with
    floodTable := Function.update s.floodTable ip none
    connectTable := Function.update s.connectTable ip none
    textFloodTable := Function.update s.textFloodTable ip none
    tankFloodTable := Function.update s.tankFloodTable ip none
    invalidPacketTable := Function.update s.invalidPacketTable ip 0
    loginAttemptTable := Function.update s.loginAttemptTable ip 0 }

/-- `cleanup_flood`: the entries that stay. -/
def cleanupFlood (now : Int) (table : UInt32 → Option FloodEntry) :
    UInt32 → Option FloodEntry :=
  fun ip => (table ip).filter fun e =>
    if e.isBanned then now < e.banUntil else now - e.firstPacketTime ≤ 60000

/-- `Cleanup`. -/
def cleanup (config : AntiDDoSConfig) (now : Int) (s : AntiDDoS) : AntiDDoS :=
  if now - s.lastCleanup < config.cleanupIntervalSeconds * 1000 then s
  else { s with
    lastCleanup := now
    floodTable := cleanupFlood now s.floodTable
    textFloodTable := cleanupFlood now s.textFloodTable
    tankFloodTable := cleanupFlood now s.tankFloodTable
    connectTable := fun ip => (s.connectTable ip).filter fun e =>
      if e.isBanned then now < e.banUntil
      else now - e.lastConnectTime ≤ 120000
    invalidPacketTable := fun _ => 0
    loginAttemptTable := fun _ => 0 }

/-- The operations. -/
inductive Op where
  | checkPacketFlood (peer : Option UInt32)
  | checkTextFlood (peer : Option UInt32)
  | checkTankPacketFlood (peer : Option UInt32)
  | checkConnectionFlood (peer : Option UInt32)
  | checkInvalidPacket (peer : Option UInt32)
  | checkLoginFlood (peer : Option UInt32)
  | onPeerConnect (peer : Option UInt32)
  | onPeerDisconnect (peer : Option UInt32)
  | banIP (peer : Option UInt32) (durationSeconds : Int)
  | unbanIP (ip : UInt32)
  | cleanup

/-- The tables after an operation at a time. -/
def apply (config : AntiDDoSConfig) (now : Int) (s : AntiDDoS) : Op → AntiDDoS
  | .checkPacketFlood peer => (s.checkPacketFlood config now peer).2
  | .checkTextFlood peer => (s.checkTextFlood config now peer).2
  | .checkTankPacketFlood peer => (s.checkTankPacketFlood config now peer).2
  | .checkConnectionFlood peer => (s.checkConnectionFlood config now peer).2
  | .checkInvalidPacket peer => (s.checkInvalidPacket config now peer).2
  | .checkLoginFlood peer => (s.checkLoginFlood config now peer).2
  | .onPeerConnect peer => s.onPeerConnect peer
  | .onPeerDisconnect peer => s.onPeerDisconnect peer
  | .banIP peer durationSeconds => s.banIP now peer durationSeconds
  | .unbanIP ip => s.unbanIP ip
  | .cleanup => s.cleanup config now

/-- The tables after a history of operations, each with its time. -/
def run (config : AntiDDoSConfig) (s : AntiDDoS) (ops : List (Int × Op)) :
    AntiDDoS :=
  ops.foldl (fun s op => s.apply config op.1 op.2) s

/-- An entry holds a ban to a time or longer. -/
def BannedUntil {α : Type} (ban : α → Ban) (entry : Option α) (time : Int) :
    Prop :=
  ∃ e, entry = some e ∧ (ban e).isBanned = true ∧ time ≤ (ban e).banUntil

/-- A ban of a table that is active now ends no later than a new one. -/
def EndsBy {α : Type} (ban : α → Ban) (entry : Option α) (now time : Int) :
    Prop :=
  ∀ e, entry = some e → (ban e).isBanned = true → now < (ban e).banUntil →
    (ban e).banUntil ≤ time

/-- The steps that write no ban over one that lasts longer. -/
def Lenient (config : AntiDDoSConfig) (now : Int) (s : AntiDDoS) : Op → Prop
  | .checkInvalidPacket (some ip) =>
      config.maxInvalidPackets < s.invalidPacketTable ip + 1 →
        EndsBy FloodEntry.toBan (s.floodTable ip) now
          (now + config.banDurationSeconds * 1000)
  | .checkLoginFlood (some ip) =>
      config.maxLoginAttemptsPerMinute < s.loginAttemptTable ip + 1 →
        EndsBy ConnectionEntry.toBan (s.connectTable ip) now
          (now + config.banDurationSeconds * 1000)
  | .banIP (some ip) durationSeconds =>
      EndsBy FloodEntry.toBan (s.floodTable ip) now (now + durationSeconds * 1000)
  | _ => True

/-- An operation shortens no ban that is active. -/
structure KeepsBans (config : AntiDDoSConfig) (now : Int) (s : AntiDDoS)
    (op : Op) : Prop where
  flood : ∀ ip time, now < time → op ≠ .unbanIP ip →
    BannedUntil FloodEntry.toBan (s.floodTable ip) time →
    BannedUntil FloodEntry.toBan ((s.apply config now op).floodTable ip) time
  connect : ∀ ip time, now < time → op ≠ .unbanIP ip →
    BannedUntil ConnectionEntry.toBan (s.connectTable ip) time →
    BannedUntil ConnectionEntry.toBan ((s.apply config now op).connectTable ip)
      time

section Bans

variable {α : Type} {ban : α → Ban} {config : AntiDDoSConfig} {now time : Int}
  {s : AntiDDoS} {ip : UInt32}

theorem BannedUntil.update {table : UInt32 → Option α}
    (h : BannedUntil ban (table ip) time) {changed : UInt32} {value : Option α}
    (hvalue : changed = ip → BannedUntil ban value time) :
    BannedUntil ban (Function.update table changed value ip) time := by
  by_cases hsame : changed = ip
  · subst hsame
    rw [Function.update_self]
    exact hvalue rfl
  · rw [Function.update_of_ne (Ne.symm hsame)]
    exact h

/-- A new ban that ends no earlier keeps the old one. -/
theorem BannedUntil.overwrite {entry : Option α} {new : α}
    (h : BannedUntil ban entry time) (hnow : now < time)
    (hends : EndsBy ban entry now (ban new).banUntil)
    (hnew : (ban new).isBanned = true) : BannedUntil ban (some new) time := by
  obtain ⟨e, hentry, hbanned, htime⟩ := h
  refine ⟨new, rfl, hnew, Int.le_trans htime ?_⟩
  exact hends e hentry hbanned (Int.lt_of_lt_of_le hnow htime)

theorem BannedUntil.filter {entry : Option α} (h : BannedUntil ban entry time)
    {keep : α → Bool}
    (hkeep : ∀ e, (ban e).isBanned = true → time ≤ (ban e).banUntil →
      keep e = true) : BannedUntil ban (entry.filter keep) time := by
  obtain ⟨e, rfl, hbanned, htime⟩ := h
  exact ⟨e, by rw [Option.filter_some, hkeep e hbanned htime]; rfl, hbanned, htime⟩

/-- The floods leave an entry alone while its ban is active. -/
theorem checkFloodGeneric_of_banned {entry : Option FloodEntry}
    (h : BannedUntil FloodEntry.toBan entry time) (hnow : now < time)
    (maxPerSecond : Int) :
    some ((entry.getD {}).checkFloodGeneric config maxPerSecond now).entry =
      entry := by
  obtain ⟨e, rfl, hbanned, htime⟩ := h
  have hactive : e.isBanned = true ∧ now < e.banUntil :=
    ⟨hbanned, Int.lt_of_lt_of_le hnow htime⟩
  rw [Option.getD_some, FloodEntry.checkFloodGeneric, if_pos hactive]

theorem checkConnectionFlood_of_banned {entry : Option ConnectionEntry}
    (h : BannedUntil ConnectionEntry.toBan entry time) (hnow : now < time) :
    some ((entry.getD {}).checkConnectionFlood config now).entry = entry := by
  obtain ⟨e, rfl, hbanned, htime⟩ := h
  have hactive : e.isBanned = true ∧ now < e.banUntil :=
    ⟨hbanned, Int.lt_of_lt_of_le hnow htime⟩
  rw [Option.getD_some, ConnectionEntry.checkConnectionFlood, if_pos hactive]

theorem flood_checkPacketFlood
    (h : BannedUntil FloodEntry.toBan (s.floodTable ip) time) (hnow : now < time)
    (peer : Option UInt32) :
    BannedUntil FloodEntry.toBan
      ((s.checkPacketFlood config now peer).2.floodTable ip) time := by
  cases peer with
  | none => exact h
  | some changed =>
      by_cases henabled : config.enabled = false
      · simpa only [checkPacketFlood, if_pos henabled] using h
      · simp only [checkPacketFlood, if_neg henabled]
        apply h.update
        rintro rfl
        rw [checkFloodGeneric_of_banned h hnow]
        exact h

theorem connect_checkConnectionFlood
    (h : BannedUntil ConnectionEntry.toBan (s.connectTable ip) time)
    (hnow : now < time) (peer : Option UInt32) :
    BannedUntil ConnectionEntry.toBan
      ((s.checkConnectionFlood config now peer).2.connectTable ip) time := by
  cases peer with
  | none => exact h
  | some changed =>
      by_cases henabled : config.enabled = false
      · simpa only [checkConnectionFlood, if_pos henabled] using h
      · simp only [checkConnectionFlood, if_neg henabled]
        apply h.update
        rintro rfl
        rw [checkConnectionFlood_of_banned h hnow]
        exact h

theorem flood_banFlood (h : BannedUntil FloodEntry.toBan (s.floodTable ip) time)
    (hnow : now < time) {changed : UInt32} {until_ : Int}
    (hends : changed = ip →
      EndsBy FloodEntry.toBan (s.floodTable ip) now until_) :
    BannedUntil FloodEntry.toBan ((s.banFlood changed until_).floodTable ip)
      time := by
  apply h.update
  intro hsame
  exact h.overwrite hnow (hends hsame) rfl

theorem connect_banConnect
    (h : BannedUntil ConnectionEntry.toBan (s.connectTable ip) time)
    (hnow : now < time) {changed : UInt32} {until_ : Int}
    (hends : changed = ip →
      EndsBy ConnectionEntry.toBan (s.connectTable ip) now until_) :
    BannedUntil ConnectionEntry.toBan
      ((s.banConnect changed until_).connectTable ip) time := by
  apply h.update
  intro hsame
  exact h.overwrite hnow (hends hsame) rfl

/-! The checks that leave the two tables alone, or one of them. -/

theorem checkTextFlood_tables (peer : Option UInt32) :
    (s.checkTextFlood config now peer).2.floodTable = s.floodTable ∧
      (s.checkTextFlood config now peer).2.connectTable = s.connectTable := by
  cases peer with
  | none => exact ⟨rfl, rfl⟩
  | some changed =>
      simp only [checkTextFlood]
      split_ifs <;> exact ⟨rfl, rfl⟩

theorem checkTankPacketFlood_tables (peer : Option UInt32) :
    (s.checkTankPacketFlood config now peer).2.floodTable = s.floodTable ∧
      (s.checkTankPacketFlood config now peer).2.connectTable =
        s.connectTable := by
  cases peer with
  | none => exact ⟨rfl, rfl⟩
  | some changed =>
      simp only [checkTankPacketFlood]
      split_ifs <;> exact ⟨rfl, rfl⟩

theorem connectTable_checkPacketFlood (peer : Option UInt32) :
    (s.checkPacketFlood config now peer).2.connectTable = s.connectTable := by
  cases peer with
  | none => rfl
  | some changed =>
      simp only [checkPacketFlood]
      split_ifs <;> rfl

theorem connectTable_checkInvalidPacket (peer : Option UInt32) :
    (s.checkInvalidPacket config now peer).2.connectTable = s.connectTable := by
  cases peer with
  | none => rfl
  | some changed =>
      simp only [checkInvalidPacket]
      split_ifs <;> rfl

theorem floodTable_checkConnectionFlood (peer : Option UInt32) :
    (s.checkConnectionFlood config now peer).2.floodTable = s.floodTable := by
  cases peer with
  | none => rfl
  | some changed =>
      simp only [checkConnectionFlood]
      split_ifs <;> rfl

theorem floodTable_checkLoginFlood (peer : Option UInt32) :
    (s.checkLoginFlood config now peer).2.floodTable = s.floodTable := by
  cases peer with
  | none => rfl
  | some changed =>
      simp only [checkLoginFlood]
      split_ifs <;> rfl

/-- The table of floods after each operation on a ban that is active. -/
theorem flood_kept {op : Op} (hlenient : Lenient config now s op)
    (hnow : now < time) (hop : op ≠ .unbanIP ip)
    (h : BannedUntil FloodEntry.toBan (s.floodTable ip) time) :
    BannedUntil FloodEntry.toBan ((s.apply config now op).floodTable ip) time := by
  cases op with
  | checkPacketFlood peer => exact flood_checkPacketFlood h hnow peer
  | checkInvalidPacket peer =>
      cases peer with
      | none => exact h
      | some changed =>
          simp only [apply, checkInvalidPacket]
          split_ifs with henabled hcount
          · exact h
          · apply flood_banFlood h hnow
            rintro rfl
            exact hlenient hcount
          · exact h
  | banIP peer durationSeconds =>
      cases peer with
      | none => exact h
      | some changed =>
          apply flood_banFlood h hnow
          rintro rfl
          exact hlenient
  | unbanIP changed =>
      apply h.update
      rintro rfl
      exact absurd rfl hop
  | cleanup =>
      simp only [apply, cleanup]
      split_ifs
      · exact h
      · apply h.filter
        intro e hbanned htime
        simp [hbanned, Int.lt_of_lt_of_le hnow htime]
  | checkTextFlood peer =>
      rw [apply, (checkTextFlood_tables peer).1]
      exact h
  | checkTankPacketFlood peer =>
      rw [apply, (checkTankPacketFlood_tables peer).1]
      exact h
  | checkConnectionFlood peer =>
      rw [apply, floodTable_checkConnectionFlood]
      exact h
  | checkLoginFlood peer =>
      rw [apply, floodTable_checkLoginFlood]
      exact h
  | onPeerConnect peer => cases peer <;> exact h
  | onPeerDisconnect peer => cases peer <;> exact h

/-- The same for the table of connections. -/
theorem connect_kept {op : Op} (hlenient : Lenient config now s op)
    (hnow : now < time) (hop : op ≠ .unbanIP ip)
    (h : BannedUntil ConnectionEntry.toBan (s.connectTable ip) time) :
    BannedUntil ConnectionEntry.toBan ((s.apply config now op).connectTable ip)
      time := by
  cases op with
  | checkConnectionFlood peer => exact connect_checkConnectionFlood h hnow peer
  | checkLoginFlood peer =>
      cases peer with
      | none => exact h
      | some changed =>
          simp only [apply, checkLoginFlood]
          split_ifs with henabled hcount
          · exact h
          · apply connect_banConnect h hnow
            rintro rfl
            exact hlenient hcount
          · exact h
  | unbanIP changed =>
      apply h.update
      rintro rfl
      exact absurd rfl hop
  | cleanup =>
      simp only [apply, cleanup]
      split_ifs
      · exact h
      · apply h.filter
        intro e hbanned htime
        simp [hbanned, Int.lt_of_lt_of_le hnow htime]
  | checkPacketFlood peer =>
      rw [apply, connectTable_checkPacketFlood]
      exact h
  | checkTextFlood peer =>
      rw [apply, (checkTextFlood_tables peer).2]
      exact h
  | checkTankPacketFlood peer =>
      rw [apply, (checkTankPacketFlood_tables peer).2]
      exact h
  | checkInvalidPacket peer =>
      rw [apply, connectTable_checkInvalidPacket]
      exact h
  | banIP peer durationSeconds => cases peer <;> exact h
  | onPeerConnect peer => cases peer <;> exact h
  | onPeerDisconnect peer => cases peer <;> exact h

/-- A ban that was written over and kept is no longer than the new one. -/
theorem endsBy_of_kept (ban : α → Ban) (table : UInt32 → Option α) (new : α)
    (hkept : ∀ time, now < time → BannedUntil ban (table ip) time →
      BannedUntil ban (Function.update table ip (some new) ip) time) :
    EndsBy ban (table ip) now (ban new).banUntil := by
  intro e hentry hbanned hactive
  obtain ⟨later, hlater, -, hle⟩ :=
    hkept _ hactive ⟨e, hentry, hbanned, Int.le_refl _⟩
  rw [Function.update_self, Option.some_inj] at hlater
  exact hlater ▸ hle

/-- An operation keeps the active bans exactly when it is lenient. -/
theorem keepsBans_iff (henabled : config.enabled = true) {op : Op} :
    KeepsBans config now s op ↔ Lenient config now s op := by
  constructor
  · intro hkeeps
    cases op with
    | checkInvalidPacket peer =>
        cases peer with
        | none => trivial
        | some ip =>
            intro hcount
            refine endsBy_of_kept FloodEntry.toBan s.floodTable
              { (s.floodTable ip).getD {} with
                isBanned := true
                banUntil := now + config.banDurationSeconds * 1000 }
              fun time hnow hban => ?_
            simpa [apply, checkInvalidPacket, henabled, hcount, banFlood] using
              hkeeps.flood ip time hnow (by simp) hban
    | checkLoginFlood peer =>
        cases peer with
        | none => trivial
        | some ip =>
            intro hcount
            refine endsBy_of_kept ConnectionEntry.toBan s.connectTable
              { (s.connectTable ip).getD {} with
                isBanned := true
                banUntil := now + config.banDurationSeconds * 1000 }
              fun time hnow hban => ?_
            simpa [apply, checkLoginFlood, henabled, hcount, banConnect] using
              hkeeps.connect ip time hnow (by simp) hban
    | banIP peer durationSeconds =>
        cases peer with
        | none => trivial
        | some ip =>
            exact endsBy_of_kept FloodEntry.toBan s.floodTable
              { (s.floodTable ip).getD {} with
                isBanned := true, banUntil := now + durationSeconds * 1000 }
              fun time hnow hban => hkeeps.flood ip time hnow (by simp) hban
    | _ => trivial
  · intro hlenient
    exact ⟨fun _ _ hnow hop => flood_kept hlenient hnow hop,
      fun _ _ hnow hop => connect_kept hlenient hnow hop⟩

theorem isBanned_of_flood (henabled : config.enabled = true) (hnow : now < time)
    (h : BannedUntil FloodEntry.toBan (s.floodTable ip) time) :
    s.isBanned config now (some ip) = true := by
  obtain ⟨e, hentry, hbanned, htime⟩ := h
  simp [isBanned, henabled, hentry, hbanned, Int.lt_of_lt_of_le hnow htime]

theorem isBanned_of_connect (henabled : config.enabled = true)
    (hnow : now < time)
    (h : BannedUntil ConnectionEntry.toBan (s.connectTable ip) time) :
    s.isBanned config now (some ip) = true := by
  obtain ⟨e, hentry, hbanned, htime⟩ := h
  simp [isBanned, henabled, hentry, hbanned, Int.lt_of_lt_of_le hnow htime]

end Bans

/-- Every step of a history is lenient in the state it meets. -/
def LenientRun (config : AntiDDoSConfig) (s : AntiDDoS) (ops : List (Int × Op)) :
    Prop :=
  ∀ before op after, ops = before ++ op :: after →
    Lenient config op.1 (run config s before) op.2

/-- In the state after `before`, an address is banned until a time; `mid` runs
before that time and does not lift the ban. -/
structure BansLast (config : AntiDDoSConfig) (s : AntiDDoS)
    (before mid : List (Int × Op)) (ip : UInt32) (time : Int) : Prop where
  flood : BannedUntil FloodEntry.toBan ((run config s before).floodTable ip) time →
    BannedUntil FloodEntry.toBan ((run config s (before ++ mid)).floodTable ip)
        time ∧
      ∀ now < time, (run config s (before ++ mid)).isBanned config now (some ip) =
        true
  connect :
    BannedUntil ConnectionEntry.toBan ((run config s before).connectTable ip)
      time →
    BannedUntil ConnectionEntry.toBan
        ((run config s (before ++ mid)).connectTable ip) time ∧
      ∀ now < time, (run config s (before ++ mid)).isBanned config now (some ip) =
        true

/-- Along a history of lenient steps nothing but `UnbanIP` ends a ban early. -/
theorem bans_last_along_runs {config : AntiDDoSConfig}
    (henabled : config.enabled = true) {s : AntiDDoS} {ops : List (Int × Op)}
    (hlenient : LenientRun config s ops) (before mid after : List (Int × Op))
    (hops : ops = before ++ mid ++ after) (ip : UInt32) (time : Int)
    (hmid : ∀ op ∈ mid, op.1 < time ∧ op.2 ≠ .unbanIP ip) :
    BansLast config s before mid ip time := by
  have hkept :
      (BannedUntil FloodEntry.toBan ((run config s before).floodTable ip) time →
        BannedUntil FloodEntry.toBan
          ((run config s (before ++ mid)).floodTable ip) time) ∧
      (BannedUntil ConnectionEntry.toBan ((run config s before).connectTable ip)
          time →
        BannedUntil ConnectionEntry.toBan
          ((run config s (before ++ mid)).connectTable ip) time) := by
    induction mid using List.reverseRecOn generalizing after with
    | nil => simp
    | append_singleton mid op ih =>
        have hsplit : ops = before ++ mid ++ op :: after := by simp [hops]
        obtain ⟨hflood, hconnect⟩ := ih (op :: after) hsplit
          fun earlier hearlier => hmid earlier (List.mem_append_left _ hearlier)
        obtain ⟨hnow, hop⟩ := hmid op (by simp)
        have hkeeps := (keepsBans_iff henabled).mpr
          (hlenient (before ++ mid) op after hsplit)
        have hrun : run config s (before ++ (mid ++ [op])) =
            (run config s (before ++ mid)).apply config op.1 op.2 := by
          simp [run]
        rw [hrun]
        exact ⟨fun h => hkeeps.flood ip time hnow hop (hflood h),
          fun h => hkeeps.connect ip time hnow hop (hconnect h)⟩
  constructor
  · intro h
    exact ⟨hkept.1 h, fun _ hnow => isBanned_of_flood henabled hnow (hkept.1 h)⟩
  · intro h
    exact ⟨hkept.2 h, fun _ hnow => isBanned_of_connect henabled hnow (hkept.2 h)⟩

/-- A packet of an address that was banned for a minute. -/
theorem ban_outlives_packet :
    LenientRun {} {} [(0, .banIP (some 7) 60), (5, .checkPacketFlood (some 7))] ∧
      BansLast {} {} [(0, .banIP (some 7) 60)] [(5, .checkPacketFlood (some 7))]
        7 60000 := by
  have hlenient : LenientRun {} {}
      [(0, .banIP (some 7) 60), (5, .checkPacketFlood (some 7))] := by
    intro before op after hops
    rcases before with _ | ⟨first, before⟩
    · obtain ⟨rfl, -⟩ := List.cons.inj hops
      intro e hentry
      cases hentry
    · obtain ⟨-, hrest⟩ := List.cons.inj hops
      rcases before with _ | ⟨second, before⟩
      · obtain ⟨rfl, -⟩ := List.cons.inj hrest
        trivial
      · obtain ⟨-, hnil⟩ := List.cons.inj hrest
        exact absurd hnil (by simp)
  exact ⟨hlenient, bans_last_along_runs rfl hlenient [(0, .banIP (some 7) 60)]
    [(5, .checkPacketFlood (some 7))] [] rfl 7 60000 (by simp)⟩

/-- Eleven invalid packets end a ban of an hour after five minutes. -/
theorem invalid_packets_cut_ban :
    ¬ ∀ (before mid : List (Int × Op)) (ip : UInt32) (time : Int),
      ((before ++ mid).map Prod.fst).Pairwise (· ≤ ·) →
      (∀ op ∈ mid, op.1 < time ∧ op.2 ≠ .unbanIP ip) →
      BansLast {} {} before mid ip time := by
  intro hall
  obtain ⟨-, hbanned⟩ := (hall [(0, .banIP (some 7) 3600)]
    (List.replicate 11 (1, .checkInvalidPacket (some 7))) 7 3600000 (by decide)
    (by
      intro op hop
      rw [List.eq_of_mem_replicate hop]
      exact ⟨by decide, by simp⟩)).flood ⟨_, rfl, rfl, Int.le_refl _⟩
  exact absurd (hbanned 300001 (by decide)) (by decide)

end AntiDDoS

end NopyServer
