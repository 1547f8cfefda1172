/-
The bans of `check_flood_generic`.  An entry is banned as soon as its
violations reach the threshold, and they are counted anew once the ban is over:
no ban ever sees more of them, and all last equally long.
-/
import Mathlib.Data.List.Chain
import Mathlib.Data.List.Pairwise
import NopyServer.AntiDDoS

namespace NopyServer

/-- The tables of `check_flood_generic`. -/
inductive FloodTable where
  | packet
  | text
  | tank
deriving DecidableEq

/-- An entry whose ban is over starts again. -/
def FloodEntry.released (e : FloodEntry) : FloodEntry :=
  if e.isBanned then { e with isBanned := false, violationCount := 0, packetCount := 0 }
  else e

/-- An entry with one more packet above the limit. -/
def FloodEntry.violated (now : Int) (e : FloodEntry) : FloodEntry :=
  { e with
    packetCount := e.packetCount + 1
    violationCount := e.violationCount + 1
    lastViolationTime := now }

/-- What `check_flood_generic` can do with an entry. -/
inductive FloodStep (config : AntiDDoSConfig) (maxPerSecond now : Int) (e : FloodEntry) :
    Verdict FloodEntry → Prop
  | active (hbanned : e.isBanned = true) (hnow : now < e.banUntil) :
      FloodStep config maxPerSecond now e ⟨true, e, false⟩
  | opened (hover : e.isBanned = true → e.banUntil ≤ now)
      (hlate : 1000 < now - e.firstPacketTime) :
      FloodStep config maxPerSecond now e
        ⟨false, { e.released with firstPacketTime := now, packetCount := 1 }, false⟩
  | accepted (hover : e.isBanned = true → e.banUntil ≤ now)
      (hwithin : now - e.firstPacketTime ≤ 1000)
      (hcount : e.released.packetCount + 1 ≤ maxPerSecond) :
      FloodStep config maxPerSecond now e
        ⟨false, { e.released with packetCount := e.released.packetCount + 1 }, false⟩
  | warned (hover : e.isBanned = true → e.banUntil ≤ now)
      (hwithin : now - e.firstPacketTime ≤ 1000)
      (hcount : maxPerSecond < e.released.packetCount + 1)
      (hviolations : e.released.violationCount + 1 < config.violationThreshold) :
      FloodStep config maxPerSecond now e ⟨true, e.released.violated now, false⟩
  | banned (hover : e.isBanned = true → e.banUntil ≤ now)
      (hwithin : now - e.firstPacketTime ≤ 1000)
      (hcount : maxPerSecond < e.released.packetCount + 1)
      (hviolations : config.violationThreshold ≤ e.released.violationCount + 1) :
      FloodStep config maxPerSecond now e
        ⟨true, { e.released.violated now with
          banUntil := now +
            config.calculateBanDuration (e.released.violationCount + 1) * 1000
          isBanned := true }, true⟩

theorem FloodEntry.released_firstPacketTime (e : FloodEntry) :
    e.released.firstPacketTime = e.firstPacketTime := by
  unfold FloodEntry.released
  split_ifs <;> rfl

theorem FloodEntry.released_isBanned (e : FloodEntry) : e.released.isBanned = false := by
  unfold FloodEntry.released
  split_ifs with hbanned
  · rfl
  · exact Bool.eq_false_iff.mpr hbanned

theorem FloodEntry.floodStep (config : AntiDDoSConfig) (maxPerSecond now : Int)
    (e : FloodEntry) :
    FloodStep config maxPerSecond now e (e.checkFloodGeneric config maxPerSecond now) := by
  have hrelease : (if e.isBanned then
      { e with isBanned := false, violationCount := 0, packetCount := 0 } else e) =
      e.released := rfl
  unfold FloodEntry.checkFloodGeneric
  rw [hrelease]
  dsimp only
  by_cases hactive : e.isBanned = true ∧ now < e.banUntil
  · rw [if_pos hactive]
    exact .active hactive.1 hactive.2
  · have hover : e.isBanned = true → e.banUntil ≤ now := fun hbanned =>
      Int.not_lt.mp fun hnow => hactive ⟨hbanned, hnow⟩
    have htime := e.released_firstPacketTime
    rw [if_neg hactive]
    split_ifs with hlate hcount hviolations
    · exact .opened hover (htime ▸ hlate)
    · exact .banned hover (htime ▸ Int.not_lt.mp hlate) hcount hviolations
    · exact .warned hover (htime ▸ Int.not_lt.mp hlate) hcount (Int.not_le.mp hviolations)
    · exact .accepted hover (htime ▸ Int.not_lt.mp hlate) (Int.not_lt.mp hcount)

namespace AntiDDoS

def table (s : AntiDDoS) : FloodTable → UInt32 → Option FloodEntry
  | .packet => s.floodTable
  | .text => s.textFloodTable
  | .tank => s.tankFloodTable

def maxPerSecond (config : AntiDDoSConfig) : FloodTable → Int
  | .packet => config.maxPacketsPerSecond
  | .text => config.maxTextPacketsPerSecond
  | .tank => config.maxTankPacketsPerSecond

/-- The table and the address that an operation calls `check_flood_generic`
with. -/
def floodCheck (config : AntiDDoSConfig) : Op → Option (FloodTable × UInt32)
  | .checkPacketFlood (some ip) => if config.enabled then some (.packet, ip) else none
  | .checkTextFlood (some ip) => if config.enabled then some (.text, ip) else none
  | .checkTankPacketFlood (some ip) => if config.enabled then some (.tank, ip) else none
  | _ => none

/-- What `check_flood_generic` finds for an address in a table. -/
def checkTable (config : AntiDDoSConfig) (s : AntiDDoS) (t : FloodTable) (ip : UInt32)
    (now : Int) : Verdict FloodEntry :=
  ((s.table t ip).getD {}).checkFloodGeneric config (maxPerSecond config t) now

/-- A ban by `check_flood_generic`; the length is in milliseconds. -/
structure FloodBan where
  table : FloodTable
  ip : UInt32
  length : Int
deriving DecidableEq

/-- The ban that an operation imposes. -/
def floodBan (config : AntiDDoSConfig) (s : AntiDDoS) (now : Int) (op : Op) :
    Option FloodBan :=
  match floodCheck config op with
  | none => none
  | some (t, ip) =>
      let verdict := s.checkTable config t ip now
      if verdict.blocked then some ⟨t, ip, verdict.entry.banUntil - now⟩ else none

/-- The bans of a run. -/
def floodBans (config : AntiDDoSConfig) : AntiDDoS → List (Int × Op) → List FloodBan
  | _, [] => []
  | s, op :: ops =>
      (floodBan config s op.1 op.2).toList ++ floodBans config (s.apply config op.1 op.2) ops

/-- The lengths of the bans of an address in some of the tables. -/
def banLengths (config : AntiDDoSConfig) (start : Int) (ops : List (Int × Op)) (ip : UInt32)
    (watched : FloodTable → Bool) : List Int :=
  ((floodBans config { lastCleanup := start } ops).filter
    fun ban => ban.ip == ip && watched ban.table).map FloodBan.length

/-- Later bans last as long as earlier ones, and longer until the greatest
length is reached. -/
structure Escalates (config : AntiDDoSConfig) (lengths : List Int) : Prop where
  lasting : lengths.Pairwise (· ≤ ·)
  growing : lengths.IsChain fun previous next =>
    previous < config.maxBanDurationSeconds * 1000 → previous < next

/-- The violations of an entry stay below the threshold until it is banned. -/
structure Counted (config : AntiDDoSConfig) (e : FloodEntry) : Prop where
  nonneg : 0 ≤ e.violationCount
  below : e.isBanned = false → e.violationCount < max 1 config.violationThreshold

section Counting

variable {config : AntiDDoSConfig} {s : AntiDDoS} {now : Int}

theorem counted_zero {e : FloodEntry} (hzero : e.violationCount = 0) : Counted config e := by
  constructor
  · exact Int.le_of_eq hzero.symm
  · intro _
    rw [hzero]
    exact Int.lt_of_lt_of_le Int.zero_lt_one (Int.le_max_left _ _)

theorem Counted.released {e : FloodEntry} (h : Counted config e) : Counted config e.released := by
  unfold FloodEntry.released
  split_ifs with hbanned
  · exact counted_zero rfl
  · exact h

/-- A check counts at most one violation more, and a ban comes with the one that
reaches the threshold. -/
theorem Counted.checkFloodGeneric {e : FloodEntry} (h : Counted config e)
    (maxPerSecond : Int) :
    Counted config (e.checkFloodGeneric config maxPerSecond now).entry ∧
      ((e.checkFloodGeneric config maxPerSecond now).blocked = true →
        (e.checkFloodGeneric config maxPerSecond now).entry.banUntil - now =
          config.calculateBanDuration (max 1 config.violationThreshold) * 1000) := by
  have hreleased := h.released
  have hbelow := hreleased.below e.released_isBanned
  generalize hverdict : e.checkFloodGeneric config maxPerSecond now = verdict
  have hstep := e.floodStep config maxPerSecond now
  rw [hverdict] at hstep
  cases hstep with
  | active => exact ⟨h, fun hblocked => by cases hblocked⟩
  | opened => exact ⟨⟨hreleased.nonneg, hreleased.below⟩, fun hblocked => by cases hblocked⟩
  | accepted => exact ⟨⟨hreleased.nonneg, hreleased.below⟩, fun hblocked => by cases hblocked⟩
  | warned hover hwithin hcount hviolations =>
      refine ⟨⟨?_, fun _ => ?_⟩, fun hblocked => by cases hblocked⟩
      · exact Int.add_nonneg hreleased.nonneg Int.one_nonneg
      · exact Int.lt_of_lt_of_le hviolations (Int.le_max_right _ _)
  | banned hover hwithin hcount hviolations =>
      have hnonneg := hreleased.nonneg
      -- the threshold is reached with this violation
      have hreached : e.released.violationCount + 1 = max 1 config.violationThreshold := by
        omega
      refine ⟨⟨?_, fun hnot => by cases hnot⟩, fun _ => ?_⟩
      · exact Int.add_nonneg hnonneg Int.one_nonneg
      · dsimp only
        rw [hreached]
        omega

end Counting

section Tables

variable {config : AntiDDoSConfig} {s : AntiDDoS} {now : Int} {op : Op}

/-- A check writes the entry of its address back. -/
theorem table_apply_of_check {t : FloodTable} {ip : UInt32}
    (hcheck : floodCheck config op = some (t, ip)) :
    (s.apply config now op).table = Function.update s.table t
      (Function.update (s.table t) ip (some (s.checkTable config t ip now).entry)) := by
  unfold floodCheck at hcheck
  split at hcheck
  next changed =>
    split_ifs at hcheck with henabled
    cases hcheck
    funext t
    cases t <;> simp [apply, checkPacketFlood, henabled, table, checkTable, maxPerSecond]
  next changed =>
    split_ifs at hcheck with henabled
    cases hcheck
    funext t
    cases t <;> simp [apply, checkTextFlood, henabled, table, checkTable, maxPerSecond]
  next changed =>
    split_ifs at hcheck with henabled
    cases hcheck
    funext t
    cases t <;> simp [apply, checkTankPacketFlood, henabled, table, checkTable, maxPerSecond]
  next => cases hcheck

/-- Any other operation leaves an entry, or removes it, or writes a ban into
it. -/
theorem table_apply_of_none (hcheck : floodCheck config op = none) {t : FloodTable}
    {ip : UInt32} {e : FloodEntry} (he : (s.apply config now op).table t ip = some e) :
    s.table t ip = some e ∨
      ∃ until_, e = { (s.table t ip).getD {} with isBanned := true, banUntil := until_ } := by
  have hban : ∀ {s' : AntiDDoS} {changed : UInt32} {until_ : Int},
      s'.table = s.table → (s'.banFlood changed until_).table t ip = some e →
      s.table t ip = some e ∨
        ∃ until_, e = { (s.table t ip).getD {} with isBanned := true, banUntil := until_ } := by
    intro s' changed until_ hsame he
    cases t with
    | packet =>
        have hpacket : s'.floodTable = s.floodTable := congrFun hsame .packet
        by_cases hip : ip = changed
        · subst hip
          simp only [banFlood, table, Function.update_self, Option.some_inj, hpacket] at he
          exact Or.inr ⟨until_, he.symm⟩
        · simp only [banFlood, table, Function.update_of_ne hip, hpacket] at he
          exact Or.inl he
    | text => exact Or.inl ((congrFun (congrFun hsame .text) ip).symm.trans he)
    | tank => exact Or.inl ((congrFun (congrFun hsame .tank) ip).symm.trans he)
  cases op with
  | checkPacketFlood peer =>
      cases peer with
      | none => exact Or.inl he
      | some changed => simp_all [floodCheck, apply, checkPacketFlood]
  | checkTextFlood peer =>
      cases peer with
      | none => exact Or.inl he
      | some changed => simp_all [floodCheck, apply, checkTextFlood]
  | checkTankPacketFlood peer =>
      cases peer with
      | none => exact Or.inl he
      | some changed => simp_all [floodCheck, apply, checkTankPacketFlood]
  | checkConnectionFlood peer =>
      have hsame : (s.apply config now (.checkConnectionFlood peer)).table = s.table := by
        cases peer with
        | none => rfl
        | some changed =>
            simp only [apply, checkConnectionFlood]
            split_ifs <;> rfl
      exact Or.inl (hsame ▸ he)
  | checkInvalidPacket peer =>
      cases peer with
      | none => exact Or.inl he
      | some changed =>
          simp only [apply, checkInvalidPacket] at he
          split_ifs at he
          · exact Or.inl he
          · exact hban rfl he
          · exact Or.inl he
  | checkLoginFlood peer =>
      have hsame : (s.apply config now (.checkLoginFlood peer)).table = s.table := by
        cases peer with
        | none => rfl
        | some changed =>
            simp only [apply, checkLoginFlood]
            split_ifs <;> rfl
      exact Or.inl (hsame ▸ he)
  | onPeerConnect peer => cases peer <;> exact Or.inl he
  | onPeerDisconnect peer => cases peer <;> exact Or.inl he
  | banIP peer durationSeconds =>
      cases peer with
      | none => exact Or.inl he
      | some changed => exact hban rfl he
  | unbanIP changed =>
      by_cases hip : ip = changed
      · subst hip
        cases t <;> simp [apply, unbanIP, table] at he
      · cases t <;> exact Or.inl (by simpa [apply, unbanIP, table, hip] using he)
  | cleanup =>
      simp only [apply, cleanup] at he
      split_ifs at he
      · exact Or.inl he
      · cases t <;> exact Or.inl (Option.filter_eq_some_iff.mp he).1

end Tables

section Lengths

variable {config : AntiDDoSConfig} {s : AntiDDoS} {now : Int}

/-- The violations of all entries stay below the threshold. -/
def AllCounted (config : AntiDDoSConfig) (s : AntiDDoS) : Prop :=
  ∀ t ip e, s.table t ip = some e → Counted config e

theorem AllCounted.getD (h : AllCounted config s) (t : FloodTable) (ip : UInt32) :
    Counted config ((s.table t ip).getD {}) := by
  cases hentry : s.table t ip with
  | none => exact counted_zero rfl
  | some e => exact h t ip e hentry

theorem AllCounted.apply (h : AllCounted config s) (op : Op) :
    AllCounted config (s.apply config now op) := by
  intro t ip e he
  cases hcheck : floodCheck config op with
  | none =>
      rcases table_apply_of_none hcheck he with hold | ⟨until_, rfl⟩
      · exact h t ip e hold
      · exact ⟨(h.getD t ip).nonneg, fun hnot => by cases hnot⟩
  | some checked =>
      obtain ⟨t', ip'⟩ := checked
      rw [table_apply_of_check hcheck] at he
      by_cases ht : t = t'
      · subst ht
        rw [Function.update_self] at he
        by_cases hip : ip = ip'
        · subst hip
          rw [Function.update_self, Option.some_inj] at he
          rw [← he]
          exact ((h.getD t ip).checkFloodGeneric _).1
        · rw [Function.update_of_ne hip] at he
          exact h t ip e he
      · rw [Function.update_of_ne ht] at he
        exact h t ip e he

theorem length_of_floodBan (h : AllCounted config s) {op : Op} {ban : FloodBan}
    (hban : floodBan config s now op = some ban) :
    ban.length = config.calculateBanDuration (max 1 config.violationThreshold) * 1000 := by
  unfold floodBan at hban
  split at hban
  next => cases hban
  next t ip hcheck =>
    dsimp only at hban
    split_ifs at hban with hblocked
    cases hban
    exact ((h.getD t ip).checkFloodGeneric _).2 hblocked

/-- All bans of a run last equally long. -/
theorem length_of_floodBans (ops : List (Int × Op)) (h : AllCounted config s) :
    ∀ ban ∈ floodBans config s ops,
      ban.length = config.calculateBanDuration (max 1 config.violationThreshold) * 1000 := by
  induction ops generalizing s with
  | nil => exact fun ban hban => absurd hban List.not_mem_nil
  | cons op ops ih =>
      intro ban hban
      rcases List.mem_append.mp hban with hnow | hlater
      · exact length_of_floodBan h (Option.mem_toList.mp hnow)
      · exact ih (h.apply op.2) ban hlater

theorem banLengths_eq_replicate (start : Int) (ops : List (Int × Op)) (ip : UInt32)
    (watched : FloodTable → Bool) :
    banLengths config start ops ip watched =
      List.replicate (banLengths config start ops ip watched).length
        (config.calculateBanDuration (max 1 config.violationThreshold) * 1000) := by
  apply List.eq_replicate_of_mem
  intro length hlength
  obtain ⟨ban, hban, rfl⟩ := List.mem_map.mp hlength
  have hcounted : AllCounted config { lastCleanup := start } := by
    intro t ip e he
    cases t <;> cases he
  exact length_of_floodBans ops hcounted ban (List.mem_of_mem_filter hban)

theorem escalates_replicate_iff (n : Nat) (length : Int) :
    Escalates config (List.replicate n length) ↔
      n ≤ 1 ∨ config.maxBanDurationSeconds * 1000 ≤ length := by
  constructor
  · intro hescalates
    have hgrowing := hescalates.growing
    match n with
    | 0 => exact Or.inl (Nat.zero_le 1)
    | 1 => exact Or.inl (Nat.le_refl 1)
    | n + 2 =>
        rw [List.replicate_succ, List.replicate_succ, List.isChain_cons_cons] at hgrowing
        apply Or.inr
        by_contra hshort
        exact absurd (hgrowing.1 (Int.not_le.mp hshort)) (Int.lt_irrefl length)
  · intro hlength
    constructor
    · exact List.pairwise_replicate.mpr (Or.inr (Int.le_refl length))
    · rcases hlength with hfew | hgreatest
      · match n with
        | 0 => exact .nil
        | 1 => exact .singleton _
      · exact List.isChain_replicate_of_rel n fun hshort =>
          absurd hshort (Int.not_lt.mpr hgreatest)

/-- The loop multiplies the first duration by a power, modulo `2 ^ 32`. -/
theorem escalated_eq (hlow : -(2 ^ 31) ≤ config.banDurationSeconds)
    (hhigh : config.banDurationSeconds < 2 ^ 31) (violations : Int) :
    config.escalated violations = int32 (config.banDurationSeconds *
      config.escalationMultiplier ^ (min violations 5 - 1).toNat) := by
  unfold AntiDDoSConfig.escalated
  induction (min violations 5 - 1).toNat with
  | zero => simp [int32_of_range hlow hhigh]
  | succ n ih =>
      rw [Function.iterate_succ_apply', ih, Int.pow_succ, ← Int.mul_assoc]
      exact Int.bmod_mul_bmod

theorem greatest_le_calculateBanDuration_iff (violations : Int) :
    config.maxBanDurationSeconds * 1000 ≤ config.calculateBanDuration violations * 1000 ↔
      config.maxBanDurationSeconds ≤ config.escalated violations := by
  unfold AntiDDoSConfig.calculateBanDuration
  dsimp only
  split_ifs <;> omega

/-- The bans escalate exactly when there is at most one, or the first one has
the greatest length already. -/
theorem escalates_iff (config : AntiDDoSConfig) (start : Int) (ops : List (Int × Op))
    (ip : UInt32) (watched : FloodTable → Bool) :
    Escalates config (banLengths config start ops ip watched) ↔
      (banLengths config start ops ip watched).length ≤ 1 ∨
        config.maxBanDurationSeconds ≤
          config.escalated (max 1 config.violationThreshold) := by
  rw [banLengths_eq_replicate, escalates_replicate_iff,
    greatest_le_calculateBanDuration_iff, List.length_replicate]

/-- Thirty-three texts at once, twice: both bans last twenty minutes. -/
theorem second_ban_is_no_longer :
    ¬ ∀ (config : AntiDDoSConfig) (start : Int) (ops : List (Int × Op)) (ip : UInt32)
      (watched : FloodTable → Bool), 0 < config.banDurationSeconds →
      2 ≤ config.escalationMultiplier → 1 ≤ config.violationThreshold →
      (ops.map Prod.fst).Pairwise (· ≤ ·) →
      Escalates config (banLengths config start ops ip watched) := by
  intro h
  have hescalates := h {} 0
    (List.replicate 33 (5000, .checkTextFlood (some 7)) ++
      List.replicate 33 (2000000, .checkTextFlood (some 7))) 7 (· == .text)
    (by decide) (by decide) (by decide) (by decide)
  have hlengths : banLengths {} 0
      (List.replicate 33 (5000, .checkTextFlood (some 7)) ++
        List.replicate 33 (2000000, .checkTextFlood (some 7))) 7 (· == .text) =
      [1200000, 1200000] := by decide +kernel
  rw [hlengths] at hescalates
  have hgrowing := hescalates.growing
  rw [List.isChain_cons_cons] at hgrowing
  exact absurd (hgrowing.1 (by decide)) (by decide)

end Lengths

end AntiDDoS

end NopyServer
