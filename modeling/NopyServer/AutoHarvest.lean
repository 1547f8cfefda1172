/-
The configuration of Auto Harvest: how a message or a harvest changes it, how
it is written to its file and what a new process makes of the file.  Item id 0
is how a harvest is made free, and it is the one legal value that loading
replaces by the default item.
-/
import Mathlib.Logic.Relation
import NopyServer.Lib.Json
import NopyServer.Player
import NopyServer.Text

namespace NopyServer

namespace PthtAutoHarvest

open Json

/-- `last_used_by_world`: entries in the order the map happens to give, with
distinct keys. -/
@[ext]
structure LastUsed where
  entries : List (String × Int64) := []
  nodup : (entries.map Prod.fst).Nodup := by exact List.nodup_nil
deriving DecidableEq

/-- `last_used_by_world[key] = value`. -/
def LastUsed.set (used : LastUsed) (key : String) (value : Int64) : LastUsed :=
  ⟨setKey key value used.entries, nodup_setKey used.nodup key value⟩

/-- `Config`. -/
structure Config where
  payItemId : Int32 := 242
  payCount : Int32 := 1
  cooldownSeconds : Int32 := 0
  lastUsedByWorld : LastUsed := {}
deriving DecidableEq

/-- The two globals of the namespace and the file at `kConfigPath`: absent, or
a text that is JSON or not. -/
structure Process where
  loaded : Bool := false
  cfg : Config := {}
  file : Option (Option Json) := none

/-- `is_valid_item`. -/
def isValidItem (items : Items) (itemId : Int32) : Prop :=
  0 < itemId.toInt ∧ itemId.toInt < items.size

instance (items : Items) (itemId : Int32) : Decidable (isValidItem items itemId) :=
  inferInstanceAs (Decidable (_ ∧ _))

/-- What `save` writes. -/
def writeConfig (cfg : Config) : Json :=
  obj [("pay_item_id", Codec.ofInt32.write cfg.payItemId),
    ("pay_count", Codec.ofInt32.write cfg.payCount),
    ("cooldown_seconds", Codec.ofInt32.write cfg.cooldownSeconds),
    ("last_used_by_world", obj (cfg.lastUsedByWorld.entries.map fun entry =>
      (entry.1, Codec.ofInt64.write entry.2)))]

/-- `save`. -/
def save (st : Process) : Process :=
  { st with file := some (some (writeConfig st.cfg)) }

/-- The loop over the members of `last_used_by_world`. -/
def readLastUsed (used : LastUsed) : List (String × Json) → Option LastUsed
  | [] => some used
  | entry :: rest =>
      (Codec.ofInt64.read entry.2).bind fun value =>
        readLastUsed (used.set entry.1 value) rest

/-- The map in the file, which may be missing or something else. -/
def lastUsedOf (json : Json) : Option LastUsed :=
  match json.find "last_used_by_world" with
  | some (obj used) => readLastUsed {} used
  | _ => some {}

/-- The `try` block of `load`; `none` where it throws. -/
def readConfig (items : Items) (json : Json) : Option Config :=
  match json with
  | obj _ => do
      let payItemId ← json.value "pay_item_id" 242 Codec.ofInt32.read
      let payCount ← json.value "pay_count" 1 Codec.ofInt32.read
      let cooldownSeconds ← json.value "cooldown_seconds" 0 Codec.ofInt32.read
      let lastUsedByWorld ← lastUsedOf json
      return {
        payItemId := if isValidItem items payItemId then payItemId else 242
        payCount := if payCount.toInt < 0 then 0 else payCount
        cooldownSeconds :=
          if cooldownSeconds.toInt < 0 then 0 else cooldownSeconds
        lastUsedByWorld := lastUsedByWorld }
  | _ => none

/-- `load`. -/
def load (items : Items) (st : Process) : Process :=
  if st.loaded = true then st
  else
    match st.file with
    | none => save { st with loaded := true, cfg := {} }
    | some text =>
        match text.bind (readConfig items) with
        | some cfg => { st with loaded := true, cfg := cfg }
        | none => save { st with loaded := true, cfg := {} }

/-- `mark_used`. -/
def markUsed (items : Items) (worldName : String) (now : Int64)
    (st : Process) : Process :=
  let st := load items st
  if st.cfg.cooldownSeconds.toInt ≤ 0 then st
  else
    save { st with cfg := { st.cfg with
      lastUsedByWorld := st.cfg.lastUsedByWorld.set (toLower worldName) now } }

/-- The branch `save_payment` of `auto_harvest_action`. -/
def savePayment (items : Items) (cch : String) (st : Process) : Process :=
  let payItemId := Int32.ofInt (atoi (TextScanner.get cch "pay_item_id"))
  let payCount := Int32.ofInt (atoi (TextScanner.get cch "pay_count"))
  if payItemId.toInt < 0 ∨ payCount.toInt < 0 then st
  else if payItemId ≠ 0 ∧ ¬ isValidItem items payItemId then st
  else
    save { st with cfg := { st.cfg with
      payItemId := payItemId, payCount := payCount } }

/-- The branch `save_cooldown` of `auto_harvest_action`. -/
def saveCooldown (cch : String) (st : Process) : Process :=
  let cooldownSeconds := Int32.ofInt (atoi (TextScanner.get cch "cooldown_seconds"))
  if cooldownSeconds.toInt < 0 then st
  else save { st with cfg := { st.cfg with cooldownSeconds := cooldownSeconds } }

/-- `auto_harvest_action`, apart from the harvest it can start, which changes
the configuration by `mark_used` only. -/
def autoHarvestAction (items : Items) (pl : Player) (cch : String)
    (st : Process) : Process :=
  let button := (TextScanner.tryGet cch "buttonClicked").getD ""
  let autoMode := TextScanner.get cch "auto_mode"
  let st := load items st
  if button = "autoharvest_cfg_payment_open" then st
  else if button = "autoharvest_cfg_cooldown_open" then st
  else if autoMode = "save_payment" then
    if pl.hasConfigAccess = false then st else savePayment items cch st
  else if autoMode = "save_cooldown" then
    if pl.hasConfigAccess = false then st else saveCooldown cch st
  else st

/-- The process after a restart: only the file is left. -/
def restart (st : Process) : Process := { file := st.file }

/-- The configurations that can be set. -/
structure Legal (items : Items) (cfg : Config) : Prop where
  item : cfg.payItemId = 0 ∨ cfg.payItemId = 242 ∨ isValidItem items cfg.payItemId
  count : 0 ≤ cfg.payCount.toInt
  cooldown : 0 ≤ cfg.cooldownSeconds.toInt

section Legal

variable {items : Items} {st : Process}

theorem legal_default : Legal items {} :=
  ⟨Or.inr (Or.inl rfl), by decide, by decide⟩

theorem readConfig_legal {json : Json} {cfg : Config}
    (hread : readConfig items json = some cfg) : Legal items cfg := by
  cases json with
  | obj members =>
      obtain ⟨payItemId, -, hread⟩ := Option.bind_eq_some_iff.mp hread
      obtain ⟨payCount, -, hread⟩ := Option.bind_eq_some_iff.mp hread
      obtain ⟨cooldownSeconds, -, hread⟩ := Option.bind_eq_some_iff.mp hread
      obtain ⟨lastUsed, -, hread⟩ := Option.bind_eq_some_iff.mp hread
      cases hread
      refine ⟨?_, ?_, ?_⟩
      · by_cases hvalid : isValidItem items payItemId
        · right
          right
          dsimp only
          rw [if_pos hvalid]
          exact hvalid
        · exact Or.inr (Or.inl (if_neg hvalid))
      · dsimp only
        split
        · decide
        · omega
      · dsimp only
        split
        · decide
        · omega
  | _ => cases hread

theorem load_legal (hst : Legal items st.cfg) :
    Legal items (load items st).cfg := by
  unfold load
  split
  · exact hst
  · split
    · exact legal_default
    · split
      · next cfg hread =>
          obtain ⟨json, -, hjson⟩ := Option.bind_eq_some_iff.mp hread
          exact readConfig_legal hjson
      · exact legal_default

theorem markUsed_legal (worldName : String) (now : Int64)
    (hst : Legal items st.cfg) :
    Legal items (markUsed items worldName now st).cfg := by
  have hload := load_legal hst
  unfold markUsed
  dsimp only
  split
  · exact hload
  · exact ⟨hload.item, hload.count, hload.cooldown⟩

theorem cfg_save (st : Process) : (save st).cfg = st.cfg := rfl

theorem savePayment_legal (cch : String) (hst : Legal items st.cfg) :
    Legal items (savePayment items cch st).cfg := by
  unfold savePayment
  dsimp only
  split
  · exact hst
  · next hsign =>
      split
      · exact hst
      · next hitem =>
          rw [cfg_save]
          refine ⟨?_, by dsimp only; omega, hst.cooldown⟩
          by_cases hzero : Int32.ofInt (atoi (TextScanner.get cch "pay_item_id")) = 0
          · exact Or.inl hzero
          · exact Or.inr (Or.inr (Decidable.not_not.mp fun hvalid =>
              hitem ⟨hzero, hvalid⟩))

theorem saveCooldown_legal (cch : String) (hst : Legal items st.cfg) :
    Legal items (saveCooldown cch st).cfg := by
  unfold saveCooldown
  dsimp only
  split
  · exact hst
  · rw [cfg_save]
    constructor
    · exact hst.item
    · exact hst.count
    · dsimp only
      omega

theorem autoHarvestAction_legal (pl : Player) (cch : String)
    (hst : Legal items st.cfg) :
    Legal items (autoHarvestAction items pl cch st).cfg := by
  have hload := load_legal hst
  unfold autoHarvestAction
  dsimp only
  split
  · exact hload
  split
  · exact hload
  split
  · split
    · exact hload
    · exact savePayment_legal cch hload
  split
  · split
    · exact hload
    · exact saveCooldown_legal cch hload
  · exact hload

/-- What can change the configuration. -/
inductive Step (items : Items) : Process → Process → Prop where
  | action (st : Process) (pl : Player) (cch : String) :
      Step items st (autoHarvestAction items pl cch st)
  | used (st : Process) (worldName : String) (now : Int64) :
      Step items st (markUsed items worldName now st)
  | restart (st : Process) : Step items st (restart st)

/-- Whatever the file holds at first, only legal configurations are reached. -/
theorem runs_legal {file : Option (Option Json)}
    (hrun : Relation.ReflTransGen (Step items) { file := file } st) :
    Legal items st.cfg := by
  induction hrun with
  | refl => exact legal_default
  | tail _ hlast ih =>
      cases hlast with
      | action pl cch => exact autoHarvestAction_legal pl cch ih
      | used worldName now => exact markUsed_legal worldName now ih
      | restart => exact legal_default

end Legal

section RoundTrip

variable {items : Items} {cfg : Config}

theorem readLastUsed_written {entries : List (String × Int64)}
    {used : LastUsed}
    (hkeys : ((used.entries ++ entries).map Prod.fst).Nodup) :
    readLastUsed used (entries.map fun entry =>
      (entry.1, Codec.ofInt64.write entry.2)) =
        some ⟨used.entries ++ entries, hkeys⟩ := by
  induction entries generalizing used with
  | nil =>
      refine congrArg some (LastUsed.ext ?_)
      exact (List.append_nil _).symm
  | cons entry rest ih =>
      have hfresh : entry.1 ∉ used.entries.map Prod.fst := by
        intro hmem
        rw [List.map_append, List.nodup_append] at hkeys
        exact hkeys.2.2 _ hmem _ List.mem_cons_self rfl
      have hset : (used.set entry.1 entry.2).entries = used.entries ++ [entry] :=
        setKey_of_notMem hfresh
      have hall : (used.set entry.1 entry.2).entries ++ rest =
          used.entries ++ entry :: rest := by
        rw [hset, List.append_assoc]
        rfl
      rw [List.map_cons, readLastUsed, Codec.ofInt64_faithful.read_write,
        Option.bind_some, ih (by rw [hall]; exact hkeys)]
      exact congrArg some (LastUsed.ext hall)

/-- What is read back: the item falls back to the default when it is not
valid. -/
theorem readConfig_written (hcount : 0 ≤ cfg.payCount.toInt)
    (hcooldown : 0 ≤ cfg.cooldownSeconds.toInt) :
    readConfig items (writeConfig cfg) = some { cfg with
      payItemId :=
        if isValidItem items cfg.payItemId then cfg.payItemId else 242 } := by
  have hitem : (writeConfig cfg).value "pay_item_id" 242 Codec.ofInt32.read =
      some cfg.payItemId :=
    Codec.ofInt32_faithful.value_written (by simp [writeConfig, find])
  have hpay : (writeConfig cfg).value "pay_count" 1 Codec.ofInt32.read =
      some cfg.payCount :=
    Codec.ofInt32_faithful.value_written
      (by simp [writeConfig, find, List.lookup_cons])
  have hcool : (writeConfig cfg).value "cooldown_seconds" 0 Codec.ofInt32.read =
      some cfg.cooldownSeconds :=
    Codec.ofInt32_faithful.value_written
      (by simp [writeConfig, find, List.lookup_cons])
  have hfind : (writeConfig cfg).find "last_used_by_world" =
      some (obj (cfg.lastUsedByWorld.entries.map fun entry =>
        (entry.1, Codec.ofInt64.write entry.2))) := by
    simp [writeConfig, find, List.lookup_cons]
  have hused : lastUsedOf (writeConfig cfg) = some cfg.lastUsedByWorld := by
    rw [lastUsedOf, hfind]
    exact @readLastUsed_written cfg.lastUsedByWorld.entries {}
      cfg.lastUsedByWorld.nodup
  unfold readConfig
  rw [hitem, hpay, hcool, hused]
  simp only [writeConfig, Option.bind_eq_bind, Option.bind_some,
    Int.not_lt.mpr hcount, Int.not_lt.mpr hcooldown, ↓reduceIte]
  rfl

theorem load_of_read {st : Process} {json : Json}
    (hloaded : st.loaded = false) (hfile : st.file = some (some json))
    (hread : readConfig items json = some cfg) : (load items st).cfg = cfg := by
  unfold load
  rw [hloaded, if_neg Bool.false_ne_true, hfile]
  dsimp only
  rw [Option.bind_some, hread]

/-- Saving a legal configuration and loading it in a new process gives it back
exactly when its item is not 0. -/
theorem load_save_eq_iff (hlegal : Legal items cfg) (st : Process) :
    (load items (restart (save { st with cfg := cfg }))).cfg = cfg ↔
      cfg.payItemId ≠ 0 := by
  have hread := @readConfig_written items cfg hlegal.count hlegal.cooldown
  have hload : (load items (restart (save { st with cfg := cfg }))).cfg =
      { cfg with payItemId :=
          if isValidItem items cfg.payItemId then cfg.payItemId else 242 } :=
    load_of_read rfl rfl hread
  rw [hload]
  constructor
  · intro hsame hzero
    have hitem := congrArg Config.payItemId hsame
    have hinvalid : ¬ isValidItem items cfg.payItemId := by
      rw [hzero]
      exact fun hvalid => absurd hvalid.1 (by decide)
    dsimp only at hitem
    rw [if_neg hinvalid, hzero] at hitem
    exact absurd hitem (by decide)
  · intro hitem
    have hsame : (if isValidItem items cfg.payItemId then cfg.payItemId
        else 242) = cfg.payItemId := by
      rcases hlegal.item with hzero | hdefault | hvalid
      · exact absurd hzero hitem
      · rw [hdefault]
        exact ite_self _
      · exact if_pos hvalid
    rw [hsame]

/-- A harvest for no count of an item, with one world on its cooldown. -/
theorem paid_harvest_comes_back :
    let items : Items := ⟨10, fun _ => {}⟩
    let cfg : Config :=
      { payItemId := 5, payCount := 0, cooldownSeconds := 60
        lastUsedByWorld := ⟨[("start", 100)], by decide⟩ }
    (load items (restart (save { cfg := cfg }))).cfg = cfg := by
  intro items cfg
  have hlegal : Legal items cfg :=
    ⟨Or.inr (Or.inr (by decide)), by decide, by decide⟩
  exact (load_save_eq_iff hlegal {}).mpr (by decide)

/-- The free harvest of item 0 costs a world lock after a restart. -/
theorem free_harvest_lost :
    ¬ ∀ (items : Items) (cfg : Config) (st : Process), Legal items cfg →
      (load items (restart (save { st with cfg := cfg }))).cfg = cfg := by
  intro hall
  have hsame := hall ⟨10, fun _ => {}⟩ { payItemId := 0 } {}
    ⟨Or.inl rfl, by decide, by decide⟩
  have hitem := congrArg Config.payItemId hsame
  exact absurd hitem (by decide)

end RoundTrip

end PthtAutoHarvest

end NopyServer
