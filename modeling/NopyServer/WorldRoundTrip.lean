/-
What comes back of a world that is saved and loaded.
-/
import NopyServer.WorldFile

namespace NopyServer

open Json Codec

section Blocks

variable {items : Items} {r : Nat} {block : WorldBlock} {α : Type}
  {codec : Codec α} {key : String} {a default : α}

/-- The keys of a block. -/
def blockKeys : List String :=
  ["btp", "g_o", "g_d", "ep_s", "f", "b", "p", "fc", "t", "n", "ep_c", "if_c",
    "id", "c", "wl", "pr", "o", "dd", "di", "fl", "rf", "ps", "en", "in", "sn",
    "g", "l", "lq", "lo", "a", "atmin", "bo", "la", "cr", "mq", "pbooth", "tm",
    "ls", "dnt", "r1", "g1", "b1", "prs", "starttime", "spices", "food", "bep",
    "hm", "sh2", "sh3", "sh4"]

theorem blockMembers_keys :
    ((blockMembers items r block).map Prod.fst).Nodup := by
  change blockKeys.Nodup
  decide +kernel

/-- What is written at one place is found under its key. -/
theorem find_block {value : Option Json} (i : Nat)
    (hget : (blockMembers items r block)[i]? = some (key, value)) :
    (object (blockMembers items r block)).find key = value :=
  find_object blockMembers_keys (List.mem_of_getElem? hget)

/-- A member that is written unless it has its default. -/
theorem value_block [DecidableEq α] (i : Nat) (h : codec.Faithful)
    (hget : (blockMembers items r block)[i]? =
      some (key, saveIf (a ≠ default) (codec.write a))) :
    (object (blockMembers items r block)).value key default codec.read =
      some a :=
  h.value_saved (find_block i hget) not_not.mp

theorem battlePet_faithful : battlePetCodec.Faithful :=
  (ofUInt16_faithful.vector 3).pair ofStr_faithful

theorem gateOptions_faithful : gateOptionsCodec.Faithful :=
  (ofStr_faithful.pair ofStr_faithful).vector 5

theorem gateDest_faithful : gateDestCodec.Faithful := ofStr_faithful.vector 5

theorem epochState_faithful : epochStateCodec.Faithful :=
  (ofBool_faithful.vector 3).pair ofInt_faithful

theorem adminBfg_faithful : adminBfgCodec.Faithful :=
  (ofInt_faithful.pair ofStr_faithful).list

theorem mannequin_faithful : Mannequin.codec.Faithful := total_faithful _ _ _

theorem portrait_faithful : Portrait.codec.Faithful := total_faithful _ _ _

theorem donate_faithful : Donate.codec.Faithful := total_faithful _ _ _

theorem food_faithful : FoodType.codec.Faithful := total_faithful _ _ _

theorem cleanFg_zero : cleanFg items 0 = 0 := by
  simp only [cleanFg]
  split <;> split <;> rfl

theorem loadedFg_zero (guildId : Int) : loadedFg items guildId 0 = 0 := by
  have hother : ¬ ((0 : UInt16) = 5814 ∧ guildId = 0) := fun h =>
    absurd h.1 (by decide)
  rw [loadedFg, if_neg hother, cleanFg_zero]

/-- The tile type that comes back. -/
theorem value_fg (hrock : (items.item 0).fossilRock = 0) (guildId : Int) :
    (object (blockMembers items r block)).value "f" 0
        (fun v => (ofUInt16.read v).map (loadedFg items guildId)) =
      some (loadedFg items guildId block.fg) := by
  have hfind := @find_block items r block "f" _ 4 rfl
  unfold value
  rw [hfind]
  by_cases hzero : block.fg = 0
  · simp [savedFg, hzero, hrock, loadedFg_zero]
  · simp [savedFg, hzero, ofUInt16_faithful.read_write]

theorem int32_uint32 (n : Int) : int32 (UInt32.ofInt n).toNat = int32 n := by
  have hnonneg : 0 ≤ n % 2 ^ 32 := Int.emod_nonneg n (by decide)
  have hlt : n % 2 ^ 32 < 2 ^ 32 := Int.emod_lt_of_pos n (by decide)
  have hmod : (((UInt32.ofInt n).toNat : Nat) : Int) = n % 2 ^ 32 := by
    rw [UInt32.ofInt, UInt32.toNat_ofNat']
    omega
  rw [hmod]
  exact Int.emod_bmod ..

theorem value_wl :
    (object (blockMembers items r block)).value "wl" 0
        (fun v => (ofUInt32.read v).map fun n => int32 n.toNat) =
      some (int32 block.wl) := by
  have hfind := @find_block items r block "wl" _ 14 rfl
  unfold value
  rw [hfind]
  by_cases hzero : block.wl = 0
  · simp [saveIf, hzero, int32]
  · simp only [saveIf, hzero, ne_eq, not_false_eq_true, ↓reduceIte]
    exact congrArg some (int32_uint32 block.wl)

theorem value_epochCycle :
    (object (blockMembers items r block)).value "ep_c" 0
        (fun v => (ofInt.read v).map int32) =
      some (int32 block.epochCycle) := by
  have hfind := @find_block items r block "ep_c" _ 10 rfl
  unfold value
  rw [hfind]
  by_cases hzero : block.epochCycle = 0
  · simp [saveIf, hzero, int32]
  · simp [saveIf, hzero, ofInt_faithful.read_write]

/-- The cycle that comes back: zero is not written, and the default is ten. -/
theorem value_infinityCycle :
    (object (blockMembers items r block)).value "if_c" 10
        (fun v => (ofInt.read v).map int32) =
      some (if block.infinityCycle = 0 then 10
        else int32 block.infinityCycle) := by
  have hfind := @find_block items r block "if_c" _ 11 rfl
  unfold value
  rw [hfind]
  by_cases hzero : block.infinityCycle = 0
  · simp [saveIf, hzero]
  · simp [saveIf, hzero, ofInt_faithful.read_write]

theorem value_fruit :
    (object (blockMembers items r block)).value "fc" 0 ofUInt8.read =
      some (if block.fruit < 8 then block.fruit else 0) := by
  have hfind := @find_block items r block "fc" _ 7 rfl
  unfold value
  rw [hfind]
  by_cases hfew : block.fruit < 8
  · by_cases hzero : block.fruit = 0
    · simp [saveIf, hzero]
    · have hpos : 0 < block.fruit := UInt8.pos_iff_ne_zero.mpr hzero
      simp [saveIf, hpos, hfew, ofUInt8_faithful.read_write]
  · simp [saveIf, hfew]

theorem value_open :
    (object (blockMembers items r block)).value "o" 1 ofUInt8.read =
      some (if block.open_ = 0 then 0 else 1) := by
  have hfind := @find_block items r block "o" _ 16 rfl
  unfold value
  rw [hfind]
  by_cases hone : block.open_ = 1
  · simp [saveIf, hone]
  · simp only [saveIf, ne_eq, hone, not_false_eq_true, ↓reduceIte, ite_not]
    split <;> rfl

/-- A mannequin that wears nothing is the default. -/
theorem Mannequin.eq_default {p : Mannequin} (hbare : ¬ p.worn) : p = {} := by
  simp only [Mannequin.worn, not_or, not_not] at hbare
  cases p
  simp_all

theorem value_mannequin :
    (object (blockMembers items r block)).value "mq" {} Mannequin.fromJson =
      some block.mannequin :=
  mannequin_faithful.value_saved (find_block 34 rfl) Mannequin.eq_default

theorem value_phoneb :
    (object (blockMembers items r block)).value "pbooth" {}
        Phonebooth.fromJson =
      some (if block.phoneb.toMannequin.worn then block.phoneb else {}) := by
  have hfind := @find_block items r block "pbooth" _ 35 rfl
  unfold value
  rw [hfind]
  by_cases hworn : block.phoneb.toMannequin.worn
  · simp only [saveIf, hworn, ↓reduceIte]
    exact Phonebooth.fromJson_toJson block.phoneb
  · simp [saveIf, hworn]

theorem value_portrait :
    (object (blockMembers items r block)).value "prs" {} Portrait.fromJson =
      some block.portrait := by
  refine portrait_faithful.value_saved (find_block 42 rfl) fun hplain => ?_
  simp only [Portrait.painted, not_or, not_not] at hplain
  cases hsame : block.portrait
  simp_all

theorem value_food :
    (object (blockMembers items r block)).value "food" []
        (fun v => (loopItems v).bind fun items =>
          items.mapM FoodType.fromJson) =
      some block.food := by
  have hfind := @find_block items r block "food" _ 45 rfl
  unfold value
  rw [hfind]
  by_cases hnone : block.food = []
  · simp [saveIf, hnone]
  · simp only [saveIf, ne_eq, hnone, not_false_eq_true, ↓reduceIte]
    exact food_faithful.list.read_write block.food

theorem value_battlePet :
    (object (blockMembers items r block)).value "btp" (#v[0, 0, 0], "")
        battlePetCodec.read = some block.battlePet :=
  battlePet_faithful.value_saved (find_block 0 rfl) fun hdef =>
    Prod.ext (not_not.mp hdef).1 (not_not.mp hdef).2

theorem value_epochState :
    (object (blockMembers items r block)).value "ep_s"
        (epochStart, 10) epochStateCodec.read =
      some block.epochState :=
  epochState_faithful.value_saved (find_block 3 rfl) fun hdef =>
    Prod.ext (not_not.mp hdef).1 (not_not.mp hdef).2

/-- The block that comes back. -/
def reloadedBlock (items : Items) (guildId : Int) (block : WorldBlock) :
    WorldBlock :=
  { block with
    fg := loadedFg items guildId block.fg
    fruit := if block.fruit < 8 then block.fruit else 0
    open_ := if block.open_ = 0 then 0 else 1
    wl := int32 block.wl
    epochCycle := int32 block.epochCycle
    infinityCycle :=
      if block.infinityCycle = 0 then 10 else int32 block.infinityCycle
    phoneb := if block.phoneb.toMannequin.worn then block.phoneb else {} }

/-- Every member of a block is found where it was written. -/
theorem readBlock_written (hrock : (items.item 0).fossilRock = 0)
    (guildId : Int) :
    readBlock items guildId (object (blockMembers items r block)) =
      some (reloadedBlock items guildId block) := by
  rw [readBlock, value_fg hrock, value_block 6 ofInt_faithful rfl, value_fruit,
    value_block 8 ofStr_faithful rfl, value_wl,
    value_block 17 ofStr_faithful rfl, value_block 18 ofStr_faithful rfl,
    value_mannequin, value_phoneb,
    value_block 33 ofInt_faithful.list.list rfl,
    value_block 38 donate_faithful.list rfl,
    value_block 39 ofUInt16_faithful rfl, value_block 40 ofUInt16_faithful rfl,
    value_block 41 ofUInt8_faithful rfl, value_portrait,
    value_block 46 ofUInt16_faithful rfl, value_block 47 ofStr_faithful rfl,
    value_block 48 ofUInt16_faithful rfl, value_block 49 ofUInt16_faithful rfl,
    value_block 50 ofUInt16_faithful rfl, value_block 21 ofInt_faithful rfl,
    value_block 20 ofInt_faithful rfl, value_block 36 ofUInt8_faithful rfl,
    value_block 37 ofUInt8_faithful rfl, value_epochCycle, value_epochState,
    value_infinityCycle, value_battlePet, value_block 5 ofUInt16_faithful rfl,
    value_block 9 ofUInt8_faithful rfl, value_block 12 ofInt_faithful rfl,
    value_block 13 ofInt_faithful rfl, value_block 15 ofInt_faithful rfl,
    value_open, gateDest_faithful.value_saved (find_block 2 rfl) not_not.mp,
    gateOptions_faithful.value_saved (find_block 1 rfl) not_not.mp,
    value_block 19 ofInt_faithful rfl, value_food,
    value_block 44 ofInt_faithful.list rfl, value_block 43 ofInt_faithful rfl,
    value_block 22 ofBool_faithful rfl, value_block 23 ofBool_faithful rfl,
    value_block 24 ofBool_faithful rfl, value_block 25 ofUInt16_faithful rfl,
    value_block 26 ofBool_faithful rfl, value_block 27 ofInt_faithful rfl,
    value_block 28 ofStr_faithful rfl, value_block 29 ofStr_faithful.list rfl,
    value_block 31 ofBool_faithful rfl, value_block 32 ofBool_faithful rfl,
    value_block 30 adminBfg_faithful rfl]
  rfl

end Blocks

section Worlds

variable {items : Items} {rands : Nat → Nat} {world : World} {α : Type}
  {codec : Codec α} {key : String} {a default : α}

/-- The keys of a world. -/
def worldKeys : List String :=
  ["entry_level", "n_b", "music_bpm", "weather", "owner", "has_ectolock",
    "last_ghost_spawn", "guild_world_id", "d_weather", "o2", "worldMusic",
    "worldLocked", "xeno", "w_s", "wt", "r", "g", "b", "admins", "ct",
    "cycle_ke", "infinity", "c_gems", "gems_lvl", "whitelist", "s4tb", "ghosts",
    "drop_new", "cc_s", "sbox1", "cctv", "bulletin", "npc", "machines",
    "blocks"]

/-- The members of the file of a world. -/
def fileMembers (items : Items) (rands : Nat → Nat) (world : World) :
    List (String × Option Json) :=
  worldMembers world ++
    [("blocks", some (.arr (writeBlocks items rands world.blocks).1))]

theorem fileMembers_keys :
    ((fileMembers items rands world).map Prod.fst).Nodup := by
  change worldKeys.Nodup
  decide +kernel

theorem find_world_member {value : Option Json} (i : Nat)
    (hget : (fileMembers items rands world)[i]? = some (key, value)) :
    (object (fileMembers items rands world)).find key = value :=
  find_object fileMembers_keys (List.mem_of_getElem? hget)

theorem value_world (i : Nat) (h : codec.Faithful)
    (hget : (fileMembers items rands world)[i]? =
      some (key, some (codec.write a))) :
    (object (fileMembers items rands world)).value key default codec.read =
      some a :=
  h.value_written (find_world_member i hget)

/-- `last_lock` is read but never written. -/
theorem value_lastLock :
    (object (fileMembers items rands world)).value "last_lock" 0 ofInt.read =
      some 0 := by
  rfl

theorem sbox1_faithful : WorldSBOX1.codec.Faithful := total_faithful _ _ _

theorem cctv_faithful : WorldCCTV.codec.Faithful := total_faithful _ _ _

theorem bulletin_faithful : WorldBulletin.codec.Faithful :=
  total_faithful _ _ _

theorem machines_faithful : WorldMachines.codec.Faithful :=
  total_faithful _ _ _

theorem drop_faithful : DropEntry.codec.Faithful := total_faithful _ _ _

theorem blocksOfFile_written :
    blocksOfFile (object (fileMembers items rands world)) =
      some (.arr (writeBlocks items rands world.blocks).1) :=
  congrArg some (congrArg (fun found => Option.getD found .null)
    (find_world_member 34 rfl))

/-- Block by block, whatever `rand()` gave. -/
theorem mapM_readBlock (hrock : (items.item 0).fossilRock = 0) (guildId : Int)
    (rands : Nat → Nat) (blocks : List WorldBlock) :
    (writeBlocks items rands blocks).1.mapM (readBlock items guildId) =
      some (blocks.map (reloadedBlock items guildId)) := by
  induction blocks generalizing rands with
  | nil => rfl
  | cons block rest ih =>
      simp only [writeBlocks, List.mapM_cons, readBlock_written hrock, ih]
      rfl

/-- The world that comes back from the file. -/
def reloadedWorld (items : Items) (name : String) (world : World) : World :=
  let blocks := world.blocks.map (reloadedBlock items world.guildId)
  { world with
    name := name
    lastLock := 0
    blocks := blocks
    npc := world.npc.map WorldNPC.kept
    totalFires := blocks.countP fun block => flagSet block.flags 0x00100000
    activeJammers := (blocks.filter fun block =>
      flagSet block.flags 0x00400000 && jammerIds.contains block.fg).map
        fun block => block.fg.toNat
    freshWorld := false
    totalDropUid := 0
    maxX := 0
    maxY := 0 }

end Worlds

section Texts

variable {items : Items} {r : Nat} {block : WorldBlock} {world : World}

/-- The texts of a block that are written. -/
def WorldBlock.texts (block : WorldBlock) : List String :=
  [block.battlePet.2, block.txt, block.doorDestination, block.doorId, block.ownerName,
      block.heartMonitor] ++
    block.gateOptions.toList.flatMap (fun option => [option.1, option.2]) ++
    block.gateDest.toList ++ block.admins ++ block.adminBfg.map Prod.snd ++
    block.donates.flatMap fun donate => [donate.name, donate.text]

/-- The texts of a world that are written. -/
def World.texts (world : World) : List String :=
  [world.nukedBy, world.ownerName, world.ownerNamed, world.worldMusic, world.category] ++
    world.admins ++ world.whitelist ++ world.cctv.map (fun cctv => cctv.logs) ++
    world.bulletin.flatMap (fun post => [post.name, post.text]) ++
    world.blocks.flatMap WorldBlock.texts

/-- All of some texts are UTF-8. -/
def Utf8 (texts : List String) : Prop := ∀ text ∈ texts, utf8 text.toList = true

instance (texts : List String) : Decidable (Utf8 texts) :=
  inferInstanceAs (Decidable (∀ text ∈ texts, _))

theorem utf8_append {front back : List String} :
    Utf8 (front ++ back) ↔ Utf8 front ∧ Utf8 back := List.forall_mem_append

theorem utf8_flatMap {α : Type} {entries : List α} {texts : α → List String} :
    Utf8 (entries.flatMap texts) ↔ ∀ entry ∈ entries, Utf8 (texts entry) := by
  simp only [Utf8, List.mem_flatMap]
  exact ⟨fun h entry hentry text htext => h text ⟨entry, hentry, htext⟩,
    fun h text ⟨entry, hentry, htext⟩ => h entry hentry text htext⟩

theorem utf8_pairs {α : Type} {entries : List α} {name text : α → String} :
    Utf8 (entries.flatMap fun entry => [name entry, text entry]) ↔
      ∀ entry ∈ entries, utf8 (name entry).toList = true ∧ utf8 (text entry).toList = true := by
  rw [utf8_flatMap]
  simp only [Utf8, List.forall_mem_cons, List.not_mem_nil, false_implies, implies_true,
    and_true]

/-- What is asked only away from a default that has it anyway is asked always. -/
theorem unless_default {isDefault p : Prop} (hdefault : isDefault → p) :
    (¬ isDefault → p) ↔ p :=
  or_iff_not_imp_left.symm.trans (or_iff_right_of_imp hdefault)

/-- A member written when a text is not empty. -/
theorem dumps_saveIf {keep : Prop} [Decidable keep] {json : Json} :
    (∀ value ∈ saveIf keep json, value.dumps = true) ↔ (keep → json.dumps = true) := by
  unfold saveIf
  split
  · next hkeep => simp [hkeep]
  · next hdrop => simp [hdrop]

theorem dumps_saveIf_text {text : String} :
    (∀ value ∈ saveIf (text ≠ "") (ofStr.write text), value.dumps = true) ↔
      utf8 text.toList = true := by
  rw [dumps_saveIf, dumps_ofStr]
  exact unless_default fun hempty => by rw [hempty]; rfl

theorem dumps_savedFg : ∀ value ∈ savedFg items r block, value.dumps = true := by
  unfold savedFg
  dsimp only
  split
  · simp
  · split <;> simp

/-- A block is written when its texts are UTF-8. -/
theorem dumps_block :
    (object (blockMembers items r block)).dumps = true ↔ Utf8 block.texts := by
  have hkeys : ∀ key ∈ (blockMembers items r block).map Prod.fst,
      utf8 key.toList = true := by
    change ∀ key ∈ blockKeys, _
    simp [blockKeys, between]
  have hpet : (¬ block.btpDef → utf8 block.battlePet.2.toList = true) ↔
      utf8 block.battlePet.2.toList = true :=
    unless_default fun hdefault => by rw [hdefault.2]; rfl
  have hoptions : (¬ block.goDef → ∀ option ∈ block.gateOptions.toList,
        utf8 option.1.toList = true ∧ utf8 option.2.toList = true) ↔
      Utf8 (block.gateOptions.toList.flatMap fun option => [option.1, option.2]) := by
    rw [utf8_pairs]
    refine unless_default fun hdefault => ?_
    rw [show block.gateOptions = _ from hdefault]
    decide
  have hdest : (¬ block.gdDef → ∀ dest ∈ block.gateDest.toList,
        utf8 dest.toList = true) ↔ Utf8 block.gateDest.toList := by
    refine unless_default fun hdefault => ?_
    rw [show block.gateDest = _ from hdefault]
    decide
  have hadmins : (block.admins ≠ [] → ∀ name ∈ block.admins, utf8 name.toList = true) ↔
      Utf8 block.admins :=
    unless_default fun hempty => by simp [hempty]
  have hbfg : (block.adminBfg ≠ [] → ∀ entry ∈ block.adminBfg,
        utf8 entry.2.toList = true) ↔ Utf8 (block.adminBfg.map Prod.snd) := by
    simp only [Utf8, List.forall_mem_map]
    exact unless_default fun hempty => by simp [hempty]
  have hdonates : (block.donates ≠ [] → ∀ donate ∈ block.donates,
        utf8 donate.name.toList = true ∧ utf8 donate.text.toList = true) ↔
      Utf8 (block.donates.flatMap fun donate => [donate.name, donate.text]) := by
    rw [utf8_pairs]
    exact unless_default fun hempty => by simp [hempty]
  rw [dumps_object hkeys]
  simp only [blockMembers, battlePetCodec, gateOptionsCodec, gateDestCodec, epochStateCodec,
    adminBfgCodec, List.forall_mem_cons, List.not_mem_nil, false_implies, implies_true,
    and_true, true_and, dumps_saveIf_text, dumps_saveIf, dumps_pair, dumps_vector, dumps_list,
    dumps_ofStr, dumps_ofInt, dumps_ofBool, dumps_ofUInt8, dumps_ofUInt16, dumps_donate,
    dumps_foodType, Portrait.dumps_toJson, Mannequin.dumps_toJson, Phonebooth.dumps_toJson,
    hpet, hoptions, hdest, hadmins, hbfg, hdonates]
  have hsingle : Utf8 [block.battlePet.2, block.txt, block.doorDestination, block.doorId,
        block.ownerName, block.heartMonitor] ↔
      utf8 block.battlePet.2.toList = true ∧ utf8 block.txt.toList = true ∧
        utf8 block.doorDestination.toList = true ∧ utf8 block.doorId.toList = true ∧
        utf8 block.ownerName.toList = true ∧ utf8 block.heartMonitor.toList = true := by
    simp [Utf8]
  unfold WorldBlock.texts
  simp only [utf8_append, hsingle]
  constructor
  · rintro ⟨pet, options, dest, -, txt, destination, door, owner, admins, bfg, donates, monitor⟩
    exact ⟨⟨⟨⟨⟨⟨pet, txt, destination, door, owner, monitor⟩, options⟩, dest⟩, admins⟩, bfg⟩,
      donates⟩
  · rintro ⟨⟨⟨⟨⟨⟨pet, txt, destination, door, owner, monitor⟩, options⟩, dest⟩, admins⟩, bfg⟩,
      donates⟩
    exact ⟨pet, options, dest, dumps_savedFg, txt, destination, door, owner, admins, bfg,
      donates, monitor⟩

theorem dumps_writeBlocks (rands : Nat → Nat) (blocks : List WorldBlock) :
    (∀ json ∈ (writeBlocks items rands blocks).1, json.dumps = true) ↔
      Utf8 (blocks.flatMap WorldBlock.texts) := by
  induction blocks generalizing rands with
  | nil => simp [writeBlocks, Utf8]
  | cons block rest ih =>
      rw [List.flatMap_cons, utf8_append]
      simp only [writeBlocks, List.forall_mem_cons, dumps_block, ih]

/-- A world is written when its texts are UTF-8, whatever `rand()` gives. -/
theorem dumps_writeWorld (rands : Nat → Nat) :
    (writeWorld items rands world).1.dumps = true ↔ Utf8 world.texts := by
  have hkeys : ∀ key ∈ (fileMembers items rands world).map Prod.fst,
      utf8 key.toList = true := by
    change ∀ key ∈ worldKeys, _
    simp [worldKeys, between]
  change (object (fileMembers items rands world)).dumps = true ↔ _
  rw [dumps_object hkeys]
  simp only [fileMembers, worldMembers, List.forall_mem_append, List.forall_mem_cons,
    List.not_mem_nil, false_implies, implies_true, and_true, true_and, Option.mem_some_iff,
    forall_eq', dumps_arr, dumps_writeBlocks, dumps_list, dumps_pair, dumps_ofStr, dumps_ofInt,
    dumps_ofBool, dumps_ofUInt8, dumps_ofUInt16, dumps_ghost, dumps_npc, dumps_dropEntry,
    dumps_sbox1, dumps_cctv, dumps_bulletin, dumps_machines]
  have hsingle : Utf8 [world.nukedBy, world.ownerName, world.ownerNamed, world.worldMusic,
        world.category] ↔
      utf8 world.nukedBy.toList = true ∧ utf8 world.ownerName.toList = true ∧
        utf8 world.ownerNamed.toList = true ∧ utf8 world.worldMusic.toList = true ∧
        utf8 world.category.toList = true := by
    simp [Utf8]
  have hcctv : (∀ cctv ∈ world.cctv, utf8 cctv.logs.toList = true) ↔
      Utf8 (world.cctv.map fun cctv => cctv.logs) := by
    simp only [Utf8, List.forall_mem_map]
  have hposts : (∀ post ∈ world.bulletin,
        utf8 post.name.toList = true ∧ utf8 post.text.toList = true) ↔
      Utf8 (world.bulletin.flatMap fun post => [post.name, post.text]) := utf8_pairs.symm
  unfold World.texts
  simp only [utf8_append, hsingle, hcctv, hposts]
  constructor
  · rintro ⟨⟨nuked, owner, named, music, admins, category, whitelist, cctv, posts⟩, blocks⟩
    exact ⟨⟨⟨⟨⟨⟨nuked, owner, named, music, category⟩, admins⟩, whitelist⟩, cctv⟩, posts⟩,
      blocks⟩
  · rintro ⟨⟨⟨⟨⟨⟨nuked, owner, named, music, category⟩, admins⟩, whitelist⟩, cctv⟩, posts⟩,
      blocks⟩
    exact ⟨⟨nuked, owner, named, music, admins, category, whitelist, cctv, posts⟩, blocks⟩

/-- The texts of a world come back. -/
theorem texts_reloadedWorld (name : String) (world : World) :
    (reloadedWorld items name world).texts = world.texts := by
  have hblocks : (world.blocks.map (reloadedBlock items world.guildId)).flatMap
        WorldBlock.texts = world.blocks.flatMap WorldBlock.texts := by
    rw [List.flatMap_map]
    rfl
  unfold World.texts
  rw [← hblocks]
  rfl

end Texts

section Written

variable {items : Items} {rands : Nat → Nat} {world : World}

/-- A world that JSON can write: the numbers of its ghosts and NPCs are finite, and
its texts are UTF-8. -/
structure Writable (world : World) : Prop where
  ghosts : WorldGhost.codec.list.ok world.ghosts
  npc : WorldNPC.codec.list.ok world.npc
  texts : Utf8 world.texts

theorem ghosts_written :
    (object (fileMembers items rands world)).value "ghosts" []
        (fun v => (rangeItems v).mapM WorldGhost.fromJson) =
      WorldGhost.codec.list.read
        (WorldGhost.codec.list.write world.ghosts) := by
  have hfind := @find_world_member items rands world "ghosts" _ 26 rfl
  unfold value
  rw [hfind]
  rfl

theorem npc_written :
    (object (fileMembers items rands world)).value "npc" []
        WorldNPC.codec.list.read =
      WorldNPC.codec.list.read (WorldNPC.codec.list.write world.npc) := by
  have hfind := @find_world_member items rands world "npc" _ 32 rfl
  unfold value
  rw [hfind]

/-- Every member of a world but ghosts and NPCs is found where it was
written. -/
theorem readWorld_members (hrock : (items.item 0).fossilRock = 0)
    (name : String) :
    readWorld items name (writeWorld items rands world).1 =
      (WorldGhost.codec.list.read
        (WorldGhost.codec.list.write world.ghosts)).bind fun ghosts =>
      (WorldNPC.codec.list.read
        (WorldNPC.codec.list.write world.npc)).bind fun npc =>
      some { reloadedWorld items name world with ghosts, npc } := by
  change readWorld items name (object (fileMembers items rands world)) = _
  rw [readWorld, value_world 7 ofInt_faithful rfl, blocksOfFile_written,
    value_world 0 ofInt_faithful rfl, value_world 1 ofStr_faithful rfl,
    value_world 4 ofStr_faithful rfl, value_world 2 ofInt_faithful rfl,
    value_world 22 ofInt_faithful rfl, value_world 23 ofInt_faithful rfl,
    value_world 13 ofInt_faithful rfl, value_world 14 ofInt_faithful rfl,
    value_lastLock, value_world 15 ofUInt16_faithful rfl,
    value_world 16 ofUInt16_faithful rfl, value_world 17 ofUInt8_faithful rfl,
    value_world 19 ofStr_faithful rfl, value_world 24 ofStr_faithful.list rfl,
    value_world 18 ofStr_faithful.list rfl, value_world 12 ofInt_faithful rfl,
    value_world 9 ofStr_faithful rfl, value_world 10 ofStr_faithful rfl,
    value_world 11 ofBool_faithful rfl, value_world 3 ofUInt8_faithful rfl,
    value_world 8 ofUInt8_faithful rfl, value_world 20 ofInt_faithful rfl,
    value_world 21 ofInt_faithful.list rfl,
    value_world 25 (ofInt_faithful.pair ofInt_faithful) rfl, ghosts_written,
    value_world 6 ofInt_faithful rfl, value_world 5 ofBool_faithful rfl,
    value_world 27 drop_faithful.list rfl,
    value_world 29 sbox1_faithful.list rfl,
    value_world 28 ofInt_faithful.list.list rfl,
    value_world 30 cctv_faithful.list rfl,
    value_world 31 bulletin_faithful.list rfl, npc_written,
    value_world 33 machines_faithful.list rfl]
  simp only [loopItems, Option.bind_eq_bind, Option.bind_some,
    mapM_readBlock hrock]
  rfl

theorem readWorld_written (hrock : (items.item 0).fossilRock = 0)
    (hwritable : Writable world) (name : String) :
    readWorld items name (writeWorld items rands world).1 =
      some (reloadedWorld items name world) := by
  rw [readWorld_members hrock, WorldGhost.codec.list.read_write _
    hwritable.ghosts, WorldNPC.codec.list.read_write _ hwritable.npc]
  refine congrArg some ?_
  have hghosts : WorldGhost.codec.list.kept world.ghosts = world.ghosts :=
    List.map_id' world.ghosts
  rw [hghosts]
  rfl

/-- A file with a number that JSON cannot write is rejected. -/
theorem readWorld_not_finite (hrock : (items.item 0).fossilRock = 0)
    (hnot : ¬ (WorldGhost.codec.list.ok world.ghosts ∧ WorldNPC.codec.list.ok world.npc))
    (name : String) :
    readWorld items name (writeWorld items rands world).1 = none := by
  rw [readWorld_members hrock]
  by_cases hghosts : WorldGhost.codec.list.ok world.ghosts
  · have hnpc : ¬ WorldNPC.codec.list.ok world.npc := fun hnpc =>
      hnot ⟨hghosts, hnpc⟩
    rw [WorldNPC.codec.list.read_write_none _ hnpc]
    cases WorldGhost.codec.list.read _ <;> rfl
  · rw [WorldGhost.codec.list.read_write_none _ hghosts]
    rfl

end Written

end NopyServer
