/-
The file of a world: what `save_world` writes of it and what `get_world` reads
from it.  A block is an object with the members that differ from their
defaults, or `null`; the members of a world are always written.
-/
import NopyServer.Text
import NopyServer.WorldRecords

namespace NopyServer

open Json Codec

/-- The test of `save_world` whether anything is worn. -/
def Mannequin.worn (p : Mannequin) : Prop :=
  p.cHead ≠ 0 ∨ p.cShirt ≠ 0 ∨ p.cPants ≠ 0 ∨ p.cFeet ≠ 0 ∨ p.cMask ≠ 0 ∨
    p.cHand ≠ 0 ∨ p.cBack ≠ 0 ∨ p.cHair ≠ 0 ∨ p.cNeck ≠ 0

/-- The test of `save_world` whether a portrait differs from its default. -/
def Portrait.painted (p : Portrait) : Prop :=
  p.cExpression ≠ 1 ∨ p.cHairColour ≠ 0 ∨ p.cSkin ≠ 0 ∨ p.cFace ≠ 0 ∨
    p.cHead ≠ 0 ∨ p.cHair ≠ 0

instance (p : Mannequin) : Decidable p.worn :=
  inferInstanceAs (Decidable (_ ∨ _))

instance (p : Portrait) : Decidable p.painted :=
  inferInstanceAs (Decidable (_ ∨ _))

namespace WorldBlock

/-- `btp_def`, with its default argument. -/
def btpDef (block : WorldBlock) : Prop :=
  block.battlePet.1 = #v[0, 0, 0] ∧ block.battlePet.2 = ""

/-- `ep_def`. -/
def epDef (block : WorldBlock) : Prop :=
  block.epochState.1 = epochStart ∧ block.epochState.2 = 10

/-- `go_def`. -/
def goDef (block : WorldBlock) : Prop :=
  block.gateOptions = #v[("", ""), ("", ""), ("", ""), ("", ""), ("", "")]

/-- `gd_def`. -/
def gdDef (block : WorldBlock) : Prop :=
  block.gateDest = #v["", "", "", "", ""]

instance (block : WorldBlock) : Decidable block.btpDef :=
  inferInstanceAs (Decidable (_ ∧ _))

instance (block : WorldBlock) : Decidable block.epDef :=
  inferInstanceAs (Decidable (_ ∧ _))

instance (block : WorldBlock) : Decidable block.goDef :=
  inferInstanceAs (Decidable (_ = _))

instance (block : WorldBlock) : Decidable block.gdDef :=
  inferInstanceAs (Decidable (_ = _))

end WorldBlock

def battlePetCodec : Codec (Vector UInt16 3 × String) :=
  (ofUInt16.vector 3).pair ofStr

def gateOptionsCodec : Codec (Vector (String × String) 5) :=
  (ofStr.pair ofStr).vector 5

def gateDestCodec : Codec (Vector String 5) := ofStr.vector 5

def epochStateCodec : Codec (Vector Bool 3 × Int) :=
  (ofBool.vector 3).pair ofInt

def adminBfgCodec : Codec (List (Int × String)) := (ofInt.pair ofStr).list

/-- A member that is written under a condition. -/
def saveIf (keep : Prop) [Decidable keep] (json : Json) : Option Json :=
  if keep then some json else none

/-- The tile type that is written: a fossil takes the place of an empty one
only, for the second line of the source overwrites the first. -/
def savedFg (items : Items) (r : Nat) (block : WorldBlock) : Option Json :=
  let rock := (items.item block.fg.toNat).fossilRock
  if block.fg ≠ 0 then some (ofUInt16.write block.fg)
  else if rock ≠ 0 ∧ r % 500 < 1 then some (ofInt.write rock)
  else none

/-- The members of a block, in the order of `save_world`. -/
def blockMembers (items : Items) (r : Nat) (block : WorldBlock) :
    List (String × Option Json) :=
  [("btp", saveIf (¬ block.btpDef) (battlePetCodec.write block.battlePet)),
    ("g_o", saveIf (¬ block.goDef) (gateOptionsCodec.write block.gateOptions)),
    ("g_d", saveIf (¬ block.gdDef) (gateDestCodec.write block.gateDest)),
    ("ep_s", saveIf (¬ block.epDef) (epochStateCodec.write block.epochState)),
    ("f", savedFg items r block),
    ("b", saveIf (block.bg ≠ 0) (ofUInt16.write block.bg)),
    ("p", saveIf (block.planted ≠ 0) (ofInt.write block.planted)),
    ("fc", saveIf (0 < block.fruit ∧ block.fruit < 8)
      (ofUInt8.write block.fruit)),
    ("t", saveIf (block.txt ≠ "") (ofStr.write block.txt)),
    ("n", saveIf (block.roll ≠ 0) (ofUInt8.write block.roll)),
    ("ep_c", saveIf (block.epochCycle ≠ 0) (ofInt.write block.epochCycle)),
    ("if_c", saveIf (block.infinityCycle ≠ 0)
      (ofInt.write block.infinityCycle)),
    ("id", saveIf (block.id ≠ 0) (ofInt.write block.id)),
    ("c", saveIf (block.c_ ≠ 0) (ofInt.write block.c_)),
    ("wl", saveIf (block.wl ≠ 0) (ofInt.write block.wl)),
    ("pr", saveIf (block.pr ≠ 0) (ofInt.write block.pr)),
    ("o", saveIf (block.open_ ≠ 1)
      (ofInt.write (if block.open_ ≠ 0 then 1 else 0))),
    ("dd", saveIf (block.doorDestination ≠ "")
      (ofStr.write block.doorDestination)),
    ("di", saveIf (block.doorId ≠ "") (ofStr.write block.doorId)),
    ("fl", saveIf (block.flags ≠ 0) (ofInt.write block.flags)),
    ("rf", saveIf (block.rateOfFire ≠ 10) (ofInt.write block.rateOfFire)),
    ("ps", saveIf (block.projectileSpeed ≠ 100)
      (ofInt.write block.projectileSpeed)),
    ("en", saveIf (block.enabled ≠ false) (ofBool.write block.enabled)),
    ("in", saveIf (block.invert ≠ false) (ofBool.write block.invert)),
    ("sn", saveIf (block.spin ≠ false) (ofBool.write block.spin)),
    ("g", saveIf (block.gravity ≠ 50) (ofUInt16.write block.gravity)),
    ("l", saveIf (block.locked ≠ false) (ofBool.write block.locked)),
    ("lq", saveIf (block.lockOrigin ≠ -1) (ofInt.write block.lockOrigin)),
    ("lo", saveIf (block.ownerName ≠ "") (ofStr.write block.ownerName)),
    ("a", saveIf (block.admins ≠ []) (ofStr.list.write block.admins)),
    ("atmin", saveIf (block.adminBfg ≠ [])
      (adminBfgCodec.write block.adminBfg)),
    ("bo", saveIf (block.buildOnly ≠ false) (ofBool.write block.buildOnly)),
    ("la", saveIf (block.limitAdmins ≠ false)
      (ofBool.write block.limitAdmins)),
    ("cr", saveIf (block.crystals ≠ [])
      (ofInt.list.list.write block.crystals)),
    ("mq", saveIf (block.mannequin.worn) (block.mannequin.toJson)),
    ("pbooth", saveIf (block.phoneb.toMannequin.worn) (block.phoneb.toJson)),
    ("tm", saveIf (block.times ≠ 0) (ofUInt8.write block.times)),
    ("ls", saveIf (block.lives ≠ 0) (ofUInt8.write block.lives)),
    ("dnt", saveIf (block.donates ≠ [])
      (Donate.codec.list.write block.donates)),
    ("r1", saveIf (block.r ≠ 255) (ofUInt16.write block.r)),
    ("g1", saveIf (block.g ≠ 128) (ofUInt16.write block.g)),
    ("b1", saveIf (block.b ≠ 64) (ofUInt8.write block.b)),
    ("prs", saveIf (block.portrait.painted) (block.portrait.toJson)),
    ("starttime", saveIf (block.starttime ≠ 0) (ofInt.write block.starttime)),
    ("spices", saveIf (block.spices ≠ []) (ofInt.list.write block.spices)),
    ("food", saveIf (block.food ≠ []) (FoodType.codec.list.write block.food)),
    ("bep", saveIf (block.shelf1 ≠ 0) (ofUInt16.write block.shelf1)),
    ("hm", saveIf (block.heartMonitor ≠ "") (ofStr.write block.heartMonitor)),
    ("sh2", saveIf (block.shelf2 ≠ 0) (ofUInt16.write block.shelf2)),
    ("sh3", saveIf (block.shelf3 ≠ 0) (ofUInt16.write block.shelf3)),
    ("sh4", saveIf (block.shelf4 ≠ 0) (ofUInt16.write block.shelf4))]

/-- The clean-up of a tile type: null items and items that may not be placed
go. -/
def cleanFg (items : Items) (fg : UInt16) : UInt16 :=
  let name := (items.item fg.toNat).name
  let fg := if textFind name "null" ∨ textFind name "null_item" then 0 else fg
  if (items.item fg.toNat).blockedPlace then 0 else fg

/-- What the loader makes of a tile type: a guild lock outside a guild world
becomes a world lock, and the clean-up follows. -/
def loadedFg (items : Items) (guildId : Int) (fg : UInt16) : UInt16 :=
  cleanFg items (if fg = 5814 ∧ guildId = 0 then 242 else fg)

/-- The elements that an index loop over a value visits; a value that is
neither a list nor empty throws. -/
def loopItems : Json → Option (List Json)
  | .null => some []
  | .arr items => some items
  | .obj [] => some []
  | _ => none

/-- One block of `get_world`.  The colours, the gravity and the shelves are
read as wider numbers than they are stored in. -/
def readBlock (items : Items) (guildId : Int) (j : Json) :
    Option WorldBlock := do
  return {
    fg := ← j.value "f" 0 fun v =>
      (ofUInt16.read v).map (loadedFg items guildId)
    planted := ← j.value "p" 0 ofInt.read
    fruit := ← j.value "fc" 0 ofUInt8.read
    txt := ← j.value "t" "" ofStr.read
    wl := ← j.value "wl" 0 fun v =>
      (ofUInt32.read v).map fun n => int32 n.toNat
    doorDestination := ← j.value "dd" "" ofStr.read
    doorId := ← j.value "di" "" ofStr.read
    mannequin := ← j.value "mq" {} Mannequin.fromJson
    phoneb := ← j.value "pbooth" {} Phonebooth.fromJson
    crystals := ← j.value "cr" [] ofInt.list.list.read
    donates := ← j.value "dnt" [] Donate.codec.list.read
    r := ← j.value "r1" 255 ofUInt16.read
    g := ← j.value "g1" 128 ofUInt16.read
    b := ← j.value "b1" 64 ofUInt8.read
    portrait := ← j.value "prs" {} Portrait.fromJson
    shelf1 := ← j.value "bep" 0 ofUInt16.read
    heartMonitor := ← j.value "hm" "" ofStr.read
    shelf2 := ← j.value "sh2" 0 ofUInt16.read
    shelf3 := ← j.value "sh3" 0 ofUInt16.read
    shelf4 := ← j.value "sh4" 0 ofUInt16.read
    projectileSpeed := ← j.value "ps" 100 ofInt.read
    rateOfFire := ← j.value "rf" 10 ofInt.read
    times := ← j.value "tm" 0 ofUInt8.read
    lives := ← j.value "ls" 0 ofUInt8.read
    epochCycle := ← j.value "ep_c" 0 fun v => (ofInt.read v).map int32
    epochState := ← j.value "ep_s" (epochStart, 10)
      epochStateCodec.read
    infinityCycle := ← j.value "if_c" 10 fun v => (ofInt.read v).map int32
    battlePet := ← j.value "btp" (#v[0, 0, 0], "") battlePetCodec.read
    bg := ← j.value "b" 0 ofUInt16.read
    roll := ← j.value "n" 0 ofUInt8.read
    id := ← j.value "id" 0 ofInt.read
    c_ := ← j.value "c" 0 ofInt.read
    pr := ← j.value "pr" 0 ofInt.read
    open_ := ← j.value "o" 1 ofUInt8.read
    gateDest := ← j.value "g_d" #v["", "", "", "", ""] gateDestCodec.read
    gateOptions := ← j.value "g_o"
      #v[("", ""), ("", ""), ("", ""), ("", ""), ("", "")]
      gateOptionsCodec.read
    flags := ← j.value "fl" 0 ofInt.read
    food := ← j.value "food" [] fun v =>
      (loopItems v).bind fun items => items.mapM FoodType.fromJson
    spices := ← j.value "spices" [] ofInt.list.read
    starttime := ← j.value "starttime" 0 ofInt.read
    enabled := ← j.value "en" false ofBool.read
    invert := ← j.value "in" false ofBool.read
    spin := ← j.value "sn" false ofBool.read
    gravity := ← j.value "g" 50 ofUInt16.read
    locked := ← j.value "l" false ofBool.read
    lockOrigin := ← j.value "lq" (-1) ofInt.read
    ownerName := ← j.value "lo" "" ofStr.read
    admins := ← j.value "a" [] ofStr.list.read
    buildOnly := ← j.value "bo" false ofBool.read
    limitAdmins := ← j.value "la" false ofBool.read
    adminBfg := ← j.value "atmin" [] adminBfgCodec.read }

/-- The members of a world besides its blocks. -/
def worldMembers (world : World) : List (String × Option Json) :=
  [("entry_level", some (ofInt.write world.entryLevel)),
    ("n_b", some (ofStr.write world.nukedBy)),
    ("music_bpm", some (ofInt.write world.musicBpm)),
    ("weather", some (ofUInt8.write world.weather)),
    ("owner", some (ofStr.write world.ownerName)),
    ("has_ectolock", some (ofBool.write world.hasEctolock)),
    ("last_ghost_spawn", some (ofInt.write world.lastGhostSpawn)),
    ("guild_world_id", some (ofInt.write world.guildId)),
    ("d_weather", some (ofUInt8.write world.dWeather)),
    ("o2", some (ofStr.write world.ownerNamed)),
    ("worldMusic", some (ofStr.write world.worldMusic)),
    ("worldLocked", some (ofBool.write world.worldLocked)),
    ("xeno", some (ofInt.write world.xenonite)),
    ("w_s", some (ofInt.write world.worldSettings)),
    ("wt", some (ofInt.write world.worldTime)),
    ("r", some (ofUInt16.write world.r)),
    ("g", some (ofUInt16.write world.g)),
    ("b", some (ofUInt8.write world.b)),
    ("admins", some (ofStr.list.write world.admins)),
    ("ct", some (ofStr.write world.category)),
    ("cycle_ke", some (ofInt.write world.cycleKe)),
    ("infinity", some (ofInt.list.write world.infinity)),
    ("c_gems", some (ofInt.write world.gems)),
    ("gems_lvl", some (ofInt.write world.gemsLvl)),
    ("whitelist", some (ofStr.list.write world.whitelist)),
    ("s4tb", some ((ofInt.pair ofInt).write world.s4tb)),
    ("ghosts", some (WorldGhost.codec.list.write world.ghosts)),
    ("drop_new", some (DropEntry.codec.list.write world.dropNew)),
    ("cc_s", some (ofInt.list.list.write world.cctvSettings)),
    ("sbox1", some (WorldSBOX1.codec.list.write world.sbox1)),
    ("cctv", some (WorldCCTV.codec.list.write world.cctv)),
    ("bulletin", some (WorldBulletin.codec.list.write world.bulletin)),
    ("npc", some (WorldNPC.codec.list.write world.npc)),
    ("machines", some (WorldMachines.codec.list.write world.machines))]

/-- The blocks of a world, with one `rand()` for each that asks for it. -/
def writeBlocks (items : Items) : (Nat → Nat) → List WorldBlock →
    List Json × (Nat → Nat)
  | rands, [] => ([], rands)
  | rands, block :: rest =>
      let asks := (items.item block.fg.toNat).fossilRock ≠ 0
      let later := if asks then fun n => rands (n + 1) else rands
      let written := writeBlocks items later rest
      (object (blockMembers items (rands 0) block) :: written.1, written.2)

/-- The value `save_` of `save_world`. -/
def writeWorld (items : Items) (rands : Nat → Nat) (world : World) :
    Json × (Nat → Nat) :=
  let written := writeBlocks items rands world.blocks
  (object (worldMembers world ++ [("blocks", some (.arr written.1))]),
    written.2)

/-- What a range loop over a value visits. -/
def rangeItems : Json → List Json
  | .null => []
  | .arr items => items
  | .obj members => members.map Prod.snd
  | other => [other]

/-- `world_read["blocks"]`: a missing member is `null`, and only an object or
`null` has members. -/
def blocksOfFile : Json → Option Json
  | .obj members => some ((members.lookup "blocks").getD .null)
  | .null => some .null
  | _ => none

/-- The jammers that count when they are switched on. -/
def jammerIds : List UInt16 :=
  [4992, 226, 3616, 1276, 1278, 4758, 3750, 4992, 3072, 4884]

/-- `get_world` between opening the file and the size of the world.  The value
is `none` where the source throws. -/
def readWorld (items : Items) (name : String) (j : Json) : Option World := do
  let guildId ← j.value "guild_world_id" 0 ofInt.read
  let blocks ← ((← blocksOfFile j) |> loopItems).bind fun blocks =>
    blocks.mapM (readBlock items guildId)
  return {
    name := name
    entryLevel := ← j.value "entry_level" 1 ofInt.read
    nukedBy := ← j.value "n_b" "" ofStr.read
    ownerName := ← j.value "owner" "" ofStr.read
    musicBpm := ← j.value "music_bpm" 100 ofInt.read
    gems := ← j.value "c_gems" 1 ofInt.read
    gemsLvl := ← j.value "gems_lvl" 0 ofInt.read
    guildId := guildId
    worldSettings := ← j.value "w_s" 0 ofInt.read
    worldTime := ← j.value "wt" 0 ofInt.read
    lastLock := ← j.value "last_lock" 0 ofInt.read
    r := ← j.value "r" 255 ofUInt16.read
    g := ← j.value "g" 128 ofUInt16.read
    b := ← j.value "b" 64 ofUInt8.read
    category := ← j.value "ct" "" ofStr.read
    whitelist := ← j.value "whitelist" [] ofStr.list.read
    admins := ← j.value "admins" [] ofStr.list.read
    xenonite := ← j.value "xeno" 0 ofInt.read
    ownerNamed := ← j.value "o2" "" ofStr.read
    worldMusic := ← j.value "worldMusic" "" ofStr.read
    worldLocked := ← j.value "worldLocked" false ofBool.read
    weather := ← j.value "weather" 0 ofUInt8.read
    dWeather := ← j.value "d_weather" 0 ofUInt8.read
    cycleKe := ← j.value "cycle_ke" 0 ofInt.read
    infinity := ← j.value "infinity" [] ofInt.list.read
    s4tb := ← j.value "s4tb" (0, 0) (ofInt.pair ofInt).read
    ghosts := ← j.value "ghosts" [] fun v =>
      (rangeItems v).mapM WorldGhost.fromJson
    lastGhostSpawn := ← j.value "last_ghost_spawn" 0 ofInt.read
    hasEctolock := ← j.value "has_ectolock" false ofBool.read
    blocks := blocks
    totalFires := blocks.countP fun block => flagSet block.flags 0x00100000
    activeJammers := (blocks.filter fun block =>
      flagSet block.flags 0x00400000 && jammerIds.contains block.fg).map
        fun block => block.fg.toNat
    dropNew := ← j.value "drop_new" [] DropEntry.codec.list.read
    sbox1 := ← j.value "sbox1" [] WorldSBOX1.codec.list.read
    cctvSettings := ← j.value "cc_s" [] ofInt.list.list.read
    cctv := ← j.value "cctv" [] WorldCCTV.codec.list.read
    bulletin := ← j.value "bulletin" [] WorldBulletin.codec.list.read
    npc := ← j.value "npc" [] WorldNPC.codec.list.read
    machines := ← j.value "machines" [] WorldMachines.codec.list.read }

end NopyServer
