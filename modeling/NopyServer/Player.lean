/-
Players and the part of the server one player's request can touch.  A request
handler of the source works on `pInfo(peer)`, on the list of loaded worlds, on
the clock and on `rand()`; `Session` carries exactly these.  The draws of
`rand()` are an arbitrary stream, so a statement about every session is a
statement about every outcome of the draws.
-/
import NopyServer.World

namespace NopyServer

/-- An entry of the list of friends. -/
structure Friend where
  name : String := ""
  blockTrade : Bool := false
  mute : Bool := false
  lastSeen : Int := 0
deriving DecidableEq

/-- The members of `Player` that a trade is kept in.  Each entry of the source's
`trade_items` is a map with one key, here a pair. -/
structure Trading where
  tradingWith : Int := -1
  tradeItems : List (Int × Int) := []
  tradeAccept : Bool := false
  acceptTheOffer : Bool := false
  blockTrade : Bool := false
deriving DecidableEq

/-- The roles that can be given and that are shown before a name. -/
structure Roles where
  vip : Bool := false
  moderator : Bool := false
  administrator : Bool := false
  developer : Bool := false
  ownerServer : Bool := false
  cheats : Bool := false
  staff : Bool := false
  streamers : Bool := false
  donatur : Bool := false
  unlimited : Bool := false
  god : Bool := false
deriving DecidableEq

/-- The members of `Player` that a redeem code credits, gems apart. -/
structure Account where
  level : Int := 1
  gtwl : Int := 0
  springToken : Int := 0
  summerToken : Int := 0
  winterToken : Int := 0
  gp : UInt8 := 0
  glo : UInt8 := 0
  role : Roles := {}
deriving DecidableEq

/-- The members of `Player` that a task of the grow pass changes. -/
structure GrowPass where
  growpassQuests : List String := []
  growpassPoints : Int := 0
  pgBank : UInt8 := 0
  bankedPiggy : Int := 0
deriving DecidableEq

/-- The members of `Player` that the quest of a pair is kept in. -/
structure PairQuest where
  isPaired : Bool := false
  partnerName : String := ""
  questType : Int := 0
  questGoal : Int := 0
  questProgress : Int := 0
  pairCount : Int := 0
  pairCharisma : Int := 0
  dailyCount : Int := 0
deriving DecidableEq

/-- The members of `Player` that the daily rewards are kept in. -/
structure DailyLogin where
  isDay : Int := 0
  claimedDailyToday : Bool := false
  dailyLoginDay : Int := 0
  dailyStatus : List Int := List.replicate 30 0
deriving DecidableEq

/-- The members of `Player` that the quest of the kits is kept in. -/
structure Kit where
  lvlKit : Int := 0
  xpKit : Int := 0
deriving DecidableEq

/-- The members of `Player::Title` that an exchange gives. -/
structure Titles where
  doctor : Bool := false
  ofLegend : Bool := false
deriving DecidableEq

structure BackpackItem where
  itemID : Int32 := 0
  amount : Int32 := 0
deriving DecidableEq

/-- A play mod and the time at which it ends. -/
structure PlayMods where
  id : UInt16 := 0
  time : Int := 0
deriving DecidableEq

/-- The members of `Player` that the modelled functions read or write. -/
structure Player where
  netID : Int := 0
  tankIDName : String := ""
  world : String := ""
  x : Int := -1
  y : Int := -1
  state : Int := 0
  gems : Int := 0
  inv : List (Int × Int) := []
  infiniteMode : Bool := false
  autosellfish : Bool := false
  autosellfishProcessing : Bool := false
  autoConvert : Bool := false
  autoConvertProcessing : Bool := false
  autoCvModeGemsToDl : Bool := false
  autoCvModeWlToDl : Bool := false
  autoCvModeDlToBgl : Bool := false
  autoCvModeBglToGgl : Bool := false
  autoCvModeGglTo20298 : Bool := false
  wlBankAmount : Int := 0
  dlBankAmount : Int := 0
  bglBankAmount : Int := 0
  hair : UInt16 := 0
  shirt : UInt16 := 0
  pants : UInt16 := 0
  feet : UInt16 := 0
  face : UInt16 := 0
  hand : UInt16 := 0
  back : UInt16 := 0
  mask : UInt16 := 0
  necklace : UInt16 := 0
  ances : UInt16 := 0
  flagmay : Int := 256
  sprite : UInt8 := 0
  wild : UInt8 := 6
  golem : UInt8 := 6
  growAirBallon : UInt8 := 0
  growformer : UInt8 := 0
  maskDragon : UInt8 := 0
  pureShadow : Int := 0
  geiger_ : UInt8 := 0
  bI : Int := 0
  bBill : String := "0,0"
  hasConfigAccess : Bool := false
  dName : String := ""
  lastWrenched : String := ""
  lastwrenchx : Int := 0
  lastwrenchy : Int := 0
  lastwrenchb : Int := 0
  lastchoosenitem : Int := 0
  lastchoosennr : Int := 0
  guildId : Int := 0
  setGuildFg : Int := 0
  setGuildBg : Int := 0
  friends : List Friend := []
  nameColor : String := "`0"
  worldsOwned : List String := []
  backpack : List BackpackItem := []
  trading : Trading := {}
  account : Account := {}
  lastRedeem : Int := 0
  playmods : List PlayMods := []
  epicqDressup : Int := 0
  epicQuestTotal : Int := 0
  growPass : GrowPass := {}
  pair : PairQuest := {}
  opc : UInt16 := 0
  daily : DailyLogin := {}
  kit : Kit := {}
  title : Titles := {}
  magnetronId : Int := 0
  magnetronX : Int := 0
  magnetronY : Int := 0
  magicEgg : Int := 0
deriving DecidableEq

/-- A player apart from the slots and from what losing the last copy of an item
can change. -/
def Player.core (pl : Player) : Player :=
  { pl with
    inv := [], hair := 0, shirt := 0, pants := 0, feet := 0, face := 0
    hand := 0, back := 0, mask := 0, necklace := 0, ances := 0, flagmay := 0
    sprite := 0, wild := 0, golem := 0, growAirBallon := 0, growformer := 0
    maskDragon := 0, pureShadow := 0, geiger_ := 0, bI := 0, bBill := "" }

theorem Player.core_congr {α : Type} {pl next : Player}
    (hcore : next.core = pl.core) (f : Player → α)
    (hf : ∀ pl : Player, f pl.core = f pl) : f next = f pl := by
  rw [← hf next, hcore, hf pl]

/-- What the modelled code reads and never writes. -/
structure Env where
  items : Items
  /-- `exchangeSetPrice` in the order its iteration happens to give. -/
  exchangeSetPrice : List (Int × Int) := []
  /-- `world_access_bypass`, which reads the tables of role levels. -/
  worldAccessBypass : Player → Bool := fun _ => false
  /-- `is_number`, which asks `strtod` whether all of a text is a number. -/
  isNumber : String → Bool := fun str =>
    str.toList ≠ [] && str.toList.all Char.isDigit

/-- The state one request handler works on. -/
structure Session where
  pl : Player
  worlds : List World := []
  now : Int := 0
  rands : Nat → Nat := fun _ => 0

namespace Session

/-- One call of `rand()`. -/
def rand (s : Session) : Nat × Session :=
  (s.rands 0, { s with rands := fun n => s.rands (n + 1) })

@[simp]
theorem rand_pl (s : Session) : s.rand.2.pl = s.pl := rfl

@[simp]
theorem rand_worlds (s : Session) : s.rand.2.worlds = s.worlds := rfl

@[simp]
theorem rand_now (s : Session) : s.rand.2.now = s.now := rfl

end Session

end NopyServer
