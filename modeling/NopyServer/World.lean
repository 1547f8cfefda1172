/-
Worlds, their blocks and what lies dropped in them.  The records carry the
fields that the modelled functions read or write, under the source's names and
with the source's defaults.  `int` and `long long` members are integers,
unsigned members keep their width, and the vectors that the source gives a
fixed number of entries are vectors of that length.
-/
import NopyServer.Items

namespace NopyServer

/-- `flags & bit` for the bit of weight `bit`. -/
def flagSet (flags bit : Int) : Bool := flags / bit % 2 == 1

structure Portrait where
  cSkin : UInt32 := 0
  cFace : UInt16 := 0
  cHead : UInt16 := 0
  cHair : UInt16 := 0
  cExpression : UInt32 := 1
  cHairColour : UInt32 := 0
deriving DecidableEq

structure Mannequin where
  cHead : UInt16 := 0
  cFeet : UInt16 := 0
  cMask : UInt16 := 0
  cHand : UInt16 := 0
  cBack : UInt16 := 0
  cHair : UInt16 := 0
  cNeck : UInt16 := 0
  cShirt : UInt16 := 0
  cPants : UInt16 := 0
deriving DecidableEq

/-- A phone booth wears what a mannequin does, and ances besides. -/
structure Phonebooth extends Mannequin where
  cAnces : UInt16 := 0
deriving DecidableEq

structure Donate where
  item : Int := 0
  count : Int := 0
  name : String := ""
  text : String := ""
deriving DecidableEq

structure FoodType where
  id : Int
  time : Int
deriving DecidableEq

/-- The state an epoch machine starts in. -/
def epochStart : Vector Bool 3 := #v[true, false, false]

/-- `WorldBlock`: one tile of a world. -/
structure WorldBlock where
  fg : UInt16 := 0
  bg : UInt16 := 0
  b : UInt8 := 64
  roll : UInt8 := 0
  open_ : UInt8 := 1
  fruit : UInt8 := 0
  times : UInt8 := 0
  lives : UInt8 := 0
  starttime : Int := 0
  phoneb : Phonebooth := {}
  portrait : Portrait := {}
  gravity : UInt16 := 50
  admins : List String := []
  mannequin : Mannequin := {}
  food : List FoodType := []
  spices : List Int := []
  donates : List Donate := []
  r : UInt16 := 255
  g : UInt16 := 128
  crystals : List (List Int) := []
  gateDest : Vector String 5 := Vector.replicate 5 ""
  adminBfg : List (Int × String) := []
  shelf1 : UInt16 := 0
  shelf2 : UInt16 := 0
  shelf3 : UInt16 := 0
  shelf4 : UInt16 := 0
  planted : Int := 0
  epochCycle : Int := 0
  infinityCycle : Int := 10
  battlePet : Vector UInt16 3 × String := (Vector.replicate 3 0, "")
  epochState : Vector Bool 3 × Int := (epochStart, 10)
  gateOptions : Vector (String × String) 5 := Vector.replicate 5 ("", "")
  txt : String := ""
  doorDestination : String := ""
  doorId : String := ""
  ownerName : String := ""
  heartMonitor : String := ""
  rateOfFire : Int := 10
  projectileSpeed : Int := 100
  pr : Int := 0
  wl : Int := 0
  id : Int := 0
  c_ : Int := 0
  flags : Int := 0
  lockOrigin : Int := -1
  spin : Bool := false
  invert : Bool := false
  locked : Bool := false
  buildOnly : Bool := false
  limitAdmins : Bool := false
  enabled : Bool := false
deriving DecidableEq

structure WorldMachines where
  last_ : Int := 0
  enabled : Bool := false
  buildmode : Bool := false
  id : UInt16 := 0
  x : UInt16 := 0
  y : UInt16 := 0
  targetItem : UInt16 := 0
deriving DecidableEq

structure WorldBulletin where
  x : Int := 0
  y : Int := 0
  name : String := ""
  text : String := ""
deriving DecidableEq

structure WorldCCTV where
  logs : String := ""
  x : Int := 0
  y : Int := 0
deriving DecidableEq

structure WorldSBOX1 where
  id : Int := 0
  count : Int := 0
  x : Int := 0
  y : Int := 0
deriving DecidableEq

/-- A floating-point member, kept as its bit pattern: it is stored, written
and read back, never computed with. -/
structure Real64 where
  bits : UInt64 := 0
deriving DecidableEq

structure WorldGhost where
  type : UInt8 := 255
  id : UInt8 := 255
  action : UInt8 := 255
  lastPos : Real64 × Real64 := ({}, {})
  newPos : Real64 × Real64 := ({}, {})
  speed : Real64 := {}
  isCaught : UInt32 := 0
  state : UInt32 := 0
  distance : Real64 := {}
  time : Real64 := {}
  visualPos : Real64 × Real64 := ({}, {})
  maxTime : Real64 := {}
deriving DecidableEq

structure WorldNPC where
  uid : Int := 0
  kryptis : Real64 := {}
  enabled : Bool := false
  last_ : Int := 0
  startedMoving : Int := 0
  id : UInt16 := 0
  x : UInt16 := 0
  y : UInt16 := 0
  rateOfFire : UInt16 := 10
  projectileSpeed : UInt16 := 100
deriving DecidableEq

/-- One entry of `drop_new`: the source keeps `id, count, uid, x, y` at
positions `0 .. 4` and, in entries made since, the drop time at position `5`. -/
structure DropEntry where
  id : Int
  count : Int
  uid : Int
  x : Int
  y : Int
  time : Option Int
deriving Repr, DecidableEq

/-- The members of `WorldDrop` that describe a drop to be made. -/
structure WorldDrop where
  id : Int := 0
  count : Int := 0
  x : Int := 0
  y : Int := 0
deriving Repr, DecidableEq

/-- `World`. -/
structure World where
  name : String := ""
  ownerName : String := ""
  ownerNamed : String := ""
  nukedBy : String := ""
  category : String := ""
  worldMusic : String := ""
  worldLocked : Bool := false
  cycleKe : Int := 0
  b : UInt8 := 64
  r : UInt16 := 255
  g : UInt16 := 128
  ghosts : List WorldGhost := []
  hasEctolock : Bool := false
  lastGhostSpawn : Int := 0
  infinity : List Int := []
  npc : List WorldNPC := []
  cctv : List WorldCCTV := []
  sbox1 : List WorldSBOX1 := []
  s4tb : Int × Int := (0, 0)
  blocks : List WorldBlock := []
  admins : List String := []
  whitelist : List String := []
  bulletin : List WorldBulletin := []
  machines : List WorldMachines := []
  weather : UInt8 := 0
  dWeather : UInt8 := 0
  dropNew : List DropEntry := []
  cctvSettings : List (List Int) := []
  activeJammers : List Int := []
  freshWorld : Bool := false
  lastLock : Int := 0
  totalDropUid : Int := 0
  guildId : Int := 0
  xenonite : Int := 0
  worldSettings : Int := 0
  totalFires : Int := 0
  musicBpm : Int := 100
  entryLevel : Int := 1
  worldTime : Int := 0
  maxX : Int := 0
  maxY : Int := 0
  gems : Int := 1
  gemsLvl : Int := 0
deriving DecidableEq

end NopyServer
