/-
The item table of the server.  The table itself is loaded from the item data
files at start-up, so it is a parameter of the development: a size and a
record for every index.  A read beyond the table is left open.
-/
import Mathlib.Tactic.Common

namespace NopyServer

/-- `ClothTypes` of the item definitions. -/
inductive ClothTypes where
  | hair | shirt | pants | feet | face | hand | back | mask | necklace | ances
  | none
deriving Repr, DecidableEq

/-- `BlockTypes` of the item definitions. -/
inductive BlockTypes where
  | foreground | background | consumable | seed | displayShelf | painBlock
  | bedrock | vipEntrance | heartMonitor | paintingEasel | mainDoor | sign
  | door | clothing | fist | wrench | checkpoint | lock | lockBot | gateway
  | treasure | weather | trampoline | mannequin | toggleForeground
  | chemicalCombiner | switchBlock | sfxForeground | randomBlock
  | spiritStorage | portal | platform | fishMount | mailbox | givingTree
  | magicEgg | crystal | gems | deadly | chest | faction | bulletinBoard
  | bouncy | animForeground | component | sucker | fish | fishTank
  | battleCage | steam | groundBlock | portrait | display | storage | vending
  | donation | phone | sewingMachine | crimeVillain | provider | adventure
  | cctv | storageBox | timer | itemSucker | trickster | kranken | fossil
  | geigerCharger | countryFlag | autoBlock | gameBlock | gameGenerator | oven
  | petTrainer | achievementBlock | unknown
deriving Repr, DecidableEq

/-- The fields of `ItemDB` that the modelled functions read. -/
structure ItemDB where
  name : String := ""
  oriName : String := ""
  blockType : BlockTypes := .foreground
  clothType : ClothTypes := .hair
  clothingType : Int := 0
  collisionType : Int := 0
  toggleable : Bool := false
  properties : Int := 0
  untradeable : Bool := false
  blockedPlace : Bool := false
  flagmay : Int := 256
  fossilRock : Int := 0
  rarity : Int := 0
  growTime : Int := 0
  boxSize : UInt8 := 0
  onRemove : String := ""
deriving Repr, DecidableEq

/-- The global `items`. -/
structure Items where
  size : Nat
  item : Int → ItemDB

/-- `items[id].blockType == BlockTypes::FISH`. -/
def Items.isFish (items : Items) (id : Int) : Bool :=
  (items.item id).blockType == .fish

/-- What the item data says of the five lock items: they are in the table and
none of them is a fish. -/
structure Items.LocksListed (items : Items) : Prop where
  listed : 20298 ≤ items.size
  notFish : ∀ id ∈ [(242 : Int), 1796, 7188, 8470, 20298],
    items.isFish id = false

end NopyServer
