/-
What a block looks like to the players: `form_visual` writes it behind the header of a
packet, at fixed places and behind the texts of the block.  The packets of a single
block have room for `alloc_` bytes beyond a second header.

A store through a cast of the pointer is a poke of as many bytes as the type has.  The
cursor is moved only where `case_` is set, by a number of its own.
-/
import NopyServer.Guilds
import NopyServer.Lib.CursorBuffer

namespace NopyServer

namespace FormVisual

open CursorBuffer

section Stores

/-- The lowest bytes of a number, the lowest first. -/
def intBytes (width : Nat) (n : Int) : List UInt8 :=
  (List.range width).map fun k => UInt8.ofNat (n / 256 ^ k % 256).toNat

@[simp] theorem length_intBytes (width : Nat) (n : Int) : (intBytes width n).length = width := by
  simp [intBytes]

def textBytes (text : String) : List UInt8 :=
  text.toList.map fun c => UInt8.ofNat c.toNat

@[simp] theorem length_textBytes (text : String) : (textBytes text).length = text.length := by
  simp [textBytes, String.length_toList]

def int8 (place : Nat) (n : Int) : Poke UInt8 := ⟨place, intBytes 1 n⟩

def int16 (place : Nat) (n : Int) : Poke UInt8 := ⟨place, intBytes 2 n⟩

def int32 (place : Nat) (n : Int) : Poke UInt8 := ⟨place, intBytes 4 n⟩

def copy (place : Nat) (text : String) : Poke UInt8 := ⟨place, textBytes text⟩

/-- The pokes, and how far the cursor is moved where `case_` is set. -/
structure Visual where
  pokes : List (Poke UInt8) := []
  moved : Nat := 0

end Stores

section Data

/-- The item table with the members that only packets ask for. -/
structure VisualItems extends Items where
  audioRack : UInt16 → Bool
  simpleLoad : UInt16 → Bool

/-- A block with the members that only packets show. -/
structure VisualBlock extends WorldBlock where
  krankenPattern : UInt8 := 0
  gameTeams : Int := 0

def VisualItems.blockType (items : VisualItems) (fg : UInt16) : BlockTypes :=
  (items.item fg.toNat).blockType

/-- `name_to_number`. -/
def nameToNumber (str : String) : UInt32 :=
  (textBytes str).foldl (fun hash value => (hash ^^^ value.toUInt32) * 0x1000193) 0x811c9dc5 / 100

/-- `a | b` of two 32-bit numbers. -/
def orBits (a b : Int) : Int := (UInt32.ofInt a ||| UInt32.ofInt b).toNat

/-- The colors of a block in the three upper bytes. -/
def rgb (block : WorldBlock) : Int :=
  (block.b.toUInt32 <<< 24 ||| block.g.toUInt32 <<< 16 ||| block.r.toUInt32 <<< 8).toNat

/-- The numbers for which `get_cook_id` and `get_cook_offset` give the two bytes of the
number itself. -/
def plainFoods : List Int :=
  [4610, 4766, 6314, 7054, 4670, 712, 4572, 7014, 3472, 4602, 8392, 8394, 8396, 4568, 8398,
   614, 4666, 5416, 4984, 7000, 7004, 8252, 4410, 8384, 6958, 8064, 4672, 676, 4450, 978,
   5376, 4560, 664, 4564, 6974, 196, 874, 4562, 6990, 7462, 1198, 3836, 4624, 956, 3622,
   4580, 4674, 4570]

/-- The other foods, with their two bytes. -/
def mixedFoods : List (Int × Int × Int) :=
  [(4586, 234, 17), (4588, 236, 17), (4764, 156, 18), (3428, 100, 13), (868, 100, 3),
   (822, 54, 3), (962, 194, 3), (540, 28, 2), (3468, 140, 13), (4578, 226, 17)]

/-- `get_cook_id`. -/
def getCookId (food : Int) : Int :=
  match mixedFoods.lookup food with
  | some bytes => bytes.1
  | none => if food ∈ plainFoods then food % 256 else 0

/-- `get_cook_offset`. -/
def getCookOffset (food : Int) : Int :=
  match mixedFoods.lookup food with
  | some bytes => bytes.2
  | none => if food ∈ plainFoods then food / 256 else 0

end Data

section Branches

variable (items : VisualItems) (guilds : List Guild) (players : List Player) (now : Int)
  (world : World) (block : VisualBlock)

/-- An audio rack. -/
def audioRack : Visual where
  pokes :=
    [int8 8 56, int16 9 block.txt.length, copy 11 block.txt,
     int16 (11 + block.txt.length) block.pr]
  moved := 7 + block.txt.length

/-- The block 6954. -/
def autoBreak : Visual where
  pokes :=
    [int8 8 71, int8 9 (if 0 < block.pr then 1 else 0), int16 13 block.pr,
     int16 17 (block.id + if block.buildOnly then 0 else -1),
     int16 25 (block.id + if block.invert then 0 else -1),
     int8 31 (if block.enabled then 0 else 1)]
  moved := 13

/-- The place, the gravity and the spin of a weather machine. -/
def weatherItem (id : Int) : List (Poke UInt8) :=
  [int8 8 49, int16 9 id, int16 13 block.gravity.toNat,
   int8 17 ((if block.spin then 1 else 0) + if block.invert then 2 else 0)]

/-- The members of a guild are passed through; the first one ends the function where
`case_` is set. -/
def guildWeather (case_ : Bool) (peer : Option Player) (mascot : Int) :
    Int → List GuildMember → List (Poke UInt8)
  | _, [] => []
  | newId, member :: members =>
      let named := peer.any fun pl => iequals member.memberName pl.tankIDName
      let newId := if named then (if mascot = 0 then 5814 else mascot) else newId
      weatherItem block (if block.id ≠ 0 then block.id else newId) ++
        if case_ then [] else guildWeather case_ peer mascot newId members

def weather (case_ : Bool) (peer : Option Player) : Visual :=
  if block.fg = 3694 ∨ block.fg = 5000 then {
    pokes := [int8 8 40, int32 9
      (if block.fg = 3694 then rgb block.toWorldBlock
        else if block.id ≠ 0 then block.id else 14)]
    moved := 5 }
  else if block.fg = 5958 then { pokes := [int8 8 0x31], moved := 10 }
  else if block.fg = 3832 then {
    pokes := weatherItem block (if block.id ≠ 0 then block.id else 2)
    moved := 10 }
  else if block.fg = 6280 then
    if world.guildId = 0 then {}
    else
      match findGuild guilds world.guildId with
      | none => {}
      | some guild => {
          pokes := guildWeather block case_ peer (guild.guildMascot.getD 0 0).toNat 0
            guild.guildMembers
          moved := if guild.guildMembers = [] then 0 else 10 }
  else { pokes := [int8 8 5], moved := 1 }

def fishMount : Visual :=
  let text := block.txt ++ "`w"
  { pokes :=
      [int8 8 47, int16 9 text.length, int16 (11 + text.length) block.id,
       int16 (15 + text.length) block.c_, copy 11 text]
    moved := 8 + text.length }

/-- One food in an oven. -/
def foodPokes (i : Nat) (food : FoodType) : List (Poke UInt8) :=
  let id1 := 17 + i * 8
  [int32 id1 (getCookId food.id), int8 (id1 + 1) (getCookOffset food.id),
   int16 (id1 + 4) (block.pr * (now - food.time))]

/-- The bytes that the loops of an oven take the start time apart into; the last one
keeps what is left. -/
def startBytes : List Int :=
  let time := if block.c_ = 1 then block.starttime else 0
  if time < 0 then [time, 0, 0, 0]
  else [time % 256, time / 256 % 256, time / 256 / 256 % 256, time / 256 / 256 / 256]

def oven : Visual :=
  let first := [int8 8 55, int8 9 block.pr, int8 13 (block.food.length * 2)]
  if block.food = [] then { pokes := first, moved := 13 }
  else
    let last := 17 + (block.food.length - 1) * 8 + 4
    { pokes := first ++ (block.food.mapIdx (foodPokes now block)).flatten ++
        (startBytes block).mapIdx fun k byte => int32 (last + 8 + k) byte
      moved := last + 16 }

def autoBlock : Visual where
  pokes :=
    [int8 8 (if block.fg = 6950 then 70 else 69), int8 9 (if 0 < block.pr then 1 else 0),
     int16 13 block.pr, int16 17 block.id, int8 21 (if block.enabled then 1 else 0)]
  moved := 13

/-- The fishes in the text of a tank, a number and a weight each, up to five; a number
-1 leaves its place open.  `none` where `stoi` throws. -/
def tankFishes : List String → List (Int × Int) → Option (List (Int × Int))
  | [], fishes => some fishes
  | word :: words, fishes =>
      let xd := explode "|" word
      let place := fishes.findIdx fun fish => fish.1 == -1
      if word = "" ∨ xd.length < 2 ∨ 5 ≤ place then tankFishes words fishes
      else do
        let fish ← stoi (xd.getD 0 "")
        let lb ← stoi (xd.getD 1 "")
        tankFishes words (fishes.set place (fish, lb))

/-- A number of a fish in two bytes and its weight. -/
def fishPokes (place : Nat) (fish : Int × Int) : List (Poke UInt8) :=
  let low := if fish.1 < 256 then fish.1 else fish.1 % 256
  let high := if fish.1 < 256 then 0 else fish.1 / 256
  [int8 place low, int8 (place + 1) high, int8 (place + 4) fish.2]

def fishTank : Visual :=
  let pokes :=
    if block.txt = "" then [int8 8 25]
    else
      match tankFishes (explode "," block.txt) (List.replicate 5 (-1, 0)) with
      | none => []
      | some fishes =>
          -- the first fish is split before -1 is replaced by zero
          let shown := fishes.map fun fish => (if fish.1 = -1 then 0 else fish.1, fish.2)
          let open_ := fishes.countP fun fish => fish.1 == -1
          [int8 8 25, int8 9 block.pr, int8 10 (10 - 2 * open_)] ++
            fishPokes 14 (fishes.getD 0 (0, 0)) ++
            (((shown.drop 1).zip [22, 30, 38, 46]).map fun entry =>
              if entry.1.1 = 0 then [] else fishPokes entry.2 entry.1).flatten
  { pokes := pokes, moved := 13 }

def countryFlag : Visual where
  pokes :=
    [int8 8 0x21, int16 9 block.heartMonitor.length, copy 11 block.heartMonitor]
  moved := 11 + block.heartMonitor.length

/-- The time that is left of a period. -/
def left (period : Int) : Int :=
  if block.planted - now ≤ 0 then period else period - (block.planted - now)

def crimeVillain : Visual where
  pokes := [int8 8 14, int16 9 block.txt.length, copy 11 block.txt]
  moved := 26 + block.txt.length

def paintingEasel : Visual where
  pokes :=
    [int8 8 35, int16 9 block.id, int16 13 block.txt.length, copy 15 block.txt]
  moved := 7 + block.txt.length

/-- No looks are set in a portrait. -/
def faceless : Bool :=
  block.portrait.cSkin == 0 && block.portrait.cFace == 0 && block.portrait.cHead == 0 &&
    block.portrait.cHair == 0

def portrait : Visual :=
  let n := block.txt.length
  { pokes :=
      [int8 8 48, int16 9 n, copy 11 block.txt, int16 17 block.shelf3.toNat,
       int16 21 block.shelf4.toNat] ++
        if faceless block then []
        else
          [int16 (11 + n) block.portrait.cExpression.toNat,
           int16 (19 + n) block.portrait.cHairColour.toNat,
           int16 (23 + n) block.portrait.cSkin.toNat,
           int16 (27 + n) block.portrait.cFace.toNat,
           int16 (29 + n) block.portrait.cHead.toNat,
           int16 (31 + n) block.portrait.cHair.toNat]
    moved := 7 + 15 + 3 + n }

def mannequin : Visual :=
  let n := block.txt.length
  { pokes :=
      [int8 8 14, int16 9 n, copy 11 block.txt,
       int16 (16 + n) block.mannequin.cHair.toNat,
       int16 (18 + n) block.mannequin.cShirt.toNat,
       int16 (20 + n) block.mannequin.cPants.toNat,
       int16 (22 + n) block.mannequin.cFeet.toNat,
       int16 (24 + n) block.mannequin.cHead.toNat,
       int16 (26 + n) block.mannequin.cHand.toNat,
       int16 (28 + n) block.mannequin.cBack.toNat,
       int16 (30 + n) block.mannequin.cMask.toNat,
       int16 (32 + n) block.mannequin.cNeck.toNat]
    moved := 26 + n }

/-- The limits of the suckers. -/
def suckerLimit : Option Int :=
  if block.fg = 5930 then some 1000000
  else if block.fg = 5638 then some 25000
  else if block.fg = 9850 then some 50000
  else if block.fg = 10266 then some 500000
  else if block.fg = 21220 then some 2000000000
  else none

def sucker : Visual where
  pokes :=
    [int8 8 62, int16 9 block.id, int16 13 block.pr,
     int8 17 (if block.enabled then 1 else 0)] ++
      match suckerLimit block with
      | some limit => [int16 18 (if block.spin then 1 else 0), int16 20 limit]
      | none => [int16 21 1500]
  moved := 15

def heartMonitor : Visual where
  pokes :=
    [int8 8 11, int16 9 (-1), int32 4 (orBits block.flags 0x00400000),
     int16 13 block.heartMonitor.length, copy 15 block.heartMonitor]
  moved := 7 + block.heartMonitor.length

/-- Whom a VIP entrance lets in. -/
def vipMembers (peer : Option Player) : List UInt32 :=
  let number := fun name : String => nameToNumber (toLower name)
  if block.limitAdmins then
    (players.filter fun pl => pl.world == world.name).map fun pl => number pl.tankIDName
  else
    (match peer with
      | some pl =>
          if iequals pl.tankIDName world.ownerName || pl.account.role.developer then
            [number pl.tankIDName]
          else []
      | none => []) ++
    if block.fg = 14594 then block.adminBfg.map fun entry => number entry.2
    else block.admins.map number

def vipEntrance (peer : Option Player) : Visual :=
  let members := vipMembers players world block peer
  { pokes :=
      [int8 8 44, int16 14 members.length] ++
        members.mapIdx fun i number => int32 (18 + i * 4) number.toNat
    moved := 10 + members.length * 4 }

def displayShelf : Visual where
  pokes :=
    [int8 8 43, int16 9 block.shelf1.toNat, int16 13 block.shelf2.toNat,
     int16 17 block.shelf3.toNat, int16 21 block.shelf4.toNat]
  moved := 17

def crystal : Visual where
  pokes :=
    [int8 8 20, int8 9 0, copy 11 "", int16 17 block.id,
     int8 21 (if block.enabled then 1 else 0)]
  moved := 3

def givingTree : Visual where
  pokes :=
    [⟨8, List.replicate 7 0⟩, int16 0 block.fg.toNat, int32 4 block.flags, int8 8 0x1C,
     int8 9 0, int32 10 (left now block 14400), int8 14 block.shelf1.toNat]
  moved := 7

/-- A machine that has sold out. -/
def soldOut : Bool :=
  (block.fg == 15230 && 0 < block.pr && block.id != 0 && block.c_ < block.pr) ||
    (block.pr < 0 && block.id != 0 && block.c_ < -block.pr)

def vending : Visual :=
  let full := if block.wl ≠ 0 then 0x02410000 else 0x00410000
  { pokes :=
      [int32 9 (if soldOut block then 0 else block.id), int8 8 24,
       int32 4 (orBits block.flags
         (if soldOut block then full
          else if block.id = 0 then (if block.wl ≠ 0 then 0x02000000 else 0)
          else full)),
       int32 13 (if soldOut block then 0 else block.pr)]
    moved := 9 }

/-- The time since something was planted, up to the time it takes to grow. -/
def grown : Int :=
  let growTime := (items.item block.fg.toNat).growTime
  if now - block.planted ≤ growTime then now - block.planted else growTime

/-- The locks that have admins of their own. -/
def smallLock (fg : UInt16) : Bool :=
  [202, 204, 206, 4994, 10000].contains fg

/-- The admins that `alloc_` counts and `form_visual` writes for a lock. -/
def lockAdmins : List String :=
  if smallLock block.fg then block.admins else world.admins

/-- The settings of a world in the byte of a lock. -/
def lockSettings : Int :=
  let settings : UInt8 :=
    if flagSet world.worldSettings 32 then
      if flagSet world.worldSettings 64 then UInt8.ofNat 12345 else UInt8.ofNat 1234
    else if flagSet world.worldSettings 64 then 100 else 0
  let settings :=
    if flagSet world.worldSettings 128 && block.fg == 4802 then settings + 128 else settings
  let settings := if block.buildOnly && block.fg == 4994 then settings ||| 64 else settings
  settings.toNat

/-- The first admin stands at 22, the others leave one place open. -/
def adminPoke (i : Nat) (name : String) : Poke UInt8 :=
  int32 (if i = 0 then 22 else 22 + (i + 1) * 4) (nameToNumber (toLower name)).toNat

/-- The mascot of a guild behind the admins. -/
def mascotPokes (case_ : Bool) (count : Nat) (guild : Guild) : List (Poke UInt8) :=
  let place :=
    if case_ then (if count = 1 then 22 else 22 + (count - 1) * 4) + 4 else 30 + count * 4
  [int16 place (guild.guildMascot.getD 0 0).toNat,
   int16 (place + 2) (guild.guildMascot.getD 1 0).toNat,
   int16 (place + 4) guild.guildLevel.toNat,
   int8 (place + 8) (if guild.unlockedMascot then 1 else 0)]

def lock (case_ : Bool) : Visual :=
  let owner := if smallLock block.fg then block.ownerName else world.ownerName
  let admins := lockAdmins world block
  let count := admins.length + 1
  let pokes :=
    (if block.spin then [int32 4 0x00800000] else []) ++
      [int8 8 3, int8 9 (lockSettings world block),
       int32 10 (nameToNumber (toLower owner)).toNat, int32 18 (-world.musicBpm)] ++
      admins.mapIdx adminPoke ++ [int32 14 count]
  if block.fg = 5814 ∧ world.guildId ≠ 0 then
    match findGuild guilds world.guildId with
    | some guild =>
        { pokes := pokes ++ mascotPokes case_ count guild, moved := 26 + count * 4 }
    | none => { pokes := pokes }
  else { pokes := pokes, moved := 10 + count * 4 }

def battleCage : Visual :=
  let text := block.battlePet.2
  { pokes :=
      [int8 8 0x24, int16 9 text.length, copy 11 text,
       int32 (11 + text.length) (block.battlePet.1[0]).toNat]
    moved := 15 + text.length }

/-- What a door says. -/
def doorText : String :=
  if block.txt = "" then
    if block.doorDestination = "" then ""
    else if textFind block.doorDestination ":" then
      (explode ":" block.doorDestination).getD 0 "" ++ "..."
    else block.doorDestination
  else block.txt

def door (peer : Option Player) : Visual :=
  let text := doorText block
  let isOpen := block.open_ != 0 || peer.any fun pl => pl.account.role.developer
  { pokes :=
      [int8 8 1, int16 9 text.length, copy 11 text,
       int8 (11 + text.length) (if isOpen then 0 else 8)]
    moved := 4 + text.length }

def sign : Visual where
  pokes :=
    [int8 8 2, int32 9 block.txt.length, copy 11 block.txt,
     int16 (11 + block.txt.length) 0]
  moved := 7 + block.txt.length

/-- The switch over the types of blocks. -/
def typed (case_ : Bool) (peer : Option Player) : Visual :=
  match items.blockType block.fg with
  | .gameBlock => { pokes := [int8 8 0x10, int16 9 block.gameTeams], moved := 2 }
  | .achievementBlock =>
      if block.enabled then { pokes := [int8 8 0x10, int16 9 block.pr], moved := 2 }
      else { pokes := [int8 8 63], moved := 13 }
  | .gameGenerator => weather guilds world block case_ peer
  | .weather => weather guilds world block case_ peer
  | .fishMount => fishMount block
  | .oven => oven now block
  | .autoBlock => autoBlock block
  | .fishTank => fishTank block
  | .fish => { pokes := [int8 8 63], moved := 13 }
  | .countryFlag => countryFlag block
  | .geigerCharger => {
      pokes := [int32 4 block.flags, int8 8 57, int32 9 (left now block 3600)]
      moved := 5 }
  | .spiritStorage => { pokes := [int8 8 41, int16 9 block.c_], moved := 5 }
  | .magicEgg => { pokes := [int8 8 15, int16 9 block.shelf1.toNat], moved := 5 }
  | .crimeVillain => crimeVillain block
  | .paintingEasel => paintingEasel block
  | .portrait => portrait block
  | .mannequin => mannequin block
  | .kranken => {
      pokes := [int8 8 0x50, int32 9 block.krankenPattern.toNat,
        int32 13 (rgb block.toWorldBlock + 255)]
      moved := 9 }
  | .sucker => sucker block
  | .heartMonitor => heartMonitor block
  | .trickster => { pokes := [int8 8 52], moved := 1 }
  | .vipEntrance => vipEntrance players world block peer
  | .timer => { pokes := [int8 8 45], moved := 1 }
  | .displayShelf => displayShelf block
  | .crystal => crystal block
  | .givingTree => givingTree now block
  | .vending => vending block
  | .display => { pokes := [int8 8 23, int16 9 block.id], moved := 5 }
  | .provider => { pokes := [int8 8 9, int32 9 (grown items now block)], moved := 5 }
  | .randomBlock => { pokes := [int8 8 8, int16 9 block.roll.toNat], moved := 2 }
  | .lock => lock guilds world block case_
  | .mainDoor => { pokes := [int8 8 1, int16 9 4, copy 11 "TRAVEL DOOR"], moved := 8 }
  | .seed => {
      pokes := [int32 4 (orBits block.flags 0x100000), int8 8 4,
        int32 9 (grown items now block), int16 13 block.fruit.toNat]
      moved := 6 }
  | .donation | .mailbox =>
      { pokes := [int32 4 block.flags, int8 8 12], moved := 8 }
  | .fossil => { pokes := [int32 4 block.flags, int8 8 12] }
  | .battleCage => battleCage block
  | .door | .portal => door block peer
  | .sign => sign block
  | _ => {}

/-- `form_visual`. -/
def formVisual (case_ : Bool) (peer : Option Player) : Visual :=
  let header :=
    if case_ then []
    else [int16 0 block.fg.toNat, int16 2 block.bg.toNat, int32 4 block.flags]
  let visual :=
    if items.audioRack block.fg then audioRack block
    else if items.simpleLoad block.fg then { pokes := [int8 8 6], moved := 8 }
    else if block.fg = 6954 then autoBreak block
    else typed items guilds players now world block case_ peer
  { pokes := header ++ visual.pokes, moved := if case_ then visual.moved else 0 }

/-- `alloc_`. -/
def alloc : Nat :=
  match items.blockType block.fg with
  | .seed => 0
  | .vipEntrance =>
      if block.fg = 14594 then block.adminBfg.length * 4 + 99 else block.admins.length * 4 + 99
  | .lock => (lockAdmins world block).length * 4 + 99
  | _ => 99

/-- What `tile_update` puts behind the header; `none` where a byte is stored outside. -/
def tileUpdate (peer : Player) : Option (List UInt8) :=
  pokeAll (formVisual items guilds players now world block false (some peer)).pokes
    (List.replicate (56 + alloc items world block) 0)

/-- `update_block`: each player of the world is sent the same buffer, written over for
every one of them. -/
def updateBlock : Option (List (List UInt8)) :=
  ((players.filter fun pl => pl.world == world.name).foldlM
    (fun (state : List UInt8 × List (List UInt8)) pl =>
      (pokeAll (formVisual items guilds players now world block false (some pl)).pokes
        state.1).map fun buffer => (buffer, state.2 ++ [buffer]))
    (List.replicate (56 + alloc items world block) 0, [])).map Prod.snd

end Branches

end FormVisual

end NopyServer
