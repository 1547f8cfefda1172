/-
The blocks behind the tile dialogs of `call_dialog`.  Each branch reads a
position, from two words of the message or from the last wrenched tile, and
turns it into an index into the blocks of the world.  The branches differ in
their tests and in the length of a row: most of them take it to be a hundred,
two take it to be `max_x`.

`create_world` fills a world row by row with rows of `max_x` blocks, so that the
two agree in a world of width a hundred and in the top row, and nowhere else.
-/
import NopyServer.Server
import NopyServer.WorldGenerator

namespace NopyServer

namespace TileDialogs

/-- The branches of `call_dialog` that go to a tile.  `mannequin_edit` has two
forms, told apart by the number of words. -/
inductive TileDialog where
  | dispshelf | portrait | artcanvas | mannequinPut | mannequinEdit | vipEdit
  | weatherspcl | suckerItem | itemsuckerBlock | autoactionblock | blaster
  | switcherooEdit | doorEdit | vending | displayblock | lockEdit
  | createGuildMascot
deriving DecidableEq

inductive Place where
  | message
  | lastWrench
deriving DecidableEq

inductive Row where
  | hundred
  | maxX
deriving DecidableEq

/-- How a branch goes from the position to the block. -/
structure Branch where
  names : List String
  place : Place := .message
  /-- `if (x_ < 0 or y_ < 0) break` -/
  sign : Bool := true
  /-- `if (y_ >= world_->max_y || x_ >= world_->max_x) break` -/
  bounds : Bool := true
  row : Row := .hundred
  /-- The index is compared with the number of blocks, or the access is by
  `at`, which throws. -/
  range : Bool := false

def branch : TileDialog → Branch
  | .dispshelf => { names := ["dispshelf"] }
  | .portrait => { names := ["portrait"], range := true }
  | .artcanvas => { names := ["artcanvas"], range := true }
  | .mannequinPut => { names := ["mannequin_edit"] }
  | .mannequinEdit =>
      { names := ["mannequin_edit"], sign := false, bounds := false }
  | .vipEdit =>
      { names := ["vip_edit"], sign := false, bounds := false, range := true }
  | .weatherspcl => { names := ["weatherspcl"] }
  | .suckerItem => { names := ["itemaddedtosucker", "itemremovedfromsucker"] }
  | .itemsuckerBlock =>
      { names := ["itemsucker_block"], row := .maxX, range := true }
  | .autoactionblock =>
      { names := ["autoactionblock"], row := .maxX, range := true }
  | .blaster => { names := ["blaster"] }
  | .switcherooEdit => { names := ["switcheroo_edit"] }
  | .doorEdit =>
      { names := ["door_edit"], place := .lastWrench, sign := false
        bounds := false }
  | .vending => { names := ["vending"] }
  | .displayblock => { names := ["displayblock"] }
  | .lockEdit => { names := ["lock_edit", "editguildlock"] }
  | .createGuildMascot =>
      { names := ["create_guild_mascot"], place := .lastWrench, sign := false
        bounds := false }

/-- The words at these places behind the name of the dialog start with a
digit. -/
def digitsAt (a : List String) (i : Nat) (places : List Nat) : Bool :=
  places.all fun n => isDigit (firstChar (a.getD (i + n) ""))

structure Scene where
  items : Items
  pl : Player
  world : World
  /-- The mascots of all guilds. -/
  mascots : List (Int × Int) := []

/-- A garment that a mannequin takes. -/
def mannequinTakes (items : Items) (tile : Int) : Bool :=
  decide (0 < tile) && decide (tile < items.size) &&
    (items.item tile).blockType == .clothing &&
    !(items.item tile).untradeable && (items.item tile).clothType != .ances

/-- The button `create` of a mascot that no guild has. -/
def createsMascot (scene : Scene) (a : List String) : Bool :=
  let mascot := (scene.pl.setGuildFg, scene.pl.setGuildBg)
  decide (7 ≤ a.length) && a.getD 4 "" != "select_bg" &&
    a.getD 4 "" != "select_fg" && a.getD 5 "" == "create" &&
    mascot.1 + mascot.2 != 0 && !scene.mascots.contains mascot

/-- The tests of a branch that do not look at the position. -/
def passes (scene : Scene) (a : List String) (i : Nat) : TileDialog → Bool
  | .dispshelf => [13, 14].contains a.length && digitsAt a i [2, 5]
  | .portrait => digitsAt a i [2, 5]
  | .artcanvas => digitsAt a i [2, 5]
  | .mannequinPut =>
      a.length == 14 && digitsAt a i [2, 5, 8] &&
        mannequinTakes scene.items (atoi (a.getD (i + 8) ""))
  | .mannequinEdit => a.length != 14 && digitsAt a i [2, 5]
  | .vipEdit => digitsAt a i [2, 5]
  | .weatherspcl => [13, 17, 19].contains a.length && digitsAt a i [2, 5]
  | .suckerItem => a.length == 13 && digitsAt a i [2, 5]
  | .itemsuckerBlock => [13, 16, 14].contains a.length && digitsAt a i [2, 5]
  | .autoactionblock => a.length != 4 && digitsAt a i [2, 5]
  | .blaster => a.length == 17 && digitsAt a i [2, 5, 8, 10, 12]
  | .switcherooEdit => decide (13 ≤ a.length) && digitsAt a i [2, 5]
  | .doorEdit => true
  | .vending =>
      [14, 13, 20, 17, 19, 23].contains a.length && digitsAt a i [2, 5] &&
        (a.length != 13 || digitsAt a i [8])
  | .displayblock => a.length == 11 && digitsAt a i [2, 5]
  | .lockEdit => decide (i + 5 < a.length)
  | .createGuildMascot => createsMascot scene a

def position (dialog : TileDialog) (pl : Player) (a : List String) (i : Nat) :
    Int × Int :=
  match (branch dialog).place with
  | .message => (atoi (a.getD (i + 2) ""), atoi (a.getD (i + 5) ""))
  | .lastWrench => (pl.lastwrenchx, pl.lastwrenchy)

def rowLength (world : World) : Row → Int
  | .hundred => 100
  | .maxX => world.maxX

/-- The index of the block that the branch accesses at the word `i`, if it comes
that far. -/
def access (dialog : TileDialog) (scene : Scene) (a : List String) (i : Nat) :
    Option Int :=
  let b := branch dialog
  let (x, y) := position dialog scene.pl a i
  let index := x + y * rowLength scene.world b.row
  if a.getD i "" ∉ b.names ∨ passes scene a i dialog = false then none
  else if b.sign = true ∧ (x < 0 ∨ y < 0) then none
  else if b.bounds = true ∧
      (scene.world.maxY ≤ y ∨ scene.world.maxX ≤ x) then none
  else if b.range = true ∧
      (index < 0 ∨ (scene.world.blocks.length : Int) ≤ index) then none
  else some index

/-- The branch runs, with this position. -/
structure Asks (dialog : TileDialog) (scene : Scene) (a : List String) (i : Nat)
    (x y : Int) : Prop where
  named : a.getD i "" ∈ (branch dialog).names
  passes : passes scene a i dialog = true
  position : position dialog scene.pl a i = (x, y)

structure Within (world : World) (x y : Int) : Prop where
  left : 0 ≤ x
  right : x < world.maxX
  top : 0 ≤ y
  bottom : y < world.maxY

/-- The access goes to the block that `create_world` made for the position. -/
structure RightBlock (world : World) (doorX x y : Int)
    (found : Option Int) : Prop where
  index : found = some (x + y * world.maxX)
  inRange : 0 ≤ x + y * world.maxX ∧
    x + y * world.maxX < world.blocks.length
  generated : ∃ rands, world.blocks[(x + y * world.maxX).toNat]? =
    some (sizedBlock world.maxY doorX x y rands).1

section Access

variable {dialog : TileDialog} {scene : Scene} {a : List String} {i : Nat}
  {x y : Int}

/-- A branch that is asked for a position of the world gets past all tests but
the last one. -/
theorem access_of_asks (hasks : Asks dialog scene a i x y)
    (hwithin : Within scene.world x y) :
    let index := x + y * rowLength scene.world (branch dialog).row
    access dialog scene a i =
      if (branch dialog).range = true ∧
          (index < 0 ∨ (scene.world.blocks.length : Int) ≤ index) then none
      else some index := by
  have hleft := hwithin.left
  have hright := hwithin.right
  have htop := hwithin.top
  have hbottom := hwithin.bottom
  have hsign : ¬ ((branch dialog).sign = true ∧ (x < 0 ∨ y < 0)) := by omega
  have hbounds : ¬ ((branch dialog).bounds = true ∧
      (scene.world.maxY ≤ y ∨ scene.world.maxX ≤ x)) := by omega
  have hnamed : ¬ (a.getD i "" ∉ (branch dialog).names ∨
      passes scene a i dialog = false) := by
    rintro (hname | hpasses)
    · exact hname hasks.named
    · rw [hasks.passes] at hpasses
      cases hpasses
  unfold access
  simp only [hasks.position]
  rw [if_neg hnamed, if_neg hsign, if_neg hbounds]

/-- The two lengths of a row lead to the same block in the top row and in a
world of width a hundred only. -/
theorem index_eq_iff (world : World) (row : Row) :
    x + y * rowLength world row = x + y * world.maxX ↔
      row = .maxX ∨ world.maxX = 100 ∨ y = 0 := by
  cases row with
  | maxX => simp [rowLength]
  | hundred =>
      simp only [rowLength, add_right_inj, mul_eq_mul_left_iff, reduceCtorEq,
        false_or]
      constructor
      · rintro (hwidth | hrow)
        · exact .inl hwidth.symm
        · exact .inr hrow
      · rintro (hwidth | hrow)
        · exact .inl hwidth.symm
        · exact .inr hrow

/-- In a world of `create_world`, a tile dialog that is asked for a position of
the world goes to the block of this position if and only if it counts rows of
`max_x` blocks, the world is a hundred blocks wide, or the tile is in the top
row. -/
theorem access_right_iff {width height : Int} {rands : Nat → Nat}
    {world : World}
    (hworld : scene.world = (resizeWorld width height rands world).1)
    (hwithin : Within scene.world x y) (hasks : Asks dialog scene a i x y) :
    RightBlock scene.world ((rands 0 : Int) % (scene.world.maxX - 4) + 2) x y
        (access dialog scene a i) ↔
      (branch dialog).row = .maxX ∨ scene.world.maxX = 100 ∨ y = 0 := by
  have haccess := access_of_asks hasks hwithin
  have hblock := @resizeWorld_block width height rands world x y hwithin.left
    hwithin.top (hworld ▸ hwithin.right) (hworld ▸ hwithin.bottom)
  rw [← hworld] at hblock
  obtain ⟨hrange, hgenerated⟩ := hblock
  rw [haccess, ← index_eq_iff]
  constructor
  · intro hright
    have hindex := hright.index
    split_ifs at hindex with hout
    exact Option.some.inj hindex
  · intro hsame
    rw [hsame, if_neg (by omega)]
    exact ⟨rfl, hrange, hgenerated⟩

def smallWorld : World := (resizeWorld 30 30 (fun _ => 0) {}).1

def smallScene : Scene := { items := ⟨0, fun _ => {}⟩, pl := {}, world := smallWorld }

theorem sucker_of_small_world :
    let a := dialogWords
      "dialog_name|itemsucker_block\ntilex|5|\ntiley|7|\nbuttonClicked|x\n\n\n"
    Within smallScene.world 5 7 ∧ Asks .itemsuckerBlock smallScene a 1 5 7 ∧
      RightBlock smallScene.world 2 5 7
        (access .itemsuckerBlock smallScene a 1) := by
  intro a
  have hwords : a = ["dialog_name", "itemsucker_block", "tilex", "5", "",
      "tiley", "7", "", "buttonClicked", "x", "", "", ""] := by
    decide +kernel
  have hwithin : Within smallScene.world 5 7 :=
    ⟨by decide, by decide, by decide, by decide⟩
  have hasks : Asks .itemsuckerBlock smallScene a 1 5 7 := by
    rw [hwords]
    exact ⟨by decide +kernel, by decide +kernel, by decide +kernel⟩
  exact ⟨hwithin, hasks,
    (@access_right_iff .itemsuckerBlock smallScene a 1 5 7 30 30 (fun _ => 0) {}
      rfl hwithin hasks).mpr (.inl rfl)⟩

/-- The shelf in the lower left corner of a small world is looked for two
thousand blocks behind the end, the shelf below the upper left corner ten blocks
too far to the right and two rows too low. -/
theorem shelf_outside_small_world :
    let corner := dialogWords
      "dialog_name|dispshelf\ntilex|0|\ntiley|29|\nbuttonClicked|x\n\n\n"
    let below := dialogWords
      "dialog_name|dispshelf\ntilex|0|\ntiley|1|\nbuttonClicked|x\n\n\n"
    (Within smallScene.world 0 29 ∧ Asks .dispshelf smallScene corner 1 0 29 ∧
      access .dispshelf smallScene corner 1 = some 2900 ∧
      smallScene.world.blocks.length = 900) ∧
    (Within smallScene.world 0 1 ∧ Asks .dispshelf smallScene below 1 0 1 ∧
      access .dispshelf smallScene below 1 = some 100 ∧
      0 + 1 * smallScene.world.maxX = 30) := by
  intro corner below
  have hcorner : corner = ["dialog_name", "dispshelf", "tilex", "0", "",
      "tiley", "29", "", "buttonClicked", "x", "", "", ""] := by
    decide +kernel
  have hbelow : below = ["dialog_name", "dispshelf", "tilex", "0", "",
      "tiley", "1", "", "buttonClicked", "x", "", "", ""] := by
    decide +kernel
  have hlength : smallScene.world.blocks.length = 900 := by
    obtain ⟨-, -, hlength⟩ := resizeWorld_size 30 30 (fun _ => 0) {}
    exact Int.ofNat.inj hlength
  rw [hcorner, hbelow]
  constructor
  · exact ⟨⟨by decide, by decide, by decide, by decide⟩,
      ⟨by decide +kernel, by decide +kernel, by decide +kernel⟩,
      by decide +kernel, hlength⟩
  · exact ⟨⟨by decide, by decide, by decide, by decide⟩,
      ⟨by decide +kernel, by decide +kernel, by decide +kernel⟩,
      by decide +kernel, by decide⟩

end Access

end TileDialogs

end NopyServer
