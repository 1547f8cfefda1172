/-
Dropping an item into a world: `VisualHandle::Drop` and the clean-up
`AutoClearOldWorldDrops` that follows every new entry.

An ordinary item tops up the first stack of its kind lying nearby and lays the
rest down as a new entry.  Gems (item 112) are changed: when the gems nearby
and the dropped ones together reach a further coin, the dropped count is
overwritten by that coin and the stacks it replaces are erased, by an index
loop that steps over the entry following each one it erases.  Counts and
positions are `int`s, and sums of them wrap.
-/
import NopyServer.Lib.SlotPack
import NopyServer.Player
import NopyServer.Text

namespace NopyServer

open SlotPack

/-- The id normalisation at the head of `VisualHandle::Drop`. -/
def normalizeDropId (id : Int) : Int :=
  if id ∈ [(745 : Int), 747, 749] then 743
  else if id ∈ [(629 : Int), 631, 633, 635, 637, 639, 641, 643, 645, 647, 649]
    then 627
  else id

/-- Both coordinates of an entry within `range` of the drop. -/
def DropEntry.near (entry : DropEntry) (drop : WorldDrop) (range : Int) :
    Bool :=
  |int32 (entry.y - drop.y)| ≤ range && |int32 (entry.x - drop.x)| ≤ range

/-- The entries the gem branch looks at. -/
def DropEntry.gemNear (entry : DropEntry) (drop : WorldDrop) : Bool :=
  entry.near drop 17 && entry.id == 112

/-- How an amount of gems splits into coins. -/
structure GemParts where
  thousand : Int
  purple : Int
  green : Int
  red : Int
  blue : Int
deriving Repr, DecidableEq

/-- The split computed twice by the gem branch; the number of single gems is
computed there too and never used. -/
def gemParts (c : Int) : GemParts :=
  let thousand := if 1000 ≤ c then c / 1000 else 0
  let rest := c - thousand * 1000
  let purple := if 100 ≤ rest then rest / 100 else 0
  let rest := c - (thousand * 1000 + purple * 100)
  let green := if 50 ≤ rest then rest / 50 else 0
  let rest := c - (thousand * 1000 + purple * 100) - green * 50
  let red := if 10 ≤ rest then rest / 10 else 0
  let rest := c - green * 50 - (thousand * 1000 + purple * 100) - red * 10
  let blue := if 5 ≤ rest then rest / 5 else 0
  ⟨thousand, purple, green, red, blue⟩

/-- The coin tests in order: each one that fires overwrites the drop and lists
the denomination to be erased. -/
def updateGem (before after : GemParts) (drop : WorldDrop) :
    List Int × WorldDrop :=
  let (gems, drop) :=
    if before.blue < after.blue ∨ after.blue = 0 ∧ before.blue ≠ 0 then
      ([1], { drop with count := 5 })
    else ([], drop)
  let (gems, drop) :=
    if before.red < after.red ∨ after.red = 0 ∧ before.red ≠ 0 then
      (gems ++ [5], { drop with count := 10 })
    else (gems, drop)
  let (gems, drop) :=
    if before.green < after.green ∨ after.green = 0 ∧ before.green ≠ 0 then
      (gems ++ [10], { drop with count := 50 })
    else (gems, drop)
  let (gems, drop) :=
    if before.purple < after.purple then
      (gems ++ [50], { drop with count := 100 })
    else (gems, drop)
  if before.thousand < after.thousand then
    (gems ++ [100], { drop with id := 4490, count := 1 })
  else (gems, drop)

/-- One pass of the erasing loop for one denomination.  An erase moves the next
entry into the erased place and the loop then steps its index past it: `past`
says that the entry at hand is stepped over in this way. -/
def eraseGems (drop : WorldDrop) (gem : Int) :
    Bool → List DropEntry → List DropEntry
  | _, [] => []
  | true, entry :: rest => entry :: eraseGems drop gem false rest
  | false, entry :: rest =>
      if entry.gemNear drop ∧ entry.count = gem then
        eraseGems drop gem true rest
      else entry :: eraseGems drop gem false rest

/-- The gems lying near the drop. -/
def nearGems (drop : WorldDrop) (entries : List DropEntry) : Int :=
  int32 ((entries.filter fun entry => entry.gemNear drop).map DropEntry.count).sum

/-- The gem branch of `VisualHandle::Drop`. -/
def dropGems (entries : List DropEntry) (drop : WorldDrop) :
    List DropEntry × WorldDrop :=
  let c := nearGems drop entries
  if c = 0 then (entries, drop)
  else
    let (gems, coin) :=
      updateGem (gemParts c) (gemParts (int32 (c + drop.count))) drop
    (gems.foldl (fun left gem => eraseGems drop gem false left) entries, coin)

/-- A stack and a dropped count together.  The count is not negative, so that the
sum can pass the upper end of `int` only. -/
def stackSum (held count : Int) : Int :=
  if held + count < 2 ^ 31 then held + count else held + count - 2 ^ 32

/-- The merging loop for every other item: the first nearby stack of the item
with room takes what it can.  The second component is the count left. -/
def mergeDrop (drop : WorldDrop) : List DropEntry → List DropEntry × Int
  | [] => ([], drop.count)
  | entry :: rest =>
      if entry.id ≠ 0 ∧ entry.near drop 16 ∧ entry.id = drop.id ∧
          entry.count < 200 ∧
          (drop.count > 200 - entry.count ∨ stackSum entry.count drop.count ≤ 200) then
        if stackSum entry.count drop.count ≤ 200 then
          ({ entry with count := stackSum entry.count drop.count } :: rest, 0)
        else
          ({ entry with count := 200 } :: rest,
            drop.count - (200 - entry.count))
      else
        let merged := mergeDrop drop rest
        (entry :: merged.1, merged.2)

/-- Whether the sixty-day clean-up removes an entry. -/
def DropEntry.expired (now : Int) (entry : DropEntry) : Bool :=
  match entry.time with
  | none => false
  | some t => 0 < t && 60 * 86400 ≤ now - t

/-- `AutoClearOldWorldDrops`: expired entries go, then the oldest beyond five
hundred. -/
def autoClearOldWorldDrops (now : Int) (entries : List DropEntry) : List DropEntry :=
  let kept := entries.filter fun entry => !entry.expired now
  kept.drop (kept.length - 500)

/-- The last part of `VisualHandle::Drop`: what is left becomes a new entry
under the next uid.  Returns the entries and the last uid given out. -/
def pushDrop (now : Int) (drop : WorldDrop) (entries : List DropEntry)
    (totalDropUid : Int) : List DropEntry × Int :=
  if drop.count = 0 then (entries, totalDropUid)
  else
    (autoClearOldWorldDrops now (entries ++
      [⟨drop.id, drop.count, totalDropUid + 1, drop.x, drop.y, some now⟩]),
      totalDropUid + 1)

/-- Merging and laying down, the part of `VisualHandle::Drop` after the gem
branch. -/
def layDrop (items : Items) (now : Int) (drop : WorldDrop)
    (entries : List DropEntry) (totalDropUid : Int) : List DropEntry × Int :=
  if drop.id ≠ 112 ∧ items.isFish drop.id = false then
    let merged := mergeDrop drop entries
    pushDrop now { drop with count := merged.2 } merged.1 totalDropUid
  else pushDrop now drop entries totalDropUid

/-- `VisualHandle::Drop`. -/
def visualDrop (items : Items) (now : Int) (world : World) (drop : WorldDrop) :
    World :=
  let drop := { drop with id := normalizeDropId drop.id }
  let changed :=
    if drop.id = 112 then dropGems world.dropNew drop
    else (world.dropNew, drop)
  let laid := layDrop items now changed.2 changed.1 world.totalDropUid
  { world with
    freshWorld := true
    dropNew := laid.1
    totalDropUid := laid.2 }

end NopyServer
