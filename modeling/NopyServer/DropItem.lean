/-
Dropping an item: the branch `drop_item` of `call_dialog`.  Where the item is laid is
compared with the size of the world by division, and the tile that has to be open is
found by rounding; a second place, which is drawn anew and compared with nothing, is
looked at where the tile can be toggled.  So near the last column and in the last row a
tile outside the world can be read: such a read is `none` here.

Apart from that, what leaves the backpack lies in the world afterwards or is in the magic
egg, as long as infinite mode is off.
-/
import NopyServer.DisplayDialogs
import NopyServer.PatchPath
import NopyServer.SafeGifts

namespace NopyServer

namespace DropItem

open BuxGems Inventory SlotPack

/-- The words `a_[i_ + 2]` and `a_[i_ + 5]` of a message `drop_item` of ten words. -/
structure DropWords where
  item : String
  count : String

/-- An item to be dropped, how many are taken and how many are laid down. -/
structure Request where
  id : Int
  taken : Int
  count : Int
deriving DecidableEq

section Place

variable (items : Items) (pl : Player) (world : World)

/-- `std::round` of a number divided by 32. -/
def round32 (x : Int) : Int := if 0 ≤ x then (x + 16) / 32 else -((16 - x) / 32)

/-- A place before the player, to the left in state 16. -/
def faceX (draw : Nat) : Int :=
  if pl.state = 16 then pl.x - ((draw % 12 : Nat) + 20) else pl.x + 20 + (draw % 12 : Nat)

def faceY (draw : Nat) : Int := pl.y + (draw % 16 : Nat)

def outside (drop : WorldDrop) : Bool :=
  drop.x.tdiv 32 < 0 || world.maxX ≤ drop.x.tdiv 32 ||
    drop.y.tdiv 32 < 0 || world.maxY ≤ drop.y.tdiv 32

/-- The number of the tile that is looked at for a place. -/
def tileAt (x y : Int) : Int :=
  (if pl.state = 16 then x.tdiv 32 else round32 x) + y.tdiv 32 * 100

/-- A read of the tiles of a world. -/
def blockAt (i : Int) : Option WorldBlock :=
  if 0 ≤ i then world.blocks[i.toNat]? else none

/-- A tile on which nothing can lie. -/
def hard (block : WorldBlock) : Bool :=
  let item := items.item block.fg.toNat
  item.collisionType == 1 || block.fg == 6 || item.blockType == .gateway

/-- Whether another tile is looked at. -/
def asksOther (block : WorldBlock) : Bool :=
  !hard items block && (items.item block.fg.toNat).toggleable

/-- Nothing can be dropped; `other` is the read of the other tile. -/
def blocked (block : WorldBlock) (other : Option WorldBlock) : Option Bool :=
  if hard items block = true then some true
  else if (items.item block.fg.toNat).toggleable = true then
    other.map fun other => PatchPath.isFalseState items other 0x00400000
  else some false

/-- Too much lies around already, and no stack has room. -/
def crowded (drop : WorldDrop) : Bool :=
  !(world.dropNew.any fun entry => entry.id == drop.id && entry.count + drop.count < 200) &&
    20 < (world.dropNew.filter fun entry => entry.near drop 16).length

/-- What a world or an item forbids to drop. -/
def forbidden (id : Int) : Bool :=
  world.activeJammers.contains 4758 &&
      !(iequals world.ownerName pl.tankIDName ||
        world.admins.contains (toLower pl.tankIDName)) ||
    (items.item id).untradeable || id == 1424 || id == 5816

end Place

section MagicEgg

variable (env : Env)

/-- What an egg of more than a thousand magic eggs bursts into. -/
def eggPrize (percentage : Nat) : Int × Int :=
  if percentage < 100 then (0, 0)
  else if percentage = 100 then (1552, 1)
  else if percentage ≤ 104 then (13374, 1)
  else if percentage ≤ 119 then (9452, 1)
  else if percentage ≤ 159 then (9468, 1)
  else if percentage ≤ 179 then (9454, 1)
  else if percentage ≤ 199 then (9442, 1)
  else if percentage = 200 then (9446, 1)
  else (0, 0)

/-- `drop_from_magic_egg`, which only bursting eggs come to. -/
def dropFromMagicEgg (w : Nat) (shelf : UInt16) (x_ y_ : Int) (s : Session) : Session :=
  let prize := eggPrize (shelf.toNat / 10)
  let (x, s) := s.rand
  let (y, s) := s.rand
  let drop : WorldDrop :=
    ⟨prize.1, prize.2, x_ * 32 + (x % 17 : Nat), y_ * 32 + (y % 17 : Nat)⟩
  s.mapWorld w fun world => visualDrop env.items s.now world drop

/-- The chances of an egg to burst, one for each egg that was added. -/
def burst (w b : Nat) (shelf : UInt16) (x_ y_ : Int) (chance : Nat) : Nat → Session → Session
  | 0, s => s
  | eggs + 1, s =>
      let (draw, s) := s.rand
      if draw % chance < 1 then
        (dropFromMagicEgg env w shelf x_ y_ s).mapBlock w b fun block =>
          { block with fg := 0, shelf1 := 0 }
      else burst w b shelf x_ y_ chance eggs s

/-- `add_magic_egg`. -/
def addMagicEgg (w b : Nat) (block : WorldBlock) (x_ y_ eggs : Int) (s : Session) : Session :=
  let s := s.mapPlayer fun pl => { pl with magicEgg := pl.magicEgg + eggs }
  let shelf := if block.shelf1 < 2001 then block.shelf1 + UInt16.ofInt eggs else block.shelf1
  let s := s.mapBlock w b fun block => { block with shelf1 := shelf }
  if 1000 < shelf then
    burst env w b shelf x_ y_ (if 1500 < shelf then 125 else 350) eggs.toNat s
  else s

end MagicEgg

section Branch

variable (env : Env) (guilds : List Guild) (halloween : Bool)

/-- The count of the last slot of an item. -/
def lastStack (inv : List (Int × Int)) (id : Int) : Option Int :=
  (inv.filter fun slot => slot.1 == id).getLast?.map Prod.snd

/-- Some items are sacrificed one by one. -/
def oneByOne (world : String) (id c_1 : Int) : Int :=
  if id = 10328 ∧ 1 < c_1 ∧ halloween = true ∧ world = "GROWGANOTH" then 1 else c_1

/-- The tests of a message before its place in the world is looked at; `none` where the
branch ends. -/
def readRequest (words : DropWords) (s : Session) : Session × Option Request :=
  if isDigit (firstChar words.item) = false ∨ isDigit (firstChar words.count) = false then
    (s, none)
  else
    let id := atoi words.item
    let c_1 := atoi words.count
    if c_1 ≤ 0 ∨ 200 < c_1 ∨ contains s.pl.inv id < c_1 then (s, none)
    else
      let asked := modify env s id 0 false
      let s := asked.session
      if asked.c_ < 1 then (s, none)
      else
        let c_1 := oneByOne halloween s.pl.world id c_1
        -- fish are dropped as a whole
        let fish := if env.items.isFish id = true then lastStack s.pl.inv id else none
        let dropFish := fish.getD 0
        if (env.items.size : Int) ≤ id ∨ id ∈ [18, 32, 6336, 9384] then (s, none)
        else (s, some ⟨id, fish.getD c_1, if dropFish = 0 then c_1 else dropFish⟩)

/-- The world of a player. -/
def here (s : Session) : Option (Nat × World) :=
  match s.findWorld s.pl.world with
  | none => none
  | some w => s.worlds[w]?.map (w, ·)

/-- The place of the sacrifices. -/
def sacrificial (world : World) (x y : Int) : Bool :=
  world.name == "GROWGANOTH" && halloween && 47 ≤ x.tdiv 32 && x.tdiv 32 ≤ 51 &&
    (y.tdiv 32 == 14 || y.tdiv 32 == 15)

variable (sacrifice : Session → Session)

/-- An item that has been taken is laid down. -/
def lay (w : Nat) (world : World) (b : Int) (block : WorldBlock) (drop : WorldDrop)
    (taken : Int) (s : Session) : Option Session :=
  if sacrificial halloween world drop.x drop.y = true then some (sacrifice s)
  else
    let egg := if drop.id = 611 ∧ block.fg = 610 then
        Displays.onlyAccess env guilds s.pl world block {}
      else some false
    egg.map fun egg =>
      if egg = true then
        addMagicEgg env w b.toNat block (b.tmod 100) (b.tdiv 100) taken s
      else s.mapWorld w fun world => visualDrop env.items s.now world drop

/-- The branch `drop_item`; `sacrifice` is what follows at the place of the sacrifices. -/
def dropItem (words : DropWords) (s : Session) : Option Session :=
  match readRequest env halloween words s with
  | (s, none) => some s
  | (s, some request) =>
      match here s with
      | none => some s
      | some (w, world) =>
          if forbidden env.items s.pl world request.id = true then some s
          else
            let (a_, s) := s.rand
            let (y_, s) := s.rand
            let drop : WorldDrop := ⟨request.id, request.count, faceX s.pl a_, faceY s.pl y_⟩
            if outside world drop = true then some s
            else
              let (as_, s) := s.rand
              let (y, s) := s.rand
              let b := tileAt s.pl drop.x drop.y
              let x := faceX s.pl (if s.pl.state = 16 then a_ else as_)
              match blockAt world b with
              | none => none
              | some block =>
                  let other := blockAt world (tileAt s.pl x (faceY s.pl y))
                  match blocked env.items block other with
                  | none => none
                  | some true => some s
                  | some false =>
                      let s := s.freshen w
                      if crowded world drop = true then some s
                      else
                        let taken := modify env s request.id (-request.taken) false
                        if taken.ret ≠ 0 then some taken.session
                        else lay env guilds halloween sacrifice w world b block drop
                          request.taken taken.session

end Branch

section Requests

variable {env : Env} {halloween : Bool} {words : DropWords} {s : Session} {id : Int}

/-- `Modify` with nothing to add only asks for the count. -/
theorem modify_zero (hs : SlotInv s.pl.inv) (id : Int) :
    (modify env s id 0 false).session = s ∧
      (1 ≤ (modify env s id 0 false).c_ → Accepts env id) := by
  rw [modify_eq]
  unfold modifyWith
  by_cases hguard : 200 < (0 : Int) ∨ (env.items.size : Int) < id ∨ id ≤ 0 ∨ id = 112 ∨
      s.pl.inv = []
  · rw [if_pos hguard]
    exact ⟨rfl, fun h => absurd h (Int.not_le.mpr Int.one_pos)⟩
  · have haccepts : Accepts env id := ⟨by omega, by omega, by omega⟩
    rw [if_neg hguard, if_neg (by simp)]
    rcases @modifySlots_spec env.items s.pl id 0 false hs haccepts.1 (by decide) with
      ⟨next, left, -, hchanged⟩ | ⟨left, hslots, -⟩
    · have hview := hchanged.view
      unfold Pack.change at hview
      simp at hview
    · rw [hslots]
      exact ⟨rfl, fun _ => haccepts⟩

theorem lastStack_eq {inv : List (Int × Int)} (hs : SlotInv inv) (hid : id ≠ 0)
    (hpos : 0 < total id inv) : lastStack inv id = some (total id inv) := by
  obtain ⟨slot, hslot, hkey⟩ : ∃ slot ∈ inv, slot.1 = id := by
    by_contra hnone
    have habsent : ∀ slot ∈ inv, slot.1 ≠ id := fun slot hslot heq =>
      hnone ⟨slot, hslot, heq⟩
    rw [total_eq_zero_of_not_mem habsent] at hpos
    omega
  obtain ⟨pre, post, rfl⟩ := List.append_of_mem hslot
  obtain ⟨key, n⟩ := slot
  dsimp only at hkey
  subst hkey
  have hothers := hs.wellFormed.not_mem_of_stack hid
  have hpre : (pre.filter fun slot => slot.1 == key) = [] := by
    rw [List.filter_eq_nil_iff]
    intro slot hmem
    simpa using hothers slot (List.mem_append_left post hmem)
  have hpost : (post.filter fun slot => slot.1 == key) = [] := by
    rw [List.filter_eq_nil_iff]
    intro slot hmem
    simpa using hothers slot (List.mem_append_right pre hmem)
  rw [hs.wellFormed.total_stack hid]
  unfold lastStack
  rw [List.filter_append, List.filter_cons_of_pos (by simp), hpre, hpost]
  rfl

/-- What a request says of the backpack. -/
structure Fits (env : Env) (words : DropWords) (s : Session) (request : Request) : Prop where
  id : request.id = atoi words.item
  accepts : Accepts env request.id
  count : request.count = request.taken
  pos : 1 ≤ request.taken
  enough : request.taken ≤ total request.id s.pl.inv

theorem oneByOne_bounds {world : String} {c_1 : Int} (hc : 1 ≤ c_1) :
    1 ≤ oneByOne halloween world id c_1 ∧ oneByOne halloween world id c_1 ≤ c_1 := by
  unfold oneByOne
  split_ifs
  · exact ⟨le_refl _, hc⟩
  · exact ⟨hc, le_refl _⟩

/-- What is taken is what is laid down, for fish as for other items. -/
theorem readRequest_spec (hs : SlotInv s.pl.inv) :
    (readRequest env halloween words s).1 = s ∧
      ∀ request, (readRequest env halloween words s).2 = some request →
        Fits env words s request := by
  obtain ⟨hsame, hasks⟩ := @modify_zero env s hs (atoi words.item)
  unfold readRequest
  dsimp only
  by_cases hdigit : isDigit (firstChar words.item) = false ∨
      isDigit (firstChar words.count) = false
  · rw [if_pos hdigit]
    exact ⟨rfl, fun _ h => by cases h⟩
  · rw [if_neg hdigit]
    by_cases hcount : atoi words.count ≤ 0 ∨ 200 < atoi words.count ∨
        contains s.pl.inv (atoi words.item) < atoi words.count
    · rw [if_pos hcount]
      exact ⟨rfl, fun _ h => by cases h⟩
    · rw [if_neg hcount, hsame]
      by_cases hnone : (modify env s (atoi words.item) 0 false).c_ < 1
      · rw [if_pos hnone]
        exact ⟨rfl, fun _ h => by cases h⟩
      · rw [if_neg hnone]
        by_cases hlisted : (env.items.size : Int) ≤ atoi words.item ∨
            atoi words.item ∈ [18, 32, 6336, 9384]
        · rw [if_pos hlisted]
          exact ⟨rfl, fun _ h => by cases h⟩
        · rw [if_neg hlisted]
          refine ⟨rfl, fun request hrequest => ?_⟩
          obtain rfl := Option.some.inj hrequest
          have haccepts := hasks (Int.not_lt.mp hnone)
          have hheld := contains_eq_total hs (atoi words.item)
          obtain ⟨hone, hmost⟩ := @oneByOne_bounds halloween (atoi words.item) s.pl.world
            (atoi words.count) (by omega)
          by_cases hfish : env.items.isFish (atoi words.item) = true
          · have hstack := lastStack_eq hs (Int.ne_of_gt haccepts.1)
              (show 0 < total (atoi words.item) s.pl.inv by omega)
            simp only [if_pos hfish, hstack, Option.getD_some]
            have hpos : 0 < total (atoi words.item) s.pl.inv := by omega
            exact ⟨rfl, haccepts, if_neg (Int.ne_of_gt hpos), hpos, le_refl _⟩
          · simp only [if_neg hfish, Option.getD_none, if_true]
            exact ⟨rfl, haccepts, rfl, hone, by dsimp only; omega⟩

end Requests

section Geometry

variable {s : Session} {w : Nat} {world : World} {pl : Player} {x y : Int}

/-- A player anywhere inside a world of a hundred columns, in which every locked block
knows a block of the world as its lock. -/
structure Inside (s : Session) (w : Nat) (world : World) : Prop where
  found : here s = some (w, world)
  width : world.maxX = 100
  count : (world.blocks.length : Int) = 100 * world.maxY
  columns : 0 ≤ s.pl.x ∧ s.pl.x < 3200
  rows : 0 ≤ s.pl.y ∧ s.pl.y < 32 * world.maxY
  origins : ∀ block ∈ world.blocks, block.locked = true →
    0 ≤ block.lockOrigin ∧ block.lockOrigin < world.blocks.length

/-- The tile that is looked at for a place is one of the world: it is not below the last
row, nor behind the last column of the last row. -/
def Covered (pl : Player) (world : World) (x y : Int) : Prop :=
  y < 32 * (world.maxY - 1) ∨ y < 32 * world.maxY ∧ (pl.state = 16 ∨ x < 3184)

instance (pl : Player) (world : World) (x y : Int) : Decidable (Covered pl world x y) :=
  inferInstanceAs (Decidable (_ ∨ _ ∧ _))

theorem faceX_range (hx : 0 ≤ pl.x ∧ pl.x < 3200) (draw : Nat) :
    (pl.state = 16 → -31 ≤ faceX pl draw ∧ faceX pl draw < 3200) ∧
      (pl.state ≠ 16 → 0 ≤ faceX pl draw ∧ faceX pl draw < 3232) := by
  unfold faceX
  constructor
  · intro hleft
    rw [if_pos hleft]
    omega
  · intro hright
    rw [if_neg hright]
    omega

/-- The column and the row of a tile that is looked at. -/
theorem tileAt_eq (hx : (pl.state = 16 → -31 ≤ x ∧ x < 3200) ∧
      (pl.state ≠ 16 → 0 ≤ x ∧ x < 3232)) (hy : 0 ≤ y) :
    ∃ column : Int, 0 ≤ column ∧ column ≤ 101 ∧
      (column ≤ 99 ↔ pl.state = 16 ∨ x < 3184) ∧ tileAt pl x y = column + y / 32 * 100 := by
  unfold tileAt
  rw [Int.tdiv_eq_ediv_of_nonneg hy]
  by_cases hleft : pl.state = 16
  · obtain ⟨hlow, hhigh⟩ := hx.1 hleft
    have hcolumn : 0 ≤ x.tdiv 32 ∧ x.tdiv 32 ≤ 99 := by
      by_cases hpos : 0 ≤ x
      · rw [Int.tdiv_eq_ediv_of_nonneg hpos]
        omega
      · have hneg : (-x).tdiv 32 = -x.tdiv 32 := Int.neg_tdiv ..
        rw [Int.tdiv_eq_ediv_of_nonneg (by omega)] at hneg
        omega
    rw [if_pos hleft]
    exact ⟨x.tdiv 32, hcolumn.1, by omega, iff_of_true hcolumn.2 (Or.inl hleft), rfl⟩
  · obtain ⟨hlow, hhigh⟩ := hx.2 hleft
    rw [if_neg hleft]
    unfold round32
    rw [if_pos hlow]
    refine ⟨(x + 16) / 32, by omega, by omega, ?_, rfl⟩
    simp only [hleft, false_or]
    omega

theorem blockAt_iff {i : Int} :
    (∃ block, blockAt world i = some block) ↔ 0 ≤ i ∧ i < world.blocks.length := by
  unfold blockAt
  split_ifs with hi
  · simp only [List.getElem?_eq_some_iff]
    constructor
    · rintro ⟨block, hlt, -⟩
      omega
    · intro hlt
      exact ⟨_, by omega, rfl⟩
  · simp [hi]

theorem covered_iff (hcount : (world.blocks.length : Int) = 100 * world.maxY)
    (hx : (pl.state = 16 → -31 ≤ x ∧ x < 3200) ∧ (pl.state ≠ 16 → 0 ≤ x ∧ x < 3232))
    (hy : 0 ≤ y) :
    (∃ block, blockAt world (tileAt pl x y) = some block) ↔ Covered pl world x y := by
  obtain ⟨column, hlow, hhigh, hcolumn, htile⟩ := tileAt_eq hx hy
  rw [blockAt_iff, htile, hcount]
  unfold Covered
  rw [← hcolumn]
  omega

theorem mem_of_blockAt {i : Int} {block : WorldBlock} (hblock : blockAt world i = some block) :
    block ∈ world.blocks := by
  unfold blockAt at hblock
  split_ifs at hblock
  exact List.mem_of_getElem? hblock

end Geometry

section Laying

variable {env : Env} {guilds : List Guild} {halloween : Bool} {sacrifice : Session → Session}
  {s t : Session} {w : Nat} {world : World} {f : World → World}

/-- No egg bursts into magic eggs. -/
theorem eggPrize_other (percentage : Nat) :
    normalizeDropId (eggPrize percentage).1 ≠ 112 ∧
      normalizeDropId (eggPrize percentage).1 ≠ 611 ∧
        (eggPrize percentage).2 ≤ 2 ^ 31 - 200 := by
  unfold eggPrize
  split_ifs <;> decide

/-- The magic eggs in the world are not the magic egg. -/
structure EggsKept (s t : Session) : Prop where
  inv : t.pl.inv = s.pl.inv
  egg : t.pl.magicEgg = s.pl.magicEgg
  ground : dropTotal 611 (groundDrops t) = dropTotal 611 (groundDrops s)

theorem dropFromMagicEgg_points (hpoints : Points w s)
    (hfit : DropsFit s.now (groundDrops s) 1) (shelf : UInt16) (x y : Int) :
    EggsKept s (dropFromMagicEgg env w shelf x y s) ∧
      Points w (dropFromMagicEgg env w shelf x y s) := by
  obtain ⟨hgem, hegg, hcount⟩ := eggPrize_other (shelf.toNat / 10)
  refine ⟨⟨rfl, rfl, ?_⟩, ?_⟩
  · refine Eq.trans
      (@Points.dropped env s.rand.2.rand.2 w hpoints _ hgem hcount hfit 611) ?_
    rw [if_neg hegg, add_zero]
    rfl
  · exact @Points.mapWorld s.rand.2.rand.2 w _ hpoints fun _ => rfl

theorem burst_points (hpoints : Points w s) (hfit : DropsFit s.now (groundDrops s) 1)
    (b : Nat) (shelf : UInt16) (x y : Int) (chance eggs : Nat) :
    EggsKept s (burst env w b shelf x y chance eggs s) := by
  induction eggs generalizing s with
  | zero => exact ⟨rfl, rfl, rfl⟩
  | succ eggs ih =>
      rw [DropItem.burst]
      dsimp only
      split_ifs
      · obtain ⟨hkept, hafter⟩ :=
          @dropFromMagicEgg_points env s.rand.2 w hpoints hfit shelf x y
        refine ⟨hkept.inv, hkept.egg, ?_⟩
        rw [hafter.mapBlock.1]
        exact hkept.ground
      · have hkept := @ih s.rand.2 hpoints hfit
        exact ⟨hkept.inv, hkept.egg, hkept.ground⟩

/-- Magic eggs are added to the magic egg, and none of them to the world. -/
theorem addMagicEgg_points (hpoints : Points w s) (hfit : DropsFit s.now (groundDrops s) 1)
    (b : Nat) (block : WorldBlock) (x y eggs : Int) :
    (addMagicEgg env w b block x y eggs s).pl.inv = s.pl.inv ∧
      (addMagicEgg env w b block x y eggs s).pl.magicEgg = s.pl.magicEgg + eggs ∧
      dropTotal 611 (groundDrops (addMagicEgg env w b block x y eggs s)) =
        dropTotal 611 (groundDrops s) := by
  unfold DropItem.addMagicEgg
  dsimp only
  generalize (if block.shelf1 < 2001 then block.shelf1 + UInt16.ofInt eggs
    else block.shelf1) = shelf
  generalize (if 1500 < shelf then 125 else 350) = chance
  obtain ⟨hground, hafter⟩ := @Points.mapBlock
    (s.mapPlayer fun pl => { pl with magicEgg := pl.magicEgg + eggs }) w b
    (fun block => { block with shelf1 := shelf }) hpoints
  by_cases hshelf : 1000 < shelf
  · rw [if_pos hshelf]
    have hkept := @burst_points env _ w hafter (by rw [hground]; exact hfit) b shelf x y
      chance eggs.toNat
    refine ⟨hkept.inv, hkept.egg, ?_⟩
    rw [hkept.ground, hground]
    rfl
  · rw [if_neg hshelf]
    refine ⟨rfl, rfl, ?_⟩
    rw [hground]
    rfl

/-- Where a number of some item ends up that is laid down: among the drops, or in the
magic egg. -/
def Put (id count : Int) (s t : Session) : Prop :=
  (t.pl.magicEgg = s.pl.magicEgg ∧ ∀ other, dropTotal other (groundDrops t) =
      dropTotal other (groundDrops s) + if normalizeDropId id = other then count else 0) ∨
    id = 611 ∧ t.pl.magicEgg = s.pl.magicEgg + count ∧
      dropTotal 611 (groundDrops t) = dropTotal 611 (groundDrops s)

theorem lay_points (hpoints : Points w s) (hfit : DropsFit s.now (groundDrops s) 1)
    {block : WorldBlock} (horigin : block.locked = true →
      0 ≤ block.lockOrigin ∧ block.lockOrigin < world.blocks.length)
    {drop : WorldDrop} (hplace : sacrificial halloween world drop.x drop.y = false)
    (hgem : normalizeDropId drop.id ≠ 112) (hcount : drop.count ≤ 2 ^ 31 - 200) (b : Int) :
    ∃ t, lay env guilds halloween sacrifice w world b block drop drop.count s = some t ∧
      t.pl.inv = s.pl.inv ∧ Put drop.id drop.count s t := by
  have hdrop : Put drop.id drop.count s
      (s.mapWorld w fun world => visualDrop env.items s.now world drop) :=
    Or.inl ⟨rfl, hpoints.dropped hgem hcount hfit⟩
  unfold DropItem.lay
  rw [if_neg (by simp [hplace])]
  by_cases hegg : drop.id = 611 ∧ block.fg = 610
  · obtain ⟨access, haccess⟩ := Displays.onlyAccess_some env guilds s.pl {} horigin
    simp only [if_pos hegg, haccess, Option.map_some]
    by_cases hopen : access = true
    · rw [if_pos hopen]
      obtain ⟨hinv, hgrown, hkept⟩ := @addMagicEgg_points env s w hpoints hfit b.toNat block
        (b.tmod 100) (b.tdiv 100) drop.count
      exact ⟨_, rfl, hinv, Or.inr ⟨hegg.1, hgrown, hkept⟩⟩
    · rw [if_neg hopen]
      exact ⟨_, rfl, rfl, hdrop⟩
  · simp only [if_neg hegg, Option.map_some]
    exact ⟨_, rfl, rfl, hdrop⟩

end Laying

section Conservation

variable {env : Env} {guilds : List Guild} {halloween : Bool} {sacrifice : Session → Session}
  {words : DropWords} {s t u : Session} {w : Nat} {world : World} {id count : Int}

/-- Nothing has gone anywhere. -/
structure Unchanged (s t : Session) : Prop where
  inv : t.pl.inv = s.pl.inv
  egg : t.pl.magicEgg = s.pl.magicEgg
  ground : groundDrops t = groundDrops s

/-- A number of some item has left the backpack and lies in the world, or is in the magic
egg. -/
structure Moved (id count : Int) (s t : Session) : Prop where
  taken : contains t.pl.inv id = contains s.pl.inv id - count
  others : ∀ other, other ≠ id → contains t.pl.inv other = contains s.pl.inv other
  put : Put id count s t

/-- The drop that a message asks for. -/
def spot (s : Session) (request : Request) : WorldDrop :=
  ⟨request.id, request.count, faceX s.pl (s.rands 0), faceY s.pl (s.rands 1)⟩

/-- The second place that is drawn. -/
def otherX (s : Session) : Int :=
  faceX s.pl (if s.pl.state = 16 then s.rands 0 else s.rands 2)

def otherY (s : Session) : Int := faceY s.pl (s.rands 3)

/-- The read of the tile at the second place. -/
def otherBlock (s : Session) (world : World) : Option WorldBlock :=
  blockAt world (tileAt s.pl (otherX s) (otherY s))

/-- The state after the four draws. -/
def drawn (s : Session) : Session := s.rand.2.rand.2.rand.2.rand.2

/-- Both tiles that are looked at are tiles of the world, and nothing is laid down in
infinite mode. -/
def InOrder (env : Env) (s : Session) (world : World) (request : Request) : Prop :=
  Covered s.pl world (spot s request).x (spot s request).y ∧
    ∀ block, blockAt world (tileAt s.pl (spot s request).x (spot s request).y) = some block →
      (asksOther env.items block = true → Covered s.pl world (otherX s) (otherY s)) ∧
        (s.pl.infiniteMode = false ∨
          blocked env.items block (otherBlock s world) = some true ∨
          crowded world (spot s request) = true)

theorem here_spec (hhere : here s = some (w, world)) :
    Points w s ∧ s.worlds[w]? = some world := by
  unfold here at hhere
  split at hhere
  · cases hhere
  · next found hfound =>
      obtain ⟨other, hother, heq⟩ := Option.map_eq_some_iff.mp hhere
      cases heq
      exact ⟨hfound, hother⟩

/-- What follows in a place that is open. -/
def handOver (env : Env) (guilds : List Guild) (halloween : Bool)
    (sacrifice : Session → Session) (w : Nat) (world : World) (block : WorldBlock)
    (request : Request) (s : Session) : Option Session :=
  let taken := modify env ((drawn s).freshen w) request.id (-request.taken) false
  if taken.ret ≠ 0 then some taken.session
  else lay env guilds halloween sacrifice w world
    (tileAt s.pl (spot s request).x (spot s request).y) block (spot s request) request.taken
    taken.session

/-- The branch for a request, in a world that is there. -/
theorem dropItem_of_request {request : Request}
    (hread : readRequest env halloween words s = (s, some request))
    (hhere : here s = some (w, world)) :
    dropItem env guilds halloween sacrifice words s =
      if forbidden env.items s.pl world request.id = true then some s
      else if outside world (spot s request) = true then some s.rand.2.rand.2
      else
        match blockAt world (tileAt s.pl (spot s request).x (spot s request).y) with
        | none => none
        | some block =>
            match blocked env.items block (otherBlock s world) with
            | none => none
            | some true => some (drawn s)
            | some false =>
                if crowded world (spot s request) = true then some ((drawn s).freshen w)
                else handOver env guilds halloween sacrifice w world block request s := by
  unfold dropItem
  rw [hread]
  dsimp only
  rw [hhere]
  rfl

/-- The answer for a tile is there where the read of the other tile is, if that matters. -/
theorem blocked_isSome_iff {items : Items} {block : WorldBlock} {other : Option WorldBlock} :
    (∃ closed, blocked items block other = some closed) ↔
      (asksOther items block = true → ∃ tile, other = some tile) := by
  unfold blocked asksOther
  by_cases hhard : hard items block = true
  · simp [hhard]
  · by_cases htoggle : (items.item block.fg.toNat).toggleable = true
    · cases other with
      | none => simp [hhard, htoggle]
      | some tile => simp [hhard, htoggle]
    · simp [hhard, htoggle]

/-- The drops and the magic egg together grow by what is laid down. -/
theorem Put.grown (hput : Put id count s t) :
    t.pl.magicEgg + dropTotal (normalizeDropId id) (groundDrops t) =
      s.pl.magicEgg + dropTotal (normalizeDropId id) (groundDrops s) + count := by
  rcases hput with ⟨hegg, hground⟩ | ⟨rfl, hegg, hground⟩
  · have hlaid := hground (normalizeDropId id)
    rw [if_pos rfl] at hlaid
    omega
  · rw [show normalizeDropId 611 = 611 by decide]
    omega

/-- What is laid down and not taken from the backpack comes from nowhere. -/
theorem Put.unpaid (hput : Put id count s t) (hpos : 0 < count) (hinv : t.pl.inv = s.pl.inv) :
    ¬ (Unchanged s t ∨ ∃ left, Moved id left s t) := by
  have hgrown := hput.grown
  rintro (hsame | ⟨left, hmoved⟩)
  · rw [hsame.ground, hsame.egg] at hgrown
    omega
  · have hmore := hmoved.put.grown
    have hnone := hmoved.taken
    rw [hinv] at hnone
    omega

/-- What the draws and the mark on the world leave of a state. -/
theorem drawn_freshen (hpoints : Points w s) :
    groundDrops ((drawn s).freshen w) = groundDrops s ∧ Points w ((drawn s).freshen w) :=
  @Points.freshen (drawn s) w hpoints

/-- A number that is there is taken, unless infinite mode is on. -/
theorem modify_counts (hs : SlotInv s.pl.inv) (haccepts : Accepts env id)
    (hconvert : s.pl.autoConvert = false) (hfinite : s.pl.infiniteMode = false)
    (hpos : 0 < count) (henough : count ≤ total id s.pl.inv) :
    ∃ next left, modify env s id (-count) false = ⟨0, left, { s with pl := next }⟩ ∧
      next.core = s.pl.core ∧ ∀ other, contains next.inv other =
        contains s.pl.inv other - if id = other then count else 0 := by
  obtain ⟨next, left, heq, hchanged⟩ :=
    modify_take false hs haccepts hconvert hfinite hpos henough
  refine ⟨next, left, heq, hchanged.core, fun other => ?_⟩
  have hcap := (hs.wellFormed.total_bounds (by decide) (Int.ne_of_gt haccepts.1)).2
  have hless := @Pack.change_less Int _ 200 count (view 0 s.pl.inv) id hpos henough hcap
  have hview := Option.some.inj (hless.symm.trans hchanged.view)
  rw [contains_eq_total hs, contains_eq_total hchanged.slots]
  exact (congrFun (congrArg Pack.amount hview) other).symm

theorem modify_keeps (haccepts : Accepts env id) (hpos : 0 < count)
    (hinv : s.pl.inv ≠ []) (hinfinite : s.pl.infiniteMode = true) :
    modify env s id (-count) false = ⟨0, 0, s⟩ := by
  have hguard := (@guard_iff env s id (-count) haccepts).not.mpr (by simp [hinv]; omega)
  rw [modify_eq]
  unfold modifyWith
  rw [if_neg hguard, if_pos ⟨hinfinite, by omega⟩]

theorem Put.congr (hegg : t.pl.magicEgg = s.pl.magicEgg) (hground : groundDrops t = groundDrops s)
    (hput : Put id count t u) : Put id count s u := by
  unfold Put at hput ⊢
  rwa [hegg, hground] at hput

/-- A player who drops something that is there, outside the place of the sacrifices. -/
structure Drops (halloween : Bool) (s : Session) (w : Nat) (world : World) : Prop where
  inside : Inside s w world
  slots : SlotInv s.pl.inv
  unconverted : s.pl.autoConvert = false
  fit : DropsFit s.now (groundDrops s) 1
  place : sacrificial halloween world (faceX s.pl (s.rands 0)) (faceY s.pl (s.rands 1)) = false

/-- What is taken off a player lies in the world, or is in the magic egg. -/
theorem Drops.handOver_put (hdrops : Drops halloween s w world) {request : Request}
    (hfits : Fits env words s request) {block : WorldBlock} (hblock : block ∈ world.blocks)
    {next : Player} (hcore : next.core = s.pl.core) {left : Int}
    (htaken : modify env ((drawn s).freshen w) request.id (-request.taken) false =
      ⟨0, left, { (drawn s).freshen w with pl := next }⟩) :
    ∃ t, handOver env guilds halloween sacrifice w world block request s = some t ∧
      t.pl.inv = next.inv ∧ Put request.id request.count s t := by
  obtain ⟨hpoints, -⟩ := here_spec hdrops.inside.found
  obtain ⟨hground, hafter⟩ := drawn_freshen hpoints
  have hname : next.world = s.pl.world :=
    Player.core_congr hcore Player.world fun _ => rfl
  have hegg : next.magicEgg = s.pl.magicEgg :=
    Player.core_congr hcore Player.magicEgg fun _ => rfl
  have hkept : groundDrops { (drawn s).freshen w with pl := next } = groundDrops s := by
    rw [← hground]
    exact groundDrops_congr rfl hname
  have hpointed : Points w { (drawn s).freshen w with pl := next } := by
    unfold Points
    dsimp only
    rw [hname]
    exact hafter
  have hgem : normalizeDropId request.id ≠ 112 :=
    fun h => hfits.accepts.2.2 (normalizeDropId_eq_gem h)
  have hsmall : (spot s request).count ≤ 2 ^ 31 - 200 := by
    have hcount : (spot s request).count = request.taken := hfits.count
    have henough := hfits.enough
    have hbound := (hdrops.slots.wellFormed.total_bounds (by decide)
      (Int.ne_of_gt hfits.accepts.1)).2
    omega
  obtain ⟨t, hlay, hinv, hput⟩ := @lay_points env guilds halloween sacrifice
    { (drawn s).freshen w with pl := next } w world hpointed
    (by rw [hkept]; exact hdrops.fit) block (hdrops.inside.origins block hblock)
    (spot s request) hdrops.place hgem hsmall (tileAt s.pl (spot s request).x (spot s request).y)
  refine ⟨t, ?_, hinv, hput.congr hegg hkept⟩
  unfold handOver
  rw [htaken]
  dsimp only
  rw [if_neg (by simp), ← hfits.count]
  exact hlay

theorem Drops.handOver_moves (hdrops : Drops halloween s w world)
    (hfinite : s.pl.infiniteMode = false) {request : Request}
    (hfits : Fits env words s request) {block : WorldBlock} (hblock : block ∈ world.blocks) :
    ∃ t, handOver env guilds halloween sacrifice w world block request s = some t ∧
      Moved request.id request.count s t := by
  obtain ⟨next, left, htaken, hcore, hless⟩ := @modify_counts env ((drawn s).freshen w)
    request.id request.taken hdrops.slots hfits.accepts hdrops.unconverted hfinite hfits.pos
    hfits.enough
  obtain ⟨t, ht, hinv, hput⟩ :=
    @Drops.handOver_put env guilds halloween sacrifice words s w world hdrops request hfits block
      hblock next hcore left htaken
  refine ⟨t, ht, ?_, fun other hother => ?_, hput⟩
  · rw [hinv, hless, if_pos rfl, hfits.count]
    rfl
  · rw [hinv, hless, if_neg (Ne.symm hother), sub_zero]
    rfl

theorem Drops.handOver_unpaid (hdrops : Drops halloween s w world)
    (hinfinite : s.pl.infiniteMode = true) {request : Request}
    (hfits : Fits env words s request) {block : WorldBlock} (hblock : block ∈ world.blocks) :
    ∃ t, handOver env guilds halloween sacrifice w world block request s = some t ∧
      ¬ (Unchanged s t ∨ ∃ left, Moved request.id left s t) := by
  have hinv : s.pl.inv ≠ [] := by
    intro hnil
    have henough := hfits.enough
    have hpos := hfits.pos
    rw [hnil] at henough
    have hzero : total request.id [] = 0 := rfl
    omega
  have htaken := @modify_keeps env ((drawn s).freshen w) request.id request.taken
    hfits.accepts hfits.pos hinv hinfinite
  obtain ⟨t, ht, hsame, hput⟩ :=
    @Drops.handOver_put env guilds halloween sacrifice words s w world hdrops request hfits block
      hblock s.pl rfl 0 htaken
  refine ⟨t, ht, hput.unpaid ?_ hsame⟩
  rw [hfits.count]
  exact hfits.pos

/-- The tiles at both places are there exactly where the places are covered. -/
theorem Drops.covered_iff (hdrops : Drops halloween s w world) (request : Request) :
    ((∃ block, blockAt world (tileAt s.pl (spot s request).x (spot s request).y) =
        some block) ↔ Covered s.pl world (spot s request).x (spot s request).y) ∧
      ((∃ block, otherBlock s world = some block) ↔
        Covered s.pl world (otherX s) (otherY s)) := by
  have hinside := hdrops.inside
  have hrow : ∀ draw, 0 ≤ faceY s.pl draw := by
    intro draw
    have hlow := hinside.rows.1
    unfold faceY
    omega
  exact ⟨DropItem.covered_iff hinside.count (faceX_range hinside.columns _) (hrow _),
    DropItem.covered_iff hinside.count (faceX_range hinside.columns _) (hrow _)⟩

/-- Where the request of a message comes to a place. -/
theorem Drops.place_iff (hdrops : Drops halloween s w world) {request : Request}
    (hfits : Fits env words s request)
    (hallowed : forbidden env.items s.pl world request.id = false)
    (hwithin : outside world (spot s request) = false)
    (hread : readRequest env halloween words s = (s, some request)) :
    (∃ t, dropItem env guilds halloween sacrifice words s = some t ∧
      (Unchanged s t ∨ ∃ count, Moved request.id count s t)) ↔
        InOrder env s world request := by
  obtain ⟨hfirst, hsecond⟩ := hdrops.covered_iff request
  rw [dropItem_of_request hread hdrops.inside.found, if_neg (by simp [hallowed]),
    if_neg (by simp [hwithin])]
  unfold InOrder
  cases hblock : blockAt world (tileAt s.pl (spot s request).x (spot s request).y) with
  | none =>
      rw [hblock] at hfirst
      have hoff : ¬ Covered s.pl world (spot s request).x (spot s request).y :=
        fun hcovered => by simpa using hfirst.mpr hcovered
      simp [hoff]
  | some block =>
      have hmem := mem_of_blockAt hblock
      have hcovered := hfirst.mp ⟨block, hblock⟩
      have hasks := @blocked_isSome_iff env.items block (otherBlock s world)
      rw [hsecond] at hasks
      simp only [hcovered, true_and, Option.some.injEq, forall_eq']
      cases hblocked : blocked env.items block (otherBlock s world) with
      | none =>
          have hoff : ¬ (asksOther env.items block = true →
              Covered s.pl world (otherX s) (otherY s)) :=
            fun h => by simpa [hblocked] using hasks.mpr h
          simp [hoff]
      | some closed =>
          have hother := hasks.mp ⟨closed, hblocked⟩
          have hsame : groundDrops (drawn s) = groundDrops s := rfl
          cases closed with
          | true =>
              exact iff_of_true ⟨drawn s, rfl, Or.inl ⟨rfl, rfl, hsame⟩⟩
                ⟨hother, Or.inr (Or.inl rfl)⟩
          | false =>
              dsimp only
              by_cases hcrowded : crowded world (spot s request) = true
              · rw [if_pos hcrowded]
                have hground := (drawn_freshen (here_spec hdrops.inside.found).1).1
                exact iff_of_true ⟨_, rfl, Or.inl ⟨rfl, rfl, hground⟩⟩
                  ⟨hother, Or.inr (Or.inr hcrowded)⟩
              · rw [if_neg hcrowded]
                cases hmode : s.pl.infiniteMode with
                | false =>
                    obtain ⟨t, ht, hmoved⟩ := @Drops.handOver_moves env guilds halloween
                      sacrifice words s w world hdrops hmode request hfits block hmem
                    exact iff_of_true ⟨t, ht, Or.inr ⟨_, hmoved⟩⟩ ⟨hother, Or.inl rfl⟩
                | true =>
                    obtain ⟨t, ht, hunpaid⟩ := @Drops.handOver_unpaid env guilds halloween
                      sacrifice words s w world hdrops hmode request hfits block hmem
                    refine iff_of_false ?_ (by simp [hcrowded])
                    rintro ⟨other, hother, hsafe⟩
                    rw [ht] at hother
                    cases hother
                    exact hunpaid hsafe

/-- Every tile that is read is one of the world, and what leaves the backpack lies in the
world or is in the magic egg, exactly where the places are in order. -/
theorem dropItem_safe_iff (hdrops : Drops halloween s w world) :
    (∃ t, dropItem env guilds halloween sacrifice words s = some t ∧
      (Unchanged s t ∨ ∃ count, Moved (atoi words.item) count s t)) ↔
        ∀ request, (readRequest env halloween words s).2 = some request →
          forbidden env.items s.pl world request.id = false →
            outside world (spot s request) = false → InOrder env s world request := by
  obtain ⟨hsame, hasks⟩ := @readRequest_spec env halloween words s hdrops.slots
  cases hrequest : (readRequest env halloween words s).2 with
  | none =>
      have hread : readRequest env halloween words s = (s, none) := Prod.ext hsame hrequest
      have hended : dropItem env guilds halloween sacrifice words s = some s := by
        unfold dropItem
        rw [hread]
      exact iff_of_true ⟨s, hended, Or.inl ⟨rfl, rfl, rfl⟩⟩ fun _ h => by cases h
  | some request =>
      have hread : readRequest env halloween words s = (s, some request) :=
        Prod.ext hsame hrequest
      have hfits := hasks request hrequest
      simp only [Option.some.injEq, forall_eq']
      by_cases hplace : forbidden env.items s.pl world request.id = false ∧
          outside world (spot s request) = false
      · rw [← hfits.id, hdrops.place_iff hfits hplace.1 hplace.2 hread]
        simp [hplace]
      · refine iff_of_true ?_ fun hallowed hwithin => absurd ⟨hallowed, hwithin⟩ hplace
        rw [dropItem_of_request hread hdrops.inside.found]
        by_cases hforbidden : forbidden env.items s.pl world request.id = true
        · rw [if_pos hforbidden]
          exact ⟨s, rfl, Or.inl ⟨rfl, rfl, rfl⟩⟩
        · have houtside : outside world (spot s request) = true := by
            simp_all
          rw [if_neg hforbidden, if_pos houtside]
          exact ⟨s.rand.2.rand.2, rfl, Or.inl ⟨rfl, rfl, rfl⟩⟩

/-- A world of a single row without a lock. -/
def row : World where
  name := "HOME"
  maxX := 100
  maxY := 1
  blocks := List.replicate 100 {}

/-- A player with ten of an item in that world. -/
def thrower (x : Int) : Session where
  pl := { world := "HOME", inv := [(2, 10)], x := x, y := 0 }
  worlds := [row]

/-- An item table in which nothing is special. -/
def plainEnv : Env where
  items := ⟨20299, fun _ => {}⟩

theorem thrower_drops {x : Int} (hx : 0 ≤ x ∧ x < 3200) :
    Drops false (thrower x) 0 row where
  inside :=
    { found := rfl
      width := rfl
      count := by simp [row]
      columns := hx
      rows := by simp [thrower, row]
      origins := by
        intro block hblock hlocked
        rw [List.eq_of_mem_replicate hblock] at hlocked
        cases hlocked }
  slots := by
    have hslots : SlotInv [(2, 10)] := by decide
    exact hslots
  unconverted := rfl
  fit := ⟨by simp [groundDrops, thrower, row], by simp [NoneExpired, groundDrops, thrower, row]⟩
  place := rfl

/-- Before the right end of the last row the tile after the last one is read. -/
theorem dropItem_reads_outside :
    Drops false (thrower 3170) 0 row ∧
      dropItem plainEnv [] false (fun s => s) ⟨"2", "5"⟩ (thrower 3170) = none :=
  ⟨thrower_drops (by decide), rfl⟩

/-- In the middle of the row five of ten are dropped. -/
theorem dropItem_in_the_middle :
    ∃ t, dropItem plainEnv [] false (fun s => s) ⟨"2", "5"⟩ (thrower 1600) = some t ∧
      (Unchanged (thrower 1600) t ∨ ∃ count, Moved (atoi "2") count (thrower 1600) t) := by
  refine (@dropItem_safe_iff plainEnv [] false _ ⟨"2", "5"⟩ _ _ _
    (thrower_drops (by decide))).mpr fun request hrequest _ _ => ?_
  have hread : (readRequest plainEnv false ⟨"2", "5"⟩ (thrower 1600)).2 =
      some ⟨2, 5, 5⟩ := rfl
  rw [hread] at hrequest
  cases hrequest
  refine ⟨by decide, fun block hblock => ?_⟩
  have hmem : block ∈ List.replicate 100 {} := mem_of_blockAt hblock
  have hplain : block = {} := List.eq_of_mem_replicate hmem
  subst hplain
  exact ⟨fun hasks => absurd hasks (by decide), Or.inl rfl⟩

end Conservation

end DropItem

end NopyServer
