/-
Display shelves and mannequins: the branches `dispshelf` and `mannequin_edit` of
`call_dialog`.  A shelf shows four items and a mannequin wears nine garments,
one for each clothing type.  To replace an item the old one is given back
before the new one is taken, and the second step can fail.

A word of the message or a block of the world that is read behind the end of
its vector leaves the branch without a result: such a read is `none` here.
-/
import Mathlib.Data.FinEnum
import NopyServer.Guilds
import NopyServer.Lib.BoundedLoop

namespace NopyServer

namespace Displays

open Inventory BoundedLoop

section Access

variable (env : Env) (guilds : List Guild)

/-- `block_access` comes to the lock that a block belongs to. -/
def readsOrigin (pl : Player) (world : World) (block : WorldBlock) : Bool :=
  !(iequals world.ownerName pl.tankIDName ||
    (pl.hasConfigAccess && world.name != "GROWCH") || env.worldAccessBypass pl ||
    (world.name == "GROWCH" && block.fg == 3200 && pl.hand == 3206)) &&
      block.locked

/-- `Only_Access`, with its read of the block of the lock. -/
def onlyAccess (pl : Player) (world : World) (block : WorldBlock)
    (flags : AccessFlags) : Option Bool :=
  if readsOrigin env pl world block = true ∧
      (block.lockOrigin < 0 ∨ (world.blocks.length : Int) ≤ block.lockOrigin) then none
  else some (blockAccess env guilds pl world block flags)

/-- Where the lock of a block is there, the read finds it. -/
theorem onlyAccess_some (pl : Player) (flags : AccessFlags) {world : World}
    {block : WorldBlock} (horigin : block.locked = true →
      0 ≤ block.lockOrigin ∧ block.lockOrigin < world.blocks.length) :
    ∃ access, onlyAccess env guilds pl world block flags = some access := by
  unfold onlyAccess
  split_ifs with hoff
  · have hlocked : block.locked = true := by
      have hreads := hoff.1
      unfold readsOrigin at hreads
      exact (Bool.and_eq_true_iff.mp hreads).2
    have hinside := horigin hlocked
    omega
  · exact ⟨_, rfl⟩

/-- The item that a tile shows: the foreground, or else the background. -/
def tileItem (block : WorldBlock) : ItemDB :=
  env.items.item (if block.fg ≠ 0 then block.fg else block.bg).toNat

/-- The tile at a position of the player's world, if the branch comes to it.
Only some branches compare the position with the size of the world. -/
def displayTile (bounds : Bool) (kind : BlockTypes) (x y : Int) (s : Session) :
    Option (Option (Nat × Nat)) := do
  let some w := s.findWorld s.pl.world | return none
  let some world := s.worlds[w]? | return none
  if bounds = true ∧ (world.maxY ≤ y ∨ world.maxX ≤ x) then return none
  let b := (x + y * 100).toNat
  let block ← world.blocks[b]?
  if (tileItem env block).blockType ≠ kind then return none
  let access ← onlyAccess env guilds s.pl world block {}
  if access = false ∧ guildAccess guilds s.pl world.guildId = false then return none
  return some (w, b)

end Access

section Shelf

variable (env : Env) (guilds : List Guild) (w b : Nat)

/-- `shelf_1` to `shelf_4`. -/
def shelf (block : WorldBlock) : Nat → UInt16
  | 0 => block.shelf1
  | 1 => block.shelf2
  | 2 => block.shelf3
  | _ => block.shelf4

def setShelf (k : Nat) (item : UInt16) (block : WorldBlock) : WorldBlock :=
  match k with
  | 0 => { block with shelf1 := item }
  | 1 => { block with shelf2 := item }
  | 2 => { block with shelf3 := item }
  | _ => { block with shelf4 := item }

/-- The shelf that a word of the message replaces. -/
def shelfNumber (word : String) : Option Nat :=
  if word = "replace1" then some 0
  else if word = "replace2" then some 1
  else if word = "replace3" then some 2
  else if word = "replace4" then some 3
  else none

/-- An item that can be put on a shelf. -/
def displayable (itemId : Int) : Bool :=
  !(env.items.item itemId).untradeable && itemId != 1424 && itemId != 5816 &&
    (env.items.item itemId).blockType != .fish

/-- The item of one shelf goes back to the player; the second component says
whether the shelf is empty now. -/
def pickUp (k : Nat) (s : Session) : Session × Bool :=
  match s.block? w b with
  | none => (s, false)
  | some block =>
      if shelf block k = 0 then (s, true)
      else
        let given := modify env s (shelf block k).toNat 1 false
        if given.ret = 0 then (given.session.mapBlock w b (setShelf k 0), true)
        else (given.session, false)

/-- One `replace` of the message, with the word behind it. -/
def replaceShelf (k : Nat) (next : String) (s : Session) : Next Session :=
  let itemId := atoi next
  if isDigit (firstChar next) = false then .stop s
  else if itemId ≤ 0 ∨ env.items.size ≤ itemId then .stop s
  else if displayable env itemId = false then .stop s
  else
    let emptied := pickUp env w b k s
    if emptied.2 = false then .stop emptied.1
    else
      let taken := modify env emptied.1 itemId (-1) false
      if taken.ret = 0 then
        .again (taken.session.mapBlock w b (setShelf k (UInt16.ofInt itemId)))
      else .again taken.session

/-- `remove`: the shelves are emptied until one of them cannot be. -/
def removeShelves : List Nat → Session → Session
  | [], s => s
  | k :: rest, s =>
      let emptied := pickUp env w b k s
      if emptied.2 = true then removeShelves rest emptied.1 else emptied.1

/-- One word of the message and those behind it.  The source asks whether
`a_.size() >= (b_ + 1) - 1` before it reads the word at `b_ + 1`, which is always
so. -/
def shelfWord (word : String) (rest : List String) (s : Session) :
    Option (Next Session) :=
  match shelfNumber word with
  | some k => rest.head?.map fun next => replaceShelf env w b k next s
  | none =>
      some (if word = "remove" then .stop (removeShelves env w b [0, 1, 2, 3] s)
        else .again s)

/-- The loop over the words of the message. -/
def shelfWords : List String → Session → Option Session
  | [], s => some s
  | word :: rest, s =>
      match shelfWord env w b word rest s with
      | none => none
      | some (.stop s) => some s
      | some (.again s) => shelfWords rest s

/-- The tile that a message `dispshelf` is for. -/
def shelfTile (a : List String) (i : Nat) (s : Session) :
    Option (Option (Nat × Nat)) := do
  if a.length ≠ 13 ∧ a.length ≠ 14 then return none
  let tilex ← a[i + 2]?
  if isDigit (firstChar tilex) = false then return none
  let tiley ← a[i + 5]?
  if isDigit (firstChar tiley) = false then return none
  displayTile env guilds true .displayShelf (atoi tilex) (atoi tiley) s

/-- The branch `dispshelf` of `call_dialog`, for the word at `i`. -/
def dispshelf (a : List String) (i : Nat) (s : Session) : Option Session := do
  match ← shelfTile env guilds a i s with
  | none => return s
  | some (w, b) => shelfWords env w b a s

end Shelf

section MannequinEdit

variable (env : Env) (guilds : List Guild) (w b : Nat)

/-- The garment that a mannequin wears for a clothing type. -/
def garment (mannequin : Mannequin) (clothingType : Int) : UInt16 :=
  match clothingType with
  | 0 => mannequin.cHair
  | 1 => mannequin.cShirt
  | 2 => mannequin.cPants
  | 3 => mannequin.cFeet
  | 4 => mannequin.cHead
  | 5 => mannequin.cHand
  | 6 => mannequin.cBack
  | 7 => mannequin.cMask
  | 8 => mannequin.cNeck
  | _ => 0

def dress (mannequin : Mannequin) (clothingType : Int) (item : UInt16) : Mannequin :=
  match clothingType with
  | 0 => { mannequin with cHair := item }
  | 1 => { mannequin with cShirt := item }
  | 2 => { mannequin with cPants := item }
  | 3 => { mannequin with cFeet := item }
  | 4 => { mannequin with cHead := item }
  | 5 => { mannequin with cHand := item }
  | 6 => { mannequin with cBack := item }
  | 7 => { mannequin with cMask := item }
  | 8 => { mannequin with cNeck := item }
  | _ => mannequin

def setGarment (clothingType : Int) (item : UInt16) (block : WorldBlock) : WorldBlock :=
  { block with mannequin := dress block.mannequin clothingType item }

/-- The garments of a mannequin in the order of their clothing types. -/
def garments (mannequin : Mannequin) : List UInt16 :=
  [mannequin.cHair, mannequin.cShirt, mannequin.cPants, mannequin.cFeet,
    mannequin.cHead, mannequin.cHand, mannequin.cBack, mannequin.cMask,
    mannequin.cNeck]

/-- A message of fourteen words puts the garment `tile_` on. -/
def putGarment (tile : Int) (s : Session) : Session :=
  match s.block? w b with
  | none => s
  | some block =>
      let clothingType := (env.items.item tile).clothingType
      let current := garment block.mannequin clothingType
      if clothingType = 9 ∨ (current.toNat : Int) = tile then s
      else
        let given := modify env s current.toNat 1 false
        if current ≠ 0 ∧ given.ret ≠ 0 then given.session
        else
          let s := if current ≠ 0 then given.session else s
          let taken := modify env s tile (-1) false
          if taken.ret = 0 then
            taken.session.mapBlock w b (setGarment clothingType (UInt16.ofInt tile))
          else taken.session

/-- The target of a word `checkbox_`. -/
def checkbox (word : String) : Option String :=
  if word.toList.take 9 = "checkbox_".toList then
    some ((explode "_" word).getD 1 "")
  else none

/-- A checked box takes a garment off. -/
def removeGarment (itemRemove : Int) (s : Session) : Next Session :=
  match s.block? w b with
  | none => .stop s
  | some block =>
      if ∀ item ∈ garments block.mannequin, (item.toNat : Int) ≠ itemRemove then .stop s
      else
        let given := modify env s itemRemove 1 false
        .again (if given.ret = 0 then
          given.session.mapBlock w b
            (setGarment (env.items.item itemRemove).clothingType 0)
        else given.session)

/-- One word of the message and those behind it, with `clear_all`. -/
def mannequinWord (word : String) (rest : List String) (clearAll : Bool) (s : Session) :
    Option (Next (Session × Bool)) :=
  match checkbox word with
  | some target =>
      let itemRemove := atoi target
      if isDigit (firstChar target) = false then some (.stop (s, clearAll))
      else if itemRemove ≤ 0 ∨ env.items.size ≤ itemRemove then some (.stop (s, clearAll))
      else
        rest.head?.map fun next =>
          if next = "1" ∨ clearAll = true then
            match removeGarment env w b itemRemove s with
            | .stop s => .stop (s, clearAll)
            | .again s => .again (s, clearAll)
          else .again (s, clearAll)
  | none =>
      if word = "buttonClicked" then
        rest.head?.map fun next => .again (s, clearAll || next == "clear")
      else if word = "sign_text" then
        rest.head?.map fun txt =>
          if 128 < txt.length then .stop (s, clearAll)
          else .again (s.mapBlock w b fun block => { block with txt := txt }, clearAll)
      else some (.again (s, clearAll))

/-- The loop over the words of the message. -/
def mannequinWords : List String → Bool → Session → Option Session
  | [], _, s => some s
  | word :: rest, clearAll, s =>
      match mannequinWord env w b word rest clearAll s with
      | none => none
      | some (.stop (s, _)) => some s
      | some (.again (s, clearAll)) => mannequinWords rest clearAll s

/-- The garment and the tile of a message of fourteen words. -/
def putTile (a : List String) (i : Nat) (s : Session) :
    Option (Option (Int × Nat × Nat)) := do
  let tilex ← a[i + 2]?
  if isDigit (firstChar tilex) = false then return none
  let tiley ← a[i + 5]?
  if isDigit (firstChar tiley) = false then return none
  let word ← a[i + 8]?
  if isDigit (firstChar word) = false then return none
  let tile := atoi word
  if tile ≤ 0 ∨ env.items.size ≤ tile then return none
  let item := env.items.item tile
  if item.blockType ≠ .clothing ∨ item.untradeable = true ∨ item.clothType = .ances then
    return none
  match ← displayTile env guilds true .mannequin (atoi tilex) (atoi tiley) s with
  | none => return none
  | some (w, b) => return some (tile, w, b)

/-- The tile of any other message. -/
def editTile (a : List String) (i : Nat) (s : Session) :
    Option (Option (Nat × Nat)) := do
  let tilex ← a[i + 2]?
  if isDigit (firstChar tilex) = false then return none
  let tiley ← a[i + 5]?
  if isDigit (firstChar tiley) = false then return none
  displayTile env guilds false .mannequin (atoi tilex) (atoi tiley) s

/-- The branch `mannequin_edit` of `call_dialog`, for the word at `i`. -/
def mannequinEdit (a : List String) (i : Nat) (s : Session) : Option Session := do
  if a.length = 14 then
    match ← putTile env guilds a i s with
    | none => return s
    | some (tile, w, b) => return putGarment env w b tile s
  else
    match ← editTile env guilds a i s with
    | none => return s
    | some (w, b) => mannequinWords env w b a false s

end MannequinEdit

end Displays

end NopyServer
