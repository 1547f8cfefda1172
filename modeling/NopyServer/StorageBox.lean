/-
Storage boxes: the dialog handler `storageboxxtreme`.  All boxes of a world
share one list `sbox1` of stacks, each with the tile of its box.  A player picks
a stack from the list shown at a box and takes from it in a second message; the
server remembers the index of the picked stack.
-/
import NopyServer.Guilds

namespace NopyServer

open Inventory

namespace StorageBox

/-- The world key and the guild key. -/
def keyIds : List Int := [1424, 5816]

section Handlers

variable (env : Env) (guilds : List Guild)

/-- `items[id].blockType == BlockTypes::STORAGE`. -/
def isStorage (id : Int) : Bool := (env.items.item id).blockType == .storage

/-- Items that a box refuses as untradeable when they are picked. -/
def refusedPick (box item : Int) : Bool :=
  (box != 4516 && (env.items.item item).untradeable) || item == 1424 ||
    item == 5816

/-- Items that a box refuses as tradeable when they are picked. -/
def refusedTradeablePick (box item : Int) : Bool :=
  (box == 4516 && !(env.items.item item).untradeable) || item == 18 ||
    item == 32 || item == 6336 || item == 9384 || item == 1424 ||
    item == 5816 || item == 8430

/-- The choice of an item of the backpack, to be stored. -/
def chooseItem (item : Int) (s : Session) : Session :=
  if item ≤ 0 ∨ (env.items.size : Int) ≤ item ∨
      isStorage env s.pl.lastwrenchb = false then s
  else if refusedPick env s.pl.lastwrenchb item then s
  else if refusedTradeablePick env s.pl.lastwrenchb item then s
  else if contains s.pl.inv item = 0 then s
  else s.mapPlayer fun pl => { pl with lastchoosenitem := item }

/-- All copies of an item are thrown away. -/
def discard (id : Int) (s : Session) : Session :=
  let asked := modify env s id 0 false
  (modify env asked.session id (asked.c_ * -1) false).session

/-- `DialogHandle::Storage_Box`: showing a box throws the player's keys
away. -/
def showBox (w : Nat) (s : Session) : Session :=
  discard env 5816 (discard env 1424 (s.freshen w))

/-- The number a `do_take` asks for; the source throws on a shorter text. -/
def takeCount (cch : String) : Option Int :=
  if cch.length < 83 then none
  else some (atoi (String.ofList (cch.toList.drop 83)))

/-- A stack gives some of its items and goes when it is empty. -/
def withdraw (itemnr : Nat) (removed : Int) (sbox1 : List WorldSBOX1) :
    List WorldSBOX1 :=
  match sbox1[itemnr]? with
  | none => sbox1
  | some entry =>
      if entry.count - removed ≤ 0 then sbox1.eraseIdx itemnr
      else sbox1.set itemnr { entry with count := entry.count - removed }

/-- The button `do_take`. -/
def doTake (w : Nat) (world : World) (block : WorldBlock) (cch : String)
    (s : Session) : Session :=
  match textFind cch "itemcount|", takeCount cch with
  | true, some count =>
      if count ≤ 0 ∨ isStorage env s.pl.lastwrenchb = false ∨
          s.pl.lastchoosennr < 0 then s
      else
        match world.sbox1[s.pl.lastchoosennr.toNat]? with
        | none => s
        | some entry =>
            if blockAccess env guilds s.pl world block
                  { adminAccess := true } = true ∧
                entry.x = s.pl.lastwrenchx ∧ entry.y = s.pl.lastwrenchy ∧
                0 < entry.count ∧ count ≤ entry.count then
              let given := modify env s entry.id count false
              if given.ret = 0 then
                given.session.mapWorld w fun world =>
                  { world with
                    sbox1 := withdraw s.pl.lastchoosennr.toNat count
                      world.sbox1 }
              else given.session
            else s
  | _, _ => s

/-- The runs of digits of a text, as numbers. -/
def numbers (text : String) : List (Option Int) :=
  ((text.toList.splitOnP fun c => !isDigit c).filter (· ≠ [])).map
    fun digits => stoi (String.ofList digits)

/-- The item and the count that a list button names; `none` where `stoi`
throws. -/
def listButton (button : String) : Option (Int × Int) :=
  if none ∈ numbers button then none
  else
    some (((numbers button).getD 0 none).getD 0,
      ((numbers button).getD 1 none).getD 0)

/-- The stacks of an item in the box at a tile. -/
def isStack (x y id : Int) (entry : WorldSBOX1) : Bool :=
  entry.x == x && entry.y == y && entry.id == id

/-- The loop over `sbox1` after a list button, from an index on, with
`lastchoosennr` so far. -/
def pickStack (x y id : Int) : List WorldSBOX1 → Nat → Int → Int
  | [], _, lastchoosennr => lastchoosennr
  | entry :: rest, i, lastchoosennr =>
      pickStack x y id rest (i + 1)
        (if isStack x y id entry then i else lastchoosennr)

/-- The item whose stacks a list button asks for, when the player may see
them. -/
def shown (world : World) (block : WorldBlock) (button : String)
    (pl : Player) : Option Int :=
  match listButton button with
  | none => none
  | some (id, count) =>
      if id < 0 ∨ (env.items.size : Int) < id ∨ count < 0 then none
      else if blockAccess env guilds pl world block
          { adminAccess := true } then some id
      else none

/-- The button of a stack in the list. -/
def pick (world : World) (block : WorldBlock) (button : String)
    (s : Session) : Session :=
  match shown env guilds world block button s.pl with
  | none => s
  | some id =>
      s.mapPlayer fun pl =>
        { pl with
          lastchoosennr := pickStack pl.lastwrenchx pl.lastwrenchy id
            world.sbox1 0 pl.lastchoosennr }

/-- Items that a box refuses when they are stored. -/
def refusedStore (box item : Int) : Bool :=
  (box != 4516 && (env.items.item item).untradeable) || item == 1424 ||
    item == 5816 || env.items.isFish item

def refusedTradeableStore (box item : Int) : Bool :=
  (box == 4516 && !(env.items.item item).untradeable) || item == 1424 ||
    item == 5816 || env.items.isFish item || item == 18 || item == 32 ||
    item == 9384 || item == 6336 || item == 8430

/-- The first stack with room takes the items, else a new one does. -/
def store (x y id count : Int) : List WorldSBOX1 → List WorldSBOX1
  | [] => [{ id := id, count := count, x := x, y := y }]
  | entry :: rest =>
      if isStack x y id entry = true ∧ entry.count + count ≤ 200 then
        { entry with count := entry.count + count } :: rest
      else entry :: store x y id count rest

/-- The button `do_add`. -/
def doAdd (w : Nat) (world : World) (block : WorldBlock) (cch : String)
    (s : Session) : Session :=
  let itemcount := TextScanner.get cch "itemcount"
  let count := atoi itemcount
  let item := s.pl.lastchoosenitem
  let box := s.pl.lastwrenchb
  if env.isNumber itemcount = false then s
  else if item ≤ 0 ∨ (env.items.size : Int) ≤ item ∨
      isStorage env box = false then s
  else if refusedStore env box item ∨ refusedTradeableStore env box item then s
  else
    let asked := modify env s item 0 false
    let s := asked.session
    if count ≤ 0 ∨ asked.c_ < count then s
    else if (env.items.item box).boxSize.toNat ≤ world.sbox1.countP (fun entry =>
          entry.x == s.pl.lastwrenchx && entry.y == s.pl.lastwrenchy) ∨
        ((env.items.item item).untradeable = true ∧ block.fg ≠ 4516) then s
    else
      let s := (modify env s item (count * -1) false).session
      showBox env w (s.mapWorld w fun world =>
        { world with
          sbox1 := store s.pl.lastwrenchx s.pl.lastwrenchy item count
            world.sbox1 })

/-- The buttons of a box; `change_password` only sends a dialog. -/
def buttonClicked (w : Nat) (world : World) (block : WorldBlock)
    (cch button : String) (s : Session) : Session :=
  if button = "cancel" then
    if iequals world.ownerName s.pl.tankIDName ∨
        s.pl.account.role.administrator = true then showBox env w s
    else s
  else if button = "do_take" then doTake env guilds w world block cch s
  else if textFind button "searchableItemListButton" then
    pick env guilds world block button s
  else if button = "do_add" then doAdd env w world block cch s
  else s

/-- The box under the player's wrench. -/
def boxAt (w : Nat) (s : Session) : Option (World × WorldBlock) :=
  match s.worlds[w]?, (tileIndex 100 s.pl.lastwrenchx
      s.pl.lastwrenchy).bind (s.block? w) with
  | some world, some block =>
      if isStorage env block.fg.toNat then some (world, block) else none
  | _, _ => none

/-- `storageboxxtreme`. -/
def storageboxxtreme (cch : String) (s : Session) : Session :=
  match TextScanner.tryGet cch "itemid" with
  | some value =>
      match stoi value with
      | some item => chooseItem env item s
      | none => s
  | none =>
      match TextScanner.tryGet cch "buttonClicked", s.findWorld s.pl.world with
      | some button, some w =>
          let s := s.freshen w
          match boxAt env w s with
          | some (world, block) =>
              buttonClicked env guilds w world block cch button s
          | none => s
      | _, _ => s

end Handlers

end StorageBox

end NopyServer
