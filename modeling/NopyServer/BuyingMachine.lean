/-
The Buying Machine: the dialog handlers `BuyingMachine` and
`ConfirmBuyingMachine`.  A machine is a block 15230; its `c_` is the stock of
world locks it buys with, its `id` the item it buys, its `pr` the price and its
`wl` the number of items it has bought.
-/
import NopyServer.Server

namespace NopyServer

open Inventory

/-- An amount of world locks split into blue gem, diamond and world locks. -/
structure LockSplit where
  bgl : Int
  dl : Int
  wl : Int
deriving Repr, DecidableEq

/-- `count / 10000`, `count % 10000 / 100` and `count % 100`. -/
def splitLocks (count : Int) : LockSplit :=
  ⟨count.tdiv 10000, (count.tmod 10000).tdiv 100, (count.tmod 10000).tmod 100⟩

namespace BuyingMachine

section Buttons

variable (env : Env) (w b : Nat)

/-- Taking locks out of the backpack when there are any to take. -/
def takeLocks (id count : Int) (s : Session) : Session :=
  if 0 < count then (modify env s id (-count) false).session else s

/-- The button `addstock`. -/
def addstock (cch : String) (s : Session) : Session :=
  let parts := splitLocks (atoi (TextScanner.get cch "stockwls"))
  if 0 < parts.bgl ∧ contains s.pl.inv 7188 < parts.bgl then s
  else if 0 < parts.dl ∧ contains s.pl.inv 1796 < parts.dl then s
  else if 0 < parts.wl ∧ contains s.pl.inv 242 < parts.wl then s
  else
    let s := takeLocks env 7188 parts.bgl s
    let s := takeLocks env 1796 parts.dl s
    let s := takeLocks env 242 parts.wl s
    let added := parts.bgl * 10000 + parts.dl * 100 + parts.wl
    s.mapBlock w b fun block => { block with c_ := int32 (block.c_ + added) }

/-- The button `withdraw`. -/
def withdraw (block : WorldBlock) (s : Session) : Session :=
  if block.id = 0 ∨ block.wl ≤ 0 then s
  else
    let had := contains s.pl.inv block.id
    let receive := if block.wl < 200 - had then block.wl else 200 - had
    let given := modify env s block.id receive false
    if given.ret = 0 then
      given.session.mapBlock w b fun block =>
        { block with wl := block.wl - receive }
    else given.session

/-- `VisualHandle::Drop` at the player, up to sixteen pixels away. -/
def dropAround (id count : Int) (s : Session) : Session :=
  let (x, s) := s.rand
  let (y, s) := s.rand
  s.mapWorld w fun world => visualDrop env.items s.now world
    ⟨id, count, s.pl.x + (x % 17 : Nat), s.pl.y + (y % 17 : Nat)⟩

/-- One denomination of `takewls`: into the backpack, or onto the floor. -/
def giveOrDrop (id count : Int) (s : Session) : Session :=
  if count = 0 then s
  else
    let given := modify env s id count false
    if given.ret = 0 then given.session
    else dropAround env w id count given.session

/-- The button `takewls`. -/
def takewls (block : WorldBlock) (s : Session) : Session :=
  let parts := splitLocks block.c_
  let s := giveOrDrop env w 7188 (if 200 ≤ parts.bgl then 200 else parts.bgl) s
  let s := giveOrDrop env w 1796 parts.dl s
  let s := giveOrDrop env w 242 parts.wl s
  s.mapBlock w b fun block => { block with c_ := 0 }

/-- The buttons of the owner. -/
def buttonClicked (cch btn : String) (block : WorldBlock) (s : Session) :
    Session :=
  if btn = "reset" then s.mapBlock w b fun block => { block with id := 0 }
  else if btn = "addstock" then addstock env w b cch s
  else if btn = "confirm_search" then s
  else if btn.toList.take 7 = "choose_".toList then
    if block.id ≠ 0 then s
    else
      s.mapBlock w b fun block =>
        { block with id := atoi (String.ofList (btn.toList.drop 7)) }
  else if btn = "withdraw" then withdraw env w b block s
  else if btn = "takewls" then takewls env w b block s
  else s

/-- The owner's dialog without a button sets the price. -/
def setPrice (cch : String) (s : Session) : Session :=
  let pricewls := atoi (TextScanner.get cch "pricewls")
  s.mapBlock w b fun block =>
    { block with pr := if pricewls ≤ 0 then int32 (-pricewls) else pricewls }

/-- One denomination of the price: into the backpack, or into the bank. -/
def giveOrBank (id count : Int) (bank : Player → Player) (s : Session) :
    Session :=
  if count = 0 then s
  else
    let given := modify env s id count false
    if given.ret = 0 then given.session else given.session.mapPlayer bank

/-- `ConfirmBuyingMachine` once the block and the amount are known. -/
def sell (amount : Int) (block : WorldBlock) (s : Session) : Session :=
  let price := int32 (block.pr * amount)
  if 1 ≤ price then
    let parts := splitLocks price
    let sold := modify env s block.id (-amount) false
    if sold.ret = 0 then
      let s := giveOrBank env 7188 parts.bgl
        (fun pl => { pl with bglBankAmount := int32 (pl.bglBankAmount + parts.bgl) })
        sold.session
      let s := giveOrBank env 1796 parts.dl
        (fun pl => { pl with dlBankAmount := int32 (pl.dlBankAmount + parts.dl) }) s
      let s := giveOrBank env 242 parts.wl
        (fun pl => { pl with wlBankAmount := int32 (pl.wlBankAmount + parts.wl) }) s
      s.mapBlock w b fun block =>
        let block := { block with wl := int32 (block.wl + amount) }
        if block.c_ < block.pr then { block with id := 0, pr := 0 } else block
    else sold.session
  else s

end Buttons

/-- The machine at a tile of the player's world. -/
def atMachine (x y : Int) (s : Session)
    (handle : Nat → Nat → World → WorldBlock → Session) : Session :=
  if tooFar s.pl x y then s
  else
    match s.findWorld s.pl.world, tileIndex 100 x y with
    | some w, some b =>
        match s.worlds[w]?, s.block? w b with
        | some world, some block =>
            if block.fg ≠ 15230 then s else handle w b world block
        | _, _ => s
    | _, _ => s

/-- `BuyingMachine`. -/
def buyingMachine (env : Env) (cch : String) (s : Session) : Session :=
  atMachine (atoi (getEmbed cch "tilex")) (atoi (getEmbed cch "tiley")) s
    fun w b world block =>
      match TextScanner.tryGet cch "buttonClicked" with
      | some btn =>
          if world.ownerName ≠ s.pl.tankIDName then s
          else buttonClicked env w b cch btn block s
      | none =>
          if world.ownerName = s.pl.tankIDName then setPrice w b cch s else s

/-- `ConfirmBuyingMachine`. -/
def confirmBuyingMachine (env : Env) (cch : String) (s : Session) : Session :=
  let amount := atoi (getEmbed cch "count")
  if 200 < amount ∨ amount ≤ 0 then s
  else
    atMachine (atoi (getEmbed cch "x_tile")) (atoi (getEmbed cch "y_tile")) s
      fun w b _ block => sell env w b amount block s

end BuyingMachine

end NopyServer
