/-
The vending machine: the branch `vending` of `call_dialog` and the access test
it uses.  A vending machine stores `c_` items `id`, sells them
at `pr` (world locks each, or items per world lock when negative) and keeps the
world locks it earned in `wl`.
-/
import NopyServer.Payments

namespace NopyServer

open Inventory

/-- `block_access` with `vend` set, the other flags at their defaults. -/
def vendAccess (env : Env) (pl : Player) (world : World) (block : WorldBlock) :
    Bool :=
  iequals world.ownerName pl.tankIDName ||
    (pl.hasConfigAccess && world.name != "GROWCH") ||
    env.worldAccessBypass pl ||
    (world.name == "GROWCH" && block.fg == 3200 && pl.hand == 3206) ||
    (world.worldSettings / 8 % 2 == 1 && !block.locked &&
      world.admins.contains (toLower pl.tankIDName)) ||
    if block.locked then
      match world.blocks[block.lockOrigin.toNat]? with
      | some origin => iequals origin.ownerName pl.tankIDName
      | none => false
    else world.ownerName == ""

/-- The block type of what stands on a tile. -/
def isVending (items : Items) (block : WorldBlock) : Bool :=
  let t := if block.fg ≠ 0 then block.fg else block.bg
  (items.item t.toNat).blockType == .vending

namespace Vending

section Commands

variable (env : Env) (w b : Nat)

/-- How much of the block's price a purchase asks for and what it delivers. -/
structure Order where
  cost : Int
  count : Int
deriving Repr, DecidableEq

/-- `cost_` and `actual_buy_count`. -/
def order (pr buycount : Int) : Order :=
  let normalPrice := if 0 < pr then pr else -pr
  let bundles :=
    if normalPrice < buycount then buycount.tdiv normalPrice
    else normalPrice.tdiv buycount
  if 0 < pr then ⟨int32 (pr * buycount), buycount⟩
  else ⟨bundles, bundles * -pr⟩

/-- The entries of the machine for a purchase; a machine sold out is
cleared. -/
def sell (bought : Order) (block : WorldBlock) : WorldBlock :=
  let c_ := block.c_ - bought.count
  let wl := int32 (block.wl + bought.cost)
  if c_ ≤ 0 then { block with c_ := c_, wl := wl, id := 0, pr := 0 }
  else { block with c_ := c_, wl := wl }

/-- A purchase: the first dialog only asks for confirmation, the second one
buys. -/
def purchase (confirmed : Bool) (expectprice expectitem buycount : Int)
    (block : WorldBlock) (s : Session) : Session :=
  if expectprice ≠ block.pr ∨ expectitem ≠ block.id then s
  else if buycount ≤ 0 ∨ block.pr = 0 then s
  else
    let bought := order block.pr buycount
    if bought.count = 0 ∨ block.c_ < bought.count then s
    else if block.pr < 0 ∧ buycount < -block.pr then s
    else
      let mine := getWls env true false 0 s
      if mine.1 < bought.cost then mine.2
      else
        let has := modify env mine.2 block.id 0 false
        if 200 < int32 (has.c_ + bought.count) then has.session
        else if getSlots has.session.pl.inv = 0 then has.session
        else if confirmed = false then has.session
        else if 2 < getSlots has.session.pl.inv then
          let given := modify env has.session block.id bought.count false
          if given.ret = 0 then
            let paid := (getWls env true true bought.cost given.session).2
            paid.mapBlock w b (sell bought)
          else given.session
        else has.session

/-- The button `addstocks`. -/
def addstocks (block : WorldBlock) (s : Session) : Session :=
  if block.id ≠ 0 then
    let has := modify env s block.id 0 false
    let taken := modify env has.session block.id (has.c_ * -1) false
    if taken.ret = 0 then
      taken.session.mapBlock w b fun block =>
        { block with c_ := int32 (block.c_ + has.c_) }
    else taken.session
  else s

/-- The button `addstocks5000`. -/
def addstocks5000 (block : WorldBlock) (s : Session) : Session :=
  if block.id ≠ 0 ∧ s.pl.hasConfigAccess = true then
    s.mapBlock w b fun block =>
      { block with c_ := int32 (block.c_ + 5000) }
  else s

/-- One denomination of `withdraw`: `wl` is lowered by what is paid. -/
def withdrawLock (id unit : Int) (bank : Int → Player → Player)
    (total : Int) (s : Session) : Int × Session :=
  let paid := payLock env id unit bank total s
  (total - paid.1,
    paid.2.mapBlock w b fun block => { block with wl := block.wl - paid.1 })

/-- The button `withdraw`. -/
def withdraw (block : WorldBlock) (s : Session) : Session :=
  if block.wl ≠ 0 then
    let bgl := withdrawLock env w b 7188 10000 bankBgl block.wl s
    let dl := withdrawLock env w b 1796 100 bankDl bgl.1 bgl.2
    (withdrawLock env w b 242 1 bankWl dl.1 dl.2).2
  else s

/-- The button `pullstocks`. -/
def pullstocks (block : WorldBlock) (s : Session) : Session :=
  if 1 < getSlots s.pl.inv then
    let given := modify env s block.id block.c_ false
    if given.ret = 0 then
      given.session.mapBlock w b fun block =>
        { block with c_ := 0, id := 0, pr := 0 }
    else if 200 < block.c_ then
      let has := modify env given.session block.id 0 false
      let give := 200 - has.c_
      let lowered := has.session.mapBlock w b fun block =>
        { block with c_ := block.c_ - give }
      (modify env lowered block.id give false).session
    else given.session
  else s

/-- The price `setprice` asks for, or `none` where it is refused. -/
def newPrice (word : String) (block : WorldBlock) : Option Int :=
  let price := atoi word
  if price = 0 ∨ isDigit (firstChar word) = false ∧ 0 ≤ price then some 0
  else if price < 0 ∨ 2000000 < price then none
  else if block.pr < 0 ∧ (block.c_ < price ∨ 200 < price) then none
  else some (if block.pr < 0 then -price else price)

/-- Whether a word of the dialog names a check box, and which. -/
def checkBox (word : String) : Option String :=
  if word.toList.take 4 = "chk_".toList then
    some ((explode "_" word).getD 1 "")
  else none

def setPr (pr : Int) (s : Session) : Session :=
  s.mapBlock w b fun block => { block with pr := pr }

/-- The loop over the words of the owner's dialog.  Check boxes and the price
are read one after the other; a button ends the loop. -/
def words : List String → Session → Session
  | [], s => s
  | word :: rest, s =>
      match s.block? w b with
      | none => s
      | some block =>
          let next := rest.headD ""
          match checkBox word with
          | some "peritem" =>
              words rest
                (if block.pr < 0 ∧ next = "1" then setPr w b (-block.pr) s
                else s)
          | some "perlock" =>
              if 0 < block.pr ∧ next = "1" then
                if 200 < block.pr ∨ block.c_ < block.pr then s
                else words rest (setPr w b (-block.pr) s)
              else words rest s
          | some _ => words rest s
          | none =>
              if word = "setprice" then
                match newPrice next block with
                | some pr => words rest (setPr w b pr s)
                | none => s
              else if word = "addstocks" then addstocks env w b block s
              else if word = "addstocks5000" then addstocks5000 w b block s
              else if word = "withdraw" then withdraw env w b block s
              else if word = "upgradedigital" then s
              else if word = "pullstocks" then pullstocks env w b block s
              else words rest s

/-- The items a vending machine refuses. -/
def refuses (items : Items) (id : Int) : Bool :=
  (items.item id).untradeable ||
    [1424, 5816, 242, 1796, 7188, 8470, 9160].contains id ||
    items.isFish id

/-- Putting the whole stack of an item into an empty machine. -/
def putItem (itemId : Int) (block : WorldBlock) (s : Session) : Session :=
  if block.id ≠ 0 then s
  else
    let has := modify env s itemId 0 false
    if has.c_ = 0 then has.session
    else if refuses env.items itemId then has.session
    else
      let taken := modify env has.session itemId (has.c_ * -1) false
      if taken.ret = 0 then
        taken.session.mapBlock w b fun block =>
          { block with id := itemId, c_ := has.c_ }
      else taken.session

end Commands

/-- The branch `vending` of `call_dialog` from the machine on, for the words
`a` from the one at `i`. -/
def atVending (env : Env) (cch : String) (a : List String) (i : Nat)
    (access : Bool) (w b : Nat) (block : WorldBlock) (s : Session) : Session :=
  let word := fun n => a.getD (i + n) ""
  if a.length = 19 then
    if isDigit (firstChar (word 11)) = false then s
    else
      purchase env w b false (atoi (word 8)) (atoi (word 11)) (atoi (word 14))
        block s
  else if a.length = 23 then
    if isDigit (firstChar (word 11)) = false then s
    else
      purchase env w b true (atoi (word 14)) (atoi (word 17)) (atoi (word 11))
        block s
  else if access = false then s
  else if textFind (dialogText cch) "chk_peritem|1" ∧
      textFind (dialogText cch) "chk_perlock|1" then s
  else if a.length ≠ 13 then words env w b a s
  else putItem env w b (atoi (word 8)) block s

/-- The branch `vending` of `call_dialog`, for the word at `i`. -/
def vending (env : Env) (cch : String) (i : Nat) (s : Session) : Session :=
  let a := dialogWords cch
  let word := fun n => a.getD (i + n) ""
  let x := atoi (word 2)
  let y := atoi (word 5)
  if word 0 ≠ "vending" ∨ a.length ∉ [14, 13, 20, 17, 19, 23] ∨
      isDigit (firstChar (word 2)) = false ∨
      isDigit (firstChar (word 5)) = false ∨
      (a.length = 13 ∧ isDigit (firstChar (word 8)) = false) ∨
      x < 0 ∨ y < 0 then s
  else
    match s.findWorld s.pl.world, tileIndex 100 x y with
    | some w, some b =>
        match s.worlds[w]?, s.block? w b with
        | some world, some block =>
            let access := vendAccess env s.pl world block
            if world.maxY ≤ y ∨ world.maxX ≤ x ∨
                isVending env.items block = false ∨
                (tooFar s.pl x y ∧ access = false) then s
            else atVending env cch a i access w b block s
        | _, _ => s
    | _, _ => s

end Vending

end NopyServer
