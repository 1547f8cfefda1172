/-
The backpack: `Inventory::Modify` and the two functions it calls back into,
`AutoConvert` and `ProcessAutoSellFishInventory`.

The three functions are mutually recursive in the source.  The recursion is
broken by two flags of the player: `AutoConvert` returns at once while
`autoConvertProcessing` is set and `ProcessAutoSellFishInventory` while
`autosellfishProcessing` is set, and each sets its flag before it calls
`Modify`.  So calls nest at most twice, and `modify` unrolls two levels;
`modify_eq` of the next module is the recursive equation of the source.
-/
import NopyServer.Lib.BoundedLoop
import NopyServer.Drop

namespace NopyServer

namespace Inventory

open BoundedLoop

/-- `Inventory::Contains`. -/
def contains (inv : List (Int × Int)) (itemId : Int) : Int :=
  match inv.find? fun slot => slot.1 == itemId with
  | some slot => slot.2
  | none => 0

/-- `Inventory::Get_Slots`. -/
def getSlots (inv : List (Int × Int)) : Nat :=
  inv.countP fun slot => slot = (0, 0)

/-- `Inventory::Check_Max`. -/
def checkMax (inv : List (Int × Int)) (itemId quantityAdd : Int) : Bool :=
  inv.any fun slot => slot.1 == itemId && 200 < slot.2 + quantityAdd

/-- `b_bill.substr(2, 3)` behind a leading `"0,"`. -/
def clearedBill (bill : String) : String :=
  let bill := if bill.length < 3 then "0,0" else bill
  "0," ++ String.ofList ((bill.toList.drop 2).take 3)

/-- The last copy of the item on the billboard takes the billboard down. -/
def clearBillboard (id : Int) (pl : Player) : Player :=
  if pl.bI = id then { pl with bI := 0, bBill := clearedBill pl.bBill } else pl

/-- The counters behind items that change their look when taken off. -/
def turnLook (id : Int) (pl : Player) : Player :=
  if id = 7584 then
    { pl with sprite := if 3 < pl.sprite + 1 then 1 else pl.sprite + 1 }
  else if id = 5712 then
    { pl with wild := if 8 < pl.wild + 1 then 6 else pl.wild + 1 }
  else if id = 10666 then
    { pl with growAirBallon :=
        if 3 < pl.growAirBallon + 1 then 0 else pl.growAirBallon + 1 }
  else if id = 10044 then
    { pl with golem := if 8 < pl.golem + 1 then 6 else pl.golem + 1 }
  else if id = 7384 then
    { pl with growformer := if pl.growformer = 0 then 1 else 0 }
  else if id = 11506 ∨ id = 11508 then
    { pl with maskDragon := if pl.maskDragon = 0 then 1 else 0 }
  else if id = 10914 then
    { pl with pureShadow := if pl.pureShadow = 1 then 0 else 1 }
  else pl

/-- The garment worn in the place of a cloth type. -/
def worn (pl : Player) : ClothTypes → Option UInt16
  | .ances => some pl.ances
  | .back => some pl.back
  | .face => some pl.face
  | .feet => some pl.feet
  | .hair => some pl.hair
  | .hand => some pl.hand
  | .mask => some pl.mask
  | .necklace => some pl.necklace
  | .pants => some pl.pants
  | .shirt => some pl.shirt
  | .none => none

/-- Nothing is worn any more in the place of a cloth type. -/
def undress (pl : Player) : ClothTypes → Player
  | .ances => { pl with ances := 0 }
  | .back => { pl with back := 0 }
  | .face => { pl with face := 0 }
  | .feet => { pl with feet := 0 }
  | .hair => { pl with hair := 0 }
  | .hand => { pl with hand := 0 }
  | .mask => { pl with mask := 0 }
  | .necklace => { pl with necklace := 0 }
  | .pants => { pl with pants := 0 }
  | .shirt => { pl with shirt := 0 }
  | .none => pl

/-- The last copy of a garment is taken off; `stat_` of the source is the
first component. -/
def takeOff (item : ItemDB) (id : Int) (pl : Player) : Bool × Player :=
  match worn pl item.clothType with
  | some garment =>
      if (garment.toNat : Int) = id then (true, undress pl item.clothType)
      else (false, pl)
  | none => (false, pl)

/-- The Geiger counters lose their charge when their mod is removed. -/
def removeMod (item : ItemDB) (id : Int) (stat : Bool) (pl : Player) :
    Player :=
  if stat = true ∧ item.onRemove ≠ "" ∨ id = 2286 ∧ pl.hand = 2286 ∨
      id = 2204 ∧ pl.hand = 2204 ∨ id = 2558 ∧ pl.hand = 2560 ∨
      id = 2560 ∧ pl.hand = 2558 then
    if id = 2204 ∨ id = 2558 then pl
    else if id = 2286 ∨ id = 2560 ∧ pl.geiger_ < 100 then
      { pl with geiger_ := 0 }
    else pl
  else pl

/-- What losing the last copy of an item does besides emptying its slot. -/
def loseItem (items : Items) (id : Int) (pl : Player) : Player :=
  let pl := clearBillboard id pl
  let item := items.item id
  if item.blockType = .clothing then
    let pl := if item.flagmay ≠ 0 then { pl with flagmay := 0 } else pl
    let off := takeOff item id (turnLook id pl)
    removeMod item id off.1 off.2
  else pl

/-- Where the scan of `Modify` ends. -/
inductive Scan where
  | found (a : Nat) (n : Int)
  | free (a : Nat)
  | none
deriving Repr, DecidableEq

/-- The scan of `Modify` from index `a` on, with `last_free_` so far. -/
def scan (i : Int) : List (Int × Int) → Nat → Option Nat → Scan
  | [], _, some lastFree => .free lastFree
  | [], _, none => .none
  | slot :: rest, a, lastFree =>
      if slot.1 = i then .found a slot.2
      else
        scan i rest (a + 1)
          (if slot.1 = 0 ∧ lastFree = none then some a else lastFree)

/-- `Modify` up to the label `s_`: `none` when it returns `-1` before, and the
value left in `c_`. -/
def modifySlots (items : Items) (pl : Player) (i c : Int)
    (forceReturn : Bool) : Option Player × Int :=
  match scan i pl.inv 0 none with
  | .found a n =>
      if n + c ≤ 200 then
        if c < 0 ∧ n + c < 0 then (none, c)
        else if n + c = 0 then
          let pl := loseItem items i pl
          (some { pl with inv := pl.inv.set a (0, 0) }, c)
        else if c = 0 then (none, n)
        else (some { pl with inv := pl.inv.set a (i, n + c) }, n + c)
      else (none, if forceReturn then n else c)
  | .free a =>
      if 0 < c then (some { pl with inv := pl.inv.set a (i, c) }, c)
      else (none, c)
  | .none => (none, c)

/-- What a call of `Modify` leaves behind: its return value, the value of its
in-out argument, and the state. -/
structure Modified where
  ret : Int
  c_ : Int
  session : Session

/-- `Modify` over given versions of the two functions it calls at `s_`. -/
def modifyWith (env : Env) (autoConvert sellFish : Session → Session)
    (s : Session) (i c : Int) (forceReturn : Bool) : Modified :=
  if 200 < c ∨ env.items.size < i ∨ i ≤ 0 ∨ i = 112 ∨ s.pl.inv = [] then
    ⟨-1, c, s⟩
  else if s.pl.infiniteMode = true ∧ c < 0 then ⟨0, 0, s⟩
  else
    match modifySlots env.items s.pl i c forceReturn with
    | (none, left) => ⟨-1, left, s⟩
    | (some pl, left) =>
        let s := autoConvert { s with pl := pl }
        if 0 < c ∧ s.pl.autosellfish = true ∧
            s.pl.autosellfishProcessing = false ∧ 0 < i ∧
            i < env.items.size ∧ env.items.isFish i = true then
          ⟨0, left, sellFish s⟩
        else ⟨0, left, s⟩

section Callbacks

variable (modify : Session → Int → Int → Bool → Modified)

/-- One iteration of the loop of `try_convert_item`, with `converted`. -/
def convertItemBody (fromId toId : Int) (state : Session × Nat) :
    Next (Session × Nat) :=
  if 100 ≤ contains state.1.pl.inv fromId then
    let taken := modify state.1 fromId (-100) true
    if taken.ret ≠ 0 then .stop (taken.session, state.2)
    else
      let added := modify taken.session toId 1 true
      if added.ret ≠ 0 then
        let refund := modify added.session fromId 100 true
        .stop (refund.session, state.2)
      else .again (added.session, state.2 + 1)
  else .stop state

/-- How many iterations a conversion into `toId` can make: each of them adds
one to the stack of `toId`, which holds at most 200. -/
def convertBudget (inv : List (Int × Int)) (toId : Int) : Nat :=
  (200 - contains inv toId).toNat + 2

/-- `try_convert_item`. -/
def tryConvertItem (fromId toId : Int) (enabled : Bool) (s : Session) :
    Bool × Session :=
  if enabled = false then (false, s)
  else if contains s.pl.inv fromId < 100 then (false, s)
  else
    let last := run (convertItemBody modify fromId toId)
      (convertBudget s.pl.inv toId) (s, 0)
    (0 < last.2, last.1)

/-- One iteration of the loop of `try_convert_gems`, with `converted`. -/
def convertGemsBody (state : Session × Nat) : Next (Session × Nat) :=
  if 300000 ≤ state.1.pl.gems then
    let added := modify state.1 1796 1 true
    if added.ret ≠ 0 then .stop (added.session, state.2)
    else
      let pl := { added.session.pl with gems := added.session.pl.gems - 300000 }
      .again ({ added.session with pl := pl }, state.2 + 1)
  else .stop state

/-- `try_convert_gems`. -/
def tryConvertGems (s : Session) : Bool × Session :=
  if s.pl.autoCvModeGemsToDl = false then (false, s)
  else if s.pl.gems < 300000 then (false, s)
  else
    let last := run (convertGemsBody modify)
      (convertBudget s.pl.inv 1796) (s, 0)
    (0 < last.2, last.1)

/-- One round of the `do` loop of `AutoConvert`, with its `progress`. -/
def convertRound (s : Session) : Bool × Session :=
  let gems := tryConvertGems modify s
  let wl := tryConvertItem modify 242 1796 gems.2.pl.autoCvModeWlToDl gems.2
  let dl := tryConvertItem modify 1796 7188 wl.2.pl.autoCvModeDlToBgl wl.2
  let bgl := tryConvertItem modify 7188 8470 dl.2.pl.autoCvModeBglToGgl dl.2
  let ggl :=
    tryConvertItem modify 8470 20298 bgl.2.pl.autoCvModeGglTo20298 bgl.2
  (gems.1 || wl.1 || dl.1 || bgl.1 || ggl.1, ggl.2)

/-- The `do` loop goes on as long as a round made progress. -/
def convertRoundsBody (s : Session) : Next Session :=
  let round := convertRound modify s
  if round.1 then .again round.2 else .stop round.2

def setConverting (processing : Bool) (s : Session) : Session :=
  { s with pl := { s.pl with autoConvertProcessing := processing } }

/-- `AutoConvert`, over the `Modify` it calls. -/
def autoConvertWith (s : Session) : Session :=
  if s.pl.autoConvert = false then s
  else if s.pl.autoConvertProcessing = true then s
  else
    setConverting false
      (run (convertRoundsBody modify) 512 (setConverting true s))

/-- `VisualHandle::Drop` on the first loaded world of a name. -/
def dropInWorld (items : Items) (now : Int) (name : String)
    (drop : WorldDrop) : List World → List World
  | [] => []
  | world :: rest =>
      if world.name = name then visualDrop items now world drop :: rest
      else world :: dropInWorld items now name drop rest

/-- A drop beside the player, at most one pixel away in each direction. -/
def dropBeside (env : Env) (id count : Int) (s : Session) : Session :=
  let (x, s) := s.rand
  let (y, s) := s.rand
  let drop : WorldDrop :=
    ⟨id, count, s.pl.x + (x % 2 : Nat), s.pl.y + (y % 2 : Nat)⟩
  { s with worlds := dropInWorld env.items s.now s.pl.world drop s.worlds }

/-- One iteration of `AutoSellFish_GiveLockOrDrop`, with `amount`. -/
def giveLockBody (env : Env) (itemId : Int) (state : Session × Int) :
    Next (Session × Int) :=
  if 0 < state.2 then
    let give := if 200 < state.2 then 200 else state.2
    let added := modify state.1 itemId give true
    let s :=
      if added.ret ≠ 0 then dropBeside env itemId give added.session
      else added.session
    .again (s, state.2 - give)
  else .stop state

/-- `AutoSellFish_GiveLockOrDrop`. -/
def giveLockOrDrop (env : Env) (itemId amount : Int) (s : Session) : Session :=
  (run (giveLockBody modify env itemId) (amount.toNat + 1) (s, amount)).1

/-- One price of `ProcessAutoSellFishInventory`: all fish of a kind are sold
for one price.  The state carries `sold_any` and `total_wl`. -/
def sellFishKind (env : Env) (state : Session × Bool × Int)
    (price : Int × Int) : Session × Bool × Int :=
  let count := contains state.1.pl.inv price.1
  if price.2 ≤ 0 then state
  else if price.1 ≤ 0 ∨ (env.items.size : Int) ≤ price.1 then state
  else if env.items.isFish price.1 = false then state
  else if count ≤ 0 then state
  else
    let sold := modify state.1 price.1 (-count) true
    if sold.ret ≠ 0 then (sold.session, state.2)
    else (sold.session, true, min (state.2.2 + price.2) 2000000000)

/-- The locks paid for the fish.  The digit `ggl` is computed in the source and
never given. -/
def payForFish (env : Env) (totalWl : Int) (s : Session) : Session :=
  let wl := totalWl % 100
  let total := totalWl / 100
  let dl := total % 100
  let bgl := total / 100 % 100
  let mgl := total / 100 / 100 / 100
  let s := giveLockOrDrop modify env 8470 mgl s
  let s := giveLockOrDrop modify env 7188 bgl s
  let s := giveLockOrDrop modify env 1796 dl s
  giveLockOrDrop modify env 242 wl s

def setSelling (processing : Bool) (s : Session) : Session :=
  { s with pl := { s.pl with autosellfishProcessing := processing } }

/-- `ProcessAutoSellFishInventory`, over the `Modify` it calls. -/
def sellFishWith (env : Env) (s : Session) : Session :=
  if s.pl.autosellfish = false then s
  else if s.pl.autosellfishProcessing = true then s
  else
    let (sold, soldAny, totalWl) :=
      env.exchangeSetPrice.foldl (sellFishKind modify env)
        (setSelling true s, false, 0)
    setSelling false
      (if soldAny = true ∧ 0 < totalWl then payForFish modify env totalWl sold
      else sold)

end Callbacks

/-- `Modify` with calls nested up to a depth. -/
def modifyN (env : Env) : Nat → Session → Int → Int → Bool → Modified
  | 0 => modifyWith env id id
  | depth + 1 =>
      modifyWith env (autoConvertWith (modifyN env depth))
        (sellFishWith (modifyN env depth) env)

/-- `Inventory::Modify`. -/
def modify (env : Env) : Session → Int → Int → Bool → Modified := modifyN env 2

/-- `Inventory::AutoConvert`. -/
def autoConvert (env : Env) : Session → Session := autoConvertWith (modify env)

/-- `Inventory::ProcessAutoSellFishInventory`. -/
def processAutoSellFishInventory (env : Env) : Session → Session :=
  sellFishWith (modify env) env

end Inventory

end NopyServer
