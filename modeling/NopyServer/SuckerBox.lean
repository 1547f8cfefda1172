/-
Putting items into a sucker and taking them out: the branches
`itemaddedtosucker` and `itemremovedfromsucker` of `call_dialog`.  Adding tests
the capacity before the items are in, and removing clamps the request to a
stack with a conditional that takes the requested amount for the held one.
-/
import NopyServer.BoxLedger
import NopyServer.FishSale
import NopyServer.TradeRuns

namespace NopyServer

namespace Sucker

open Inventory SlotPack

open Trade (answer)

/-- The item that a machine gives out; type 6954 works with seeds and blocks. -/
def storedItem (block : WorldBlock) : Int :=
  if block.fg = 6954 then if block.invert then block.id else block.id - 1
  else block.id

/-- The amount that a machine gives out of. -/
def stored (block : WorldBlock) : Int :=
  if block.fg = 6954 then block.c_ else block.pr

/-- The capacity tests of adding. -/
def full (t : UInt16) (pr : Int) : Bool :=
  (t == 6948 && 1500 ≤ pr) || (t == 6946 && 1500 ≤ pr) ||
    (t == 5638 && 25000 ≤ pr) || (t == 9850 && 50000 ≤ pr) ||
    (t == 10266 && 500000 ≤ pr) || (t == 5930 && 1000000 ≤ pr) ||
    (t == 21220 && 2000000000 ≤ pr)

/-- `magplant_access`. -/
def magplantAccess (pl : Player) (world : World) (block : WorldBlock) : Bool :=
  iequals world.ownerName pl.tankIDName || pl.account.role.administrator ||
    (flagSet world.worldSettings 1024 &&
      world.admins.contains (toLower pl.tankIDName)) ||
    (block.locked && world.blocks[block.lockOrigin.toNat]?.any fun checkLock =>
      iequals checkLock.ownerName pl.tankIDName)

/-- The amount that is taken out, where `c_` is held. -/
def clamped (addCount c_ : Int) : Int :=
  if 200 < addCount + c_ then
    if 200 < addCount then 200 - c_
    else if c_ < addCount then 200 - addCount
    else 200 - c_
  else addCount

/-- The items come out of `pr`, or out of `c_` for type 6954. -/
def takeOut (count : Int) (block : WorldBlock) : WorldBlock :=
  if block.fg = 6954 then { block with c_ := block.c_ - count }
  else { block with pr := block.pr - count }

/-- The items go into `pr`, which is the fuel of type 6954. -/
def putIn (count : Int) (block : WorldBlock) : WorldBlock :=
  { block with pr := int32 (block.pr + count) }

section Handler

variable (env : Env) (w b : Nat)

/-- The branch `itemremovedfromsucker`, behind the tests; `none` where it
breaks off. -/
def removeItem (block : WorldBlock) (addCount : Int) (s : Session) :
    Option Session :=
  if stored block < addCount then none
  else
    let asked := modify env s (storedItem block) 0 false
    let count := clamped addCount asked.c_
    if stored block < count ∨ 200 < asked.c_ + count then none
    else
      let given := modify env asked.session (storedItem block) count false
      some (if given.ret = 0 then
        given.session.mapBlock w b (takeOut count)
      else given.session)

/-- The branch `itemaddedtosucker`, behind the tests. -/
def addItem (block : WorldBlock) (addCount : Int) (s : Session) :
    Option Session :=
  let asked := modify env s block.id 0 false
  if asked.c_ < addCount then none
  else
    let taken := modify env asked.session block.id (addCount * -1) false
    some (if taken.ret = 0 then
      taken.session.mapBlock w b (putIn addCount)
    else taken.session)

/-- The machine of the tile in the list of the world. -/
def listMachine (x y : Int) (s : Session) : Session :=
  match s.block? w b with
  | none => s
  | some block =>
      s.mapWorld w fun world =>
        { world with
          machines :=
            match world.machines.findIdx? fun machine =>
                (machine.x.toNat : Int) == x && (machine.y.toNat : Int) == y with
            | some k => world.machines.modify k fun machine =>
                { machine with
                  enabled := block.enabled, buildmode := block.spin
                  targetItem := UInt16.ofInt block.id }
            | none => world.machines ++
                [{ enabled := block.enabled, buildmode := block.spin
                   x := UInt16.ofInt x, y := UInt16.ofInt y, id := block.fg
                   targetItem := UInt16.ofInt block.id }] }

/-- The machine that a message is for, and the requested amount. -/
structure Request where
  w : Nat
  b : Nat
  x : Int
  y : Int
  block : WorldBlock
  addCount : Int

/-- The tests of the branch. -/
def request (a : List String) (i : Nat) (s : Session) : Option Request :=
  let digit := fun n => isDigit (firstChar (a.getD (i + n) ""))
  let (x, y) := (atoi (a.getD (i + 2) ""), atoi (a.getD (i + 5) ""))
  if a.length ≠ 13 ∨ digit 2 = false ∨ digit 5 = false ∨ x < 0 ∨ y < 0 then none
  else
    match s.findWorld s.pl.world with
    | none => none
    | some w =>
        match s.worlds[w]? with
        | none => none
        | some world =>
            if world.maxY ≤ y ∨ world.maxX ≤ x then none
            else
              match world.blocks[(x + y * 100).toNat]? with
              | none => none
              | some block =>
                  let t := if block.fg ≠ 0 then block.fg else block.bg
                  if (env.items.item block.fg.toNat).blockType ≠ .sucker ∨
                      magplantAccess s.pl world block = false then none
                  else if digit 8 = false then none
                  else if full t block.pr = true ∧
                      a.getD i "" ≠ "itemremovedfromsucker" then none
                  else
                    some ⟨w, (x + y * 100).toNat, x, y, block,
                      atoi (a.getD (i + 8) "")⟩

/-- The branch for both names. -/
def suckerItem (a : List String) (i : Nat) (s : Session) : Session :=
  match request env a i s with
  | none => s
  | some req =>
      let changed :=
        if a.getD i "" = "itemremovedfromsucker" then
          removeItem env req.w req.b req.block req.addCount s
        else addItem env req.w req.b req.block req.addCount s
      match changed with
      | none => s
      | some s => listMachine req.w req.b req.x req.y s

end Handler

section Correctness

variable {env : Env} {w b : Nat} {a : List String} {i : Nat} {s t : Session}
  {id n c : Int} {mode : Bool} {tiles : List (List WorldBlock)}

/-- `get_mag_cap_tag` as a number. -/
def capacity (t : UInt16) : Option Int :=
  if t = 5638 then some 25000
  else if t = 6946 ∨ t = 6948 ∨ t = 6954 then some 1500
  else if t = 9850 then some 50000
  else if t = 10266 then some 500000
  else if t = 5930 then some 1000000
  else if t = 21220 then some 2000000000
  else none

/-- The machine holds no less than nothing and no more than its capacity. -/
def Bounded (block : WorldBlock) : Prop :=
  0 ≤ stored block ∧ ∀ cap ∈ capacity block.fg, stored block ≤ cap

instance (block : WorldBlock) : Decidable (Bounded block) :=
  inferInstanceAs (Decidable (_ ∧ ∀ cap ∈ capacity block.fg, _))

/-- How many of an item a machine holds. -/
def holding (id : Int) (block : WorldBlock) : Int :=
  if storedItem block = id then stored block else 0

/-- What is put into a machine of type 6954 is burnt, not stored. -/
theorem stored_putIn (block : WorldBlock) (count : Int) :
    stored (putIn count block) =
      if block.fg = 6954 then stored block else int32 (stored block + count) := by
  unfold stored
  by_cases hfg : block.fg = 6954
  · simp only [putIn, hfg, ↓reduceIte]
  · simp only [putIn, hfg, ↓reduceIte]

theorem holding_putIn (block : WorldBlock) (count : Int) :
    holding block.id (putIn count block) =
      if block.fg = 6954 then holding block.id block
      else int32 (holding block.id block + count) := by
  have hitem : storedItem (putIn count block) = storedItem block := rfl
  unfold holding
  rw [hitem, stored_putIn]
  by_cases hfg : block.fg = 6954
  · simp only [hfg, ↓reduceIte]
  · have hid : storedItem block = block.id := if_neg hfg
    simp only [hfg, hid, ↓reduceIte]

theorem storedItem_takeOut (block : WorldBlock) (count : Int) :
    storedItem (takeOut count block) = storedItem block := by
  unfold takeOut
  split <;> rfl

theorem stored_takeOut (block : WorldBlock) (count : Int) :
    stored (takeOut count block) = stored block - count := by
  unfold takeOut stored
  by_cases hfg : block.fg = 6954
  · simp only [hfg, ↓reduceIte]
  · simp only [hfg, ↓reduceIte]

theorem holding_takeOut (block : WorldBlock) (count : Int) :
    holding (storedItem block) (takeOut count block) =
      holding (storedItem block) block - count := by
  unfold holding
  rw [storedItem_takeOut, stored_takeOut, if_pos rfl, if_pos rfl]

theorem bounded_takeOut {block : WorldBlock} {count : Int} (hbefore : Bounded block)
    (hcount : 0 ≤ count) (hstored : count ≤ stored block) :
    Bounded (takeOut count block) := by
  obtain ⟨-, hcaps⟩ := hbefore
  have hfg : (takeOut count block).fg = block.fg := by
    unfold takeOut
    split <;> rfl
  unfold Bounded
  rw [stored_takeOut, hfg]
  refine ⟨by omega, fun cap hcap => ?_⟩
  have hcap := hcaps cap hcap
  omega

/-- A query answers the count of an item that the table has. -/
theorem modify_ask (hslots : SlotInv s.pl.inv) (id : Int) :
    modify env s id 0 false = ⟨-1, answer env s.pl.inv id, s⟩ := by
  unfold answer
  split
  next haccepts => exact modify_query hslots haccepts false
  next haccepts => exact modify_not_accepted haccepts 0 false

theorem answer_of_accepts {inv : List (Int × Int)} (hslots : SlotInv inv)
    (haccepts : Accepts env id) : answer env inv id = total id inv :=
  (if_pos haccepts).trans (contains_eq_total hslots id)

theorem answer_of_not_accepts {inv : List (Int × Int)}
    (haccepts : ¬ Accepts env id) : answer env inv id = 0 :=
  if_neg haccepts

/-- No stack holds less than nothing or more than two hundred. -/
theorem total_range {inv : List (Int × Int)} (hslots : SlotInv inv) (id : Int) :
    0 ≤ total id inv ∧ total id inv ≤ 200 := by
  by_cases hid : id = 0
  · rw [hid, hslots.wellFormed.total_empty]
    exact ⟨le_refl 0, by decide⟩
  · exact hslots.wellFormed.total_bounds (by decide) hid

theorem block?_congr (htiles : t.worlds.map World.blocks = s.worlds.map World.blocks) :
    t.block? w b = s.block? w b := by
  have hworld := congrArg (fun tiles => tiles[w]?.bind fun blocks => blocks[b]?) htiles
  simp only [List.getElem?_map, Option.bind_map] at hworld
  exact hworld

/-- A gift that fits, and the sale that may follow it. -/
theorem modify_gift (hlocks : env.items.LocksListed) (hs : Seller id n mode tiles s)
    (hc : 0 < c) (haccepts : Accepts env id)
    (hfits : (view 0 s.pl.inv).Fits 200 id c) :
    (modify env s id c false).ret = 0 ∧
      Seller id (if Sells env s.pl id c ∧ SoldAt env mode id (n + c) env.exchangeSetPrice
        then 0 else n + c) mode tiles (modify env s id c false).session := by
  have hnonneg := (total_range hs.slots id).1
  rcases @modify_called env s id c false hs.slots haccepts (by omega) with
    ⟨next, left, hchanged, hcall⟩ | ⟨left, -, hnone⟩
  · have hnext := hs.changed hchanged
    rw [if_pos rfl] at hnext
    rw [hcall, autoConvert, autoConvertWith_quiet hnext.convert]
    refine ⟨rfl, ?_⟩
    unfold sellAfter
    by_cases hsells : Sells env s.pl id c
    · have hkept : Sells env next id c := (Sells.congr
        (Player.core_congr hchanged.core Player.autosellfish fun _ => rfl)
        (Player.core_congr hchanged.core Player.autosellfishProcessing
          fun _ => rfl)).mpr hsells
      obtain ⟨-, hon, hidle, -, -, hfish⟩ := hkept
      have hplain : id ∉ lockIds := fish_not_lock hlocks hfish
      have hsold := hnext.sale hlocks hplain hon hidle
      simp only [hsells, true_and, ↓reduceIte]
      exact hsold
    · simp only [hsells, false_and, ↓reduceIte]
      exact hnext
  · exact absurd hnone ((Pack.fits_iff hc hnonneg).mp hfits)

theorem listMachine_pl (x y : Int) : (listMachine w b x y s).pl = s.pl := by
  unfold listMachine
  split
  · rfl
  · rfl

theorem listMachine_block? (x y : Int) :
    (listMachine w b x y s).block? w b = s.block? w b := by
  unfold listMachine
  split
  next => rfl
  next block hblock =>
    obtain ⟨world, hworld, hget⟩ := Session.block?_eq_some hblock
    simp [Session.mapWorld, Session.block?, hworld]

/-- What a request finds lies in the world. -/
theorem request_found {req : Request} (hreq : request env a i s = some req) :
    s.block? req.w req.b = some req.block ∧ 0 ≤ req.addCount := by
  unfold request at hreq
  dsimp only at hreq
  split at hreq
  · cases hreq
  split at hreq
  · cases hreq
  split at hreq
  · cases hreq
  next world hworld =>
    split at hreq
    · cases hreq
    split at hreq
    · cases hreq
    next block hget =>
      split at hreq
      · cases hreq
      split at hreq
      · cases hreq
      next hdigit =>
        rw [Bool.not_eq_false] at hdigit
        cases (Option.ite_none_left_eq_some.mp hreq).2
        exact ⟨Option.bind_eq_some_iff.mpr ⟨world, hworld, hget⟩, atoi_nonneg hdigit⟩

/-- In infinite mode a call that takes items succeeds and takes nothing. -/
theorem modify_infinite_take (hmode : s.pl.infiniteMode = true) (hc : c < 0)
    (haccepts : Accepts env id) (hsome : total id s.pl.inv ≠ 0) :
    (modify env s id c false).ret = 0 ∧ (modify env s id c false).session = s := by
  refine ⟨(modify_ret_eq_zero_iff false).mpr ⟨?_, Or.inl ⟨hmode, hc⟩⟩,
    modify_infinite false hmode hc⟩
  have hinv : s.pl.inv ≠ [] := by
    intro hnil
    rw [hnil] at hsome
    exact hsome rfl
  unfold Accepts at haccepts
  simp only [hinv, or_false]
  omega

/-- What adding does, by what the player has. -/
theorem addItem_spec (env : Env) (w b : Nat) (hslots : SlotInv s.pl.inv)
    (hconvert : s.pl.autoConvert = false)
    (block : WorldBlock) {addCount : Int} (hnonneg : 0 ≤ addCount) :
    (answer env s.pl.inv block.id < addCount ∧ addItem env w b block addCount s = none) ∨
    (addCount = 0 ∧ addItem env w b block addCount s = some s) ∨
    (0 < addCount ∧ addCount ≤ answer env s.pl.inv block.id ∧
      ∃ next, (if s.pl.infiniteMode = true then next = s.pl
          else Changed s.pl block.id (-addCount) next) ∧
        addItem env w b block addCount s = some (({ s with pl := next } : Session).mapBlock
          w b (putIn addCount))) := by
  unfold addItem
  rw [modify_ask hslots]
  dsimp only
  by_cases hmissing : answer env s.pl.inv block.id < addCount
  · rw [if_pos hmissing]
    exact Or.inl ⟨hmissing, rfl⟩
  rw [if_neg hmissing]
  have henough : addCount ≤ answer env s.pl.inv block.id := Int.not_lt.mp hmissing
  right
  by_cases hzero : addCount = 0
  · left
    rw [hzero, zero_mul, modify_ask hslots]
    exact ⟨rfl, rfl⟩
  right
  have hpos : 0 < addCount := by omega
  have haccepts : Accepts env block.id := by
    by_contra hnot
    rw [answer_of_not_accepts hnot] at henough
    omega
  rw [answer_of_accepts hslots haccepts] at henough ⊢
  refine ⟨hpos, henough, ?_⟩
  rw [Int.mul_neg_one]
  by_cases hmode : s.pl.infiniteMode = true
  · obtain ⟨hret, hsame⟩ := modify_infinite_take hmode (c := -addCount) (by omega)
      haccepts (by omega)
    refine ⟨s.pl, ?_, ?_⟩
    · rw [if_pos hmode]
    · rw [if_pos hret, hsame]
  · obtain ⟨next, left, hcall, hchanged⟩ := modify_take false hslots haccepts hconvert
      (Bool.not_eq_true _ ▸ hmode) hpos henough
    refine ⟨next, ?_, ?_⟩
    · rw [if_neg hmode]
      exact hchanged
    · rw [hcall]
      rfl

theorem clamped_range {addCount held : Int} (hcount : 0 ≤ addCount)
    (hheld : 0 ≤ held) (hcap : held ≤ 200) : 0 ≤ clamped addCount held := by
  unfold clamped
  split_ifs <;> omega

/-- The clamp gives what fits, unless it takes the requested amount for the held
one. -/
theorem clamped_eq_min_iff {addCount held : Int} (hcap : held ≤ 200) :
    clamped addCount held = min addCount (200 - held) ↔
      ¬ (held < addCount ∧ addCount ≤ 200 ∧ 200 < addCount + held) := by
  unfold clamped
  split_ifs <;> omega

/-- What removing does, by what the player and the machine have. -/
theorem removeItem_spec (w b : Nat) (hlocks : env.items.LocksListed) (hslots : SlotInv s.pl.inv)
    (hconvert : s.pl.autoConvert = false) (block : WorldBlock) {addCount : Int}
    (hnonneg : 0 ≤ addCount) :
    let id := storedItem block
    let held := total id s.pl.inv
    let count := clamped addCount (answer env s.pl.inv id)
    (stored block < addCount ∧ removeItem env w b block addCount s = none) ∨
    (addCount ≤ stored block ∧
      (stored block < count ∨ 200 < answer env s.pl.inv id + count) ∧
      removeItem env w b block addCount s = none) ∨
    (addCount ≤ stored block ∧ count ≤ stored block ∧
      ¬ (0 < count ∧ Accepts env id ∧ (0 < held ∨ 0 < getSlots s.pl.inv)) ∧
      removeItem env w b block addCount s = some s) ∨
    (addCount ≤ stored block ∧ count ≤ stored block ∧ held + count ≤ 200 ∧
      0 < count ∧ Accepts env id ∧ (0 < held ∨ 0 < getSlots s.pl.inv) ∧
      ∃ t, Seller id (if Sells env s.pl id count ∧
            SoldAt env s.pl.infiniteMode id (held + count) env.exchangeSetPrice
          then 0 else held + count) s.pl.infiniteMode (s.worlds.map World.blocks) t ∧
        removeItem env w b block addCount s = some (t.mapBlock w b (takeOut count))) := by
  intro id held count
  unfold removeItem
  rw [modify_ask hslots]
  dsimp only
  by_cases hmissing : stored block < addCount
  · rw [if_pos hmissing]
    exact Or.inl ⟨hmissing, rfl⟩
  rw [if_neg hmissing]
  have henough : addCount ≤ stored block := Int.not_lt.mp hmissing
  right
  by_cases hstop : stored block < count ∨ 200 < answer env s.pl.inv id + count
  · rw [if_pos hstop]
    exact Or.inl ⟨henough, hstop, rfl⟩
  rw [if_neg hstop]
  right
  rw [not_or, Int.not_lt, Int.not_lt] at hstop
  obtain ⟨hstored, hlimit⟩ := hstop
  have hrange := total_range hslots id
  have hs : Seller id held s.pl.infiniteMode (s.worlds.map World.blocks) s :=
    ⟨hslots, Or.inl hconvert, rfl, rfl, rfl⟩
  by_cases hgives : 0 < count ∧ Accepts env id ∧ (0 < held ∨ 0 < getSlots s.pl.inv)
  · right
    obtain ⟨hpos, haccepts, hroom⟩ := hgives
    have hfits : held + count ≤ 200 := by
      rw [answer_of_accepts hslots haccepts] at hlimit
      exact hlimit
    obtain ⟨hret, hgiven⟩ := modify_gift hlocks hs hpos haccepts ⟨hfits, hroom⟩
    rw [if_pos hret]
    exact ⟨henough, hstored, hfits, hpos, haccepts, hroom, _, hgiven, rfl⟩
  · left
    refine ⟨henough, hstored, hgives, ?_⟩
    have hfail : (modify env s id count false).ret ≠ 0 ∧
        (modify env s id count false).session = s := by
      by_cases hpos : 0 < count
      · refine modify_of_not_fits hslots hpos false fun hfits => ?_
        exact hgives ⟨hpos, hfits.1, hfits.2.2⟩
      · have hanswer : 0 ≤ answer env s.pl.inv id ∧ answer env s.pl.inv id ≤ 200 := by
          by_cases haccepts : Accepts env id
          · rw [answer_of_accepts hslots haccepts]
            exact hrange
          · rw [answer_of_not_accepts haccepts]
            exact ⟨le_refl 0, by decide⟩
        have hzero : count = 0 :=
          Int.le_antisymm (Int.not_lt.mp hpos)
            (clamped_range hnonneg hanswer.1 hanswer.2)
        rw [hzero, modify_ask hslots]
        exact ⟨by simp, rfl⟩
    rw [if_neg hfail.1, hfail.2]

/-- The item that a message moves. -/
def movedItem (removing : Bool) (block : WorldBlock) : Int :=
  if removing then storedItem block else block.id

/-- A message that moves items as it should: none is lost or made, the machine
stays within its bounds, and what is taken out fills the stack. -/
structure Moved (removing : Bool) (addCount : Int) (pl : Player) (block : WorldBlock)
    (next : Player) (changed : WorldBlock) : Prop where
  conserves : total (movedItem removing block) next.inv +
      holding (movedItem removing block) changed =
    total (movedItem removing block) pl.inv + holding (movedItem removing block) block
  bounded : Bounded block → Bounded changed
  removes : removing = true → addCount ≤ stored block →
    stored block - stored changed =
      min addCount (200 - total (storedItem block) pl.inv)

/-- A message that moves nothing, or as it should. -/
def Correct (env : Env) (a : List String) (i : Nat) (s : Session) : Prop :=
  match request env a i s with
  | none => suckerItem env a i s = s
  | some req => ∃ changed,
      (suckerItem env a i s).block? req.w req.b = some changed ∧
        Moved (a.getD i "" == "itemremovedfromsucker") req.addCount s.pl req.block
          (suckerItem env a i s).pl changed

/-- What is put in fits the machine, is not burnt, and infinite mode does not
multiply it. -/
def AddSafe (env : Env) (pl : Player) (req : Request) : Prop :=
  req.addCount = 0 ∨ answer env pl.inv req.block.id < req.addCount ∨
    if req.block.fg = 6954 then pl.infiniteMode = true
    else pl.infiniteMode = false ∧
      int32 (req.block.pr + req.addCount) = req.block.pr + req.addCount ∧
      (Bounded req.block → ∀ cap ∈ capacity req.block.fg,
        req.block.pr + req.addCount ≤ cap)

/-- What is taken out has room, meets the right part of the clamp and is not
sold at once. -/
def RemoveSafe (env : Env) (pl : Player) (req : Request) : Prop :=
  let id := storedItem req.block
  let held := total id pl.inv
  let count := min req.addCount (200 - held)
  req.addCount = 0 ∨ stored req.block < req.addCount ∨ held = 200 ∨
    (Accepts env id ∧ (0 < held ∨ 0 < getSlots pl.inv) ∧
      ¬ (held < req.addCount ∧ req.addCount ≤ 200 ∧ 200 < req.addCount + held) ∧
      ¬ (Sells env pl id count ∧
        SoldAt env pl.infiniteMode id (held + count) env.exchangeSetPrice))

/-- The state in which a message is carried out as it should be. -/
def Safe (env : Env) (a : List String) (i : Nat) (pl : Player) (req : Request) : Prop :=
  if a.getD i "" = "itemremovedfromsucker" then RemoveSafe env pl req
  else AddSafe env pl req

theorem Moved.refl {removing : Bool} {addCount : Int} {pl : Player} {block : WorldBlock}
    (hremoves : removing = true → addCount ≤ stored block →
      min addCount (200 - total (storedItem block) pl.inv) = 0) :
    Moved removing addCount pl block pl block where
  conserves := rfl
  bounded := id
  removes hremoving hle := by rw [hremoves hremoving hle, sub_self]

theorem bounded_putIn_fuel {block : WorldBlock} (hfg : block.fg = 6954) (count : Int)
    (hbefore : Bounded block) : Bounded (putIn count block) := by
  unfold Bounded
  rw [stored_putIn, if_pos hfg]
  exact hbefore

theorem bounded_putIn_iff {block : WorldBlock} (hfg : block.fg ≠ 6954) {count : Int}
    (hpos : 0 < count) (hint : int32 (block.pr + count) = block.pr + count) :
    (Bounded block → Bounded (putIn count block)) ↔
      (Bounded block → ∀ cap ∈ capacity block.fg, block.pr + count ≤ cap) := by
  have hstored : stored block = block.pr := if_neg hfg
  refine forall_congr' fun hbefore => ?_
  have hnonneg := hbefore.1
  unfold Bounded
  rw [stored_putIn, if_neg hfg, hstored, hint]
  exact and_iff_right (by omega)

/-- Items that go out of a backpack and into a machine are all there afterwards, and
fit, exactly when they are fuel that nobody pays, or are paid and fit. -/
theorem putIn_kept_iff (block : WorldBlock) {count held : Int} (infinite : Bool)
    (hpos : 0 < count) (hcount : count ≤ 200) :
    (held - (if infinite = true then 0 else count)) + holding block.id (putIn count block) =
        held + holding block.id block ∧ (Bounded block → Bounded (putIn count block)) ↔
      if block.fg = 6954 then infinite = true
      else infinite = false ∧ int32 (block.pr + count) = block.pr + count ∧
        (Bounded block → ∀ cap ∈ capacity block.fg, block.pr + count ≤ cap) := by
  rw [holding_putIn]
  by_cases hfg : block.fg = 6954
  · -- the fuel grows, the stored items stay
    rw [if_pos hfg, if_pos hfg]
    refine ⟨fun h => ?_, fun hmode => ⟨?_, bounded_putIn_fuel hfg count⟩⟩
    · by_contra hmode
      rw [if_neg hmode] at h
      omega
    · rw [if_pos hmode, sub_zero]
  · have hitem : storedItem block = block.id := if_neg hfg
    have hheld : holding block.id block = block.pr := (if_pos hitem).trans (if_neg hfg)
    rw [if_neg hfg, if_neg hfg, hheld]
    cases infinite with
    | true =>
        refine iff_of_false (fun h => ?_) (fun h => by cases h.1)
        have hkept := h.1
        rw [if_pos rfl] at hkept
        have hwrap : int32 (block.pr + count) = block.pr := by omega
        unfold int32 at hwrap
        rw [Int.bmod_def] at hwrap
        split at hwrap <;> omega
    | false =>
        rw [if_neg Bool.false_ne_true]
        constructor
        · rintro ⟨hkept, hafter⟩
          have hint : int32 (block.pr + count) = block.pr + count := by omega
          exact ⟨rfl, hint, (bounded_putIn_iff hfg hpos hint).mp hafter⟩
        · rintro ⟨-, hint, hafter⟩
          exact ⟨by omega, (bounded_putIn_iff hfg hpos hint).mpr hafter⟩

/-- Adding is as it should be exactly in the states that are safe for it. -/
theorem addItem_moved_iff (hslots : SlotInv s.pl.inv)
    (hconvert : s.pl.autoConvert = false) {req : Request}
    (hblock : s.block? req.w req.b = some req.block) (hnonneg : 0 ≤ req.addCount) :
    let t := (addItem env req.w req.b req.block req.addCount s).getD s
    (∃ changed, t.block? req.w req.b = some changed ∧
      Moved false req.addCount s.pl req.block t.pl changed) ↔ AddSafe env s.pl req := by
  intro t
  have hresult : t = (addItem env req.w req.b req.block req.addCount s).getD s := rfl
  have hstays : t = s → ∃ changed, t.block? req.w req.b = some changed ∧
      Moved false req.addCount s.pl req.block t.pl changed := by
    intro ht
    rw [ht]
    exact ⟨req.block, hblock, .refl fun hremoving => absurd hremoving (by decide)⟩
  rcases addItem_spec env req.w req.b hslots hconvert req.block hnonneg
    with ⟨hmissing, hadd⟩ | ⟨hzero, hadd⟩ | ⟨hpos, henough, next, hnext, hadd⟩
  · exact iff_of_true (hstays (hresult.trans (by rw [hadd]; rfl)))
      (Or.inr (Or.inl hmissing))
  · exact iff_of_true (hstays (hresult.trans (by rw [hadd]; rfl)))
      (Or.inl hzero)
  · have ht : t = ({ s with pl := next } : Session).mapBlock req.w req.b
        (putIn req.addCount) := by
      rw [hresult, hadd]
      rfl
    have hchanged := Session.block?_mapBlock (s := { s with pl := next }) hblock
      (putIn req.addCount)
    have hcount : req.addCount ≤ 200 := by
      have hrange := total_range hslots req.block.id
      unfold answer at henough
      split at henough
      · rw [contains_eq_total hslots] at henough
        omega
      · omega
    have hinv : total req.block.id next.inv = total req.block.id s.pl.inv -
        if s.pl.infiniteMode = true then 0 else req.addCount := by
      split_ifs at hnext ⊢
      · rw [hnext, sub_zero]
      · exact Pack.change_amount_self hnext.view
    have hmoved : (∃ changed, t.block? req.w req.b = some changed ∧
          Moved false req.addCount s.pl req.block t.pl changed) ↔
        total req.block.id next.inv + holding req.block.id (putIn req.addCount req.block) =
          total req.block.id s.pl.inv + holding req.block.id req.block ∧
        (Bounded req.block → Bounded (putIn req.addCount req.block)) := by
      rw [ht]
      constructor
      · rintro ⟨changed, hget, hmoved⟩
        rw [hchanged] at hget
        obtain rfl := Option.some.inj hget
        exact ⟨hmoved.conserves, hmoved.bounded⟩
      · rintro ⟨hconserves, hbounded⟩
        exact ⟨_, hchanged, hconserves, hbounded,
          fun hremoving => absurd hremoving (by decide)⟩
    have hsafe : AddSafe env s.pl req ↔
        if req.block.fg = 6954 then s.pl.infiniteMode = true
        else s.pl.infiniteMode = false ∧
          int32 (req.block.pr + req.addCount) = req.block.pr + req.addCount ∧
          (Bounded req.block → ∀ cap ∈ capacity req.block.fg,
            req.block.pr + req.addCount ≤ cap) := by
      unfold AddSafe
      constructor
      · rintro (hzero | hmissing | hsafe)
        · omega
        · omega
        · exact hsafe
      · exact fun hsafe => Or.inr (Or.inr hsafe)
    rw [hmoved, hsafe, hinv]
    exact putIn_kept_iff req.block s.pl.infiniteMode hpos hcount

/-- When nothing was taken out, nothing should have been. -/
theorem removeSafe_of_stays (hslots : SlotInv s.pl.inv) {req : Request}
    (hnonneg : 0 ≤ req.addCount) (henough : req.addCount ≤ stored req.block)
    (hstays : let id := storedItem req.block
      let count := clamped req.addCount (answer env s.pl.inv id)
      stored req.block < count ∨ 200 < answer env s.pl.inv id + count ∨
        ¬ (0 < count ∧ Accepts env id ∧
          (0 < total id s.pl.inv ∨ 0 < getSlots s.pl.inv))) :
    min req.addCount (200 - total (storedItem req.block) s.pl.inv) = 0 ↔
      RemoveSafe env s.pl req := by
  have hrange := total_range hslots (storedItem req.block)
  unfold RemoveSafe
  dsimp only at hstays ⊢
  constructor
  · intro hmin
    by_cases hzero : req.addCount = 0
    · exact Or.inl hzero
    · exact Or.inr (Or.inr (Or.inl (by omega)))
  · rintro (hzero | hmissing | hheld | ⟨haccepts, hroom, hclamp, -⟩)
    · omega
    · omega
    · omega
    · -- the clamp gives the wanted amount, so it was wanted to be nothing
      rw [answer_of_accepts hslots haccepts, (clamped_eq_min_iff hrange.2).mpr hclamp]
        at hstays
      rcases hstays with h | h | h
      · omega
      · omega
      · have hcount : ¬ 0 < min req.addCount
            (200 - total (storedItem req.block) s.pl.inv) :=
          fun hpos => h ⟨hpos, haccepts, hroom⟩
        omega

/-- Removing is as it should be exactly in the states that are safe for it. -/
theorem removeItem_moved_iff (hlocks : env.items.LocksListed) (hslots : SlotInv s.pl.inv)
    (hconvert : s.pl.autoConvert = false) {req : Request}
    (hblock : s.block? req.w req.b = some req.block) (hnonneg : 0 ≤ req.addCount) :
    let t := (removeItem env req.w req.b req.block req.addCount s).getD s
    (∃ changed, t.block? req.w req.b = some changed ∧
      Moved true req.addCount s.pl req.block t.pl changed) ↔ RemoveSafe env s.pl req := by
  intro t
  have hrange := total_range hslots (storedItem req.block)
  have hresult : t = (removeItem env req.w req.b req.block req.addCount s).getD s := rfl
  have hstays : t = s → ((∃ changed, t.block? req.w req.b = some changed ∧
      Moved true req.addCount s.pl req.block t.pl changed) ↔
        (req.addCount ≤ stored req.block →
          min req.addCount (200 - total (storedItem req.block) s.pl.inv) = 0)) := by
    intro ht
    rw [ht]
    constructor
    · rintro ⟨changed, hget, hmoved⟩ henough
      rw [hblock] at hget
      obtain rfl := Option.some.inj hget
      exact (hmoved.removes rfl henough).symm.trans (sub_self _)
    · intro hmin
      exact ⟨req.block, hblock, .refl fun _ henough => hmin henough⟩
  have hspec := removeItem_spec req.w req.b hlocks hslots hconvert
    req.block hnonneg
  dsimp only at hspec
  rcases hspec with ⟨hmissing, hremove⟩ | ⟨henough, hstop, hremove⟩ |
    ⟨henough, hstored, hnot, hremove⟩ |
    ⟨henough, hstored, hfits, hpos, haccepts, hroom, u, hu, hremove⟩
  · rw [hstays (hresult.trans (by rw [hremove]; rfl))]
    exact iff_of_true (fun henough => absurd henough (by omega)) (Or.inr (Or.inl hmissing))
  · rw [hstays (hresult.trans (by rw [hremove]; rfl))]
    simp only [henough, forall_const]
    apply removeSafe_of_stays hslots hnonneg henough
    exact hstop.imp_right Or.inl
  · rw [hstays (hresult.trans (by rw [hremove]; rfl))]
    simp only [henough, forall_const]
    exact removeSafe_of_stays hslots hnonneg henough (Or.inr (Or.inr hnot))
  · rw [hresult, hremove, Option.getD_some]
    rw [answer_of_accepts hslots haccepts] at hstored hfits hpos hu ⊢
    generalize hcount : clamped req.addCount (total (storedItem req.block) s.pl.inv) =
      count at hstored hfits hpos hu ⊢
    have hclamp := @clamped_eq_min_iff req.addCount _ hrange.2
    rw [hcount] at hclamp
    have hchanged := Session.block?_mapBlock ((block?_congr hu.tiles).trans hblock)
      (takeOut count)
    have hholding := holding_takeOut req.block count
    have hamount := hu.count
    constructor
    · rintro ⟨changed, hget, hmoved⟩
      rw [hchanged] at hget
      obtain rfl := Option.some.inj hget
      have hconserves : total (storedItem req.block) u.pl.inv +
          holding (storedItem req.block) _ = total (storedItem req.block) s.pl.inv +
            holding (storedItem req.block) req.block := hmoved.conserves
      have hremoves := hmoved.removes rfl henough
      rw [stored_takeOut, sub_sub_cancel] at hremoves
      refine Or.inr (Or.inr (Or.inr ⟨haccepts, hroom, hclamp.mp hremoves, ?_⟩))
      rw [← hremoves]
      intro hsold
      rw [if_pos hsold] at hamount
      omega
    · intro hsafe
      have hright : count = min req.addCount
            (200 - total (storedItem req.block) s.pl.inv) ∧
          ¬ (Sells env s.pl (storedItem req.block) count ∧
            SoldAt env s.pl.infiniteMode (storedItem req.block)
              (total (storedItem req.block) s.pl.inv + count) env.exchangeSetPrice) := by
        rcases hsafe with hzero | hmissing | hheld | ⟨-, -, hmiddle, hsold⟩
        · rw [hzero] at hcount
          unfold clamped at hcount
          split_ifs at hcount <;> omega
        · omega
        · omega
        · have heq := hclamp.mpr hmiddle
          rw [← heq] at hsold
          exact ⟨heq, hsold⟩
      rw [if_neg hright.2] at hamount
      refine ⟨_, hchanged, ?_, ?_, ?_⟩
      · change total (storedItem req.block) u.pl.inv + holding (storedItem req.block) _ =
          total (storedItem req.block) s.pl.inv + holding (storedItem req.block) req.block
        omega
      · exact fun hbefore => bounded_takeOut hbefore (by omega) hstored
      · intro _ _
        rw [stored_takeOut, sub_sub_cancel]
        exact hright.1

end Correctness

section Example

/-- A table with one kind of machine. -/
def farmItems : Env where
  items := ⟨20298, fun id => if id = 5638 then { blockType := .sucker } else {}⟩

/-- A machine that holds a thousand of an item. -/
def farmMachine : WorldBlock := { fg := 5638, id := 2, pr := 1000 }

/-- The owner of a world with one machine, with a hundred of its item. -/
def farmer : Session where
  pl := { tankIDName := "ann", world := "FARM", inv := [(2, 100), (0, 0)] }
  worlds := [{
    name := "FARM", ownerName := "ann", maxX := 100, maxY := 60
    blocks := farmMachine :: List.replicate 5999 {} }]

/-- A message for the machine at the origin. -/
def farmMessage (name count : String) : List String :=
  ["action", "dialog_return", "dialog_name", name, "tilex", "0", "", "tiley", "0", "",
    "itemcount", count, ""]

end Example

end Sucker

end NopyServer
