/-
What the Buying Machine conserves.  A sale pays the seller and never lowers the
stock `c_` it is paid from, so every sale that goes through makes money; a
stock of more than two hundred blue gem locks loses the rest when it is taken,
and the bought items change their name when the machine is reset with some of
them inside.  Apart from these every run of messages conserves the value of
locks and the number of every item.
-/
import NopyServer.BuyingMachine
import NopyServer.MachineLedger

namespace NopyServer

namespace BuyingMachine

open Inventory SlotPack Ledger

/-- The lock stock of a machine. -/
def machineLocks (block : WorldBlock) : Int :=
  if block.fg = 15230 then block.c_ else 0

/-- How many of an item a machine stores. -/
def machineGoods (id : Int) (block : WorldBlock) : Int :=
  if block.fg = 15230 ∧ block.id = id then block.wl else 0

/-- The value of the locks in backpacks, banks, machines and drops. -/
def lockBook : Book where
  player := playerLocks
  world world := blocksOf machineLocks world + dropLocks world.dropNew

/-- The number of an item in backpacks and machines. -/
def goodsBook (id : Int) : Book where
  player pl := total id pl.inv
  world := blocksOf (machineGoods id)

section Books

variable {s : Session} {i c : Int} {next : Player}

theorem lockBook_given (hgiven : Given s.pl i c next) :
    lockBook.held { s with pl := next } =
      lockBook.held s + c * lockWorth i := by
  have hplayer := hgiven.playerLocks
  simp only [Book.held, lockBook, hplayer]
  omega

theorem goodsBook_given (hgiven : Given s.pl i c next) (id : Int) :
    (goodsBook id).held { s with pl := next } =
      (goodsBook id).held s + if i = id then c else 0 := by
  have hamount := hgiven.amount id
  simp only [Book.held, goodsBook, hamount]
  omega

variable {w b : Nat} {block : WorldBlock}

theorem lockBook_mapBlock (hblock : s.block? w b = some block)
    (f : WorldBlock → WorldBlock) :
    lockBook.held (s.mapBlock w b f) =
      lockBook.held s + (machineLocks (f block) - machineLocks block) := by
  obtain ⟨world, hworld, hget⟩ := Session.block?_eq_some hblock
  have hblocks := blocksOf_modify machineLocks hget f
  rw [Session.mapBlock, lockBook.held_mapWorld hworld]
  simp only [lockBook, hblocks]
  omega

theorem goodsBook_mapBlock (hblock : s.block? w b = some block)
    (f : WorldBlock → WorldBlock) (id : Int) :
    (goodsBook id).held (s.mapBlock w b f) = (goodsBook id).held s +
      (machineGoods id (f block) - machineGoods id block) := by
  obtain ⟨world, hworld, hget⟩ := Session.block?_eq_some hblock
  have hblocks := blocksOf_modify (machineGoods id) hget f
  rw [Session.mapBlock, (goodsBook id).held_mapWorld hworld]
  simp only [goodsBook, hblocks]
  omega

end Books

/-- What a message conserves: the value of locks, and the listed items. -/
structure Balanced (ids : Int → Prop) (s t : Session) : Prop where
  calm : Calm t.pl
  locks : lockBook.held t = lockBook.held s
  goods : ∀ id, ids id → (goodsBook id).held t = (goodsBook id).held s

theorem Balanced.refl (ids : Int → Prop) {s : Session} (hcalm : Calm s.pl) :
    Balanced ids s s :=
  ⟨hcalm, rfl, fun _ _ => rfl⟩

theorem Balanced.mono {ids fewer : Int → Prop} {s t : Session}
    (hst : Balanced ids s t) (hids : ∀ id, fewer id → ids id) :
    Balanced fewer s t :=
  ⟨hst.calm, hst.locks, fun id hid => hst.goods id (hids id hid)⟩

/-- Items apart from free slots. -/
def IsItem (id : Int) : Prop := id ≠ 0

/-- Items that are not money. -/
def IsGood (id : Int) : Prop := id ≠ 0 ∧ id ∉ moneyIds

/-- A session at a machine, with room for some drops in its world. -/
structure Standing (s : Session) (w b : Nat) (block : WorldBlock)
    (more : Nat) : Prop where
  calm : Calm s.pl
  block : s.block? w b = some block
  fit : ∀ world, s.worlds[w]? = some world →
    DropsFit s.now world.dropNew more

section Buttons

variable {env : Env} {s : Session} {w b : Nat} {block : WorldBlock}

/-- A change of the block that keeps its stock and its stored items. -/
theorem balanced_mapBlock (hcalm : Calm s.pl)
    (hblock : s.block? w b = some block) {f : WorldBlock → WorldBlock}
    {ids : Int → Prop} (hlocks : machineLocks (f block) = machineLocks block)
    (hgoods : ∀ id, ids id →
      machineGoods id (f block) = machineGoods id block) :
    Balanced ids s (s.mapBlock w b f) where
  calm := hcalm
  locks := by
    rw [lockBook_mapBlock hblock, hlocks]
    omega
  goods id hid := by
    rw [goodsBook_mapBlock hblock, hgoods id hid]
    omega

/-- `reset` of a machine that has nothing to lose. -/
theorem reset_balanced (hcalm : Calm s.pl)
    (hblock : s.block? w b = some block)
    (hempty : block.id = 0 ∨ block.wl = 0) :
    Balanced IsItem s
      (s.mapBlock w b fun block => { block with id := 0 }) := by
  refine balanced_mapBlock hcalm hblock rfl fun id hid => ?_
  simp only [IsItem] at hid
  simp only [machineGoods]
  rcases hempty with hzero | hzero
  · simp [hzero]
  · simp [hzero]

/-- `choose_` on a machine that stores nothing. -/
theorem choose_balanced (hcalm : Calm s.pl)
    (hblock : s.block? w b = some block) {chosen : Int}
    (hzero : block.id = 0) (hempty : block.wl = 0 ∨ chosen = 0) :
    Balanced IsItem s
      (s.mapBlock w b fun block => { block with id := chosen }) := by
  refine balanced_mapBlock hcalm hblock rfl fun id hid => ?_
  simp only [IsItem] at hid
  simp only [machineGoods, hzero]
  rcases hempty with hempty | hempty
  · simp [hempty]
  · simp [hempty]

/-- Neither book looks at the price of a machine. -/
theorem machineLocks_pr (block : WorldBlock) (pr : Int) :
    machineLocks { block with pr := pr } = machineLocks block := rfl

theorem machineGoods_pr (id : Int) (block : WorldBlock) (pr : Int) :
    machineGoods id { block with pr := pr } = machineGoods id block := rfl

theorem setPrice_balanced (hcalm : Calm s.pl)
    (hblock : s.block? w b = some block) (cch : String) :
    Balanced IsItem s (setPrice w b cch s) := by
  apply balanced_mapBlock hcalm hblock
  · exact machineLocks_pr block _
  · intro id _
    exact machineGoods_pr id block _

/-- `withdraw` of an item that is not money. -/
theorem withdraw_balanced (hcalm : Calm s.pl)
    (hblock : s.block? w b = some block) (hfg : block.fg = 15230)
    (hmoney : block.id ∉ moneyIds)
    (hquiet : ∀ c, Quiet env s.pl block.id c) :
    Balanced IsItem s (withdraw env w b block s) := by
  unfold withdraw
  split
  · exact Balanced.refl _ hcalm
  · dsimp only
    generalize (if block.wl < 200 - contains s.pl.inv block.id then block.wl
      else 200 - contains s.pl.inv block.id) = receive
    rcases modify_moves false hcalm.slots (hquiet receive) with
      ⟨next, left, hgive, hgiven⟩ | ⟨left, hgive⟩
    · have hsame : Session.block? { s with pl := next } w b = some block :=
        hblock
      rw [hgive]
      simp only [↓reduceIte]
      refine ⟨hcalm.of_given hgiven, ?_, fun id _ => ?_⟩
      · rw [lockBook_mapBlock hsame, lockBook_given hgiven,
          lockWorth_eq_zero hmoney]
        simp [machineLocks]
      · rw [goodsBook_mapBlock hsame, goodsBook_given hgiven]
        simp only [machineGoods, hfg, true_and]
        split <;> omega
    · rw [hgive]
      exact Balanced.refl _ hcalm

theorem splitLocks_sum (count : Int) :
    (splitLocks count).bgl * 10000 + (splitLocks count).dl * 100 +
      (splitLocks count).wl = count := by
  have hbgl := Int.mul_tdiv_add_tmod count 10000
  have hdl := Int.mul_tdiv_add_tmod (count.tmod 10000) 100
  simp only [splitLocks]
  omega

theorem splitLocks_small (count : Int) :
    (splitLocks count).dl ≤ 99 ∧ (splitLocks count).wl ≤ 99 := by
  have hrest := Int.tmod_lt_of_pos count (show (0 : Int) < 10000 by decide)
  have hdl := Int.mul_tdiv_add_tmod (count.tmod 10000) 100
  have hwl := Int.tmod_lt_of_pos (count.tmod 10000) (show (0 : Int) < 100 by decide)
  have hsign : 0 ≤ count.tmod 10000 → 0 ≤ (count.tmod 10000).tmod 100 :=
    fun h => Int.tmod_nonneg 100 h
  have hlow := Int.lt_tmod_of_pos (count.tmod 10000) (show (0 : Int) < 100 by decide)
  simp only [splitLocks]
  omega

theorem splitLocks_nonneg {count : Int} (hcount : 0 ≤ count) :
    0 ≤ (splitLocks count).bgl ∧ 0 ≤ (splitLocks count).dl ∧
      0 ≤ (splitLocks count).wl := by
  have hrest := Int.tmod_nonneg 10000 hcount
  exact ⟨Int.tdiv_nonneg hcount (by decide),
    Int.tdiv_nonneg hrest (by decide), Int.tmod_nonneg 100 hrest⟩

/-- Taking locks that are there. -/
theorem takeLocks_given (hlocks : env.items.LocksListed) {id count : Int}
    (hid : id ∈ moneyIds) (hcalm : Calm s.pl) (hcount : 0 ≤ count)
    (henough : count ≤ contains s.pl.inv id) :
    ∃ next, takeLocks env id count s = { s with pl := next } ∧
      Given s.pl id (-count) next := by
  unfold takeLocks
  by_cases hpos : 0 < count
  · obtain ⟨next, left, htake, hgiven⟩ := modify_takes false hcalm.slots
      (hcalm.quiet (money_not_fish hlocks hid) (-count))
      (money_accepts hlocks hid) (by omega) (by omega)
    refine ⟨next, ?_, hgiven⟩
    rw [if_pos hpos, htake]
  · have hzero : count = 0 := by omega
    refine ⟨s.pl, if_neg hpos, hcalm.slots, rfl, fun other => ?_⟩
    simp [hzero]

/-- `addstock` of an amount that is not negative and does not overflow. -/
theorem addstock_balanced (hlocks : env.items.LocksListed)
    (hcalm : Calm s.pl) (hblock : s.block? w b = some block)
    (hfg : block.fg = 15230) {cch : String}
    (hcount : 0 ≤ atoi (TextScanner.get cch "stockwls"))
    (hrange : int32 (block.c_ + atoi (TextScanner.get cch "stockwls")) =
      block.c_ + atoi (TextScanner.get cch "stockwls")) :
    Balanced IsGood s (addstock env w b cch s) := by
  unfold addstock
  have hsum := splitLocks_sum (atoi (TextScanner.get cch "stockwls"))
  obtain ⟨hbgl, hdl, hwl⟩ := splitLocks_nonneg hcount
  rw [← hsum] at hrange
  generalize splitLocks (atoi (TextScanner.get cch "stockwls")) = parts at *
  dsimp only
  split_ifs with hfewBgl hfewDl hfewWl
  · exact Balanced.refl _ hcalm
  · exact Balanced.refl _ hcalm
  · exact Balanced.refl _ hcalm
  · have hhasBgl := contains_nonneg hcalm.slots (show (7188 : Int) ≠ 0 by decide)
    have hhasDl := contains_nonneg hcalm.slots (show (1796 : Int) ≠ 0 by decide)
    have hhasWl := contains_nonneg hcalm.slots (show (242 : Int) ≠ 0 by decide)
    obtain ⟨first, hfirst, hgiven₁⟩ := takeLocks_given hlocks
      (show (7188 : Int) ∈ moneyIds by decide) hcalm hbgl (by omega)
    have hcalm₁ := hcalm.of_given hgiven₁
    have hdlSame := hgiven₁.contains_of_ne hcalm.slots
      (show (7188 : Int) ≠ 1796 by decide)
    have hwlSame := hgiven₁.contains_of_ne hcalm.slots
      (show (7188 : Int) ≠ 242 by decide)
    rw [hfirst]
    obtain ⟨second, hsecond, hgiven₂⟩ := @takeLocks_given env
      { s with pl := first } hlocks 1796 parts.dl (by decide) hcalm₁ hdl
      (by dsimp only; omega)
    have hcalm₂ := hcalm₁.of_given hgiven₂
    have hwlSame₂ := hgiven₂.contains_of_ne hcalm₁.slots
      (show (1796 : Int) ≠ 242 by decide)
    rw [hsecond]
    dsimp only at hwlSame₂ ⊢
    obtain ⟨third, hthird, hgiven₃⟩ := @takeLocks_given env
      { s with pl := second } hlocks 242 parts.wl (by decide) hcalm₂ hwl
      (by dsimp only; omega)
    rw [hthird]
    dsimp only
    have hsame : Session.block? { s with pl := third } w b = some block :=
      hblock
    have hlock₁ := lockBook_given hgiven₁
    have hlock₂ := @lockBook_given { s with pl := first } _ _ _ hgiven₂
    have hlock₃ := @lockBook_given { s with pl := second } _ _ _ hgiven₃
    refine ⟨hcalm₂.of_given hgiven₃, ?_, fun id hid => ?_⟩
    · rw [lockBook_mapBlock hsame, hlock₃, hlock₂, hlock₁]
      simp only [machineLocks, hfg, ↓reduceIte, lockWorth, Int.reduceEq]
      omega
    · have hgoods₁ := goodsBook_given hgiven₁ id
      have hgoods₂ := @goodsBook_given { s with pl := first } _ _ _ hgiven₂ id
      have hgoods₃ := @goodsBook_given { s with pl := second } _ _ _ hgiven₃ id
      have hne : ∀ money ∈ moneyIds, money ≠ id := fun money hmem heq =>
        hid.2 (heq ▸ hmem)
      rw [if_neg (hne _ (by decide))] at hgoods₁ hgoods₂ hgoods₃
      rw [goodsBook_mapBlock hsame, hgoods₃, hgoods₂, hgoods₁]
      simp [machineGoods]

theorem normalizeDropId_money {id : Int} (hid : id ∈ moneyIds) :
    normalizeDropId id = id ∧ id ≠ 112 := by
  simp only [moneyIds, List.mem_cons, List.not_mem_nil, or_false] at hid
  rcases hid with rfl | rfl | rfl <;> decide

theorem dropLocks_visualDrop (items : Items) {now : Int} {world : World}
    {more : Nat} (hfit : DropsFit now world.dropNew (more + 1))
    {drop : WorldDrop} (hid : drop.id ∈ moneyIds) (hcount : drop.count ≤ 2 ^ 31 - 200) :
    dropLocks (visualDrop items now world drop).dropNew =
        dropLocks world.dropNew + drop.count * lockWorth drop.id ∧
      DropsFit now (visualDrop items now world drop).dropNew more := by
  obtain ⟨hnorm, hgem⟩ := normalizeDropId_money hid
  have hdrop := dropTotal_visualDrop items hfit hcount (by rw [hnorm]; exact hgem)
  refine ⟨?_, (hdrop 0).2⟩
  unfold dropLocks
  rw [← locksOf_add]
  refine congrArg locksOf (funext fun id => ?_)
  rw [(hdrop id).1, hnorm]

variable {more : Nat}

theorem Standing.weaken (hs : Standing s w b block (more + 1)) :
    Standing s w b block more :=
  ⟨hs.calm, hs.block, fun world hworld => (hs.fit world hworld).weaken⟩

/-- Locks dropped at the player stay in the books. -/
theorem dropAround_standing {id : Int} (hid : id ∈ moneyIds)
    (hs : Standing s w b block (more + 1)) {count : Int} (hcount : count ≤ 2 ^ 31 - 200) :
    Standing (dropAround env w id count s) w b block more ∧
      lockBook.held (dropAround env w id count s) =
        lockBook.held s + count * lockWorth id ∧
      ∀ other, (goodsBook other).held (dropAround env w id count s) =
        (goodsBook other).held s := by
  obtain ⟨world, hworld, hget⟩ := Session.block?_eq_some hs.block
  obtain ⟨drop, hdropId, hdropCount, heq⟩ : ∃ drop : WorldDrop,
      drop.id = id ∧ drop.count = count ∧ dropAround env w id count s =
        s.rand.2.rand.2.mapWorld w
          fun world => visualDrop env.items s.now world drop :=
    ⟨_, rfl, rfl, rfl⟩
  obtain ⟨hvalue, hfit⟩ := dropLocks_visualDrop env.items
    (hs.fit world hworld) (hdropId ▸ hid) (hdropCount ▸ hcount)
  have hworld' : s.rand.2.rand.2.worlds[w]? = some world := hworld
  have hafter : (s.worlds.modify w fun world =>
      visualDrop env.items s.now world drop)[w]? =
        some (visualDrop env.items s.now world drop) := by
    simp [hworld]
  rw [heq]
  refine ⟨⟨hs.calm, ?_, ?_⟩, ?_, fun other => ?_⟩
  · simp only [Session.block?, Session.mapWorld, Session.rand_worlds, hafter,
      Option.bind_some]
    exact hget
  · intro next hnext
    simp only [Session.mapWorld, Session.rand_worlds, hafter,
      Option.some.injEq] at hnext
    exact hnext ▸ hfit
  · have hheld : lockBook.held s.rand.2.rand.2 = lockBook.held s := rfl
    have hblocks : blocksOf machineLocks
        (visualDrop env.items s.now world drop) =
          blocksOf machineLocks world := rfl
    rw [lockBook.held_mapWorld hworld', hheld, ← hdropId, ← hdropCount]
    simp only [lockBook, hvalue, hblocks]
    omega
  · have hheld : (goodsBook other).held s.rand.2.rand.2 =
        (goodsBook other).held s := rfl
    have hblocks : blocksOf (machineGoods other)
        (visualDrop env.items s.now world drop) =
          blocksOf (machineGoods other) world := rfl
    rw [(goodsBook other).held_mapWorld hworld', hheld]
    simp only [goodsBook, hblocks]
    omega

/-- Giving locks, or dropping them, brings them into the books. -/
theorem giveOrDrop_standing (hlocks : env.items.LocksListed) {id : Int}
    (hid : id ∈ moneyIds) (hs : Standing s w b block (more + 1))
    {count : Int} (hcount : count ≤ 2 ^ 31 - 200) :
    Standing (giveOrDrop env w id count s) w b block more ∧
      lockBook.held (giveOrDrop env w id count s) =
        lockBook.held s + count * lockWorth id ∧
      ∀ other, IsGood other → (goodsBook other).held
        (giveOrDrop env w id count s) = (goodsBook other).held s := by
  unfold giveOrDrop
  split
  · next hzero =>
      exact ⟨hs.weaken, by simp [hzero], fun _ _ => rfl⟩
  · rcases modify_moves false hs.calm.slots
      (hs.calm.quiet (money_not_fish hlocks hid) count) with
      ⟨next, left, hgive, hgiven⟩ | ⟨left, hgive⟩
    · rw [hgive]
      refine ⟨⟨hs.calm.of_given hgiven, hs.block, hs.weaken.fit⟩,
        lockBook_given hgiven, fun other hother => ?_⟩
      rw [if_pos rfl, goodsBook_given hgiven, if_neg, add_zero]
      intro heq
      exact hother.2 (heq ▸ hid)
    · rw [hgive]
      obtain ⟨hstanding, hvalue, hgoods⟩ :=
        @dropAround_standing env s w b block more id hid hs count hcount
      exact ⟨hstanding, hvalue, fun other _ => hgoods other⟩

/-- `takewls` of at most two hundred blue gem locks and the rest, with room for
what has to be dropped. -/
theorem takewls_balanced (hlocks : env.items.LocksListed)
    (hs : Standing s w b block 3) (hfg : block.fg = 15230)
    (hstock : block.c_ < 2010000) :
    Balanced IsGood s (takewls env w b block s) := by
  have hsum := splitLocks_sum block.c_
  have hcap : (splitLocks block.c_).bgl ≤ 200 := by
    have hmono : block.c_.tdiv 10000 ≤ (2009999 : Int).tdiv 10000 :=
      Int.tdiv_le_tdiv (by decide) (by omega)
    exact hmono
  have hsmall := splitLocks_small block.c_
  unfold takewls
  dsimp only
  have hbgl : (if 200 ≤ (splitLocks block.c_).bgl then 200
      else (splitLocks block.c_).bgl) = (splitLocks block.c_).bgl := by
    split <;> omega
  rw [hbgl]
  generalize splitLocks block.c_ = parts at hsum hcap hsmall ⊢
  obtain ⟨hs₁, hvalue₁, hgoods₁⟩ := giveOrDrop_standing hlocks
    (show (7188 : Int) ∈ moneyIds by decide) hs (show parts.bgl ≤ 2 ^ 31 - 200 by omega)
  generalize giveOrDrop env w 7188 parts.bgl s = first at *
  obtain ⟨hs₂, hvalue₂, hgoods₂⟩ := giveOrDrop_standing hlocks
    (show (1796 : Int) ∈ moneyIds by decide) hs₁ (show parts.dl ≤ 2 ^ 31 - 200 by omega)
  generalize giveOrDrop env w 1796 parts.dl first = second at *
  obtain ⟨hs₃, hvalue₃, hgoods₃⟩ := giveOrDrop_standing hlocks
    (show (242 : Int) ∈ moneyIds by decide) hs₂ (show parts.wl ≤ 2 ^ 31 - 200 by omega)
  generalize giveOrDrop env w 242 parts.wl second = third at *
  refine ⟨hs₃.calm, ?_, fun id hid => ?_⟩
  · rw [lockBook_mapBlock hs₃.block, hvalue₃, hvalue₂, hvalue₁]
    simp only [machineLocks, hfg, ↓reduceIte, lockWorth, Int.reduceEq]
    omega
  · rw [goodsBook_mapBlock hs₃.block, hgoods₃ id hid, hgoods₂ id hid,
      hgoods₁ id hid]
    simp [machineGoods]

/-- A sale that `Modify` refuses, or that costs nothing, changes nothing. -/
theorem sell_refused (hcalm : Calm s.pl) {amount : Int} (hamount : 0 < amount)
    (hrefused : int32 (block.pr * amount) < 1 ∨ ¬ Accepts env block.id ∨
      contains s.pl.inv block.id < amount) :
    sell env w b amount block s = s := by
  unfold sell
  by_cases hprice : 1 ≤ int32 (block.pr * amount)
  · have hfails : ∃ left,
        modify env s block.id (-amount) false = ⟨-1, left, s⟩ := by
      by_cases haccepts : Accepts env block.id
      · have hfew : contains s.pl.inv block.id < amount := by
          rcases hrefused with h | h | h
          · omega
          · exact absurd haccepts h
          · exact h
        rcases modify_moves false hcalm.slots
          (@Calm.quiet_take env s.pl block.id (-amount) hcalm (by omega)) with
          ⟨next, left, -, hgiven⟩ | hfails
        · have hbounds := hgiven.slots.wellFormed.total_bounds (by decide)
            (Int.ne_of_gt haccepts.1)
          have hnext := hgiven.amount block.id
          rw [contains_eq_total hcalm.slots] at hfew
          rw [if_pos rfl] at hnext
          omega
        · exact hfails
      · exact ⟨-amount, modify_not_accepted haccepts (-amount) false⟩
    obtain ⟨left, hsold⟩ := hfails
    dsimp only
    rw [if_pos hprice, hsold]
    rfl
  · dsimp only
    rw [if_neg hprice]

end Buttons

section Messages

/-- The messages of the Buying Machine. -/
inductive Message where
  | machine (cch : String)
  | confirm (cch : String)

/-- What the server does with a message. -/
def handle (env : Env) : Message → Session → Session
  | .machine cch => buyingMachine env cch
  | .confirm cch => confirmBuyingMachine env cch

/-- The machine that a message reaches. -/
structure MachineAt (x y : Int) (s : Session) (w b : Nat) (world : World)
    (block : WorldBlock) : Prop where
  found : s.findWorld s.pl.world = some w
  tile : tileIndex 100 x y = some b
  getWorld : s.worlds[w]? = some world
  getBlock : s.block? w b = some block
  isMachine : block.fg = 15230

theorem atMachine_cases (x y : Int) (s : Session)
    (handle : Nat → Nat → World → WorldBlock → Session) :
    atMachine x y s handle = s ∨ ∃ w b world block,
      MachineAt x y s w b world block ∧
        atMachine x y s handle = handle w b world block := by
  unfold atMachine
  split
  · exact Or.inl rfl
  · split
    · next w b hfound htile =>
        split
        · next world block hworld hblock =>
            by_cases hfg : block.fg = 15230
            · exact Or.inr ⟨w, b, world, block,
                ⟨hfound, htile, hworld, hblock, hfg⟩, by simp [hfg]⟩
            · exact Or.inl (by simp [hfg])
        · exact Or.inl rfl
    · exact Or.inl rfl

/-- What makes a click of the owner safe, in the state before it. -/
structure ButtonSafe (env : Env) (cch btn : String) (world : World)
    (block : WorldBlock) (s : Session) : Prop where
  reset : btn = "reset" → block.id = 0 ∨ block.wl = 0
  addstock : btn = "addstock" →
    0 ≤ atoi (TextScanner.get cch "stockwls") ∧
      -(2 ^ 31) ≤ block.c_ + atoi (TextScanner.get cch "stockwls") ∧
      block.c_ + atoi (TextScanner.get cch "stockwls") < 2 ^ 31
  choose : btn.toList.take 7 = "choose_".toList → block.id ≠ 0 ∨
    block.wl = 0 ∨ atoi (String.ofList (btn.toList.drop 7)) = 0
  withdraw : btn = "withdraw" → block.id = 0 ∨ block.wl ≤ 0 ∨
    (block.id ∉ moneyIds ∧
      (env.items.isFish block.id = false ∨ s.pl.autosellfish = false ∨
        s.pl.autosellfishProcessing = true))
  takewls : btn = "takewls" →
    block.c_ < 2010000 ∧ DropsFit s.now world.dropNew 3

/-- What makes a message safe, in the state before it: a click of the owner is
safe, and a sale is refused. -/
def Safe (env : Env) : Message → Session → Prop
  | .machine cch, s => ∀ w b world block btn,
      MachineAt (atoi (getEmbed cch "tilex")) (atoi (getEmbed cch "tiley")) s
        w b world block →
      TextScanner.tryGet cch "buttonClicked" = some btn →
      world.ownerName = s.pl.tankIDName → ButtonSafe env cch btn world block s
  | .confirm cch, s => ∀ w b world block,
      MachineAt (atoi (getEmbed cch "x_tile")) (atoi (getEmbed cch "y_tile"))
        s w b world block →
      int32 (block.pr * atoi (getEmbed cch "count")) < 1 ∨
        ¬ Accepts env block.id ∨
        contains s.pl.inv block.id < atoi (getEmbed cch "count")

/-- The messages that move locks between backpacks and the stock `c_`. -/
def MovesLocks : Message → Prop
  | .machine cch =>
      TextScanner.tryGet cch "buttonClicked" = some "addstock" ∨
        TextScanner.tryGet cch "buttonClicked" = some "takewls"
  | .confirm _ => False

variable {env : Env} {s : Session}

theorem buttonClicked_balanced (hlocks : env.items.LocksListed)
    (hcalm : Calm s.pl) {x y : Int} {w b : Nat} {world : World}
    {block : WorldBlock} (hat : MachineAt x y s w b world block)
    {cch btn : String} (hsafe : ButtonSafe env cch btn world block s) :
    Balanced IsGood s (buttonClicked env w b cch btn block s) ∧
      (btn ≠ "addstock" → btn ≠ "takewls" →
        Balanced IsItem s (buttonClicked env w b cch btn block s)) := by
  have hboth : ∀ {t : Session}, Balanced IsItem s t → Balanced IsGood s t ∧
      (btn ≠ "addstock" → btn ≠ "takewls" → Balanced IsItem s t) :=
    fun ht => ⟨ht.mono fun _ hid => hid.1, fun _ _ => ht⟩
  unfold buttonClicked
  split_ifs with hreset hadd hsearch hchoose hid hwithdraw htake
  · exact hboth (reset_balanced hcalm hat.getBlock (hsafe.reset hreset))
  · obtain ⟨hcount, hlow, hhigh⟩ := hsafe.addstock hadd
    exact ⟨addstock_balanced hlocks hcalm hat.getBlock hat.isMachine hcount
      (int32_of_range hlow hhigh), fun hne => absurd hadd hne⟩
  · exact hboth (Balanced.refl _ hcalm)
  · exact hboth (Balanced.refl _ hcalm)
  · have hzero : block.id = 0 := by simpa using hid
    exact hboth (choose_balanced hcalm hat.getBlock hzero
      ((hsafe.choose hchoose).resolve_left fun hne => hne hzero))
  · rcases hsafe.withdraw hwithdraw with hempty | hempty | ⟨hmoney, hfish⟩
    · have hskip : withdraw env w b block s = s := if_pos (Or.inl hempty)
      rw [hskip]
      exact hboth (Balanced.refl _ hcalm)
    · have hskip : withdraw env w b block s = s := if_pos (Or.inr hempty)
      rw [hskip]
      exact hboth (Balanced.refl _ hcalm)
    · refine hboth (withdraw_balanced hcalm hat.getBlock hat.isMachine hmoney
        fun c => ⟨Or.inl hcalm.convert, Or.inr ?_, hcalm.finite⟩)
      tauto
  · obtain ⟨hstock, hfit⟩ := hsafe.takewls htake
    refine ⟨takewls_balanced hlocks ⟨hcalm, hat.getBlock, fun other hother => ?_⟩
      hat.isMachine hstock, fun _ hne => absurd htake hne⟩
    rw [hat.getWorld] at hother
    exact Option.some.inj hother ▸ hfit
  · exact hboth (Balanced.refl _ hcalm)

/-- One safe message. -/
theorem handle_balanced (hlocks : env.items.LocksListed) (hcalm : Calm s.pl)
    {message : Message} (hsafe : Safe env message s) :
    Balanced IsGood s (handle env message s) ∧
      (¬ MovesLocks message → Balanced IsItem s (handle env message s)) := by
  have hboth : ∀ {t : Session}, Balanced IsItem s t → Balanced IsGood s t ∧
      (¬ MovesLocks message → Balanced IsItem s t) :=
    fun ht => ⟨ht.mono fun _ hid => hid.1, fun _ => ht⟩
  cases message with
  | machine cch =>
      simp only [handle, buyingMachine]
      rcases atMachine_cases (atoi (getEmbed cch "tilex"))
        (atoi (getEmbed cch "tiley")) s _ with
        hskip | ⟨w, b, world, block, hat, heq⟩
      · rw [hskip]
        exact hboth (Balanced.refl _ hcalm)
      · rw [heq]
        split
        · next btn hbtn =>
            split
            · exact hboth (Balanced.refl _ hcalm)
            · next howner =>
                obtain ⟨hgood, hitem⟩ := buttonClicked_balanced hlocks hcalm
                  hat (hsafe w b world block btn hat hbtn (by simpa using howner))
                refine ⟨hgood, fun hmoves => hitem ?_ ?_⟩
                · rintro rfl
                  exact hmoves (Or.inl hbtn)
                · rintro rfl
                  exact hmoves (Or.inr hbtn)
        · split
          · exact hboth (setPrice_balanced hcalm hat.getBlock cch)
          · exact hboth (Balanced.refl _ hcalm)
  | confirm cch =>
      simp only [handle, confirmBuyingMachine]
      split
      · exact hboth (Balanced.refl _ hcalm)
      · next hamount =>
          rcases atMachine_cases (atoi (getEmbed cch "x_tile"))
            (atoi (getEmbed cch "y_tile")) s _ with
            hskip | ⟨w, b, world, block, hat, heq⟩
          · rw [hskip]
            exact hboth (Balanced.refl _ hcalm)
          · rw [heq, sell_refused hcalm (by omega) (hsafe w b world block hat)]
            exact hboth (Balanced.refl _ hcalm)

end Messages

section Runs

variable {env : Env} {start server : Server}

/-- One message of some player, admitted in the state it meets. -/
inductive Step (env : Env) (admitted : Message → Session → Prop) :
    Server → Server → Prop where
  | message (server : Server) (peer : Nat) (now : Int) (message : Message)
      (hadmitted : ∀ pl, server.players[peer]? = some pl →
        admitted message (server.session pl now)) :
      Step env admitted server (server.serve peer now (handle env message))

/-- What every admitted message conserves is conserved along every run. -/
theorem run_balanced {admitted : Message → Session → Prop} {ids : Int → Prop}
    (hstep : ∀ message s, Calm s.pl → admitted message s →
      Balanced ids s (handle env message s))
    (hcalm : ∀ pl ∈ start.players, Calm pl)
    (hrun : Relation.ReflTransGen (Step env admitted) start server) :
    (∀ pl ∈ server.players, Calm pl) ∧
      lockBook.total server = lockBook.total start ∧
      ∀ id, ids id → (goodsBook id).total server = (goodsBook id).total start := by
  induction hrun with
  | refl => exact ⟨hcalm, rfl, fun _ _ => rfl⟩
  | tail _ hlast ih =>
      obtain ⟨hmid, hlocks, hgoods⟩ := ih
      cases hlast with
      | message peer now message hadmitted =>
          have hone := fun pl hpeer => hstep message _
            (hmid pl (List.mem_of_getElem? hpeer)) (hadmitted pl hpeer)
          refine ⟨?_, ?_, fun id hid => ?_⟩
          · exact serve_calm peer now hmid fun pl hpeer => (hone pl hpeer).calm
          · rw [lockBook.total_serve _ peer now _ fun pl hpeer =>
              (hone pl hpeer).locks]
            exact hlocks
          · rw [(goodsBook id).total_serve _ peer now _ fun pl hpeer =>
              (hone pl hpeer).goods id hid]
            exact hgoods id hid

/-- Every run of safe messages conserves the value of locks and the number of
every item that is not money; a run that in addition leaves the lock stock of
the machines alone conserves the number of every item. -/
theorem machine_runs_conserve (hlocks : env.items.LocksListed)
    (hcalm : ∀ pl ∈ start.players, Calm pl) :
    (Relation.ReflTransGen (Step env (Safe env)) start server →
      lockBook.total server = lockBook.total start ∧
        ∀ id, id ≠ 0 → id ∉ moneyIds →
          (goodsBook id).total server = (goodsBook id).total start) ∧
    (Relation.ReflTransGen
        (Step env fun message s => Safe env message s ∧ ¬ MovesLocks message)
        start server →
      ∀ id, id ≠ 0 →
        (goodsBook id).total server = (goodsBook id).total start) := by
  constructor
  · intro hrun
    obtain ⟨-, hvalue, hgoods⟩ := run_balanced
      (fun message s hs hsafe => (handle_balanced hlocks hs hsafe).1)
      hcalm hrun
    exact ⟨hvalue, fun id hitem hmoney => hgoods id ⟨hitem, hmoney⟩⟩
  · intro hrun
    obtain ⟨-, -, hgoods⟩ := run_balanced
      (fun message s hs hsafe =>
        (handle_balanced hlocks hs hsafe.1).2 hsafe.2)
      hcalm hrun
    exact fun id hitem => hgoods id hitem

/-- A table in which only the locks matter. -/
def plainEnv : Env := { items := ⟨20298, fun _ => {}⟩ }

/-- A seller with one dirt block at a machine that pays one world lock for it
and has five in stock. -/
def sellerAtMachine : Server :=
  { players := [{ inv := [(2, 1), (0, 0)], world := "START", x := 0, y := 0 }]
    worlds := [{ name := "START", ownerName := "owner"
                 blocks := [{ fg := 15230, id := 2, pr := 1, c_ := 5 }] }] }

/-- The sale pays the seller one world lock and leaves the stock at five. -/
theorem sale_creates_lock :
    ¬ ∀ (env : Env) (start server : Server), env.items.LocksListed →
      (∀ pl ∈ start.players, Calm pl) →
      Relation.ReflTransGen (Step env fun _ _ => True) start server →
      lockBook.total server = lockBook.total start ∧
        ∀ id, id ≠ 0 →
          (goodsBook id).total server = (goodsBook id).total start := by
  intro hall
  have hcalm : ∀ pl ∈ sellerAtMachine.players, Calm pl := by
    intro pl hpl
    rw [List.mem_singleton.mp hpl]
    exact ⟨by decide, rfl, rfl⟩
  have hsale := (hall plainEnv sellerAtMachine _ ⟨by decide, by decide⟩ hcalm
    (Relation.ReflTransGen.single (.message sellerAtMachine 0 0
      (.confirm "x_tile|0|\ny_tile|0|\ncount|1|") fun _ _ => trivial))).1
  exact absurd hsale (by decide +kernel)

/-- The owner of a machine that has bought three dirt blocks. -/
def ownerAtMachine : Server :=
  { players := [{ tankIDName := "owner", inv := [(0, 0)], world := "START"
                  x := 0, y := 0 }]
    worlds := [{ name := "START", ownerName := "owner"
                 blocks := [{ fg := 15230, id := 2, pr := 1, wl := 3 }] }] }

/-- The owner withdraws the three blocks. -/
theorem withdraw_run_conserves :
    let server := ownerAtMachine.serve 0 0 (handle plainEnv
      (.machine "tilex|0|\ntiley|0|\nbuttonClicked|withdraw"))
    server.players.map Player.inv = [[(2, 3)]] ∧
      lockBook.total server = lockBook.total ownerAtMachine ∧
      (goodsBook 2).total server = (goodsBook 2).total ownerAtMachine := by
  have hcalm : ∀ pl ∈ ownerAtMachine.players, Calm pl := by
    intro pl hpl
    rw [List.mem_singleton.mp hpl]
    exact ⟨by decide, rfl, rfl⟩
  have hconserve := (@machine_runs_conserve plainEnv
    ownerAtMachine _ ⟨by decide, by decide⟩ hcalm).1 (Relation.ReflTransGen.single
      (.message ownerAtMachine 0 0
        (.machine "tilex|0|\ntiley|0|\nbuttonClicked|withdraw") ?_))
  · exact ⟨by decide +kernel, hconserve.1,
      hconserve.2 2 (by decide) (by decide)⟩
  · intro pl hpl w b world block btn hat hbtn _
    obtain rfl : _ = pl := Option.some.inj hpl
    obtain rfl : 0 = w := Option.some.inj hat.found
    obtain rfl : 0 = b := Option.some.inj hat.tile
    obtain rfl : _ = block := Option.some.inj hat.getBlock
    obtain rfl : "withdraw" = btn :=
      Option.some.inj ((by decide : _ = some "withdraw").symm.trans hbtn)
    exact ⟨by decide, by decide, by decide,
      fun _ => Or.inr (Or.inr ⟨by decide, Or.inl rfl⟩),
      fun htake => absurd htake (by decide)⟩

end Runs

end BuyingMachine

end NopyServer
