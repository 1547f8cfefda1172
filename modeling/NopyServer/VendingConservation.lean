/-
What the vending machine conserves.  Locks move between the buyers, the
owner's backpack and bank, and the earnings `wl`; items move between backpacks
and the stock `c_`.  The proofs go command by command, each one a change of the
player and of one block, and then over the words of a message and over runs of
messages.
-/
import NopyServer.Vending

namespace NopyServer

namespace Vending

open Inventory SlotPack Ledger

/-- How many of an item a machine has in stock. -/
def machineStock (items : Items) (id : Int) (block : WorldBlock) : Int :=
  if isVending items block = true ∧ block.id = id then block.c_ else 0

/-- What a machine has earned. -/
def machineEarned (items : Items) (block : WorldBlock) : Int :=
  if isVending items block = true then block.wl else 0

/-- The number of an item in backpacks and machines. -/
def stockBook (items : Items) (id : Int) : Book where
  player pl := total id pl.inv
  world := blocksOf (machineStock items id)

/-- The value of the locks of players, in backpack and bank, and of the
earnings of machines. -/
def moneyBook (items : Items) : Book where
  player := playerLocks
  world := blocksOf (machineEarned items)

/-- A machine in order: nothing negative, an empty machine has no stock, and
what it stocks is neither money nor fish. -/
structure MachineOk (env : Env) (block : WorldBlock) : Prop where
  stock : 0 ≤ block.c_
  earned : 0 ≤ block.wl
  empty : block.id = 0 → block.c_ = 0
  accepts : block.id ≠ 0 → Accepts env block.id
  notMoney : block.id ∉ moneyIds
  notFish : block.id ≠ 0 → env.items.isFish block.id = false
  price : -200 ≤ block.pr ∧ block.pr ≤ 2000000

/-- A cleared machine is in order, as one just placed is. -/
theorem MachineOk.of_empty {env : Env} {block : WorldBlock}
    (hid : block.id = 0) (hstock : block.c_ = 0) (hpr : block.pr = 0)
    (hwl : 0 ≤ block.wl) : MachineOk env block where
  stock := Int.le_of_eq hstock.symm
  earned := hwl
  empty _ := hstock
  accepts hne := absurd hid hne
  notMoney := by
    rw [hid]
    decide
  notFish hne := absurd hid hne
  price := by omega

/-- New counters for a machine that sells. -/
theorem MachineOk.of_same {env : Env} {block other : WorldBlock}
    (hok : MachineOk env block) (hid : other.id = block.id)
    (hpr : other.pr = block.pr) (hstock : 0 ≤ other.c_)
    (hwl : 0 ≤ other.wl) (hempty : block.id = 0 → other.c_ = 0) :
    MachineOk env other where
  stock := hstock
  earned := hwl
  empty hzero := hempty (hid ▸ hzero)
  accepts := hid ▸ hok.accepts
  notMoney := hid ▸ hok.notMoney
  notFish := hid ▸ hok.notFish
  price := hpr ▸ hok.price

/-- All vending machines of some worlds are in order. -/
def MachinesOk (env : Env) (worlds : List World) : Prop :=
  ∀ world ∈ worlds, ∀ block ∈ world.blocks,
    isVending env.items block = true → MachineOk env block

/-- The counters of a machine are not about to leave the range of `int`. -/
def Room (block : WorldBlock) : Prop :=
  block.c_ + 5000 < 2 ^ 31 ∧ block.wl + 2020200 < 2 ^ 31

/-- No balance of a bank is about to leave the range of `int`. -/
def BankRooms (pl : Player) : Prop := ∀ id ∈ moneyIds, BankRoom id pl

/-- What a message at the machine `b` of the world `w` conserves: the value of
locks and the listed items; and that it changes no other block. -/
structure Traded (env : Env) (ids : Int → Prop) (w b : Nat)
    (s t : Session) : Prop where
  calm : Calm t.pl
  ok : MachinesOk env t.worlds
  money : (moneyBook env.items).held t = (moneyBook env.items).held s
  stock : ∀ id, ids id →
    (stockBook env.items id).held t = (stockBook env.items id).held s
  frame : ∀ i j, (i, j) ≠ (w, b) → t.block? i j = s.block? i j

section Trades

variable {env : Env} {ids fewer : Int → Prop} {w b : Nat} {s t u : Session}

theorem Traded.refl (hcalm : Calm s.pl) (hok : MachinesOk env s.worlds) :
    Traded env ids w b s s :=
  ⟨hcalm, hok, rfl, fun _ _ => rfl, fun _ _ _ => rfl⟩

theorem Traded.trans (hst : Traded env ids w b s t)
    (htu : Traded env ids w b t u) : Traded env ids w b s u where
  calm := htu.calm
  ok := htu.ok
  money := htu.money.trans hst.money
  stock id hid := (htu.stock id hid).trans (hst.stock id hid)
  frame i j hne := (htu.frame i j hne).trans (hst.frame i j hne)

theorem Traded.mono (hst : Traded env ids w b s t)
    (hids : ∀ id, fewer id → ids id) : Traded env fewer w b s t :=
  ⟨hst.calm, hst.ok, hst.money, fun id hid => hst.stock id (hids id hid),
    hst.frame⟩

/-- A machine at hand: its block, and everything in order. -/
structure AtVending (env : Env) (s : Session) (w b : Nat)
    (block : WorldBlock) : Prop where
  calm : Calm s.pl
  ok : MachinesOk env s.worlds
  getBlock : s.block? w b = some block
  vends : isVending env.items block = true

variable {block : WorldBlock}

theorem AtVending.refl (hat : AtVending env s w b block) :
    Traded env ids w b s s :=
  Traded.refl hat.calm hat.ok

theorem AtVending.machine (hat : AtVending env s w b block) :
    MachineOk env block := by
  obtain ⟨world, hworld, hget⟩ := Session.block?_eq_some hat.getBlock
  exact hat.ok world (List.mem_of_getElem? hworld) block
    (List.mem_of_getElem? hget) hat.vends

theorem getBlock_mapBlock_of_ne (f : WorldBlock → WorldBlock) {i j : Nat}
    (hne : (i, j) ≠ (w, b)) : (s.mapBlock w b f).block? i j = s.block? i j := by
  simp only [Session.mapBlock, Session.mapWorld, Session.block?,
    List.getElem?_modify]
  by_cases hi : w = i
  · have hj : b ≠ j := fun hj => hne (by rw [hi, hj])
    cases s.worlds[i]? with
    | none => rfl
    | some world => simp [hi, hj]
  · simp [hi]

theorem machinesOk_mapBlock (hok : MachinesOk env s.worlds)
    (hblock : s.block? w b = some block) {f : WorldBlock → WorldBlock}
    (hf : MachineOk env (f block)) :
    MachinesOk env (s.mapBlock w b f).worlds :=
  forall_blocks_mapBlock hok hblock fun _ => hf

/-- A change of the machine that leaves it a machine. -/
structure Keeps (env : Env) (f : WorldBlock → WorldBlock)
    (block : WorldBlock) : Prop where
  fg : (f block).fg = block.fg
  bg : (f block).bg = block.bg
  ok : MachineOk env (f block)

theorem Keeps.vends {f : WorldBlock → WorldBlock} (hf : Keeps env f block)
    (hvends : isVending env.items block = true) :
    isVending env.items (f block) = true := by
  simpa only [isVending, hf.fg, hf.bg] using hvends

/-- A change of the player together with one of the machine. -/
theorem traded_mapBlock (hat : AtVending env s w b block) {next : Player}
    (hcalm : Calm next) {f : WorldBlock → WorldBlock}
    (hf : Keeps env f block)
    (hmoney : playerLocks next + (f block).wl =
      playerLocks s.pl + block.wl)
    (hstock : ∀ id, ids id → total id next.inv +
        (if (f block).id = id then (f block).c_ else 0) =
      total id s.pl.inv + if block.id = id then block.c_ else 0) :
    Traded env ids w b s (Session.mapBlock w b f { s with pl := next }) := by
  obtain ⟨world, hworld, hget⟩ := Session.block?_eq_some hat.getBlock
  have hworld' : ({ s with pl := next } : Session).worlds[w]? =
      some world := hworld
  have hvends := hf.vends hat.vends
  refine ⟨hcalm, machinesOk_mapBlock hat.ok hat.getBlock hf.ok, ?_,
    fun id hid => ?_, fun i j hne => ?_⟩
  · have hblocks := blocksOf_modify (machineEarned env.items) hget f
    rw [Session.mapBlock, Book.held_mapWorld _ hworld']
    simp only [moneyBook, hblocks, machineEarned, hvends, hat.vends,
      ↓reduceIte, Book.held]
    omega
  · have hblocks := blocksOf_modify (machineStock env.items id) hget f
    have hcount := hstock id hid
    rw [Session.mapBlock, Book.held_mapWorld _ hworld']
    simp only [stockBook, hblocks, machineStock, hvends, hat.vends, true_and,
      Book.held]
    omega
  · rw [getBlock_mapBlock_of_ne f hne]
    rfl

end Trades

/-- Items that are not money. -/
def IsGood (id : Int) : Prop := id ≠ 0 ∧ id ∉ moneyIds

/-- Items apart from free slots. -/
def IsItem (id : Int) : Prop := id ≠ 0

section Commands

variable {env : Env} {w b : Nat} {s : Session} {block : WorldBlock}

theorem MachineOk.quiet {pl : Player} (hblock : MachineOk env block)
    (hid : block.id ≠ 0) (hcalm : Calm pl) (c : Int) :
    Quiet env pl block.id c :=
  hcalm.quiet (hblock.notFish hid) c

theorem order_count_nonneg {pr n : Int} (hn : 0 < n) :
    0 ≤ (order pr n).count := by
  unfold order
  dsimp only
  split
  · exact Int.le_of_lt hn
  · refine Int.mul_nonneg ?_ (by omega)
    split
    · exact Int.tdiv_nonneg (by omega) (by omega)
    · exact Int.tdiv_nonneg (by omega) (by omega)

/-- An order that a backpack can hold costs something. -/
theorem order_cost_pos {pr n : Int} (hn : 0 < n) (hpr : pr ≠ 0)
    (hmax : pr ≤ 2000000) (hone : ¬ (pr < 0 ∧ n < -pr))
    (hcount : (order pr n).count ≤ 200) : 0 < (order pr n).cost := by
  unfold order at hcount ⊢
  dsimp only at hcount ⊢
  by_cases hsign : 0 < pr
  · rw [if_pos hsign] at hcount ⊢
    dsimp only at hcount ⊢
    have hpos : 0 < pr * n := Int.mul_pos hsign hn
    have hbound : pr * n ≤ 2000000 * 200 :=
      Int.mul_le_mul hmax hcount (Int.le_of_lt hn) (by decide)
    rw [int32_of_range (by omega) (by omega)]
    exact hpos
  · rw [if_neg hsign, if_neg hsign]
    dsimp only
    have hneg : 0 < -pr := by omega
    split
    · rw [Int.tdiv_eq_ediv_of_nonneg (Int.le_of_lt hn)]
      exact (Int.le_ediv_iff_mul_le hneg).mpr (by omega)
    · have heq : n = -pr := by omega
      rw [heq, Int.tdiv_self (by omega)]
      decide

theorem sell_wl (bought : Order) (block : WorldBlock) :
    (sell bought block).wl = int32 (block.wl + bought.cost) := by
  unfold sell
  dsimp only
  split <;> rfl

theorem sell_stock {bought : Order} (hstock : bought.count ≤ block.c_)
    {id : Int} (hid : id ≠ 0) :
    (if (sell bought block).id = id then (sell bought block).c_ else 0) =
      if block.id = id then block.c_ - bought.count else 0 := by
  unfold sell
  dsimp only
  split
  · dsimp only
    rw [if_neg hid.symm]
    split <;> omega
  · rfl

theorem sell_keeps {bought : Order} (hok : MachineOk env block)
    (hid : block.id ≠ 0) (hstock : bought.count ≤ block.c_)
    (hwl : 0 ≤ int32 (block.wl + bought.cost)) :
    Keeps env (sell bought) block := by
  by_cases hempty : block.c_ - bought.count ≤ 0
  · have hsold : sell bought block = { block with
        c_ := block.c_ - bought.count
        wl := int32 (block.wl + bought.cost)
        id := 0
        pr := 0 } := if_pos hempty
    refine ⟨by rw [hsold], by rw [hsold], ?_⟩
    rw [hsold]
    exact MachineOk.of_empty rfl (by dsimp only; omega) rfl hwl
  · have hsold : sell bought block = { block with
        c_ := block.c_ - bought.count
        wl := int32 (block.wl + bought.cost) } := if_neg hempty
    refine ⟨by rw [hsold], by rw [hsold], ?_⟩
    rw [hsold]
    exact hok.of_same rfl rfl (Int.sub_nonneg.mpr hstock) hwl
      fun hzero => absurd hzero hid

/-- The deal of a purchase: the items, the payment, the entries of the
machine. -/
theorem purchase_traded_of_order (hlocks : env.items.LocksListed)
    (hat : AtVending env s w b block) (hroom : Room block) (hbanks : BankRooms s.pl)
    {bought : Order}
    (hcount : 0 < bought.count) (hstock : bought.count ≤ block.c_)
    (hcost : bought.count ≤ 200 → 0 < bought.cost)
    (hafford : bought.cost ≤ invLocks s.pl.inv) :
    let given := modify env s block.id bought.count false
    Traded env IsGood w b s
      (if given.ret = 0 then
        let paid := (getWls env true true bought.cost given.session).2
        paid.mapBlock w b (sell bought)
      else given.session) := by
  have hok := hat.machine
  have hid : block.id ≠ 0 := by
    intro hzero
    have hnone := hok.empty hzero
    omega
  rcases modify_moves false hat.calm.slots
    (hok.quiet hid hat.calm bought.count) with
    ⟨next, left, hgive, hgiven⟩ | ⟨left, hgive⟩
  · have hcalm := hat.calm.of_given hgiven
    have hheld := hgiven.slots.wellFormed.total_bounds (by decide) hid
    have hbefore := hat.calm.slots.wellFormed.total_bounds (by decide) hid
    have hamount := hgiven.amount block.id
    rw [if_pos rfl] at hamount
    have hpos := hcost (by omega)
    have hlocksSame : invLocks next.inv = invLocks s.pl.inv := by
      have hothers : ∀ id ∈ moneyIds, block.id ≠ id := fun id hmoney heq =>
        hok.notMoney (heq ▸ hmoney)
      simp only [invLocks, locksOf, hgiven.amount,
        if_neg (hothers 242 (by decide)), if_neg (hothers 1796 (by decide)),
        if_neg (hothers 7188 (by decide)), add_zero]
    obtain ⟨last, htake, hpaid⟩ := @getWls_takes env { s with pl := next }
      hlocks hcalm (fun id hmoney => hgiven.bankRoom (hbanks id hmoney)) bought.cost hpos
      (by rw [hlocksSame]; exact hafford)
    have hvalue := hgiven.playerLocks
    have hpaidLocks := hpaid.locks
    rw [lockWorth_eq_zero hok.notMoney] at hvalue
    have hcap := invLocks_le hlocks hat.calm
    have hearned := hok.earned
    obtain ⟨-, hroomWl⟩ := hroom
    have hrange : int32 (block.wl + bought.cost) = block.wl + bought.cost :=
      int32_of_range (by omega) (by omega)
    rw [hgive]
    dsimp only
    rw [if_pos rfl, htake]
    refine traded_mapBlock hat hpaid.calm
      (sell_keeps hok hid hstock (by omega)) ?_ fun id hgood => ?_
    · rw [sell_wl, hrange]
      dsimp only at hpaidLocks ⊢
      omega
    · have hothers := hpaid.others id hgood.2
      have hgot := hgiven.amount id
      rw [sell_stock hstock hgood.1]
      dsimp only at hothers ⊢
      split <;> split at hgot <;> omega
  · rw [hgive]
    exact hat.refl

theorem purchase_traded (hlocks : env.items.LocksListed)
    (hat : AtVending env s w b block) (hroom : Room block) (hbanks : BankRooms s.pl)
    (confirmed : Bool)
    (expectprice expectitem buycount : Int) :
    Traded env IsGood w b s
      (purchase env w b confirmed expectprice expectitem buycount block s) := by
  have hok := hat.machine
  rw [purchase]
  by_cases hmoved : expectprice ≠ block.pr ∨ expectitem ≠ block.id
  · rw [if_pos hmoved]
    exact hat.refl
  rw [if_neg hmoved]
  by_cases hasked : buycount ≤ 0 ∨ block.pr = 0
  · rw [if_pos hasked]
    exact hat.refl
  rw [if_neg hasked]
  rw [not_or] at hasked
  have hcountNonneg := @order_count_nonneg block.pr buycount (by omega)
  dsimp only
  by_cases hstock : (order block.pr buycount).count = 0 ∨
      block.c_ < (order block.pr buycount).count
  · rw [if_pos hstock]
    exact hat.refl
  rw [if_neg hstock]
  by_cases hone : block.pr < 0 ∧ buycount < -block.pr
  · rw [if_pos hone]
    exact hat.refl
  rw [if_neg hone, getWls_counts hlocks hat.calm]
  dsimp only
  by_cases hafford : invLocks s.pl.inv < (order block.pr buycount).cost
  · rw [if_pos hafford]
    exact hat.refl
  have hid : block.id ≠ 0 := by
    intro hzero
    have hnone := hok.empty hzero
    omega
  rw [if_neg hafford, modify_query hat.calm.slots (hok.accepts hid)]
  dsimp only
  split
  · exact hat.refl
  split
  · exact hat.refl
  split
  · exact hat.refl
  split
  · exact purchase_traded_of_order hlocks hat hroom hbanks (by omega) (by omega)
      (order_cost_pos (by omega) hasked.2 hok.price.2 hone) (by omega)
  · exact hat.refl

/-- Taking the whole stack of an item out of the backpack. -/
theorem modify_stack (hcalm : Calm s.pl) {id : Int}
    (haccepts : Accepts env id) :
    (∃ next left, modify env s id (contains s.pl.inv id * -1) false =
        ⟨0, left, { s with pl := next }⟩ ∧
      Given s.pl id (-contains s.pl.inv id) next) ∨
    ∃ left, modify env s id (contains s.pl.inv id * -1) false =
      ⟨-1, left, s⟩ := by
  have hbounds := hcalm.slots.wellFormed.total_bounds (by decide)
    (Int.ne_of_gt haccepts.1)
  rw [Int.mul_neg_one]
  apply modify_moves false hcalm.slots
  apply hcalm.quiet_take
  rw [contains_eq_total hcalm.slots]
  omega

theorem addstocks_traded (hat : AtVending env s w b block)
    (hroom : Room block) :
    Traded env IsItem w b s (addstocks env w b block s) := by
  have hok := hat.machine
  unfold addstocks
  split
  · next hid =>
      have haccepts := hok.accepts hid
      have hbounds := hat.calm.slots.wellFormed.total_bounds (by decide) hid
      rw [← contains_eq_total hat.calm.slots] at hbounds
      rw [modify_query hat.calm.slots haccepts]
      dsimp only
      rcases modify_stack hat.calm haccepts with
        ⟨next, left, htake, hgiven⟩ | ⟨left, htake⟩
      · have hvalue := hgiven.playerLocks
        rw [lockWorth_eq_zero hok.notMoney] at hvalue
        have hstock := hok.stock
        obtain ⟨hroomStock, -⟩ := hroom
        have hrange : int32 (block.c_ + contains s.pl.inv block.id) =
            block.c_ + contains s.pl.inv block.id :=
          int32_of_range (by omega) (by omega)
        rw [htake]
        dsimp only
        rw [if_pos rfl]
        refine traded_mapBlock hat (hat.calm.of_given hgiven)
          ⟨rfl, rfl, hok.of_same rfl rfl ?_ hok.earned
            fun hzero => absurd hzero hid⟩ ?_ fun id _ => ?_
        · dsimp only
          omega
        · dsimp only
          omega
        · have hgot := hgiven.amount id
          dsimp only
          rw [hrange]
          split <;> split at hgot <;> omega
      · rw [htake]
        exact hat.refl
  · exact hat.refl

theorem addstocks5000_traded (hat : AtVending env s w b block)
    (hroom : Room block) :
    Traded env (fun _ => False) w b s (addstocks5000 w b block s) := by
  have hok := hat.machine
  unfold addstocks5000
  split
  · next hid =>
      have hstock := hok.stock
      obtain ⟨hroomStock, -⟩ := hroom
      have hrange : int32 (block.c_ + 5000) = block.c_ + 5000 :=
        int32_of_range (by omega) (by omega)
      refine @traded_mapBlock env _ w b s block hat s.pl hat.calm _
        ⟨rfl, rfl, hok.of_same rfl rfl ?_ hok.earned
          fun hzero => absurd hzero hid.1⟩ rfl fun id hfalse => hfalse.elim
      dsimp only
      omega
  · exact hat.refl

/-- One denomination of a withdrawal. -/
theorem withdrawLock_traded (hlocks : env.items.LocksListed)
    (hat : AtVending env s w b block) {id unit : Int}
    (hmoney : id ∈ moneyIds) (hworth : lockWorth id = unit)
    (hunit : 0 < unit) {bank : Int → Player → Player}
    (hbank : Books bank id unit) (hroom : BankRoom id s.pl) :
    let left := withdrawLock env w b id unit bank block.wl s
    Traded env IsGood w b s left.2 ∧
      AtVending env left.2 w b { block with wl := left.1 } ∧
      ∀ other ≠ id, BankRoom other s.pl → BankRoom other left.2.pl := by
  have hok := hat.machine
  obtain ⟨next, hpay, hpaid, hrooms⟩ := @payLock_paid env s hlocks id unit hmoney
    hworth hunit bank hbank hat.calm hroom block.wl
  obtain ⟨-, hmost⟩ := payAmount_bounds hunit hok.earned
  have hvalue := hpaid.locks
  unfold withdrawLock
  rw [hpay]
  dsimp only
  have htraded : Traded env IsGood w b s
      (Session.mapBlock w b (fun old =>
        { old with wl := old.wl - payAmount unit block.wl })
        { s with pl := next }) := by
    refine traded_mapBlock hat hpaid.calm
      ⟨rfl, rfl, hok.of_same rfl rfl hok.stock ?_ hok.empty⟩ ?_
      fun other hgood => ?_
    · dsimp only
      omega
    · dsimp only
      omega
    · have hothers := hpaid.others other hgood.2
      dsimp only
      rw [hothers]
  exact ⟨htraded, ⟨htraded.calm, htraded.ok,
    @Session.block?_mapBlock { s with pl := next } w b block hat.getBlock _,
    hat.vends⟩, hrooms⟩

theorem withdraw_traded (hlocks : env.items.LocksListed)
    (hat : AtVending env s w b block) (hbanks : BankRooms s.pl) :
    Traded env IsGood w b s (withdraw env w b block s) := by
  unfold withdraw
  split
  · obtain ⟨htraded₁, hat₁, hrooms₁⟩ := @withdrawLock_traded env w b s block hlocks hat
      7188 10000 (by decide) rfl (by decide) _ books_bgl (hbanks 7188 (by decide))
    obtain ⟨htraded₂, hat₂, hrooms₂⟩ := withdrawLock_traded hlocks hat₁
      (show (1796 : Int) ∈ moneyIds by decide) rfl (by decide) books_dl
      (hrooms₁ 1796 (by decide) (hbanks 1796 (by decide)))
    obtain ⟨htraded₃, -⟩ := withdrawLock_traded hlocks hat₂
      (show (242 : Int) ∈ moneyIds by decide) rfl (by decide) books_wl
      (hrooms₂ 242 (by decide) (hrooms₁ 242 (by decide) (hbanks 242 (by decide))))
    exact (htraded₁.trans htraded₂).trans htraded₃
  · exact hat.refl

/-- Pulling as much as the backpack has room for. -/
theorem pull_some_traded (hat : AtVending env s w b block)
    (hid : block.id ≠ 0) (hslots : 0 < getSlots s.pl.inv)
    (hmany : 200 < block.c_) :
    let give := 200 - contains s.pl.inv block.id
    Traded env IsItem w b s
      (modify env (s.mapBlock w b fun block =>
        { block with c_ := block.c_ - give }) block.id give false).session := by
  have hok := hat.machine
  have hbounds := hat.calm.slots.wellFormed.total_bounds (by decide) hid
  rw [← contains_eq_total hat.calm.slots] at hbounds
  intro give
  have hgive : 0 ≤ give ∧ give ≤ 200 := by
    dsimp only [give]
    omega
  have hmoves : ∀ {next : Player}, Given s.pl block.id give next →
      Traded env IsItem w b s (Session.mapBlock w b
        (fun block => { block with c_ := block.c_ - give })
        { s with pl := next }) := by
    intro next hgiven
    have hvalue := hgiven.playerLocks
    rw [lockWorth_eq_zero hok.notMoney] at hvalue
    refine traded_mapBlock hat (hat.calm.of_given hgiven)
      ⟨rfl, rfl, hok.of_same rfl rfl ?_ hok.earned
        fun hzero => absurd hzero hid⟩ ?_ fun id _ => ?_
    · dsimp only
      omega
    · dsimp only
      omega
    · have hgot := hgiven.amount id
      dsimp only
      split <;> split at hgot <;> omega
  by_cases hzero : give = 0
  · have hask := @modify_query env
      (s.mapBlock w b fun block => { block with c_ := block.c_ - give })
      hat.calm.slots block.id (hok.accepts hid) false
    rw [← hzero] at hask
    rw [hask]
    refine @hmoves s.pl ⟨hat.calm.slots, rfl, fun id => ?_⟩
    simp [hzero]
  · obtain ⟨next, left, hmodify, hgiven⟩ := @modify_gives env
      (s.mapBlock w b fun block => { block with c_ := block.c_ - give })
      block.id give false hat.calm.slots (hok.quiet hid hat.calm give)
      (hok.accepts hid) (by omega)
      (by
        change contains s.pl.inv block.id + give ≤ 200
        dsimp only [give]
        omega) hslots
    rw [hmodify]
    exact hmoves hgiven

theorem pullstocks_traded (hat : AtVending env s w b block) :
    Traded env IsItem w b s (pullstocks env w b block s) := by
  have hok := hat.machine
  unfold pullstocks
  split
  · next hslots =>
      by_cases hid : block.id = 0
      · have hnone := hok.empty hid
        rw [modify_not_accepted (fun haccepts =>
          absurd haccepts.1 (by rw [hid]; decide))]
        dsimp only
        rw [if_neg (by decide), if_neg (by omega)]
        exact hat.refl
      · rcases modify_moves false hat.calm.slots
          (hok.quiet hid hat.calm block.c_) with
          ⟨next, left, hgive, hgiven⟩ | ⟨left, hgive⟩
        · have hvalue := hgiven.playerLocks
          rw [lockWorth_eq_zero hok.notMoney] at hvalue
          rw [hgive]
          dsimp only
          rw [if_pos rfl]
          refine traded_mapBlock hat (hat.calm.of_given hgiven)
            ⟨rfl, rfl, MachineOk.of_empty rfl rfl rfl hok.earned⟩ ?_
            fun id hitem => ?_
          · dsimp only
            omega
          · have hgot := hgiven.amount id
            have hne : (0 : Int) ≠ id := Ne.symm hitem
            dsimp only
            rw [if_neg hne]
            omega
        · rw [hgive]
          dsimp only
          rw [if_neg (by decide)]
          split
          · next hmany =>
              rw [modify_query hat.calm.slots (hok.accepts hid)]
              exact pull_some_traded hat hid (by omega) hmany
          · exact hat.refl
  · exact hat.refl

theorem of_not_refuses {id : Int} (hrefuses : ¬ refuses env.items id = true) :
    id ∉ moneyIds ∧ env.items.isFish id = false := by
  simp only [refuses, Bool.or_eq_true, not_or, Bool.not_eq_true,
    List.contains_eq_mem, decide_eq_false_iff_not, List.mem_cons,
    List.not_mem_nil, or_false] at hrefuses
  simp only [moneyIds, List.mem_cons, List.not_mem_nil, or_false]
  exact ⟨by omega, hrefuses.2⟩

theorem putItem_traded (hat : AtVending env s w b block) (itemId : Int) :
    Traded env IsItem w b s (putItem env w b itemId block s) := by
  have hok := hat.machine
  unfold putItem
  split
  · exact hat.refl
  · next hid =>
      have hid : block.id = 0 := by omega
      by_cases haccepts : Accepts env itemId
      · have hitem := Int.ne_of_gt haccepts.1
        have hbounds := hat.calm.slots.wellFormed.total_bounds (by decide)
          hitem
        rw [← contains_eq_total hat.calm.slots] at hbounds
        rw [modify_query hat.calm.slots haccepts]
        dsimp only
        split
        · exact hat.refl
        split
        · exact hat.refl
        next hrefuses =>
        rcases modify_stack hat.calm haccepts with
          ⟨next, left, htake, hgiven⟩ | ⟨left, htake⟩
        · obtain ⟨hmoney, hfish⟩ := of_not_refuses hrefuses
          have hvalue := hgiven.playerLocks
          have hempty := hok.empty hid
          rw [lockWorth_eq_zero hmoney] at hvalue
          rw [htake]
          dsimp only
          rw [if_pos rfl]
          refine traded_mapBlock hat (hat.calm.of_given hgiven)
            ⟨rfl, rfl, hbounds.1, hok.earned, fun hzero => absurd hzero hitem,
              fun _ => haccepts, hmoney, fun _ => hfish, hok.price⟩ ?_
            fun id hother => ?_
          · dsimp only
            omega
          · have hgot := hgiven.amount id
            dsimp only
            rw [hempty, ite_self]
            split <;> split at hgot <;> omega
        · rw [htake]
          exact hat.refl
      · rw [modify_not_accepted haccepts]
        exact hat.refl

theorem setPr_traded (hat : AtVending env s w b block) {pr : Int}
    (hpr : -200 ≤ pr ∧ pr ≤ 2000000) :
    Traded env IsItem w b s (setPr w b pr s) ∧
      AtVending env (setPr w b pr s) w b { block with pr := pr } := by
  have hok := hat.machine
  have htraded : Traded env IsItem w b s (setPr w b pr s) :=
    @traded_mapBlock env _ w b s block hat s.pl hat.calm _
      ⟨rfl, rfl, hok.stock, hok.earned, hok.empty, hok.accepts, hok.notMoney,
        hok.notFish, hpr⟩ rfl fun _ _ => rfl
  exact ⟨htraded, htraded.calm, htraded.ok,
    Session.block?_mapBlock hat.getBlock _, hat.vends⟩

theorem newPrice_bounds {word : String} {pr : Int}
    (hnew : newPrice word block = some pr) : -200 ≤ pr ∧ pr ≤ 2000000 := by
  unfold newPrice at hnew
  dsimp only at hnew
  split_ifs at hnew <;> cases hnew <;> omega

/-- The items that the words of a dialog cannot create or turn into
earnings. -/
structure WordsKeep (a : List String) (id : Int) : Prop where
  item : id ≠ 0
  noGift : "addstocks5000" ∉ a
  noWithdraw : id ∉ moneyIds ∨ "withdraw" ∉ a

theorem WordsKeep.of_cons {word : String} {rest : List String} {id : Int}
    (hkeep : WordsKeep (word :: rest) id) : WordsKeep rest id where
  item := hkeep.item
  noGift hmem := hkeep.noGift (List.mem_cons_of_mem word hmem)
  noWithdraw := hkeep.noWithdraw.imp_right fun hnone hmem =>
    hnone (List.mem_cons_of_mem word hmem)

/-- The loop over the words: price changes, then at most one button. -/
theorem words_traded (hlocks : env.items.LocksListed) (a : List String)
    (hat : AtVending env s w b block) (hroom : Room block) (hbanks : BankRooms s.pl) :
    Traded env (WordsKeep a) w b s (words env w b a s) := by
  induction a generalizing s block with
  | nil => exact hat.refl
  | cons word rest ih =>
      have hok := hat.machine
      have hskip : Traded env (WordsKeep (word :: rest)) w b s
          (words env w b rest s) :=
        (ih hat hroom hbanks).mono fun _ hkeep => hkeep.of_cons
      have hprice : ∀ {pr : Int}, -200 ≤ pr ∧ pr ≤ 2000000 →
          Traded env (WordsKeep (word :: rest)) w b s
            (words env w b rest (setPr w b pr s)) := by
        intro pr hpr
        obtain ⟨hset, hatSet⟩ := setPr_traded hat hpr
        exact (hset.mono fun _ hkeep => hkeep.item).trans
          ((ih hatSet hroom hbanks).mono fun _ hkeep => hkeep.of_cons)
      have hbounds := hok.price
      rw [words, hat.getBlock]
      dsimp only
      split
      · split
        · exact hprice (by omega)
        · exact hskip
      · split
        · split
          · exact hat.refl
          · exact hprice (by omega)
        · exact hskip
      · exact hskip
      · split
        · split
          · next hnew => exact hprice (newPrice_bounds hnew)
          · exact hat.refl
        split
        · exact (addstocks_traded hat hroom).mono fun _ hkeep => hkeep.item
        split
        · next hgift =>
            exact (addstocks5000_traded hat hroom).mono fun _ hkeep =>
              hkeep.noGift (hgift ▸ List.mem_cons_self)
        split
        · next hword =>
            refine (withdraw_traded hlocks hat hbanks).mono fun id hkeep =>
              ⟨hkeep.item, hkeep.noWithdraw.resolve_right fun hnone =>
                hnone (hword ▸ List.mem_cons_self)⟩
        split
        · exact hat.refl
        split
        · exact (pullstocks_traded hat).mono fun _ hkeep => hkeep.item
        · exact hskip

end Commands

section Messages

variable {env : Env} {s : Session}

/-- The items that a message cannot create or exchange for earnings: all but
the three locks, and these too unless the message is about a purchase or a
withdrawal. -/
structure MessageKeeps (cch : String) (id : Int) : Prop where
  item : id ≠ 0
  noGift : "addstocks5000" ∉ dialogWords cch
  noMoney : id ∉ moneyIds ∨ ("withdraw" ∉ dialogWords cch ∧
    (dialogWords cch).length ≠ 19 ∧ (dialogWords cch).length ≠ 23)

/-- No vending machine is about to leave the range of `int`. -/
def MachineRooms (items : Items) (worlds : List World) : Prop :=
  ∀ world ∈ worlds, ∀ block ∈ world.blocks,
    isVending items block = true → Room block

theorem MessageKeeps.good {cch : String}
    (hlength : (dialogWords cch).length = 19 ∨ (dialogWords cch).length = 23)
    (id : Int) (hkeep : MessageKeeps cch id) : IsGood id :=
  ⟨hkeep.item, hkeep.noMoney.resolve_right fun hnone =>
    hlength.elim hnone.2.1 hnone.2.2⟩

theorem atVending_traded (hlocks : env.items.LocksListed) {w b : Nat}
    {block : WorldBlock} (hat : AtVending env s w b block)
    (hroom : Room block) (hbanks : BankRooms s.pl) (cch : String) (i : Nat)
    (access : Bool) :
    Traded env (MessageKeeps cch) w b s
      (atVending env cch (dialogWords cch) i access w b block s) := by
  unfold atVending
  dsimp only
  split
  · next hlength =>
      split
      · exact hat.refl
      · exact (purchase_traded hlocks hat hroom hbanks _ _ _ _).mono
          (MessageKeeps.good (Or.inl hlength))
  split
  · next hlength =>
      split
      · exact hat.refl
      · exact (purchase_traded hlocks hat hroom hbanks _ _ _ _).mono
          (MessageKeeps.good (Or.inr hlength))
  split
  · exact hat.refl
  split
  · exact hat.refl
  split
  · exact (words_traded hlocks _ hat hroom hbanks).mono fun id hkeep =>
      ⟨hkeep.item, hkeep.noGift, hkeep.noMoney.imp_right And.left⟩
  · exact (putItem_traded hat _).mono fun id hkeep => hkeep.item

/-- One message. -/
theorem vending_traded (hlocks : env.items.LocksListed) (hcalm : Calm s.pl)
    (hok : MachinesOk env s.worlds) (hroomy : MachineRooms env.items s.worlds)
    (hbanks : BankRooms s.pl) (cch : String) (i : Nat) :
    ∃ w b, Traded env (MessageKeeps cch) w b s (vending env cch i s) := by
  have hsame : ∃ w b, Traded env (MessageKeeps cch) w b s s :=
    ⟨0, 0, Traded.refl hcalm hok⟩
  unfold vending
  dsimp only
  split
  · exact hsame
  split
  · next w b _ _ =>
      split
      · next world block hworld hblock =>
          split
          · exact hsame
          next hopen =>
          simp only [not_or, Bool.not_eq_false] at hopen
          have hat : AtVending env s w b block :=
            ⟨hcalm, hok, hblock, hopen.2.2.1⟩
          obtain ⟨other, hother, hget⟩ := Session.block?_eq_some hblock
          have hroom : Room block :=
            hroomy other (List.mem_of_getElem? hother) block
              (List.mem_of_getElem? hget) hat.vends
          exact ⟨w, b, atVending_traded hlocks hat hroom hbanks cch i _⟩
      · exact hsame
  · exact hsame

end Messages

section Runs

variable {env : Env} {start server : Server}

/-- No counter of a machine and no balance of a bank is about to leave the range of
`int`. -/
structure Roomy (items : Items) (server : Server) : Prop where
  machines : MachineRooms items server.worlds
  banks : ∀ pl ∈ server.players, BankRooms pl

/-- One message of some player. -/
inductive Step (env : Env) : Server → Server → Prop where
  | message (server : Server) (peer : Nat) (now : Int) (cch : String)
      (i : Nat) (hroomy : Roomy env.items server) :
      Step env server (server.serve peer now (vending env cch i))

/-- At most one block differs between two lists of worlds. -/
def OneBlock (before after : List World) : Prop :=
  ∃ w b : Nat, ∀ i j : Nat, (i, j) ≠ (w, b) →
    (after[i]?.bind fun world : World => world.blocks[j]?) =
      before[i]?.bind fun world : World => world.blocks[j]?

/-- Everything in order on a server. -/
structure InOrder (env : Env) (server : Server) : Prop where
  calm : ∀ pl ∈ server.players, Calm pl
  machines : MachinesOk env server.worlds

theorem serve_inOrder (hlocks : env.items.LocksListed)
    (horder : InOrder env server) (hroomy : Roomy env.items server)
    (peer : Nat) (now : Int) (cch : String) (i : Nat) :
    InOrder env (server.serve peer now (vending env cch i)) := by
  have htraded := fun pl (hpeer : server.players[peer]? = some pl) =>
    @vending_traded env (server.session pl now) hlocks
      (horder.calm pl (List.mem_of_getElem? hpeer)) horder.machines hroomy.machines
      (hroomy.banks pl (List.mem_of_getElem? hpeer)) cch i
  refine ⟨serve_calm peer now horder.calm fun pl hpeer => ?_, ?_⟩
  · obtain ⟨w, b, hone⟩ := htraded pl hpeer
    exact hone.calm
  · apply Server.serve_worlds horder.machines
    intro pl hpeer
    obtain ⟨w, b, hone⟩ := htraded pl hpeer
    exact hone.ok

/-- Over every run of messages the machines stay in order, and every message
conserves the value of locks and the number of the items it does not deal in
as money, with at most one machine touched. -/
theorem vending_runs_conserve (hlocks : env.items.LocksListed)
    (horder : InOrder env start)
    (hrun : Relation.ReflTransGen (Step env) start server) :
    (∀ world ∈ server.worlds, ∀ block ∈ world.blocks,
      isVending env.items block = true → 0 ≤ block.c_ ∧ 0 ≤ block.wl) ∧
    ∀ (peer : Nat) (now : Int) (cch : String) (i : Nat),
      Roomy env.items server →
      let next := server.serve peer now (vending env cch i)
      OneBlock server.worlds next.worlds ∧
        (moneyBook env.items).total next = (moneyBook env.items).total server ∧
        ∀ id, MessageKeeps cch id → (stockBook env.items id).total next =
          (stockBook env.items id).total server := by
  have hserver : InOrder env server := by
    induction hrun with
    | refl => exact horder
    | tail _ hlast ih =>
        cases hlast with
        | message peer now cch i hroomy =>
            exact serve_inOrder hlocks ih hroomy peer now cch i
  refine ⟨fun world hworld block hblock hvends => ?_, ?_⟩
  · have hok := hserver.machines world hworld block hblock hvends
    exact ⟨hok.stock, hok.earned⟩
  · intro peer now cch i hroomy
    have htraded := fun pl (hpeer : server.players[peer]? = some pl) =>
      @vending_traded env (server.session pl now) hlocks
        (hserver.calm pl (List.mem_of_getElem? hpeer)) hserver.machines hroomy.machines
        (hroomy.banks pl (List.mem_of_getElem? hpeer)) cch i
    refine ⟨?_, ?_, fun id hkeep => ?_⟩
    · apply @Server.serve_worlds server peer now _ (OneBlock server.worlds)
      · exact ⟨0, 0, fun _ _ _ => rfl⟩
      · intro pl hpeer
        obtain ⟨w, b, hone⟩ := htraded pl hpeer
        exact ⟨w, b, hone.frame⟩
    · refine Book.total_serve _ server peer now _ fun pl hpeer => ?_
      obtain ⟨w, b, hone⟩ := htraded pl hpeer
      exact hone.money
    · refine Book.total_serve _ server peer now _ fun pl hpeer => ?_
      obtain ⟨w, b, hone⟩ := htraded pl hpeer
      exact hone.stock id hkeep

/-- A table with one vending machine in it. -/
def shopEnv : Env :=
  { items := ⟨20298, fun id =>
      if id = 2978 then { blockType := .vending } else {}⟩ }

/-- The owner at a machine that sells dirt for two world locks and has three
in stock, with what it has earned. -/
def shop (wl : Int) : Server :=
  { players := [{ tankIDName := "owner", world := "START", x := 0, y := 0
                  inv := [(242, 5), (0, 0), (0, 0), (0, 0)] }]
    worlds := [{ name := "START", ownerName := "owner"
                 blocks := [{ fg := 2978, id := 4, pr := 2, c_ := 3, wl := wl }]
                 maxX := 1, maxY := 1 }] }

theorem shop_inOrder {wl : Int} (hwl : 0 ≤ wl) :
    InOrder shopEnv (shop wl) where
  calm pl hpl := by
    rw [List.mem_singleton.mp hpl]
    exact ⟨by decide, rfl, rfl⟩
  machines world hworld block hblock _ := by
    rw [List.mem_singleton.mp hworld] at hblock
    rw [List.mem_singleton.mp hblock]
    exact
      { stock := show (0 : Int) ≤ 3 by decide
        earned := hwl
        empty := fun hzero => absurd hzero (show (4 : Int) ≠ 0 by decide)
        accepts := fun _ =>
          (by decide : (0 : Int) < 4 ∧ (4 : Int) ≤ 20298 ∧ (4 : Int) ≠ 112)
        notMoney := show (4 : Int) ∉ moneyIds by decide
        notFish := fun _ => rfl
        price := show -200 ≤ (2 : Int) ∧ (2 : Int) ≤ 2000000 by decide }

theorem shop_roomy {wl : Int} (hwl : wl + 2020200 < 2 ^ 31) :
    Roomy shopEnv.items (shop wl) where
  machines world hworld block hblock _ := by
    rw [List.mem_singleton.mp hworld] at hblock
    rw [List.mem_singleton.mp hblock]
    exact ⟨(by decide : (3 : Int) + 5000 < 2 ^ 31), hwl⟩
  banks pl hpl := by
    rw [List.mem_singleton.mp hpl]
    unfold BankRooms
    decide

/-- A confirmed purchase of one item. -/
def buyOne : String :=
  "action|dialog_return\ndialog_name|vending\ntilex|0|\ntiley|0|\n" ++
    "verify|1|\nbuycount|1|\nexpectprice|2|\nexpectitem|4|\n"

theorem words_buyOne : dialogWords buyOne =
    ["action", "dialog_return", "dialog_name", "vending", "tilex", "0", "",
     "tiley", "0", "", "verify", "1", "", "buycount", "1", "", "expectprice",
     "2", "", "expectitem", "4", "", ""] := by
  rw [dialogWords, dialogText, explode_ofList]
  decide +kernel

/-- The click on `withdraw`. -/
def withdrawAll : String :=
  "action|dialog_return\ndialog_name|vending\ntilex|0|\ntiley|0|\n" ++
    "buttonClicked|withdraw\n\n"

theorem words_withdrawAll : dialogWords withdrawAll =
    ["action", "dialog_return", "dialog_name", "vending", "tilex", "0", "",
     "tiley", "0", "", "buttonClicked", "withdraw", "", ""] := by
  rw [dialogWords, dialogText, explode_ofList]
  decide +kernel

/-- A purchase for two of five world locks. -/
theorem buyOne_conserves :
    let next := (shop 1).serve 0 0 (vending shopEnv buyOne 3)
    next.players.map Player.inv = [[(242, 3), (4, 1), (0, 0), (0, 0)]] ∧
      (moneyBook shopEnv.items).total next =
        (moneyBook shopEnv.items).total (shop 1) ∧
      (stockBook shopEnv.items 4).total next =
        (stockBook shopEnv.items 4).total (shop 1) := by
  obtain ⟨-, hmessages⟩ := @vending_runs_conserve shopEnv (shop 1) (shop 1)
    ⟨by decide, by decide⟩ (shop_inOrder (by decide)) Relation.ReflTransGen.refl
  obtain ⟨-, hmoney, hstock⟩ :=
    hmessages 0 0 buyOne 3 (shop_roomy (by decide))
  refine ⟨?_, hmoney, hstock 4 ⟨by decide, ?_, Or.inl (by decide)⟩⟩
  · unfold vending
    rw [words_buyOne]
    decide +kernel
  · rw [words_buyOne]
    decide

/-- A withdrawal brings a world lock into a backpack that was in no stock, and
earnings at the end of the range of `int` turn negative with a purchase. -/
theorem withdraw_counts_and_overflow :
    (¬ ∀ (env : Env) (start server : Server), env.items.LocksListed →
      InOrder env start → Relation.ReflTransGen (Step env) start server →
      ∀ (peer : Nat) (now : Int) (cch : String) (i : Nat),
        Roomy env.items server → "addstocks5000" ∉ dialogWords cch →
        ∀ id, id ≠ 0 → (stockBook env.items id).total
            (server.serve peer now (vending env cch i)) =
          (stockBook env.items id).total server) ∧
    InOrder shopEnv (shop 2147483647) ∧
      ((shop 2147483647).serve 0 0 (vending shopEnv buyOne 3)).worlds.map
        (fun world => world.blocks.map WorldBlock.wl) = [[-2147483647]] := by
  refine ⟨fun hall => ?_, shop_inOrder (by decide), ?_⟩
  · have hwords : "addstocks5000" ∉ dialogWords withdrawAll := by
      rw [words_withdrawAll]
      decide
    have hcount := hall shopEnv (shop 1) (shop 1) ⟨by decide, by decide⟩
      (shop_inOrder (by decide)) Relation.ReflTransGen.refl 0 0 withdrawAll 3
      (shop_roomy (by decide)) hwords 242 (by decide)
    unfold vending at hcount
    rw [words_withdrawAll] at hcount
    exact absurd hcount (by decide +kernel)
  · unfold vending
    rw [words_buyOne]
    decide +kernel

end Runs

end Vending

end NopyServer
