/-
The bank: the dialogs `Bank_Central`, `bankgem` and `transferbankgem`, and the
commands that deposit and withdraw.  Five kinds of locks and the gems go from a
backpack or a wallet into the bank, back, and from one player's bank to another's.

Every message is a run of postings between the accounts of the players, out of
accounts of its sender alone.  So nothing is made and nothing lost over any run of
messages, and no balance of the bank goes below zero.  A wallet does where gems are
transferred from `Bank_Central`: that moves the amount between the wallets as well,
and asks for it in the bank only.  So does what all gems together can come to grow, by
twice the amount; what bounds it bounds every wallet, which has 32 bits.
-/
import NopyServer.AutoConvert
import NopyServer.BuxGems
import NopyServer.Lib.Postings
import NopyServer.MachineLedger
import Mathlib.Algebra.Order.BigOperators.Group.Finset

namespace NopyServer

namespace BankCentral

open BuxGems Inventory Postings

section Code

/-- The members of a player that only the bank reads and writes. -/
structure Vault where
  gglBankAmount : Int := 0
  mglBankAmount : Int := 0
  gemsStorage : Int := 0
  bankPassword : Int := 0
  hasEnterBank : Bool := false
  bankInTransaction : Bool := false
  bankLastOp : Int := 0
deriving DecidableEq

/-- The server, and the vault of every peer. -/
structure State where
  server : Server
  vaults : Nat → Vault := fun _ => {}

namespace State

def mapVault (p : Nat) (f : Vault → Vault) (s : State) : State :=
  { s with vaults := Function.update s.vaults p (f (s.vaults p)) }

def mapPlayer (p : Nat) (f : Player → Player) (s : State) : State :=
  { s with server := s.server.mapPlayer p f }

end State

/-- `bank_ptr`: the locks of a kind in a player's bank. -/
def bankPtr (id : Int) (pl : Player) (vault : Vault) : Option Int :=
  if id = 242 then some pl.wlBankAmount
  else if id = 1796 then some pl.dlBankAmount
  else if id = 7188 then some pl.bglBankAmount
  else if id = 8470 then some vault.gglBankAmount
  else if id = 20298 then some vault.mglBankAmount
  else none

/-- A change behind `bank_ptr`. -/
def mapBank (id : Int) (f : Int → Int) (p : Nat) (s : State) : State :=
  if id = 242 then s.mapPlayer p fun pl => { pl with wlBankAmount := f pl.wlBankAmount }
  else if id = 1796 then s.mapPlayer p fun pl => { pl with dlBankAmount := f pl.dlBankAmount }
  else if id = 7188 then s.mapPlayer p fun pl => { pl with bglBankAmount := f pl.bglBankAmount }
  else if id = 8470 then
    s.mapVault p fun vault => { vault with gglBankAmount := f vault.gglBankAmount }
  else if id = 20298 then
    s.mapVault p fun vault => { vault with mglBankAmount := f vault.mglBankAmount }
  else s

/-- `*ptr += count`. -/
def credit (id count : Int) : Nat → State → State := mapBank id fun n => int32 (n + count)

/-- `*ptr -= count`. -/
def debit (id count : Int) : Nat → State → State := mapBank id fun n => int32 (n - count)

/-- `Gems_Storage += count`. -/
def store (count : Int) (p : Nat) : State → State :=
  State.mapVault p fun vault => { vault with gemsStorage := vault.gemsStorage + count }

/-- `VarList::OnMinGems`. -/
def onMinGems (p : Nat) (amount : Int) : State → State :=
  State.mapPlayer p fun pl =>
    let task := gemsTask amount pl
    let amount := if task.1 = true then amount + 3 else amount
    { task.2 with gems := task.2.gems - amount }

variable (env : Env)

/-- `Inventory::Modify` for a peer. -/
def modifyOf (p : Nat) (now id c : Int) (s : State) : Int × State :=
  match s.server.players[p]? with
  | none => (-1, s)
  | some pl =>
      let call := modify env (s.server.session pl now) id c false
      (call.ret, { s with server :=
        ⟨s.server.players.set p call.session.pl, call.session.worlds, call.session.rands⟩ })

/-- `VarList::OnBuxGems`. -/
def buxGems (p : Nat) (now amount : Int) (s : State) : State :=
  { s with server := onBuxGems env p now amount s.server }

/-- `DialogHandle::BankCentral`. -/
def openBank (p : Nat) : State → State :=
  State.mapVault p fun vault => { vault with hasEnterBank := true }

/-- `short_code`. -/
def shortCode (id : Int) : String :=
  if id = 242 then "WL"
  else if id = 1796 then "DL"
  else if id = 7188 then "SGL"
  else if id = 8470 then "MGL"
  else if id = 20298 then "IGL"
  else "LOCK"

/-- `checkbox_key`. -/
def checkboxKey (id : Int) : String := "bank_" ++ toLower (shortCode id)

/-- `selected_item_id`: the first box that is ticked, zero where none is. -/
def selectedItemId (cch : String) : Int :=
  let ticked (key : String) : Bool := TextScanner.get cch key == "1"
  match lockIds.find? fun id => ticked (checkboxKey id) with
  | some id => id
  | none =>
      if ticked "wl" then 242
      else if ticked "dl" then 1796
      else if ticked "sgl" || ticked "bgl" then 7188
      else if ticked "mgl" || ticked "ggl" then 8470
      else if ticked "igl" then 20298
      else 0

/-- `Confirm_Depo`. -/
def confirmDepo (cch : String) (p : Nat) (now : Int) (s : State) : State :=
  let amount := TextScanner.get cch "amount"
  let itemId := selectedItemId cch
  let gems := TextScanner.get cch "gems"
  let count := atoi amount
  match s.server.players[p]? with
  | none => s
  | some pl =>
      if gems ≠ "1" ∧ itemId = 0 then s
      else if env.isNumber amount = false ∨ count < 1 then s
      else if gems = "1" then
        if pl.gems < count then s
        else openBank p (onMinGems p count (store count p s))
      else if 200 < count then s
      else if contains pl.inv itemId < count then s
      else
        let taken := modifyOf env p now itemId (-count) s
        if taken.1 = 0 then openBank p (credit itemId count p taken.2) else taken.2

/-- `Confirm_Wd`. -/
def confirmWd (cch : String) (p : Nat) (now : Int) (s : State) : State :=
  let amount := TextScanner.get cch "amount"
  let itemId := selectedItemId cch
  let gems := TextScanner.get cch "gems"
  let count := atoi amount
  match s.server.players[p]? with
  | none => s
  | some pl =>
      if gems ≠ "1" ∧ itemId = 0 then s
      else if env.isNumber amount = false ∨ count < 1 then s
      else if gems = "1" then
        if (s.vaults p).gemsStorage < count then s
        else if 2100000000 ≤ pl.gems then s
        else openBank p (buxGems env p now count (store (-count) p s))
      else if 200 < count then s
      else if getSlots pl.inv = 0 then s
      else
        match bankPtr itemId pl (s.vaults p) with
        | none => s
        | some balance =>
            if balance < count then s
            else if checkMax pl.inv itemId count = true then s
            else
              let given := modifyOf env p now itemId count s
              if given.1 = 0 then openBank p (debit itemId count p given.2) else given.2

/-- The first peer under a name, whatever the case of its letters. -/
def findTarget (server : Server) (targetName : String) : Option Nat :=
  server.players.findIdx? fun pl => toLower pl.tankIDName == toLower targetName

/-- `Confirm_Transfer`. -/
def confirmTransfer (cch : String) (p : Nat) (now : Int) (s : State) : State :=
  let amount := TextScanner.get cch "amount"
  let targetName := TextScanner.get cch "target_name"
  let itemId := selectedItemId cch
  let gems := TextScanner.get cch "gems"
  let amnt := atoi amount
  match s.server.players[p]? with
  | none => s
  | some pl =>
      if gems ≠ "1" ∧ itemId = 0 then s
      else if targetName = "" ∨ toLower targetName = toLower pl.tankIDName then s
      else if env.isNumber amount = false ∨ amnt ≤ 0 ∨ 1000000 < amnt then s
      else
        match findTarget s.server targetName with
        | none => s
        | some q =>
            if gems = "1" then
              if (s.vaults p).gemsStorage < amnt then s
              else if 2100000000 < (s.vaults q).gemsStorage + amnt then s
              else openBank p (buxGems env q now amnt (onMinGems p amnt
                (store amnt q (store (-amnt) p s))))
            else
              match bankPtr itemId pl (s.vaults p) with
              | none => s
              | some balance =>
                  if balance < amnt then s
                  else openBank p (credit itemId amnt q (debit itemId amnt p s))

/-- `Create_Pin`. -/
def createPin (cch : String) (p : Nat) (s : State) : State :=
  let pin := TextScanner.get cch "pin_bank"
  if pin.length < 6 ∨ env.isNumber pin = false then openBank p s
  else openBank p (s.mapVault p fun vault => { vault with bankPassword := atoi pin })

/-- `Enter_Pin`. -/
def enterPin (cch : String) (p : Nat) (s : State) : State :=
  let pin := TextScanner.get cch "pin_bank"
  if pin.length < 6 ∨ env.isNumber pin = false then openBank p s
  else if atoi pin ≠ (s.vaults p).bankPassword then openBank p s
  else openBank p (s.mapVault p fun vault => { vault with hasEnterBank := true })

/-- `Bank_Central`: the buttons that change something. -/
def bankCentral (cch : String) (p : Nat) (now : Int) (s : State) : State :=
  match TextScanner.tryGet cch "buttonClicked" with
  | none => s
  | some button =>
      if button = "BackToDialog" ∨ button = "Clear_History" then openBank p s
      else if button = "Confirm_Depo" then confirmDepo env cch p now s
      else if button = "Confirm_Wd" then confirmWd env cch p now s
      else if button = "Confirm_Transfer" then confirmTransfer env cch p now s
      else if button = "Create_Pin" then createPin env cch p s
      else if button = "Enter_Pin" then enterPin env cch p s
      else s

/-- A text of digits. -/
def digitsOnly (str : String) : Bool := str ≠ "" && str.toList.all isDigit

/-- `std::stoll` of a text of digits; it throws beyond 64 bits. -/
def stoll (digits : String) : Option Int :=
  let n := leadingDigits 0 digits.toList
  if n < 2 ^ 63 then some n else none

/-- The amount in a dialog about gems; the exception of `stoll` ends the message. -/
def jumlah (cch : String) : Option Int :=
  let amountStr := TextScanner.get cch "jumlah_"
  if digitsOnly amountStr = false then none
  else
    match stoll amountStr with
    | none => none
    | some amount => if amount ≤ 0 ∨ 1000000000 < amount then none else some amount

/-- `bankgem`. -/
def bankgem (cch : String) (p : Nat) (now : Int) (s : State) : State :=
  if TextScanner.tryGet cch "buttonClicked" ≠ some "Confirm" then s
  else
    let action := toLower (TextScanner.get cch "player_")
    match s.server.players[p]?, jumlah cch with
    | some pl, some amount =>
        if action = "dp" then
          if pl.gems < amount then s
          else if 2000000000 < (s.vaults p).gemsStorage + amount then s
          else onMinGems p amount (store amount p s)
        else if action = "wd" then
          if (s.vaults p).gemsStorage < amount then s
          else if 2000000000 < pl.gems + amount then s
          else buxGems env p now amount (store (-amount) p s)
        else s
    | _, _ => s

/-- `transferbankgem`. -/
def transferbankgem (cch : String) (p : Nat) (s : State) : State :=
  if TextScanner.tryGet cch "buttonClicked" ≠ some "Confirm" then s
  else
    let targetName := TextScanner.get cch "player_"
    match s.server.players[p]? with
    | none => s
    | some pl =>
        if targetName = "" ∨ toLower targetName = toLower pl.tankIDName then s
        else
          match jumlah cch, findTarget s.server targetName with
          | some amount, some q =>
              if (s.vaults p).gemsStorage < amount then s
              else if 2000000000 < (s.vaults q).gemsStorage + amount then s
              else store amount q (store (-amount) p s)
          | _, _ => s

/-- What a command of the bank starts with: the number it is given, where the player
has a PIN. -/
def amountOf (cmd : String) (p : Nat) (s : State) : Option Int :=
  if digitsOnly cmd = false ∨ (s.vaults p).bankPassword = 0 then none else stoi cmd

/-- The body of `DEPOSIT_WL` and the other deposits of locks. -/
def deposit (id : Int) (cmd : String) (p : Nat) (now : Int) (s : State) : State :=
  match s.server.players[p]?, amountOf cmd p s with
  | some pl, some amount =>
      if amount < 1 ∨ 200 < amount then s
      else if contains pl.inv id < amount then s
      else
        let taken := modifyOf env p now id (-amount) s
        if taken.1 = 0 then credit id amount p taken.2 else taken.2
  | _, _ => s

def depositWl := deposit env 242
def depositDl := deposit env 1796
def depositBgl := deposit env 7188
def depositMgl := deposit env 8470
def depositIgl := deposit env 20298

/-- `DEPOSIT_GEMS`. -/
def depositGems (cmd : String) (p : Nat) (_now : Int) (s : State) : State :=
  match s.server.players[p]?, amountOf cmd p s with
  | some pl, some amount =>
      if amount < 1 ∨ 2000000000 < amount then s
      else if pl.gems < amount then s
      else onMinGems p amount (store amount p s)
  | _, _ => s

/-- `bank_last_op = time(nullptr)`. -/
def touch (p : Nat) (now : Int) : State → State :=
  State.mapVault p fun vault => { vault with bankLastOp := now }

/-- The flag that keeps a second operation out while one is under way. -/
def setTransaction (busy : Bool) (p : Nat) : State → State :=
  State.mapVault p fun vault => { vault with bankInTransaction := busy }

/-- `*ptr -= amount`, and zero where that is below zero. -/
def takeOut (id amount : Int) : Nat → State → State :=
  mapBank id fun n => if int32 (n - amount) < 0 then 0 else int32 (n - amount)

/-- The tests before locks are withdrawn by a command. -/
def withdrawal (id : Int) (cmd : String) (p : Nat) (now : Int) (s : State) : Option Int :=
  let vault := s.vaults p
  if now - vault.bankLastOp < 1 ∨ vault.bankInTransaction = true then none
  else
    match s.server.players[p]?, amountOf cmd p s with
    | some pl, some amount =>
        if amount < 1 ∨ 200 < amount then none
        else if (bankPtr id pl vault).getD 0 < amount then none
        else if getSlots pl.inv = 0 then none
        else if checkMax pl.inv id amount = true then none
        else some amount
    | _, _ => none

/-- `WITHDRAW_WL`: the flag is raised before the locks are given, and taken down
where they are. -/
def withdrawWl (cmd : String) (p : Nat) (now : Int) (s : State) : State :=
  match withdrawal 242 cmd p now s with
  | none => s
  | some amount =>
      let given := modifyOf env p now 242 amount (setTransaction true p s)
      if given.1 = 0 then
        setTransaction false p (touch p now (takeOut 242 amount p given.2))
      else given.2

/-- The body of `WITHDRAW_DL` and the other withdrawals of locks. -/
def withdraw (id : Int) (cmd : String) (p : Nat) (now : Int) (s : State) : State :=
  match withdrawal id cmd p now s with
  | none => s
  | some amount =>
      let given := modifyOf env p now id amount s
      if given.1 = 0 then touch p now (takeOut id amount p given.2) else given.2

def withdrawDl := withdraw env 1796
def withdrawBgl := withdraw env 7188
def withdrawMgl := withdraw env 8470
def withdrawIgl := withdraw env 20298

/-- `WITHDRAW_GEMS`. -/
def withdrawGems (cmd : String) (p : Nat) (now : Int) (s : State) : State :=
  match s.server.players[p]?, amountOf cmd p s with
  | some pl, some amount =>
      if amount < 1 ∨ 200000000 < amount then s
      else if (s.vaults p).gemsStorage < amount then s
      else if 2100000000 ≤ pl.gems then s
      else
        let floor (vault : Vault) : Vault :=
          { vault with
            gemsStorage := if vault.gemsStorage < 0 then 0 else vault.gemsStorage }
        buxGems env p now amount (touch p now ((store (-amount) p s).mapVault p floor))
  | _, _ => s

/-- The commands of the bank in `commandMap`. -/
def commandMap : List (String × (String → Nat → Int → State → State)) :=
  [("/dpwl", depositWl env), ("/dpdl", depositDl env), ("/dpbgl", depositBgl env),
    ("/dpsgl", depositBgl env), ("/dpmgl", depositMgl env), ("/dpggl", depositMgl env),
    ("/dpigl", depositIgl env), ("/dpgems", depositGems), ("/wdwl", withdrawWl env),
    ("/wddl", withdrawDl env), ("/wdbgl", withdrawBgl env), ("/wdsgl", withdrawBgl env),
    ("/wdmgl", withdrawMgl env), ("/wdggl", withdrawMgl env), ("/wdigl", withdrawIgl env),
    ("/wdgems", withdrawGems env)]

/-- What a player may send to the bank. -/
inductive Message
  | bankCentral (cch : String)
  | bankgem (cch : String)
  | transferbankgem (cch : String)
  | command (name cmd : String)
deriving DecidableEq

/-- A message of a peer at a time. -/
structure Event where
  peer : Nat
  now : Int
  message : Message

/-- The bank serves a message of a connected peer. -/
def serve (s : State) (event : Event) : State :=
  if s.server.players.length ≤ event.peer then s
  else
    match event.message with
    | .bankCentral cch => bankCentral env cch event.peer event.now s
    | .bankgem cch => bankgem env cch event.peer event.now s
    | .transferbankgem cch => transferbankgem cch event.peer s
    | .command name cmd =>
        match (commandMap env).find? fun entry => entry.1 == name with
        | none => s
        | some entry => entry.2 cmd event.peer event.now s

end Code

section Accounts

/-- Where a player has locks or gems. -/
inductive Place
  | backpack (id : Int)
  | bank (id : Int)
  | wallet
  | storage
deriving DecidableEq

/-- An account: a peer, and a place. -/
abbrev Holding := Nat × Place

/-- What is kept in a place: locks of a kind, or gems. -/
def Place.asset : Place → Option Int
  | .backpack id => some id
  | .bank id => some id
  | .wallet => none
  | .storage => none

/-- The places in which something is kept. -/
def places : Option Int → Finset Place
  | some id => {.backpack id, .bank id}
  | none => {.wallet, .storage}

theorem mem_places {place : Place} {asset : Option Int} :
    place ∈ places asset ↔ place.asset = asset := by
  cases asset <;> cases place <;> simp [places, Place.asset, eq_comm]

def amountIn (pl : Player) (vault : Vault) : Place → Int
  | .backpack id => contains pl.inv id
  | .bank id => (bankPtr id pl vault).getD 0
  | .wallet => pl.gems
  | .storage => vault.gemsStorage

/-- What is in every account. -/
def book (s : State) (at_ : Holding) : Int :=
  (s.server.players[at_.1]?).elim 0 fun pl => amountIn pl (s.vaults at_.1) at_.2

/-- The accounts of so many peers in which something is kept. -/
def holdings (n : Nat) (asset : Option Int) : Finset Holding := Finset.range n ×ˢ places asset

theorem mem_holdings {n : Nat} {asset : Option Int} {at_ : Holding} :
    at_ ∈ holdings n asset ↔ at_.1 < n ∧ at_.2.asset = asset := by
  simp [holdings, mem_places]

/-- What all players have of something, in the bank and outside. -/
def total (asset : Option Int) (s : State) : Int :=
  ∑ at_ ∈ holdings s.server.players.length asset, book s at_

/-- Gems complete no task of the grow pass and move no quest of a pair on. -/
structure Unrewarded (pl : Player) : Prop where
  task : pl.account.gp = 0 ∨ "Gems" ∈ pl.growPass.growpassQuests
  quest : pl.pair.isPaired = false ∨ pl.pair.questType ≠ 3

/-- A customer to whom nothing happens but what a message asks for. -/
structure Ready (pl : Player) (vault : Vault) : Prop where
  calm : Calm pl
  unrewarded : Unrewarded pl
  free : vault.bankInTransaction = false

/-- A state whose customers are ready, and what is in its accounts. -/
structure Booked (n : Nat) (s : State) (b : Holding → Int) : Prop where
  ready : ∀ p pl, s.server.players[p]? = some pl → Ready pl (s.vaults p)
  length : s.server.players.length = n
  book : book s = b

end Accounts

section Operations

variable {env : Env} {n p : Nat} {s t : State} {b : Holding → Int}

theorem modify_eq_set_of {A : Type} {f : A → A} {l : List A} {a : A} (hget : l[p]? = some a) :
    l.modify p f = l.set p (f a) := by
  obtain ⟨hlt, rfl⟩ := List.getElem?_eq_some_iff.mp hget
  rw [List.set_eq_modify]
  apply List.ext_getElem?
  intro i
  simp only [List.getElem?_modify]
  by_cases hi : p = i
  · subst hi
    simp [hlt]
  · simp [hi]

theorem set_of_getElem? {A : Type} {l : List A} {a : A} (hget : l[p]? = some a) :
    l.set p a = l := by
  obtain ⟨hlt, rfl⟩ := List.getElem?_eq_some_iff.mp hget
  exact List.set_getElem_self hlt

theorem Booked.player (h : Booked n s b) (hp : p < n) :
    ∃ pl, s.server.players[p]? = some pl := by
  rw [← h.length] at hp
  exact ⟨_, List.getElem?_eq_getElem hp⟩

theorem Booked.lt (h : Booked n s b) {pl : Player} (hpl : s.server.players[p]? = some pl) :
    p < n := by
  rw [← h.length]
  exact (List.getElem?_eq_some_iff.mp hpl).1

theorem Booked.amount (h : Booked n s b) {pl : Player} (hpl : s.server.players[p]? = some pl)
    (place : Place) : amountIn pl (s.vaults p) place = b (p, place) := by
  rw [← h.book]
  simp [BankCentral.book, hpl]

/-- A new record of one customer, with an amount more in one place. -/
theorem Booked.change (h : Booked n s b) {pl next : Player} {vault : Vault} {place : Place}
    {c : Int} (hpl : s.server.players[p]? = some pl)
    (hplayers : t.server.players = s.server.players.set p next)
    (hvaults : t.vaults = Function.update s.vaults p vault) (hready : Ready next vault)
    (hamount : ∀ other, amountIn next vault other =
      amountIn pl (s.vaults p) other + if other = place then c else 0) :
    Booked n t (bump (p, place) c b) := by
  have hlt := (List.getElem?_eq_some_iff.mp hpl).1
  constructor
  · intro q other hother
    rw [hplayers, List.getElem?_set] at hother
    rw [hvaults]
    by_cases hq : p = q
    · subst hq
      simp only [if_true, if_pos hlt, Option.some.injEq] at hother
      rw [Function.update_self, ← hother]
      exact hready
    · rw [if_neg hq] at hother
      rw [Function.update_of_ne (Ne.symm hq)]
      exact h.ready q other hother
  · rw [hplayers, List.length_set, h.length]
  · funext ⟨q, other⟩
    rw [← h.book]
    unfold bump BankCentral.book
    dsimp only
    rw [hplayers, hvaults, List.getElem?_set]
    by_cases hq : p = q
    · subst hq
      simp only [if_true, if_pos hlt, Option.elim_some, Function.update_self, hamount, hpl,
        Prod.mk.injEq, true_and]
    · rw [if_neg hq, Function.update_of_ne (Ne.symm hq), if_neg, add_zero]
      exact fun heq => hq (congrArg Prod.fst heq).symm

theorem Booked.mapPlayer (h : Booked n s b) {f : Player → Player} {place : Place} {c : Int}
    (hp : p < n) (hready : ∀ pl vault, Ready pl vault → Ready (f pl) vault)
    (hamount : ∀ pl, s.server.players[p]? = some pl → ∀ other,
      amountIn (f pl) (s.vaults p) other =
        amountIn pl (s.vaults p) other + if other = place then c else 0) :
    Booked n (s.mapPlayer p f) (bump (p, place) c b) := by
  obtain ⟨pl, hpl⟩ := h.player hp
  exact h.change hpl (modify_eq_set_of hpl) (Function.update_eq_self p s.vaults).symm
    (hready pl _ (h.ready p pl hpl)) (hamount pl hpl)

theorem Booked.mapVault (h : Booked n s b) {f : Vault → Vault} {place : Place} {c : Int}
    (hp : p < n) (hfree : ∀ vault, (f vault).bankInTransaction = vault.bankInTransaction)
    (hamount : ∀ pl, s.server.players[p]? = some pl → ∀ other,
      amountIn pl (f (s.vaults p)) other =
        amountIn pl (s.vaults p) other + if other = place then c else 0) :
    Booked n (s.mapVault p f) (bump (p, place) c b) := by
  obtain ⟨pl, hpl⟩ := h.player hp
  obtain ⟨hcalm, hunrewarded, hdown⟩ := h.ready p pl hpl
  exact h.change hpl (set_of_getElem? hpl).symm rfl ⟨hcalm, hunrewarded, (hfree _).trans hdown⟩
    (hamount pl hpl)

/-- What the bank notes about a customer beside the amounts. -/
theorem Booked.note (h : Booked n s b) {f : Vault → Vault}
    (hfree : ∀ vault, (f vault).bankInTransaction = vault.bankInTransaction)
    (hamount : ∀ pl vault other, amountIn pl (f vault) other = amountIn pl vault other)
    (hp : p < n) : Booked n (s.mapVault p f) b := by
  have hsame := @Booked.mapVault n p s b h f .storage 0 hp hfree
    fun pl _ other => by rw [hamount, ite_self, add_zero]
  rwa [bump_zero] at hsame

theorem Booked.openBank (h : Booked n s b) (hp : p < n) : Booked n (openBank p s) b :=
  h.note (fun _ => rfl) (fun _ _ other => by cases other <;> rfl) hp

theorem Booked.touch (h : Booked n s b) (hp : p < n) (now : Int) : Booked n (touch p now s) b :=
  h.note (fun _ => rfl) (fun _ _ other => by cases other <;> rfl) hp

theorem Booked.store (h : Booked n s b) (hp : p < n) (count : Int) :
    Booked n (store count p s) (bump (p, .storage) count b) := by
  refine h.mapVault hp (fun _ => rfl) fun pl _ other => ?_
  cases other <;> simp [amountIn, bankPtr]

theorem gemsTask_unrewarded {pl : Player} (hpl : Unrewarded pl) (amount : Int) :
    gemsTask amount pl = (false, pl) := by
  unfold gemsTask completeGpassTask
  rcases hpl.task with hgp | hdone
  · rw [if_neg fun h => h.1 hgp]
  · rw [if_pos hdone, ite_self]

theorem Booked.onMinGems (h : Booked n s b) (hp : p < n) (amount : Int) :
    Booked n (onMinGems p amount s) (bump (p, .wallet) (-amount) b) := by
  obtain ⟨pl, hpl⟩ := h.player hp
  obtain ⟨hcalm, hunrewarded, hfree⟩ := h.ready p pl hpl
  have hsame := gemsTask_unrewarded hunrewarded amount
  refine h.change hpl (modify_eq_set_of hpl) (Function.update_eq_self p s.vaults).symm ?_ ?_
  · dsimp only
    rw [hsame]
    exact ⟨⟨hcalm.slots, hcalm.convert, hcalm.finite⟩, ⟨hunrewarded.task, hunrewarded.quest⟩, hfree⟩
  · intro other
    dsimp only
    rw [hsame]
    cases other <;> simp [amountIn, bankPtr, sub_eq_add_neg]

/-- Gems that bring no reward and are not converted are only added. -/
theorem onBuxGems_ready {server : Server} {pl : Player} {vault : Vault}
    (hpl : server.players[p]? = some pl) (hready : Ready pl vault) (now amount : Int) :
    onBuxGems env p now amount server =
      server.mapPlayer p fun pl => { pl with gems := pl.gems + amount } := by
  have hfixed : server.mapPlayer p (fun _ => pl) = server := by
    unfold Server.mapPlayer
    rw [Ledger.modify_fixed hpl rfl]
  have hquest : updatePairProgress env p now 3 amount server = server := by
    unfold updatePairProgress
    rw [hpl]
    rcases hready.unrewarded.quest with hsingle | hother
    · exact if_pos hsingle
    · dsimp only
      rw [if_pos hother, ite_self]
  unfold onBuxGems
  rw [hpl]
  dsimp only
  rw [gemsTask_unrewarded hready.unrewarded, hfixed]
  simp only [Bool.false_eq_true, if_false, hquest, ite_self]
  have hrich : (server.mapPlayer p fun pl => { pl with gems := pl.gems + amount }).players[p]? =
      some { pl with gems := pl.gems + amount } := by
    simp [Server.mapPlayer, hpl]
  generalize (server.mapPlayer p fun pl => { pl with gems := pl.gems + amount }) = rich at hrich ⊢
  split_ifs
  · unfold Server.serve
    rw [hrich]
    dsimp only
    have hstill : autoConvert env (rich.session { pl with gems := pl.gems + amount } now) =
        rich.session { pl with gems := pl.gems + amount } now :=
      autoConvertWith_quiet (Or.inl hready.calm.convert)
    rw [hstill]
    unfold Server.session
    dsimp only
    rw [set_of_getElem? hrich]
  · rfl

theorem Booked.buxGems (h : Booked n s b) (hp : p < n) (now amount : Int) :
    Booked n (buxGems env p now amount s) (bump (p, .wallet) amount b) := by
  obtain ⟨pl, hpl⟩ := h.player hp
  have hready := h.ready p pl hpl
  have hsame : BankCentral.buxGems env p now amount s =
      s.mapPlayer p fun pl => { pl with gems := pl.gems + amount } := by
    unfold BankCentral.buxGems
    rw [onBuxGems_ready hpl hready]
    rfl
  rw [hsame]
  refine h.mapPlayer hp (fun pl vault hready => ?_) fun pl _ other => ?_
  · obtain ⟨hcalm, hunrewarded, hfree⟩ := hready
    exact ⟨⟨hcalm.slots, hcalm.convert, hcalm.finite⟩, ⟨hunrewarded.task, hunrewarded.quest⟩, hfree⟩
  · cases other <;> simp [amountIn, bankPtr]

/-- A change behind `bank_ptr` changes the locks of that kind. -/
theorem Booked.mapBank (h : Booked n s b) (hp : p < n) {id c : Int} {f : Int → Int}
    (hid : id ∈ lockIds) (hf : f (b (p, .bank id)) = b (p, .bank id) + c) :
    Booked n (mapBank id f p s) (bump (p, .bank id) c b) := by
  have hbank : ∀ pl, s.server.players[p]? = some pl →
      f ((bankPtr id pl (s.vaults p)).getD 0) = (bankPtr id pl (s.vaults p)).getD 0 + c := by
    intro pl hpl
    have hamount : (bankPtr id pl (s.vaults p)).getD 0 = b (p, .bank id) := h.amount hpl (.bank id)
    rw [hamount, hf]
  have hready : ∀ pl vault, Ready pl vault → ∀ wl dl bgl, Ready { pl with
      wlBankAmount := wl, dlBankAmount := dl, bglBankAmount := bgl } vault := by
    intro pl vault hready wl dl bgl
    obtain ⟨hcalm, hunrewarded, hfree⟩ := hready
    exact ⟨⟨hcalm.slots, hcalm.convert, hcalm.finite⟩, ⟨hunrewarded.task, hunrewarded.quest⟩, hfree⟩
  unfold BankCentral.mapBank
  simp only [lockIds, List.mem_cons, List.not_mem_nil, or_false] at hid
  rcases hid with rfl | rfl | rfl | rfl | rfl
  · refine h.mapPlayer hp (fun pl vault hpl => hready pl vault hpl _ _ _) fun pl hpl other => ?_
    have hlocks := hbank pl hpl
    cases other with
    | bank k => by_cases hk : k = 242 <;> simp_all [amountIn, bankPtr]
    | _ => simp [amountIn]
  · refine h.mapPlayer hp (fun pl vault hpl => hready pl vault hpl _ _ _) fun pl hpl other => ?_
    have hlocks := hbank pl hpl
    cases other with
    | bank k => by_cases hk : k = 1796 <;> simp_all [amountIn, bankPtr]
    | _ => simp [amountIn]
  · refine h.mapPlayer hp (fun pl vault hpl => hready pl vault hpl _ _ _) fun pl hpl other => ?_
    have hlocks := hbank pl hpl
    cases other with
    | bank k => by_cases hk : k = 7188 <;> simp_all [amountIn, bankPtr]
    | _ => simp [amountIn]
  · rw [if_neg (by decide), if_neg (by decide), if_neg (by decide), if_pos rfl]
    refine h.mapVault hp (fun _ => rfl) fun pl hpl other => ?_
    have hlocks := hbank pl hpl
    cases other with
    | bank k => by_cases hk : k = 8470 <;> simp_all [amountIn, bankPtr]
    | _ => simp [amountIn]
  · rw [if_neg (by decide), if_neg (by decide), if_neg (by decide), if_neg (by decide), if_pos rfl]
    refine h.mapVault hp (fun _ => rfl) fun pl hpl other => ?_
    have hlocks := hbank pl hpl
    cases other with
    | bank k => by_cases hk : k = 20298 <;> simp_all [amountIn, bankPtr]
    | _ => simp [amountIn]

/-- What `Modify` leaves of a customer it has given something to. -/
theorem Ready.of_given {pl next : Player} {vault : Vault} {id c : Int} (hready : Ready pl vault)
    (hgiven : Given pl id c next) : Ready next vault where
  calm := hready.calm.of_given hgiven
  unrewarded :=
    ⟨(Player.core_congr hgiven.core (fun pl => pl.account.gp = 0 ∨
        "Gems" ∈ pl.growPass.growpassQuests) fun _ => rfl).mpr hready.unrewarded.task,
      (Player.core_congr hgiven.core (fun pl => pl.pair.isPaired = false ∨
        pl.pair.questType ≠ 3) fun _ => rfl).mpr hready.unrewarded.quest⟩
  free := hready.free

theorem amountIn_given {pl next : Player} {vault : Vault} {id c : Int}
    (hslots : SlotInv pl.inv) (hgiven : Given pl id c next) (other : Place) :
    amountIn next vault other =
      amountIn pl vault other + if other = .backpack id then c else 0 := by
  cases other with
  | backpack k =>
      unfold amountIn
      dsimp only
      rw [contains_eq_total hgiven.slots, contains_eq_total hslots, hgiven.amount]
      simp only [Place.backpack.injEq, eq_comm]
  | bank k =>
      have hbank := Player.core_congr hgiven.core (bankPtr k · vault) fun _ => rfl
      simp [amountIn, hbank]
  | wallet =>
      have hgems := Player.core_congr hgiven.core Player.gems fun _ => rfl
      simp [amountIn, hgems]
  | storage => simp [amountIn]

/-- A call of `Modify`: the amount is in the backpack, or nothing has happened. -/
theorem Booked.modifyOf (h : Booked n s b) (hp : p < n) (hlocks : env.items.LocksListed) {id : Int}
    (hid : id ∈ lockIds) (now c : Int) :
    (∃ t, modifyOf env p now id c s = (0, t) ∧ t.vaults = s.vaults ∧
        Booked n t (bump (p, .backpack id) c b)) ∨
      modifyOf env p now id c s = (-1, s) := by
  obtain ⟨pl, hpl⟩ := h.player hp
  have hready := h.ready p pl hpl
  have hslots := hready.calm.slots
  have hquiet := hready.calm.quiet (hlocks.notFish id hid) c
  unfold BankCentral.modifyOf
  rw [hpl]
  rcases @modify_moves env (s.server.session pl now) id c false hslots hquiet with
    ⟨next, left, hmodify, hgiven⟩ | ⟨left, hmodify⟩
  · left
    refine ⟨{ s with server := ⟨s.server.players.set p next, s.server.worlds, s.server.rands⟩ },
      ?_, rfl, ?_⟩
    · dsimp only
      rw [hmodify]
      rfl
    · exact h.change hpl rfl (Function.update_eq_self p s.vaults).symm (hready.of_given hgiven)
        (amountIn_given hslots hgiven)
  · right
    dsimp only
    rw [hmodify]
    unfold Server.session
    dsimp only
    rw [set_of_getElem? hpl]

end Operations

section Messages

/-- A posting that a message of a peer may make: of one kind of thing, out of an account
of that peer which has the amount, or out of a wallet that may be overdrawn. -/
structure Moves (n p : Nat) (overdraft : Bool) (b : Holding → Int) (post : Posting Holding) :
    Prop where
  sender : post.source.1 = p
  source : p < n
  target : post.target.1 < n
  asset : post.target.2.asset = post.source.2.asset
  amount : 0 ≤ post.amount
  covered : post.amount ≤ b post.source ∨ overdraft = true ∧ post.source.2 = .wallet

/-- Nothing is owed, and the locks of a kind are a number of 32 bits. -/
structure Solvent (n : Nat) (b : Holding → Int) : Prop where
  storage : ∀ p, 0 ≤ b (p, .storage)
  locks : ∀ id ∈ lockIds, ∀ at_ : Holding, at_.2.asset = some id → 0 ≤ b at_
  fits : ∀ id ∈ lockIds, ∑ at_ ∈ holdings n (some id), b at_ < 2 ^ 31

/-- How far a message may raise what the gem accounts have or owe: a transfer of a million
gems takes them out of one wallet and puts them into another. -/
def raise (overdraft : Bool) : Int := if overdraft = true then 2000000 else 0

theorem raise_nonneg (overdraft : Bool) : 0 ≤ raise overdraft := by
  cases overdraft <;> decide

/-- A message of a peer has been served, by postings it may make. -/
def Served (n p : Nat) (overdraft : Bool) (b : Holding → Int) (t : State) : Prop :=
  ∃ next, Booked n t next ∧ Posted (Moves n p overdraft) b next ∧
    stake (holdings n none) next ≤ stake (holdings n none) b + raise overdraft

variable {env : Env} {n p : Nat} {overdraft : Bool} {s t : State} {b : Holding → Int}

theorem Served.still (h : Booked n s b) : Served n p overdraft b s :=
  ⟨b, h, Relation.ReflTransGen.refl, le_add_of_nonneg_right (raise_nonneg overdraft)⟩

theorem Moves.apart {post : Posting Holding} (hmoves : Moves n p overdraft b post)
    (asset : Option Int) :
    post.source ∈ holdings n asset ↔ post.target ∈ holdings n asset := by
  have hsource := hmoves.source
  rw [← hmoves.sender] at hsource
  rw [mem_holdings, mem_holdings, hmoves.asset]
  simp [hsource, hmoves.target]

theorem Moves.paid {post : Posting Holding} (hmoves : Moves n p false b post) :
    post.amount ≤ b post.source :=
  hmoves.covered.resolve_right fun hboth => by cases hboth.1

theorem Moves.allowed {post : Posting Holding} (hmoves : Moves n p false b post) :
    Moves n p overdraft b post :=
  { hmoves with covered := Or.inl hmoves.paid }

/-- A posting that is covered. -/
theorem Served.posted {source target : Holding} {count : Int}
    (h : Booked n t (bump target count (bump source (-count) b)))
    (hmoves : Moves n p false b ⟨source, target, count⟩) : Served n p overdraft b t := by
  have hstake := Posting.stake_apply_le (hmoves.apart none) hmoves.amount hmoves.paid
  refine ⟨_, h, Posted.single hmoves.allowed, hstake.trans ?_⟩
  exact le_add_of_nonneg_right (raise_nonneg overdraft)

/-- Two accounts of a kind of lock have less together than there can be. -/
theorem Solvent.pair_lt (hs : Solvent n b) {id : Int} (hid : id ∈ lockIds) {x y : Holding}
    (hx : x ∈ holdings n (some id)) (hy : y ∈ holdings n (some id)) (hne : x ≠ y) :
    b x + b y < 2 ^ 31 := by
  have hsub : ({x, y} : Finset Holding) ⊆ holdings n (some id) := by
    intro at_ hat
    rcases Finset.mem_insert.mp hat with rfl | hat
    · exact hx
    · rwa [Finset.mem_singleton.mp hat]
  calc b x + b y = ∑ at_ ∈ {x, y}, b at_ := (Finset.sum_pair hne).symm
    _ ≤ ∑ at_ ∈ holdings n (some id), b at_ :=
      Finset.sum_le_sum_of_subset_of_nonneg hsub fun at_ hat _ =>
        hs.locks id hid at_ (mem_holdings.mp hat).2
    _ < 2 ^ 31 := hs.fits id hid

variable {id count now : Int}

theorem mem_backpack (hp : p < n) : ((p, .backpack id) : Holding) ∈ holdings n (some id) :=
  mem_holdings.mpr ⟨hp, rfl⟩

theorem mem_bank (hp : p < n) : ((p, .bank id) : Holding) ∈ holdings n (some id) :=
  mem_holdings.mpr ⟨hp, rfl⟩

/-- Locks that go from the backpack into the bank. -/
theorem served_takeIn (h : Booked n s b) (hp : p < n) (hlocks : env.items.LocksListed)
    (hsolvent : Solvent n b) (hid : id ∈ lockIds) {wrap : State → State}
    (hwrap : ∀ t b, Booked n t b → Booked n (wrap t) b) (hpos : 0 ≤ count)
    (henough : count ≤ b (p, .backpack id)) :
    Served n p overdraft b (if (modifyOf env p now id (-count) s).1 = 0 then
      wrap (credit id count p (modifyOf env p now id (-count) s).2)
      else (modifyOf env p now id (-count) s).2) := by
  have hne : ((p, .bank id) : Holding) ≠ (p, .backpack id) := by simp
  have hroom := hsolvent.pair_lt hid (mem_backpack hp) (mem_bank hp) hne.symm
  have hbank := hsolvent.locks id hid (p, .bank id) rfl
  rcases h.modifyOf hp hlocks hid now (-count) with ⟨t, heq, -, hbooked⟩ | heq
  · rw [heq, if_pos rfl]
    have hcredit : int32 (bump (p, .backpack id) (-count) b (p, .bank id) + count) =
        bump (p, .backpack id) (-count) b (p, .bank id) + count := by
      rw [bump_of_ne _ _ _ _ hne]
      exact int32_of_range (by omega) (by omega)
    have hnext : Booked n (wrap (credit id count p t)) _ :=
      hwrap _ _ (hbooked.mapBank hp hid hcredit)
    exact Served.posted hnext ⟨rfl, hp, hp, rfl, hpos, Or.inl henough⟩
  · rw [heq, if_neg (show (-1 : Int) ≠ 0 by decide)]
    exact Served.still h

/-- Locks that go from the bank into the backpack. -/
theorem served_payOut (h : Booked n s b) (hp : p < n) (hlocks : env.items.LocksListed)
    (hid : id ∈ lockIds) {wrap : State → State}
    (hwrap : ∀ t b, Booked n t b → Booked n (wrap t) b) {f : Int → Int}
    (hf : f (b (p, .bank id)) = b (p, .bank id) + -count) (hpos : 0 ≤ count)
    (henough : count ≤ b (p, .bank id)) :
    Served n p overdraft b (if (modifyOf env p now id count s).1 = 0 then
      wrap (mapBank id f p (modifyOf env p now id count s).2)
      else (modifyOf env p now id count s).2) := by
  have hne : ((p, .bank id) : Holding) ≠ (p, .backpack id) := by simp
  rcases h.modifyOf hp hlocks hid now count with ⟨t, heq, -, hbooked⟩ | heq
  · rw [heq, if_pos rfl]
    have hdebit : f (bump (p, .backpack id) count b (p, .bank id)) =
        bump (p, .backpack id) count b (p, .bank id) + -count := by
      rw [bump_of_ne _ _ _ _ hne, hf]
    have hnext := hwrap _ _ (hbooked.mapBank hp hid hdebit)
    rw [bump_comm] at hnext
    exact Served.posted hnext ⟨rfl, hp, hp, rfl, hpos, Or.inl henough⟩
  · rw [heq, if_neg (show (-1 : Int) ≠ 0 by decide)]
    exact Served.still h

/-- Gems that go from the wallet into the bank. -/
theorem served_gemsIn (h : Booked n s b) (hp : p < n) {wrap : State → State}
    (hwrap : ∀ t b, Booked n t b → Booked n (wrap t) b) (hpos : 0 ≤ count)
    (henough : count ≤ b (p, .wallet)) :
    Served n p overdraft b (wrap (onMinGems p count (store count p s))) := by
  have hnext := hwrap _ _ ((h.store hp count).onMinGems hp count)
  rw [bump_comm] at hnext
  exact Served.posted hnext ⟨rfl, hp, hp, rfl, hpos, Or.inl henough⟩

/-- Gems that go from the bank into the wallet. -/
theorem served_gemsOut (hp : p < n) {wrap : State → State}
    (hwrap : ∀ t b, Booked n t b → Booked n (wrap t) b) {stored : State}
    (hstored : Booked n stored (bump (p, .storage) (-count) b)) (hpos : 0 ≤ count)
    (henough : count ≤ b (p, .storage)) :
    Served n p overdraft b (wrap (buxGems env p now count stored)) :=
  Served.posted (hwrap _ _ (hstored.buxGems hp now count)) ⟨rfl, hp, hp, rfl, hpos, Or.inl henough⟩

theorem selectedItemId_mem {cch : String} (hne : selectedItemId cch ≠ 0) :
    selectedItemId cch ∈ lockIds := by
  unfold selectedItemId at hne ⊢
  dsimp only at hne ⊢
  cases hfind : lockIds.find? fun id => TextScanner.get cch (checkboxKey id) == "1" with
  | some id => exact List.mem_of_find?_eq_some hfind
  | none =>
      rw [hfind] at hne
      dsimp only at hne ⊢
      split_ifs at hne ⊢ <;> simp_all [lockIds]

/-- A transfer of locks from one bank to another. -/
theorem served_transfer (h : Booked n s b) (hp : p < n) {q : Nat} (hq : q < n)
    (hsolvent : Solvent n b) (hid : id ∈ lockIds) (hpos : 0 ≤ count)
    (henough : count ≤ b (p, .bank id)) :
    Served n p overdraft b (openBank p (credit id count q (debit id count p s))) := by
  have hfits : ∀ r, r < n → b (r, .bank id) < 2 ^ 31 := by
    intro r hr
    have hroom := hsolvent.pair_lt hid (mem_backpack hr) (mem_bank hr) (by simp)
    have hbackpack := hsolvent.locks id hid (r, .backpack id) rfl
    omega
  have hbank := hsolvent.locks id hid (p, .bank id) rfl
  have hdebit : int32 (b (p, .bank id) - count) = b (p, .bank id) + -count := by
    have hlt := hfits p hp
    exact int32_of_range (by omega) (by omega)
  have hmid : Booked n (debit id count p s) _ := h.mapBank hp hid hdebit
  have hcredit : int32 (bump (p, .bank id) (-count) b (q, .bank id) + count) =
      bump (p, .bank id) (-count) b (q, .bank id) + count := by
    by_cases hself : q = p
    · subst hself
      have hlt := hfits q hq
      rw [bump_self]
      exact int32_of_range (by omega) (by omega)
    · have hne : ((q, .bank id) : Holding) ≠ (p, .bank id) := by simp [hself]
      have hroom := hsolvent.pair_lt hid (mem_bank hq) (mem_bank hp) hne
      have htarget := hsolvent.locks id hid (q, .bank id) rfl
      rw [bump_of_ne _ _ _ _ hne]
      exact int32_of_range (by omega) (by omega)
  exact Served.posted ((hmid.mapBank hq hid hcredit).openBank hp)
    ⟨rfl, hp, hq, rfl, hpos, Or.inl henough⟩

/-- A transfer of gems from one bank to another. -/
theorem served_transferStored (h : Booked n s b) (hp : p < n) {q : Nat} (hq : q < n)
    (hpos : 0 ≤ count) (henough : count ≤ b (p, .storage)) :
    Served n p overdraft b (store count q (store (-count) p s)) :=
  Served.posted ((h.store hp (-count)).store hq count) ⟨rfl, hp, hq, rfl, hpos, Or.inl henough⟩

/-- `Confirm_Transfer` moves gems between the banks and between the wallets. -/
theorem served_transferGems (h : Booked n s b) (hp : p < n) {q : Nat} (hq : q < n)
    (hpos : 0 ≤ count) (hmost : count ≤ 1000000) (henough : count ≤ b (p, .storage)) :
    Served n p true b (openBank p (buxGems env q now count (onMinGems p count
      (store count q (store (-count) p s))))) := by
  obtain ⟨mid, hmid, hfirst, hstored⟩ :=
    @served_transferStored n p false s b count h hp q hq hpos henough
  have hlast : Booked n (openBank p (buxGems env q now count (onMinGems p count
      (store count q (store (-count) p s))))) _ :=
    ((hmid.onMinGems hp count).buxGems hq now count).openBank hp
  have hwallets : Moves n p true mid ⟨(p, .wallet), (q, .wallet), count⟩ :=
    ⟨rfl, hp, hq, rfl, hpos, Or.inr ⟨rfl, rfl⟩⟩
  have hbanks : Posted (Moves n p true) b mid := hfirst.mono fun b post hmoves => hmoves.allowed
  have hraised := @Posting.stake_apply_le_add Holding _ ⟨(p, .wallet), (q, .wallet), count⟩ mid
    (holdings n none) hpos
  refine ⟨_, hlast, hbanks.trans (Posted.single hwallets), hraised.trans ?_⟩
  change _ + 2 * count ≤ _ + 2000000
  change _ ≤ _ + 0 at hstored
  omega

theorem findTarget_lt {targetName : String} {q : Nat}
    (hfind : findTarget s.server targetName = some q) (h : Booked n s b) : q < n := by
  rw [← h.length]
  exact (List.findIdx?_eq_some_iff_getElem.mp hfind).1

theorem served_confirmDepo (h : Booked n s b) (hsolvent : Solvent n b)
    (hlocks : env.items.LocksListed) (cch : String) (now : Int) :
    Served n p overdraft b (confirmDepo env cch p now s) := by
  unfold confirmDepo
  dsimp only
  cases hpl : s.server.players[p]? with
  | none => exact Served.still h
  | some pl =>
      dsimp only
      have hp := h.lt hpl
      have hopen : ∀ t b, Booked n t b → Booked n (openBank p t) b := fun t b ht => ht.openBank hp
      generalize atoi (TextScanner.get cch "amount") = count
      have hgems : 1 ≤ count → count ≤ pl.gems →
          Served n p overdraft b (openBank p (onMinGems p count (store count p s))) :=
        fun hpos henough => served_gemsIn h hp hopen (by omega)
          (henough.trans_eq (h.amount hpl .wallet))
      have htake : selectedItemId cch ≠ 0 → 1 ≤ count →
          count ≤ contains pl.inv (selectedItemId cch) → Served n p overdraft b _ :=
        fun hne hpos henough => @served_takeIn env n p overdraft s b (selectedItemId cch) count now
          h hp hlocks hsolvent (selectedItemId_mem hne) _ hopen (by omega)
          (henough.trans_eq (h.amount hpl (.backpack (selectedItemId cch))))
      generalize (if (modifyOf env p now (selectedItemId cch) (-count) s).1 = 0 then _ else _) =
        taken at htake ⊢
      split_ifs with hpick hamount hkind hfew hmany hlack
      · exact Served.still h
      · exact Served.still h
      · exact Served.still h
      · exact hgems (by omega) (by omega)
      · exact Served.still h
      · exact Served.still h
      · exact htake (fun hzero => hpick ⟨hkind, hzero⟩) (by omega) (by omega)

/-- A kind of lock that there is in the bank. -/
theorem bankPtr_eq_some (h : Booked n s b) {pl : Player} (hpl : s.server.players[p]? = some pl)
    {balance : Int} (hptr : bankPtr id pl (s.vaults p) = some balance) :
    b (p, .bank id) = balance := by
  have hamount : (bankPtr id pl (s.vaults p)).getD 0 = b (p, .bank id) := h.amount hpl (.bank id)
  rw [← hamount, hptr, Option.getD_some]

/-- Within the balance nothing wraps around. -/
theorem debit_fits (hp : p < n) (hsolvent : Solvent n b) (hid : id ∈ lockIds) (hpos : 0 ≤ count)
    (henough : count ≤ b (p, .bank id)) :
    int32 (b (p, .bank id) - count) = b (p, .bank id) + -count := by
  have hroom := hsolvent.pair_lt hid (mem_backpack hp) (mem_bank hp) (by simp)
  have hbackpack := hsolvent.locks id hid (p, .backpack id) rfl
  exact int32_of_range (by omega) (by omega)

theorem served_confirmWd (h : Booked n s b) (hsolvent : Solvent n b)
    (hlocks : env.items.LocksListed) (cch : String) (now : Int) :
    Served n p overdraft b (confirmWd env cch p now s) := by
  unfold confirmWd
  dsimp only
  cases hpl : s.server.players[p]? with
  | none => exact Served.still h
  | some pl =>
      dsimp only
      have hp := h.lt hpl
      have hopen : ∀ t b, Booked n t b → Booked n (openBank p t) b := fun t b ht => ht.openBank hp
      generalize atoi (TextScanner.get cch "amount") = count
      have hgems : 1 ≤ count → count ≤ (s.vaults p).gemsStorage →
          Served n p overdraft b (openBank p (buxGems env p now count (store (-count) p s))) :=
        fun hpos henough => served_gemsOut hp hopen (h.store hp (-count)) (by omega)
          (henough.trans_eq (h.amount hpl .storage))
      cases hptr : bankPtr (selectedItemId cch) pl (s.vaults p) with
      | none =>
          dsimp only
          split_ifs with hpick hamount hkind hfew hrich
          · exact Served.still h
          · exact Served.still h
          · exact Served.still h
          · exact Served.still h
          · exact hgems (by omega) (by omega)
          · exact Served.still h
          · exact Served.still h
          · exact Served.still h
      | some balance =>
          have hbalance := bankPtr_eq_some h hpl hptr
          have hpay : selectedItemId cch ≠ 0 → 1 ≤ count → count ≤ balance →
              Served n p overdraft b _ := fun hne hpos henough =>
            @served_payOut env n p overdraft s b (selectedItemId cch) count now h hp hlocks
              (selectedItemId_mem hne) (openBank p) hopen (fun m => int32 (m - count))
              (debit_fits hp hsolvent (selectedItemId_mem hne) (by omega) (by omega)) (by omega)
              (by omega)
          dsimp only
          unfold debit
          generalize (if (modifyOf env p now (selectedItemId cch) count s).1 = 0 then _ else _) =
            given at hpay ⊢
          split_ifs with hpick hamount hkind hfew hrich hmany hslots hlack hmax
          · exact Served.still h
          · exact Served.still h
          · exact Served.still h
          · exact Served.still h
          · exact hgems (by omega) (by omega)
          · exact Served.still h
          · exact Served.still h
          · exact Served.still h
          · exact Served.still h
          · exact hpay (fun hzero => hpick ⟨hkind, hzero⟩) (by omega) (by omega)

theorem served_confirmTransfer (h : Booked n s b) (hsolvent : Solvent n b) (cch : String)
    (now : Int) : Served n p (TextScanner.get cch "gems" == "1") b
      (confirmTransfer env cch p now s) := by
  unfold confirmTransfer
  dsimp only
  cases hpl : s.server.players[p]? with
  | none => exact Served.still h
  | some pl =>
      dsimp only
      have hp := h.lt hpl
      have hstorage : (s.vaults p).gemsStorage = b (p, .storage) := h.amount hpl .storage
      generalize atoi (TextScanner.get cch "amount") = count
      cases hfind : findTarget s.server (TextScanner.get cch "target_name") with
      | none =>
          dsimp only
          split_ifs <;> exact Served.still h
      | some q =>
          dsimp only
          have hq := findTarget_lt hfind h
          have hgems : TextScanner.get cch "gems" = "1" → 0 < count → count ≤ 1000000 →
              count ≤ (s.vaults p).gemsStorage →
              Served n p (TextScanner.get cch "gems" == "1") b (openBank p (buxGems env q now count
                (onMinGems p count (store count q (store (-count) p s))))) := by
            intro hkind hpos hmost henough
            rw [beq_iff_eq.mpr hkind]
            exact served_transferGems h hp hq (by omega) hmost (by omega)
          have htransfer : ∀ balance, bankPtr (selectedItemId cch) pl (s.vaults p) = some balance →
              selectedItemId cch ≠ 0 → 0 < count → count ≤ balance →
              Served n p (TextScanner.get cch "gems" == "1") b (openBank p
                (credit (selectedItemId cch) count q (debit (selectedItemId cch) count p s))) := by
            intro balance hptr hne hpos henough
            have hbalance := bankPtr_eq_some h hpl hptr
            exact served_transfer h hp hq hsolvent (selectedItemId_mem hne) (by omega) (by omega)
          cases hptr : bankPtr (selectedItemId cch) pl (s.vaults p) with
          | none =>
              dsimp only
              split_ifs with hpick hname hamount hkind hfew hfull
              · exact Served.still h
              · exact Served.still h
              · exact Served.still h
              · exact Served.still h
              · exact Served.still h
              · exact hgems hkind (by omega) (by omega) (by omega)
              · exact Served.still h
          | some balance =>
              dsimp only
              split_ifs with hpick hname hamount hkind hfew hfull hlack
              · exact Served.still h
              · exact Served.still h
              · exact Served.still h
              · exact Served.still h
              · exact Served.still h
              · exact hgems hkind (by omega) (by omega) (by omega)
              · exact Served.still h
              · exact htransfer balance hptr (fun hzero => hpick ⟨hkind, hzero⟩) (by omega)
                  (by omega)

/-- The PIN is noted, and moves nothing. -/
theorem served_pin (h : Booked n s b) (hp : p < n) (cch : String) :
    Served n p overdraft b (createPin env cch p s) ∧
      Served n p overdraft b (enterPin env cch p s) := by
  have hopen : Served n p overdraft b (openBank p s) := Served.still (h.openBank hp)
  constructor
  · unfold createPin
    dsimp only
    generalize TextScanner.get cch "pin_bank" = pin
    have hnoted : Booked n (s.mapVault p fun vault =>
        { vault with bankPassword := atoi pin }) b :=
      h.note (fun _ => rfl) (fun _ _ other => by cases other <;> rfl) hp
    split_ifs
    · exact hopen
    · exact Served.still (hnoted.openBank hp)
  · unfold enterPin
    dsimp only
    split_ifs
    · exact hopen
    · exact hopen
    · exact Served.still ((h.openBank hp).openBank hp)

/-- A message that transfers gems from `Bank_Central`. -/
def Message.gift : Message → Bool
  | .bankCentral cch => TextScanner.tryGet cch "buttonClicked" == some "Confirm_Transfer" &&
      TextScanner.get cch "gems" == "1"
  | _ => false

theorem served_bankCentral (h : Booked n s b) (hp : p < n) (hsolvent : Solvent n b)
    (hlocks : env.items.LocksListed) (cch : String) (now : Int) :
    Served n p (Message.bankCentral cch).gift b (bankCentral env cch p now s) := by
  unfold bankCentral Message.gift
  dsimp only
  cases TextScanner.tryGet cch "buttonClicked" with
  | none => exact Served.still h
  | some button =>
      dsimp only
      split_ifs with hback hdepo hwd htransfer hcreate henter
      · exact Served.still (h.openBank hp)
      · exact served_confirmDepo h hsolvent hlocks cch now
      · exact served_confirmWd h hsolvent hlocks cch now
      · rw [htransfer, beq_self_eq_true, Bool.true_and]
        exact served_confirmTransfer h hsolvent cch now
      · exact (served_pin h hp cch).1
      · exact (served_pin h hp cch).2
      · exact Served.still h

theorem jumlah_pos {cch : String} {amount : Int} (hjumlah : jumlah cch = some amount) :
    0 < amount := by
  unfold jumlah at hjumlah
  dsimp only at hjumlah
  split at hjumlah
  · cases hjumlah
  · split at hjumlah
    · cases hjumlah
    · split at hjumlah
      · cases hjumlah
      · next hrange =>
        obtain rfl := Option.some.inj hjumlah
        omega

theorem served_bankgem (h : Booked n s b) (cch : String) (now : Int) :
    Served n p overdraft b (bankgem env cch p now s) := by
  unfold bankgem
  dsimp only
  cases hpl : s.server.players[p]? with
  | none =>
      dsimp only
      split_ifs <;> exact Served.still h
  | some pl =>
      have hp := h.lt hpl
      have hwallet : pl.gems = b (p, .wallet) := h.amount hpl .wallet
      have hstorage : (s.vaults p).gemsStorage = b (p, .storage) := h.amount hpl .storage
      have hself : ∀ t b, Booked n t b → Booked n (id t) b := fun t b ht => ht
      cases hjumlah : jumlah cch with
      | none =>
          dsimp only
          split_ifs <;> exact Served.still h
      | some amount =>
          have hpos := jumlah_pos hjumlah
          dsimp only
          split_ifs with hbutton hdp hfew hfull hwd hlack hrich
          · exact Served.still h
          · exact Served.still h
          · exact Served.still h
          · exact served_gemsIn h hp hself (by omega) (by omega)
          · exact Served.still h
          · exact Served.still h
          · exact served_gemsOut hp hself (h.store hp (-amount)) (by omega) (by omega)
          · exact Served.still h

theorem served_transferbankgem (h : Booked n s b) (cch : String) :
    Served n p overdraft b (transferbankgem cch p s) := by
  unfold transferbankgem
  dsimp only
  cases hpl : s.server.players[p]? with
  | none =>
      dsimp only
      split_ifs <;> exact Served.still h
  | some pl =>
      have hp := h.lt hpl
      have hstorage : (s.vaults p).gemsStorage = b (p, .storage) := h.amount hpl .storage
      cases hjumlah : jumlah cch with
      | none =>
          dsimp only
          split_ifs <;> exact Served.still h
      | some amount =>
          have hpos := jumlah_pos hjumlah
          cases hfind : findTarget s.server (TextScanner.get cch "player_") with
          | none =>
              dsimp only
              split_ifs <;> exact Served.still h
          | some q =>
              dsimp only
              split_ifs with hbutton hname hlack hfull
              · exact Served.still h
              · exact Served.still h
              · exact Served.still h
              · exact Served.still h
              · exact served_transferStored h hp (findTarget_lt hfind h) (by omega) (by omega)

theorem served_deposit (h : Booked n s b) (hsolvent : Solvent n b)
    (hlocks : env.items.LocksListed) (hid : id ∈ lockIds) (cmd : String) (now : Int) :
    Served n p overdraft b (deposit env id cmd p now s) := by
  unfold deposit
  cases hpl : s.server.players[p]? with
  | none => exact Served.still h
  | some pl =>
      have hp := h.lt hpl
      cases amountOf cmd p s with
      | none => exact Served.still h
      | some amount =>
          have htake : 0 ≤ amount → amount ≤ contains pl.inv id → Served n p overdraft b _ :=
            fun hpos henough => @served_takeIn env n p overdraft s b id amount now h hp hlocks
              hsolvent hid (fun t => t) (fun t b ht => ht) hpos
              (henough.trans_eq (h.amount hpl (.backpack id)))
          dsimp only at htake ⊢
          generalize (if (modifyOf env p now id (-amount) s).1 = 0 then _ else _) = taken at htake ⊢
          split_ifs with hrange hlack
          · exact Served.still h
          · exact Served.still h
          · exact htake (by omega) (by omega)

theorem served_depositGems (h : Booked n s b) (cmd : String) (now : Int) :
    Served n p overdraft b (depositGems cmd p now s) := by
  unfold depositGems
  cases hpl : s.server.players[p]? with
  | none => exact Served.still h
  | some pl =>
      have hp := h.lt hpl
      have hwallet : pl.gems = b (p, .wallet) := h.amount hpl .wallet
      have hself : ∀ t b, Booked n t b → Booked n (id t) b := fun t b ht => ht
      cases amountOf cmd p s with
      | none => exact Served.still h
      | some amount =>
          dsimp only
          split_ifs with hrange hlack
          · exact Served.still h
          · exact Served.still h
          · exact served_gemsIn h hp hself (by omega) (by omega)

/-- A withdrawal by command asks for no more than there is, and for no more than fits. -/
theorem withdrawal_bounds {cmd : String} {amount : Int} {pl : Player}
    (hpl : s.server.players[p]? = some pl)
    (hwithdrawal : withdrawal id cmd p now s = some amount) :
    1 ≤ amount ∧ amount ≤ (bankPtr id pl (s.vaults p)).getD 0 ∧ getSlots pl.inv ≠ 0 ∧
      amount ≤ 200 ∧ checkMax pl.inv id amount = false := by
  unfold withdrawal at hwithdrawal
  rw [hpl] at hwithdrawal
  dsimp only at hwithdrawal
  cases hamount : amountOf cmd p s with
  | none =>
      rw [hamount] at hwithdrawal
      split_ifs at hwithdrawal
  | some m =>
      rw [hamount] at hwithdrawal
      dsimp only at hwithdrawal
      split_ifs at hwithdrawal with hwait hrange hlack hslots hmax
      obtain rfl := Option.some.inj hwithdrawal
      exact ⟨by omega, by omega, hslots, by omega, Bool.eq_false_iff.mpr hmax⟩

theorem withdrawal_player {cmd : String} {amount : Int}
    (hwithdrawal : withdrawal id cmd p now s = some amount) :
    ∃ pl, s.server.players[p]? = some pl := by
  cases hpl : s.server.players[p]? with
  | some pl => exact ⟨pl, rfl⟩
  | none =>
      unfold withdrawal at hwithdrawal
      rw [hpl] at hwithdrawal
      dsimp only at hwithdrawal
      split_ifs at hwithdrawal

/-- The guard against an underflow never acts. -/
theorem takeOut_fits (hp : p < n) (hsolvent : Solvent n b) (hid : id ∈ lockIds) (hpos : 0 ≤ count)
    (henough : count ≤ b (p, .bank id)) :
    (if int32 (b (p, .bank id) - count) < 0 then 0 else int32 (b (p, .bank id) - count)) =
      b (p, .bank id) + -count := by
  rw [debit_fits hp hsolvent hid hpos henough, if_neg (by omega)]

theorem served_withdraw (h : Booked n s b) (hsolvent : Solvent n b)
    (hlocks : env.items.LocksListed) (hid : id ∈ lockIds) (cmd : String) (now : Int) :
    Served n p overdraft b (withdraw env id cmd p now s) := by
  unfold withdraw
  cases hwithdrawal : withdrawal id cmd p now s with
  | none => exact Served.still h
  | some amount =>
      obtain ⟨pl, hpl⟩ := withdrawal_player hwithdrawal
      obtain ⟨hpos, henough, -⟩ := withdrawal_bounds hpl hwithdrawal
      have hp := h.lt hpl
      have hbank : (bankPtr id pl (s.vaults p)).getD 0 = b (p, .bank id) := h.amount hpl (.bank id)
      exact @served_payOut env n p overdraft s b id amount now h hp hlocks hid (touch p now)
        (fun t b ht => ht.touch hp now)
        (fun m => if int32 (m - amount) < 0 then 0 else int32 (m - amount))
        (takeOut_fits hp hsolvent hid (by omega) (by omega)) (by omega) (by omega)

/-- Room for a stack that stays within its limit. -/
theorem contains_add_le {inv : List (Int × Int)} (hmax : checkMax inv id count = false)
    (hcount : count ≤ 200) : contains inv id + count ≤ 200 := by
  unfold contains
  cases hfind : inv.find? fun slot => slot.1 == id with
  | none =>
      dsimp only
      omega
  | some slot =>
      have hmem := List.mem_of_find?_eq_some hfind
      have hslot : (slot.1 == id) = true := by simpa using List.find?_some hfind
      unfold checkMax at hmax
      have hsmall := List.any_eq_false.mp hmax slot hmem
      rw [hslot, Bool.true_and, decide_eq_true_eq] at hsmall
      dsimp only
      omega

/-- `Modify` does not fail where a withdrawal has been let through, so the flag that
`WITHDRAW_WL` has raised is taken down again. -/
theorem withdrawWl_eq (h : Booked n s b) (hlocks : env.items.LocksListed) (cmd : String)
    (now : Int) : withdrawWl env cmd p now s = withdraw env 242 cmd p now s := by
  unfold withdrawWl withdraw
  cases hwithdrawal : withdrawal 242 cmd p now s with
  | none => rfl
  | some amount =>
      obtain ⟨pl, hpl⟩ := withdrawal_player hwithdrawal
      obtain ⟨hpos, -, hslots, hcap, hmax⟩ := withdrawal_bounds hpl hwithdrawal
      obtain ⟨hcalm, -, hfree⟩ := h.ready p pl hpl
      obtain ⟨next, left, hmodify, -⟩ := @modify_gives env (s.server.session pl now) 242 amount
        false hcalm.slots (hcalm.quiet (hlocks.notFish 242 (by decide)) amount)
        (lock_accepts hlocks (by decide)) (by omega) (contains_add_le hmax hcap)
        (Nat.pos_of_ne_zero hslots)
      have hcall : ∀ r : State, r.server = s.server → modifyOf env p now 242 amount r =
          (0, { r with server :=
            ⟨s.server.players.set p next, s.server.worlds, s.server.rands⟩ }) := by
        intro r hr
        unfold modifyOf
        rw [hr, hpl]
        dsimp only
        rw [hmodify]
        rfl
      dsimp only
      rw [hcall (setTransaction true p s) rfl, hcall s rfl, if_pos rfl, if_pos rfl]
      unfold setTransaction touch takeOut mapBank State.mapVault State.mapPlayer
      simp only [if_true, Function.update_self, Function.update_idem]
      congr 2
      cases hvault : s.vaults p
      rw [hvault] at hfree
      dsimp only at hfree ⊢
      rw [hfree]

theorem served_withdrawGems (h : Booked n s b) (cmd : String) (now : Int) :
    Served n p overdraft b (withdrawGems env cmd p now s) := by
  unfold withdrawGems
  cases hpl : s.server.players[p]? with
  | none => exact Served.still h
  | some pl =>
      have hp := h.lt hpl
      have hstorage : (s.vaults p).gemsStorage = b (p, .storage) := h.amount hpl .storage
      cases amountOf cmd p s with
      | none => exact Served.still h
      | some amount =>
          dsimp only
          split_ifs with hrange hlack hrich
          · exact Served.still h
          · exact Served.still h
          · exact Served.still h
          · have hstored := h.store hp (-amount)
            have hleft : ((store (-amount) p s).vaults p).gemsStorage =
                bump (p, .storage) (-amount) b (p, .storage) := hstored.amount hpl .storage
            rw [bump_self] at hleft
            have hfloor := @Booked.mapVault n p _ _ hstored (fun vault => { vault with
              gemsStorage := if vault.gemsStorage < 0 then 0 else vault.gemsStorage }) .storage 0 hp
              (fun _ => rfl) (by
                intro pl _ other
                rw [ite_self, add_zero]
                cases other <;> simp only [amountIn, bankPtr]
                exact if_neg (by omega))
            rw [bump_zero] at hfloor
            exact served_gemsOut hp (fun t b ht => ht) (hfloor.touch hp now) (by omega) (by omega)

/-- What every command of the bank does. -/
theorem served_command (h : Booked n s b) (hsolvent : Solvent n b)
    (hlocks : env.items.LocksListed) {entry : String × (String → Nat → Int → State → State)}
    (hentry : entry ∈ commandMap env) (cmd : String) (now : Int) :
    Served n p overdraft b (entry.2 cmd p now s) := by
  have hdeposit : ∀ id ∈ lockIds, Served n p overdraft b (deposit env id cmd p now s) :=
    fun id hid => served_deposit h hsolvent hlocks hid cmd now
  have hwithdraw : ∀ id ∈ lockIds, Served n p overdraft b (withdraw env id cmd p now s) :=
    fun id hid => served_withdraw h hsolvent hlocks hid cmd now
  have hwl : Served n p overdraft b (withdrawWl env cmd p now s) := by
    rw [withdrawWl_eq h hlocks]
    exact hwithdraw 242 (by decide)
  simp only [commandMap, List.mem_cons, List.not_mem_nil, or_false] at hentry
  rcases hentry with rfl | rfl | rfl | rfl | rfl | rfl | rfl | rfl | rfl | rfl | rfl | rfl | rfl |
    rfl | rfl | rfl
  · exact hdeposit 242 (by decide)
  · exact hdeposit 1796 (by decide)
  · exact hdeposit 7188 (by decide)
  · exact hdeposit 7188 (by decide)
  · exact hdeposit 8470 (by decide)
  · exact hdeposit 8470 (by decide)
  · exact hdeposit 20298 (by decide)
  · exact served_depositGems h cmd now
  · exact hwl
  · exact hwithdraw 1796 (by decide)
  · exact hwithdraw 7188 (by decide)
  · exact hwithdraw 7188 (by decide)
  · exact hwithdraw 8470 (by decide)
  · exact hwithdraw 8470 (by decide)
  · exact hwithdraw 20298 (by decide)
  · exact served_withdrawGems h cmd now

/-- Every message is a run of postings out of accounts of its sender. -/
theorem served_serve (h : Booked n s b) (hsolvent : Solvent n b)
    (hlocks : env.items.LocksListed) (event : Event) :
    Served n event.peer event.message.gift b (serve env s event) := by
  obtain ⟨p, now, message⟩ := event
  unfold serve
  dsimp only
  split_ifs with habsent
  · exact Served.still h
  · have hp : p < n := by
      rw [← h.length]
      omega
    cases message with
    | bankCentral cch => exact served_bankCentral h hp hsolvent hlocks cch now
    | bankgem cch => exact served_bankgem h cch now
    | transferbankgem cch => exact served_transferbankgem h cch
    | command name cmd =>
        dsimp only
        cases hfind : (commandMap env).find? fun entry => entry.1 == name with
        | none => exact Served.still h
        | some entry =>
            exact served_command h hsolvent hlocks (List.mem_of_find?_eq_some hfind) cmd now

end Messages

section Runs

variable {env : Env} {n : Nat} {s : State} {b : Holding → Int}

/-- Postings of the bank keep it solvent. -/
theorem Solvent.posted {p : Nat} {overdraft : Bool} {next : Holding → Int} (hs : Solvent n b)
    (hposted : Posted (Moves n p overdraft) b next) : Solvent n next := by
  have hkept : ∀ at_ : Holding, at_.2 ≠ .wallet → 0 ≤ b at_ → 0 ≤ next at_ := by
    intro at_ hat
    refine hposted.nonneg fun b post hmoves => ⟨hmoves.amount, ?_⟩
    rintro rfl
    exact hmoves.covered.resolve_right fun hboth => hat hboth.2
  constructor
  · exact fun p => hkept _ (by simp) (hs.storage p)
  · intro id hid at_ hat
    refine hkept at_ ?_ (hs.locks id hid at_ hat)
    intro hwallet
    rw [hwallet] at hat
    cases hat
  · intro id hid
    rw [hposted.sum fun b post hmoves => hmoves.apart (some id)]
    exact hs.fits id hid

/-- A posting that one of some messages may make. -/
def Sent (n : Nat) (events : List Event) (b : Holding → Int) (post : Posting Holding) : Prop :=
  ∃ event ∈ events, Moves n event.peer event.message.gift b post

/-- How many messages of a run transfer gems from `Bank_Central`. -/
def gifts (events : List Event) : Nat := events.countP fun event => event.message.gift

/-- A run of messages is a run of postings. -/
theorem run_posted (hlocks : env.items.LocksListed) (events : List Event) (h : Booked n s b)
    (hsolvent : Solvent n b) : ∃ next, Booked n (events.foldl (serve env) s) next ∧
      Solvent n next ∧ Posted (Sent n events) b next ∧
      stake (holdings n none) next ≤ stake (holdings n none) b + 2000000 * gifts events := by
  induction events generalizing s b with
  | nil => exact ⟨b, h, hsolvent, Relation.ReflTransGen.refl, by simp [gifts]⟩
  | cons event events ih =>
      obtain ⟨mid, hmid, hfirst, hraised⟩ := served_serve h hsolvent hlocks event
      obtain ⟨next, hnext, hlast, hrest, hlater⟩ := ih hmid (hsolvent.posted hfirst)
      have hhead : Posted (Sent n (event :: events)) b mid :=
        hfirst.mono fun b post hmoves => ⟨event, List.mem_cons_self, hmoves⟩
      have htail : Posted (Sent n (event :: events)) mid next :=
        hrest.mono fun b post ⟨other, hother, hmoves⟩ =>
          ⟨other, List.mem_cons_of_mem event hother, hmoves⟩
      have hcount : raise event.message.gift + 2000000 * (gifts events : Int) =
          2000000 * (gifts (event :: events) : Int) := by
        unfold gifts raise
        rw [List.countP_cons]
        split_ifs <;> omega
      exact ⟨next, hnext, hlast, hhead.trans htail, by omega⟩

/-- What the bank relies on: its customers are ready, it owes nobody a negative amount,
and there are no more locks of a kind than 32 bits can count. -/
structure Fair (s : State) : Prop where
  ready : ∀ p pl, s.server.players[p]? = some pl → Ready pl (s.vaults p)
  banks : ∀ id ∈ lockIds, ∀ p, 0 ≤ book s (p, .bank id)
  storage : ∀ p, 0 ≤ book s (p, .storage)
  fits : ∀ id ∈ lockIds, total (some id) s < 2 ^ 31

theorem Fair.solvent (hfair : Fair s) : Solvent s.server.players.length (book s) := by
  refine ⟨hfair.storage, fun id hid at_ hat => ?_, hfair.fits⟩
  obtain ⟨p, place⟩ := at_
  cases place with
  | backpack k =>
      obtain rfl : k = id := Option.some.inj hat
      unfold book
      cases hpl : s.server.players[p]? with
      | none => exact le_refl 0
      | some pl =>
          have hslots := (hfair.ready p pl hpl).calm.slots
          have hbounds := hslots.wellFormed.total_bounds (by decide) (lockIds_ne_zero hid)
          change 0 ≤ contains pl.inv k
          rw [contains_eq_total hslots]
          exact hbounds.1
  | bank k =>
      obtain rfl : k = id := Option.some.inj hat
      exact hfair.banks k hid p
  | wallet => cases hat
  | storage => cases hat

/-- What all players have in gems, in the bank and outside, or owe. -/
def gemStake (s : State) : Int := stake (holdings s.server.players.length none) (book s)

/-- The gems that a run can bring together have 32 bits. -/
def GemsFit (s : State) (events : List Event) : Prop :=
  gemStake s + 2000000 * gifts events < 2 ^ 31

/-- Where they do, every wallet and every storage has 32 bits all along. -/
theorem gems_within (hlocks : env.items.LocksListed) (hfair : Fair s) {events : List Event}
    (hfit : GemsFit s events) (k p : Nat) {place : Place} (hplace : place.asset = none) :
    |book ((events.take k).foldl (serve env) s) (p, place)| < 2 ^ 31 := by
  obtain ⟨next, hnext, -, -, hstake⟩ :=
    run_posted hlocks (events.take k) ⟨hfair.ready, rfl, rfl⟩ hfair.solvent
  have hcount : gifts (events.take k) ≤ gifts events :=
    (List.take_sublist k events).countP_le
  have hall : stake (holdings s.server.players.length none) next < 2 ^ 31 := by
    change stake (holdings s.server.players.length none) (book s) + _ < _ at hfit
    omega
  rw [hnext.book]
  by_cases hp : p < s.server.players.length
  · exact (abs_le_stake _ _ (mem_holdings.mpr ⟨hp, hplace⟩)).trans_lt hall
  · rw [← hnext.book]
    unfold book
    rw [List.getElem?_eq_none (by rw [hnext.length]; omega)]
    exact (by decide : |(0 : Int)| < 2 ^ 31)

/-- Over any run of messages to the bank nothing is made and nothing lost: of every kind
of lock, and of gems, there is as much as before.  The bank stays fair; no wallet and no
storage leaves 32 bits; a player who sends nothing loses nothing in any place; and where no
gems are transferred from `Bank_Central` no wallet goes below zero. -/
theorem bank_conserved (hlocks : env.items.LocksListed) (hfair : Fair s) (events : List Event)
    (hfit : GemsFit s events) :
    Fair (events.foldl (serve env) s) ∧
      (∀ asset, total asset (events.foldl (serve env) s) = total asset s) ∧
      (∀ k p, |book ((events.take k).foldl (serve env) s) (p, .wallet)| < 2 ^ 31 ∧
        |book ((events.take k).foldl (serve env) s) (p, .storage)| < 2 ^ 31) ∧
      (∀ p, (∀ event ∈ events, event.peer ≠ p) → ∀ place,
        book s (p, place) ≤ book (events.foldl (serve env) s) (p, place)) ∧
      ((∀ event ∈ events, event.message.gift = false) → (∀ p, 0 ≤ book s (p, .wallet)) →
        ∀ p, 0 ≤ book (events.foldl (serve env) s) (p, .wallet)) := by
  obtain ⟨next, hnext, hsolvent, hposted, -⟩ :=
    run_posted hlocks events ⟨hfair.ready, rfl, rfl⟩ hfair.solvent
  have hbook := hnext.book
  have hlength := hnext.length
  have htotal : ∀ asset, total asset (events.foldl (serve env) s) = total asset s := by
    intro asset
    unfold total
    rw [hlength, hbook]
    exact hposted.sum fun b post ⟨event, _, hmoves⟩ => hmoves.apart asset
  refine ⟨⟨hnext.ready, ?_, ?_, ?_⟩, htotal, fun k p => ⟨gems_within hlocks hfair hfit k p rfl,
    gems_within hlocks hfair hfit k p rfl⟩, ?_, ?_⟩
  · intro id hid p
    rw [hbook]
    exact hsolvent.locks id hid (p, .bank id) rfl
  · rw [hbook]
    exact hsolvent.storage
  · intro id hid
    rw [htotal]
    exact hfair.fits id hid
  · intro p hsilent place
    rw [hbook]
    refine hposted.le fun b post ⟨event, hevent, hmoves⟩ => ⟨?_, hmoves.amount⟩
    intro hsource
    exact hsilent event hevent (hmoves.sender.symm.trans (congrArg Prod.fst hsource).symm)
  · intro hgift hwallets p
    rw [hbook]
    refine hposted.nonneg (fun b post ⟨event, hevent, hmoves⟩ => ⟨hmoves.amount, ?_⟩) (hwallets p)
    rintro hsource
    rw [hsource]
    refine hmoves.covered.resolve_right fun hboth => ?_
    rw [hgift event hevent] at hboth
    cases hboth.1

/-- Ann deposits three locks and gives Bob two of them, and thirty of her forty stored
gems; that overdraws her wallet of ten.  Bob takes a lock out by command. -/
theorem bank_conserved_annAndBob :
    let env : Env := { items := ⟨20298, fun _ => {}⟩ }
    let s : State :=
      { server := { players := [
          { tankIDName := "Ann", gems := 10, inv := [(242, 5), (0, 0)] },
          { tankIDName := "Bob", inv := [(0, 0)] }] }
        vaults := fun p => if p = 0 then { gemsStorage := 40 } else {} }
    let events : List Event := [
      ⟨0, 5, .bankCentral "buttonClicked|Confirm_Depo\nbank_wl|1\namount|3"⟩,
      ⟨0, 6, .bankCentral "buttonClicked|Confirm_Transfer\nbank_wl|1\namount|2\ntarget_name|BOB"⟩,
      ⟨0, 7, .bankCentral "buttonClicked|Confirm_Transfer\ngems|1\namount|30\ntarget_name|bob"⟩,
      ⟨1, 8, .bankCentral "buttonClicked|Create_Pin\npin_bank|123456"⟩,
      ⟨1, 9, .command "/wdwl" "1"⟩]
    let t := events.foldl (serve env) s
    Fair t ∧ (∀ asset, total asset t = total asset s) ∧
      (∀ p, |book t (p, .wallet)| < 2 ^ 31) ∧
      [book t (0, .backpack 242), book t (0, .bank 242), book t (0, .wallet),
        book t (0, .storage)] = [2, 1, -20, 10] ∧
      [book t (1, .backpack 242), book t (1, .bank 242), book t (1, .wallet),
        book t (1, .storage)] = [1, 1, 30, 30] := by
  intro env s events t
  have hlocks : env.items.LocksListed := ⟨le_refl _, fun _ _ => rfl⟩
  have hfair : Fair s := by
    constructor
    · intro p pl hpl
      rcases p with _ | _ | p
      · obtain rfl := Option.some.inj hpl
        exact ⟨⟨by decide, rfl, rfl⟩, ⟨Or.inl rfl, Or.inl rfl⟩, rfl⟩
      · obtain rfl := Option.some.inj hpl
        exact ⟨⟨by decide, rfl, rfl⟩, ⟨Or.inl rfl, Or.inl rfl⟩, rfl⟩
      · cases hpl
    · intro id hid p
      rcases p with _ | _ | p
      · revert id
        decide
      · revert id
        decide
      · exact le_refl 0
    · intro p
      rcases p with _ | _ | p
      · decide
      · decide
      · exact le_refl 0
    · decide
  have hfit : GemsFit s events := by
    unfold GemsFit
    decide +kernel
  obtain ⟨hafter, htotal, hwithin, -⟩ := bank_conserved hlocks hfair events hfit
  exact ⟨hafter, htotal, fun p => (hwithin events.length p).1, by decide +kernel,
    by decide +kernel⟩

end Runs

end BankCentral

end NopyServer
