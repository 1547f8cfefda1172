/-
The button `Apply ExChanges` of the dialog `Exchange_Npc`.  Crystals are paid for with
diamond locks for every hundred of the price and with the rest: the rest, too, is paid in
diamond locks.  After the first payment the second one can still be refused, and only
after both are the crystals taken.

So the sale is all or nothing where nothing is paid, or both payments are made and are
worth the price once what is lost is taken off: the locks that have no room in the
backpack are dropped, and a drop may have older drops cleared away.  Where nothing is lost
this means that there is no rest.  Infinite mode keeps the crystals.
-/
import NopyServer.ItemMoves

namespace NopyServer

namespace CrystalSale

open Inventory SlotPack

section Definitions

variable (env : Env)

/-- A drop within seventeen pixels of the player. -/
def dropNear (id count : Int) (s : Session) : Session :=
  let (x, s) := s.rand
  let (y, s) := s.rand
  let drop : WorldDrop := ⟨id, count, s.pl.x + (x % 17 : Nat), s.pl.y + (y % 17 : Nat)⟩
  { s with worlds := dropInWorld env.items s.now s.pl.world drop s.worlds }

/-- Diamond locks into the backpack or else onto the ground. -/
def payOrDrop (count : Int) (s : Session) : Session :=
  let given := modify env s 1796 count false
  if given.ret ≠ 0 then dropNear env 1796 count given.session else given.session

/-- One of the two payments; `none` where it is refused. -/
def payLocks (count : Int) (s : Session) : Option Session :=
  if 0 < count then
    if checkMax s.pl.inv 1796 count = true then none else some (payOrDrop env count s)
  else some s

/-- The payments for a total, and the crystals. -/
def sellCrystals (id amount total : Int) (s : Session) : Session :=
  let jumlahDiamondLocks := total.tdiv 100
  let sisaWorldLocks := total.tmod 100
  match payLocks env jumlahDiamondLocks s with
  | none => s
  | some paid =>
      match payLocks env sisaWorldLocks paid with
      | none => paid
      | some paid =>
          if 0 < jumlahDiamondLocks ∨ 0 < sisaWorldLocks then
            (modify env paid id (-amount) false).session
          else paid

/-- All fish of a kind, for one price. -/
def sellFish (id total price : Int) (s : Session) : Session :=
  if checkMax s.pl.inv 1796 price = true then s
  else if total ≠ contains s.pl.inv id then s
  else (modify env (payOrDrop env price s) id (-total) false).session

/-- The numbers in a message. -/
structure Offer where
  total : Int
  id : Int
  price : Int
  amount : String

def readOffer (cch : String) : Offer where
  total := atoi (getEmbed cch "total")
  id := atoi (getEmbed cch "id")
  price := atoi (getEmbed cch "price")
  amount := TextScanner.get cch "amount"

/-- An amount of crystals that is in order and that the player has. -/
def amountOk (offer : Offer) (s : Session) : Bool :=
  let amount := atoi offer.amount
  1 ≤ amount && amount ≤ 200 && offer.amount.toList.all isDigit &&
    amount ≤ contains s.pl.inv offer.id

/-- The button `Apply ExChanges`. -/
def applyExChanges (cch : String) (s : Session) : Session :=
  let offer := readOffer cch
  let kind := (env.items.item offer.id).blockType
  if kind = .crystal ∧ amountOk offer s = false then s
  else if kind ≠ .fish ∧ kind ≠ .crystal ∨ offer.price = 0 ∨ offer.total = 0 then s
  else if getSlots s.pl.inv = 0 then s
  else if kind = .crystal then
    sellCrystals env offer.id (atoi offer.amount) (int32 (offer.price * atoi offer.amount)) s
  else sellFish env offer.id offer.total offer.price s

/-- What the item data says of crystals. -/
structure CrystalsListed (items : Items) : Prop where
  listed : ∀ id, (items.item id).blockType = .crystal → 0 < id ∧ id < items.size
  plain : ∀ id, (items.item id).blockType = .crystal → id ∉ 112 :: lockIds

/-- The crystals are taken and their price is paid. -/
structure Sold (id amount worth : Int) (s t : Session) : Prop where
  taken : total id t.pl.inv = total id s.pl.inv - amount
  paid : wealth t = wealth s + 3000 * worth
  others : ∀ other, other ≠ id → other ∉ lockIds →
    total other t.pl.inv = total other s.pl.inv

/-- Backpack and drops are as before. -/
structure Unchanged (s t : Session) : Prop where
  inv : t.pl.inv = s.pl.inv
  ground : groundDrops t = groundDrops s

/-- All or nothing. -/
def Atomic (id amount worth : Int) (s t : Session) : Prop :=
  Sold id amount worth s t ∨ Unchanged s t

end Definitions

section Payments

variable {env : Env} {s t u : Session} {count more : Int}

/-- The backpack has room for so many diamond locks. -/
def Room (pl : Player) (count : Int) : Prop := (view 0 pl.inv).Fits 200 1796 count

theorem checkMax_iff (hs : SlotInv s.pl.inv) {i : Int} (hi : i ≠ 0) :
    checkMax s.pl.inv i count = true ↔
      0 < total i s.pl.inv ∧ 200 < total i s.pl.inv + count := by
  have hstack : ∀ slot ∈ s.pl.inv, slot.1 = i →
      total i s.pl.inv = slot.2 ∧ 1 ≤ slot.2 := by
    intro slot hslot hid
    obtain ⟨pre, post, hsplit⟩ := List.append_of_mem hslot
    obtain ⟨key, n⟩ := slot
    dsimp only at hid ⊢
    subst hid
    have hwf := hs.wellFormed
    rw [hsplit] at hwf ⊢
    have hbounds := hwf.stack_bounds hi
    exact ⟨hwf.total_stack hi, by omega⟩
  unfold checkMax
  rw [List.any_eq_true]
  simp only [Bool.and_eq_true, beq_iff_eq, decide_eq_true_eq]
  constructor
  · rintro ⟨slot, hslot, hid, hfull⟩
    have hcount := hstack slot hslot hid
    omega
  · rintro ⟨hpos, hfull⟩
    by_contra hnone
    have habsent : ∀ slot ∈ s.pl.inv, slot.1 ≠ i := by
      intro slot hslot hid
      have hcount := hstack slot hslot hid
      exact hnone ⟨slot, hslot, hid, by omega⟩
    rw [total_eq_zero_of_not_mem habsent] at hpos
    omega

theorem accepts_dl (hlocks : env.items.LocksListed) : Accepts env 1796 :=
  lock_accepts hlocks (by decide)

theorem lockGems_dl : lockGems 1796 = 300000 := by
  decide

instance (pl : Player) (count : Int) : Decidable (Room pl count) :=
  inferInstanceAs (Decidable (Pack.Fits ..))

theorem room_iff (hs : SlotInv s.pl.inv) (hc : 0 < count) :
    Room s.pl count ↔ (view 0 s.pl.inv).change 200 1796 count ≠ none :=
  Pack.fits_iff hc (hs.wellFormed.total_bounds (by decide) (by decide)).1

theorem payOrDrop_of_room (hlocks : env.items.LocksListed) (hs : Live s) (hc : 0 < count)
    (hroom : Room s.pl count) :
    ∃ pack, (view 0 s.pl.inv).change 200 1796 count = some pack ∧
      Outcome s pack (payOrDrop env count s) := by
  rw [room_iff hs.slots hc] at hroom
  unfold payOrDrop
  rcases modify_outcome false hlocks hs (accepts_dl hlocks)
    (lock_not_sold hlocks (by decide) s.pl count) with
    ⟨pack, hchange, hret, houtcome⟩ | ⟨hnone, -, -⟩
  · refine ⟨pack, hchange, ?_⟩
    dsimp only
    rw [if_neg (by simp [hret])]
    exact houtcome
  · exact absurd hnone hroom

theorem payOrDrop_of_not_room (hs : SlotInv s.pl.inv) (hc : 0 < count)
    (hroom : ¬ Room s.pl count) : payOrDrop env count s = dropNear env 1796 count s := by
  obtain ⟨hret, hsame⟩ := @modify_of_not_fits env s 1796 count hs hc false
    fun h => hroom h.2
  unfold payOrDrop
  dsimp only
  rw [if_pos hret, hsame]

/-- A drop of `dropNear`. -/
def nearDrop (id count : Int) (s : Session) : WorldDrop :=
  ⟨id, count, s.pl.x + (s.rand.1 % 17 : Nat), s.pl.y + (s.rand.2.rand.1 % 17 : Nat)⟩

/-- The worth of the locks that a payment loses, in gems: nothing where the backpack has
room for it. -/
def lostNear (env : Env) (count : Int) (s : Session) : Int :=
  if count ≤ 0 ∨ Room s.pl count then 0 else lostWorth env s (nearDrop 1796 count s)

/-- A payment that is made, where there is anything to pay. -/
def payUp (env : Env) (count : Int) (s : Session) : Session :=
  if 0 < count then payOrDrop env count s else s

/-- A payment of so much worth. -/
structure Payment (worth : Int) (s t : Session) : Prop where
  live : Live t
  paid : Inventory.Paid worth s t
  gems : t.pl.gems ≤ s.pl.gems

theorem Payment.trans {first second : Int} (hst : Payment first s t)
    (htu : Payment second t u) : Payment (first + second) s u where
  live := htu.live
  paid := hst.paid.trans htu.paid
  gems := htu.gems.trans hst.gems

/-- The locks are paid, less what is lost. -/
theorem payUp_paid (hlocks : env.items.LocksListed) (hs : Live s) (hnonneg : 0 ≤ count)
    (hsmall : count ≤ 2 ^ 31 - 200) :
    Payment (300000 * count - lostNear env count s) s (payUp env count s) := by
  unfold payUp lostNear
  by_cases hc : 0 < count
  · rw [if_pos hc]
    by_cases hroom : Room s.pl count
    · obtain ⟨pack, hchange, houtcome⟩ := payOrDrop_of_room hlocks hs hc hroom
      have hpaid := houtcome.paid (by decide) hchange
      rw [lockGems_dl, mul_comm] at hpaid
      rw [if_pos (Or.inr hroom), sub_zero]
      exact ⟨houtcome.live hs, hpaid, conversions_gems houtcome.steps⟩
    · obtain ⟨hlive, hpaid⟩ := @dropped_paid env s (dropNear env 1796 count s)
        (nearDrop 1796 count s) (show (1796 : Int) ∈ lockIds by decide) hsmall hs rfl rfl
      have hvalue : (nearDrop 1796 count s).count * lockGems (nearDrop 1796 count s).id =
          300000 * count := by
        change count * lockGems 1796 = _
        rw [lockGems_dl, mul_comm]
      rw [hvalue] at hpaid
      rw [payOrDrop_of_not_room hs.slots hc hroom, if_neg (not_or.mpr ⟨by omega, hroom⟩)]
      exact ⟨hlive, hpaid, le_refl _⟩
  · have hzero : count = 0 := by omega
    rw [if_neg hc, if_pos (Or.inl (Int.not_lt.mp hc)), hzero, mul_zero, sub_zero]
    exact ⟨hs, Inventory.Paid.refl s, le_refl _⟩

/-- Without room, but with a free slot and no stack that is full, there is no stack at
all and the locks are more than a stack holds. -/
theorem no_stack (hs : SlotInv s.pl.inv) (hfree : 0 < getSlots s.pl.inv)
    (hroom : ¬ Room s.pl count) (hfull : ¬ checkMax s.pl.inv 1796 count = true) :
    total 1796 s.pl.inv = 0 ∧ 200 < count := by
  have hbounds := hs.wellFormed.total_bounds (by decide) (show (1796 : Int) ≠ 0 by decide)
  rw [checkMax_iff hs (by decide)] at hfull
  have hslots : 0 < (view 0 s.pl.inv).room := hfree
  unfold Room Pack.Fits at hroom
  simp only [view_amount] at hroom
  omega

end Payments

section Taking

variable {env : Env} {s t u : Session} {id amount worth gems : Int}

/-- The crystals are taken after a payment. -/
theorem Payment.atomic_iff (hlocks : env.items.LocksListed) (hpayment : Payment gems s t)
    (haccepts : Accepts env id) (hid : id ∉ lockIds) (hamount : 0 < amount)
    (henough : amount ≤ total id s.pl.inv) :
    Atomic id amount worth s (modify env t id (-amount) false).session ↔
      gems = 3000 * worth := by
  have hkept := hpayment.paid.others id hid
  obtain ⟨-, houtcome⟩ := modify_taken false hlocks hpayment.live haccepts hamount
    (by rw [hkept]; exact henough)
  have hchange : (view 0 t.pl.inv).change 200 id (-amount) =
      some ((view 0 t.pl.inv).less id amount) :=
    Pack.change_less hamount (by rw [view_amount, hkept]; exact henough)
      (hpayment.live.slots.wellFormed.total_bounds (by decide) (Int.ne_of_gt haccepts.1)).2
  have htaken := houtcome.others hchange hid
  rw [if_pos rfl, hkept] at htaken
  have hwealth := houtcome.wealth hchange
  rw [lockGems_eq_zero hid, mul_zero, add_zero, hpayment.paid.wealth] at hwealth
  constructor
  · rintro (hsold | hunchanged)
    · have hpaid := hsold.paid
      omega
    · rw [hunchanged.inv] at htaken
      omega
  · intro hworth
    refine Or.inl ⟨by omega, by omega, fun other hne hother => ?_⟩
    rw [houtcome.others hchange hother, if_neg (Ne.symm hne), add_zero]
    exact hpayment.paid.others other hother

/-- A sale that ends after a payment is neither. -/
theorem Payment.not_atomic (hpayment : Payment gems s t) (hid : id ∉ lockIds)
    (hamount : 0 < amount) (hgems : 0 < gems) : ¬ Atomic id amount worth s t := by
  rintro (hsold | hunchanged)
  · have htaken := hsold.taken
    rw [hpayment.paid.others id hid] at htaken
    omega
  · have hwealth := hpayment.paid.wealth
    have hless := hpayment.gems
    unfold wealth Purse.value packValue purse at hwealth
    simp only [hunchanged.inv, hunchanged.ground, view_amount] at hwealth
    omega

end Taking

section Selling

variable {env : Env} {s t : Session} {id amount worth price count : Int}

theorem parts_of_pos (hpos : 0 < price) :
    price = 100 * price.tdiv 100 + price.tmod 100 ∧ 0 ≤ price.tdiv 100 ∧
      0 ≤ price.tmod 100 ∧ price.tmod 100 < 100 := by
  rw [Int.tdiv_eq_ediv_of_nonneg (le_of_lt hpos), Int.tmod_eq_emod_of_nonneg (le_of_lt hpos)]
  omega

theorem parts_of_nonpos (hneg : price ≤ 0) : price.tdiv 100 ≤ 0 ∧ price.tmod 100 ≤ 0 := by
  have hdiv : (-price).tdiv 100 = -price.tdiv 100 := Int.neg_tdiv ..
  have hmod : (-price).tmod 100 = -price.tmod 100 := Int.neg_tmod ..
  rw [Int.tdiv_eq_ediv_of_nonneg (by omega)] at hdiv
  rw [Int.tmod_eq_emod_of_nonneg (by omega)] at hmod
  omega

/-- Nothing is paid for a total: it is not positive, or the first payment is refused. -/
def Unpaid (s : Session) (price : Int) : Prop :=
  price ≤ 0 ∨ (0 < price.tdiv 100 ∧ checkMax s.pl.inv 1796 (price.tdiv 100) = true) ∨
    (price.tdiv 100 ≤ 0 ∧ checkMax s.pl.inv 1796 (price.tmod 100) = true)

instance (s : Session) (price : Int) : Decidable (Unpaid s price) :=
  inferInstanceAs (Decidable (_ ∨ _ ∧ _ ∨ _ ∧ _))

theorem payLocks_nonpos (hcount : count ≤ 0) : payLocks env count s = some s :=
  if_neg (by omega)

theorem payLocks_full (hcount : 0 < count) (hfull : checkMax s.pl.inv 1796 count = true) :
    payLocks env count s = none := by
  rw [payLocks, if_pos hcount, if_pos hfull]

theorem sellCrystals_unpaid (hunpaid : Unpaid s price) :
    sellCrystals env id amount price s = s := by
  unfold sellCrystals
  by_cases hpos : 0 < price
  · obtain ⟨hparts, hdl, hwl, -⟩ := parts_of_pos hpos
    rcases hunpaid with hneg | ⟨hfirst, hfull⟩ | ⟨hfirst, hfull⟩
    · omega
    · dsimp only
      rw [payLocks_full hfirst hfull]
    · dsimp only
      rw [payLocks_nonpos hfirst]
      dsimp only
      rw [payLocks_full (by omega) hfull]
  · obtain ⟨hdl, hwl⟩ := parts_of_nonpos (Int.not_lt.mp hpos)
    dsimp only
    rw [payLocks_nonpos hdl]
    dsimp only
    rw [payLocks_nonpos hwl]
    dsimp only
    rw [if_neg (by omega)]

/-- The second payment is refused once the first one is made. -/
def Stopped (env : Env) (s : Session) (price : Int) : Prop :=
  0 < price.tmod 100 ∧
    checkMax (payUp env (price.tdiv 100) s).pl.inv 1796 (price.tmod 100) = true

instance (s : Session) (price : Int) : Decidable (Stopped env s price) :=
  inferInstanceAs (Decidable (_ ∧ _))

theorem payLocks_payUp (hfull : 0 < count → ¬ checkMax s.pl.inv 1796 count = true) :
    payLocks env count s = some (payUp env count s) := by
  unfold payLocks payUp
  by_cases hcount : 0 < count
  · rw [if_pos hcount, if_neg (hfull hcount), if_pos hcount]
  · rw [if_neg hcount, if_neg hcount]

/-- What a price that is paid at all consists of. -/
theorem paid_parts (hpaid : ¬ Unpaid s price) :
    price = 100 * price.tdiv 100 + price.tmod 100 ∧ 0 ≤ price.tdiv 100 ∧
      0 ≤ price.tmod 100 ∧ price.tmod 100 < 100 ∧ 0 < price ∧
      (0 < price.tdiv 100 → ¬ checkMax s.pl.inv 1796 (price.tdiv 100) = true) ∧
      (price.tdiv 100 = 0 → ¬ checkMax s.pl.inv 1796 (price.tmod 100) = true) := by
  unfold Unpaid at hpaid
  obtain ⟨hpos, hfirst, hsecond⟩ := not_or.mp hpaid |>.imp id not_or.mp
  obtain ⟨hparts, hdl, hwl, hsmall⟩ := parts_of_pos (Int.not_le.mp hpos)
  exact ⟨hparts, hdl, hwl, hsmall, Int.not_le.mp hpos, fun h hfull => hfirst ⟨h, hfull⟩,
    fun h hfull => hsecond ⟨le_of_eq h, hfull⟩⟩

/-- The sale of a price that is paid at all. -/
theorem sellCrystals_paid (hpaid : ¬ Unpaid s price) :
    sellCrystals env id amount price s =
      if Stopped env s price then payUp env (price.tdiv 100) s
      else (modify env (payUp env (price.tmod 100) (payUp env (price.tdiv 100) s)) id
        (-amount) false).session := by
  obtain ⟨hparts, hdl, hwl, -, hpos, hfirst, -⟩ := paid_parts hpaid
  unfold sellCrystals
  dsimp only
  rw [payLocks_payUp hfirst]
  dsimp only
  by_cases hstopped : Stopped env s price
  · rw [payLocks_full hstopped.1 hstopped.2, if_pos hstopped]
  · rw [payLocks_payUp fun h hfull => hstopped ⟨h, hfull⟩, if_neg hstopped]
    dsimp only
    rw [if_pos (by omega)]

/-- A first payment that finds no room leaves the second one room. -/
theorem first_of_stopped (hs : SlotInv s.pl.inv) (hfree : 0 < getSlots s.pl.inv)
    (hpaid : ¬ Unpaid s price) (hstopped : Stopped env s price) :
    0 < price.tdiv 100 ∧ Room s.pl (price.tdiv 100) := by
  obtain ⟨-, hdl, -, hsmall, -, hfirst, hsecond⟩ := paid_parts hpaid
  obtain ⟨hwl, hfull⟩ := hstopped
  have hpos : 0 < price.tdiv 100 := by
    by_contra hnone
    have hzero : price.tdiv 100 = 0 := by omega
    rw [payUp, if_neg hnone] at hfull
    exact hsecond hzero hfull
  refine ⟨hpos, ?_⟩
  by_contra hroom
  have hnone := (no_stack hs hfree hroom (hfirst hpos)).1
  have hkept : (dropNear env 1796 (price.tdiv 100) s).pl.inv = s.pl.inv := rfl
  rw [payUp, if_pos hpos, payOrDrop_of_not_room hs hpos hroom, hkept,
    checkMax_iff hs (by decide)] at hfull
  omega

/-- What both payments of a price are worth, less what is lost with them. -/
def paidWorth (env : Env) (s : Session) (price : Int) : Int :=
  300000 * (price.tdiv 100 + price.tmod 100) - lostNear env (price.tdiv 100) s -
    lostNear env (price.tmod 100) (payUp env (price.tdiv 100) s)

/-- The sale is all or nothing: nothing is paid, or both payments are made and worth the
price; or, in infinite mode, which keeps the crystals, what is paid cannot be seen. -/
def Sound (env : Env) (s : Session) (price worth : Int) : Prop :=
  Unpaid s price ∨
    if s.pl.infiniteMode = true then
      price.tmod 100 = 0 ∧ ¬ Room s.pl (price.tdiv 100) ∧
        groundDrops (dropNear env 1796 (price.tdiv 100) s) = groundDrops s
    else ¬ Stopped env s price ∧ paidWorth env s price = 3000 * worth

/-- The price in 32 bits is right, or far off. -/
theorem int32_price (hworth : 0 < worth) :
    int32 worth < 2 ^ 31 ∧ (0 < int32 worth → int32 worth = worth ∨
      int32 worth + 2 ^ 32 ≤ worth) := by
  unfold int32
  rw [Int.bmod_def]
  split <;> omega

/-- Where nothing is lost both payments are worth the price exactly when it is in whole
diamond locks. -/
theorem paidWorth_of_kept (hworth : 0 < worth) (hpos : 0 < int32 worth)
    (hfirst : lostNear env ((int32 worth).tdiv 100) s = 0)
    (hsecond : lostNear env ((int32 worth).tmod 100)
      (payUp env ((int32 worth).tdiv 100) s) = 0) :
    paidWorth env s (int32 worth) = 3000 * worth ↔
      (int32 worth).tmod 100 = 0 ∧ int32 worth = worth := by
  obtain ⟨hrange, hprice⟩ := int32_price hworth
  obtain ⟨hparts, hdl, hwl, hsmall⟩ := parts_of_pos hpos
  have hright := hprice hpos
  unfold paidWorth
  rw [hfirst, hsecond]
  omega

/-- With infinite mode off. -/
theorem sellCrystals_atomic_finite (hlocks : env.items.LocksListed) (hs : Live s)
    (hfree : 0 < getSlots s.pl.inv) (haccepts : Accepts env id) (hid : id ∉ lockIds)
    (hamount : 0 < amount) (henough : amount ≤ total id s.pl.inv) (hrange : price < 2 ^ 31)
    (hpaid : ¬ Unpaid s price) :
    Atomic id amount worth s (sellCrystals env id amount price s) ↔
      ¬ Stopped env s price ∧ paidWorth env s price = 3000 * worth := by
  obtain ⟨hparts, hdl, hwl, hsmall, -⟩ := paid_parts hpaid
  have hfirst := @payUp_paid env s _ hlocks hs hdl (by omega)
  rw [sellCrystals_paid hpaid]
  by_cases hstopped : Stopped env s price
  · obtain ⟨hpos, hroom⟩ := first_of_stopped hs.slots hfree hpaid hstopped
    have hkept : lostNear env (price.tdiv 100) s = 0 := if_pos (Or.inr hroom)
    rw [if_pos hstopped]
    exact iff_of_false (hfirst.not_atomic hid hamount (by omega)) fun h => h.1 hstopped
  · have hboth := hfirst.trans (@payUp_paid env _ _ hlocks hfirst.live hwl (by omega))
    rw [if_neg hstopped, hboth.atomic_iff hlocks haccepts hid hamount henough,
      and_iff_right hstopped, paidWorth]
    constructor
    · intro h
      omega
    · intro h
      omega

end Selling

section Infinite

variable {env : Env} {s t : Session} {id amount worth price count : Int}
  {counts : Int → Int} {least : Int}

theorem payUp_pl (env : Env) (count : Int) (s : Session) :
    (payUp env count s).pl = s.pl ∨
      (payUp env count s).pl = (modify env s 1796 count false).session.pl := by
  unfold payUp payOrDrop
  dsimp only
  split_ifs
  · exact Or.inr rfl
  · exact Or.inr rfl
  · exact Or.inl rfl

theorem grown_payUp (hs : Grown counts least s) : Grown counts least (payUp env count s) := by
  rcases payUp_pl env count s with hpl | hpl
  · exact hs.congr (congrArg _ hpl) (congrArg _ hpl) (congrArg _ hpl)
  · exact (hs.modify 1796 count false).congr (congrArg _ hpl) (congrArg _ hpl)
      (congrArg _ hpl)

/-- In infinite mode diamond locks that have room stay in the backpack. -/
theorem payUp_gift (hlocks : env.items.LocksListed) (hs : Grown counts least s)
    (hc : 0 < count) (hroom : Room s.pl count) :
    Grown (fun id => counts id + single 1796 count id) (least + count * lockGems 1796)
      (payUp env count s) := by
  have hret := (modify_gift_iff hs.slots hc false).mpr ⟨accepts_dl hlocks, hroom⟩
  have hgift := hs.given (le_of_lt hc) hret
  have hpl : payUp env count s = (modify env s 1796 count false).session := by
    unfold payUp payOrDrop
    rw [if_pos hc]
    exact if_neg (by simp [hret])
  rw [hpl]
  exact hgift

/-- In infinite mode nothing is taken, and a change is no sale. -/
theorem atomic_of_grown_iff (ht : Grown (fun id => total id s.pl.inv) least t)
    (hamount : 0 < amount) : Atomic id amount worth s t ↔ Unchanged s t := by
  constructor
  · rintro (hsold | hunchanged)
    · have htaken := hsold.taken
      have hcount := ht.counts id
      omega
    · exact hunchanged
  · exact Or.inr

/-- A gift that is still there is a change. -/
theorem not_atomic_of_gift (hc : 0 < count) (hamount : 0 < amount)
    (ht : Grown (fun id => total id s.pl.inv + single 1796 count id) least t) :
    ¬ Atomic id amount worth s t := by
  have hless : Grown (fun id => total id s.pl.inv) least t := by
    apply ht.less _ (le_refl _)
    intro other
    unfold single
    split_ifs <;> omega
  rw [atomic_of_grown_iff hless hamount]
  intro hunchanged
  have hmore := ht.counts 1796
  rw [hunchanged.inv, single_self] at hmore
  omega

/-- The rest of a price has room where there is a free slot and no stack that is full. -/
theorem room_of_rest (hs : SlotInv s.pl.inv) (hfree : 0 < getSlots s.pl.inv)
    (hsmall : count ≤ 200) (hfull : ¬ checkMax s.pl.inv 1796 count = true) :
    Room s.pl count := by
  by_contra hroom
  have hmany := (no_stack hs hfree hroom hfull).2
  omega

/-- With infinite mode on. -/
theorem sellCrystals_atomic_infinite (hlocks : env.items.LocksListed)
    (hslots : SlotInv s.pl.inv) (hinfinite : s.pl.infiniteMode = true)
    (hfree : 0 < getSlots s.pl.inv) (hamount : 0 < amount) (hpaid : ¬ Unpaid s price) :
    Atomic id amount worth s (sellCrystals env id amount price s) ↔
      price.tmod 100 = 0 ∧ ¬ Room s.pl (price.tdiv 100) ∧
        groundDrops (dropNear env 1796 (price.tdiv 100) s) = groundDrops s := by
  obtain ⟨hparts, hdl, hwl, hsmall, hpos, hfirst, hsecond⟩ := paid_parts hpaid
  have hstart := Grown.start hslots hinfinite
  rw [sellCrystals_paid hpaid]
  by_cases hroom : 0 < price.tdiv 100 ∧ Room s.pl (price.tdiv 100)
  · -- the diamond locks are in the backpack and stay there
    have hgift := payUp_gift hlocks hstart hroom.1 hroom.2
    refine iff_of_false ?_ fun h => h.2.1 hroom.2
    split_ifs
    · exact not_atomic_of_gift hroom.1 hamount hgift
    · exact not_atomic_of_gift hroom.1 hamount
        ((grown_payUp hgift).modify id (-amount) false)
  · have hgo : ¬ Stopped env s price := fun h =>
      hroom (first_of_stopped hslots hfree hpaid h)
    have hpl : (payUp env (price.tdiv 100) s).pl = s.pl := by
      unfold payUp
      split_ifs with hany
      · rw [payOrDrop_of_not_room hslots hany fun h => hroom ⟨hany, h⟩]
        rfl
      · rfl
    have hsame := @grown_payUp env s (price.tdiv 100) _ _ hstart
    rw [if_neg hgo]
    by_cases hrest : 0 < price.tmod 100
    · have hfits : Room (payUp env (price.tdiv 100) s).pl (price.tmod 100) := by
        apply room_of_rest hsame.slots (by rw [hpl]; exact hfree) (by omega)
        exact fun hfull => hgo ⟨hrest, hfull⟩
      have hgift := payUp_gift hlocks hsame hrest hfits
      have hmodified := @Grown.modify env _ _ _ hgift id (-amount) false
      exact iff_of_false (not_atomic_of_gift hrest hamount hmodified) fun h => by omega
    · have hany : 0 < price.tdiv 100 := by omega
      have hnone : ¬ Room s.pl (price.tdiv 100) := fun h => hroom ⟨hany, h⟩
      have hdrop : payUp env (price.tdiv 100) s = dropNear env 1796 (price.tdiv 100) s := by
        rw [payUp, if_pos hany, payOrDrop_of_not_room hslots hany hnone]
      rw [hdrop] at hsame ⊢
      rw [payUp, if_neg hrest, modify_infinite false hsame.infinite (by omega),
        atomic_of_grown_iff hsame hamount]
      constructor
      · exact fun h => ⟨by omega, hnone, h.ground⟩
      · exact fun h => ⟨rfl, h.2.2⟩

end Infinite

section Message

variable {env : Env} {s : Session} {cch : String}

/-- What an offer is worth, in world locks. -/
def Offer.worth (offer : Offer) : Int := offer.price * atoi offer.amount

/-- A message on which the sale is all or nothing. -/
def InOrder (env : Env) (s : Session) (offer : Offer) : Prop :=
  amountOk offer s = false ∨ offer.total = 0 ∨ getSlots s.pl.inv = 0 ∨
    Sound env s (int32 offer.worth) offer.worth

theorem amountOk_holds (hs : SlotInv s.pl.inv) {offer : Offer} (hok : amountOk offer s = true) :
    0 < atoi offer.amount ∧ atoi offer.amount ≤ total offer.id s.pl.inv := by
  unfold amountOk at hok
  simp only [Bool.and_eq_true, decide_eq_true_eq, contains_eq_total hs] at hok
  omega

/-- A message for crystals is refused, or they are sold. -/
theorem applyExChanges_crystal
    (hkind : (env.items.item (readOffer cch).id).blockType = .crystal)
    (hprice : 0 < (readOffer cch).price) :
    applyExChanges env cch s =
      if amountOk (readOffer cch) s = false ∨ (readOffer cch).total = 0 ∨
          getSlots s.pl.inv = 0 then s
      else sellCrystals env (readOffer cch).id (atoi (readOffer cch).amount)
        (int32 (readOffer cch).worth) s := by
  have hne : (readOffer cch).price ≠ 0 := by omega
  unfold applyExChanges
  simp only [hkind, hne, true_and, ne_eq, not_true_eq_false, and_false, false_or, if_true]
  by_cases hok : amountOk (readOffer cch) s = false
  · rw [if_pos hok, if_pos (Or.inl hok)]
  · by_cases htotal : (readOffer cch).total = 0
    · rw [if_neg hok, if_pos htotal, if_pos (Or.inr (Or.inl htotal))]
    · by_cases hslots : getSlots s.pl.inv = 0
      · rw [if_neg hok, if_neg htotal, if_pos hslots, if_pos (Or.inr (Or.inr hslots))]
      · rw [if_neg hok, if_neg htotal, if_neg hslots, if_neg (by
          rintro (h | h | h)
          · exact hok h
          · exact htotal h
          · exact hslots h)]
        rfl

/-- The exchange of crystals is all or nothing exactly when the message is in order. -/
theorem applyExChanges_atomic_iff (hlocks : env.items.LocksListed)
    (hcrystals : CrystalsListed env.items) (hslots : SlotInv s.pl.inv)
    (hgems : s.pl.gems < 2 ^ 31)
    (hkind : (env.items.item (readOffer cch).id).blockType = .crystal)
    (hprice : 0 < (readOffer cch).price) :
    let offer := readOffer cch
    Atomic offer.id (atoi offer.amount) offer.worth s (applyExChanges env cch s) ↔
      InOrder env s offer := by
  have hlisted := hcrystals.listed _ hkind
  have hplain := hcrystals.plain _ hkind
  rw [List.mem_cons, not_or] at hplain
  have haccepts : Accepts env (readOffer cch).id := ⟨hlisted.1, by omega, hplain.1⟩
  dsimp only
  unfold InOrder
  rw [applyExChanges_crystal hkind hprice]
  by_cases hrefused : amountOk (readOffer cch) s = false ∨ (readOffer cch).total = 0 ∨
      getSlots s.pl.inv = 0
  · rw [if_pos hrefused]
    refine iff_of_true (Or.inr ⟨rfl, rfl⟩) ?_
    rcases hrefused with hamount | htotal | hfull
    · exact Or.inl hamount
    · exact Or.inr (Or.inl htotal)
    · exact Or.inr (Or.inr (Or.inl hfull))
  · rw [if_neg hrefused]
    simp only [not_or, Bool.not_eq_false] at hrefused
    obtain ⟨hok, htotal, hfull⟩ := hrefused
    obtain ⟨hamount, henough⟩ := amountOk_holds hslots hok
    have hfree := Nat.pos_of_ne_zero hfull
    have hrange := (int32_price (Int.mul_pos hprice hamount)).1
    rw [or_iff_right (by simp [hok]), or_iff_right htotal, or_iff_right hfull, Sound]
    by_cases hunpaid : Unpaid s (int32 (readOffer cch).worth)
    · rw [sellCrystals_unpaid hunpaid]
      exact iff_of_true (Or.inr ⟨rfl, rfl⟩) (Or.inl hunpaid)
    · rw [or_iff_right hunpaid]
      cases hmode : s.pl.infiniteMode with
      | false =>
          rw [if_neg (by decide)]
          exact sellCrystals_atomic_finite hlocks ⟨hslots, hmode, hgems⟩ hfree haccepts
            hplain.2 hamount henough hrange hunpaid
      | true =>
          rw [if_pos rfl]
          exact sellCrystals_atomic_infinite hlocks hslots hmode hfree hamount hunpaid

/-- Crystals, all with the same id. -/
def crystals : Env where
  items := ⟨20298, fun id => if id = 4654 then { blockType := .crystal } else {}⟩

theorem crystals_listed : CrystalsListed crystals.items where
  listed := by
    intro id hkind
    by_cases hid : id = 4654
    · subst hid
      decide
    · simp [crystals, hid] at hkind
  plain := by
    intro id hkind
    by_cases hid : id = 4654
    · subst hid
      decide
    · simp [crystals, hid] at hkind

/-- A player in a world with five crystals and two free slots. -/
def miner : Session where
  pl := { world := "TRADE", inv := [(4654, 5), (0, 0), (0, 0)] }
  worlds := [{ name := "TRADE" }]

/-- One crystal at fifty world locks is paid for with fifty diamond locks. -/
theorem applyExChanges_overpays :
    ¬ ∀ (env : Env) (s : Session) (cch : String), env.items.LocksListed →
      CrystalsListed env.items → SlotInv s.pl.inv → s.pl.gems < 2 ^ 31 →
      (env.items.item (readOffer cch).id).blockType = .crystal →
      0 < (readOffer cch).price →
        Atomic (readOffer cch).id (atoi (readOffer cch).amount) (readOffer cch).worth s
          (applyExChanges env cch s) := by
  intro hall
  have hatomic := hall crystals miner "id|4654|\nprice|50|\ntotal|5|\namount|1"
    ⟨by decide, by decide⟩ crystals_listed (by decide) (by decide) (by decide) (by decide)
  rcases hatomic with hsold | hunchanged
  · exact absurd hsold.paid (by decide)
  · exact absurd hunchanged.inv (by decide)

/-- Two crystals at a hundred world locks each are exchanged for two diamond locks. -/
theorem applyExChanges_fair :
    Atomic 4654 2 200 miner
      (applyExChanges crystals "id|4654|\nprice|100|\ntotal|5|\namount|2" miner) := by
  refine (@applyExChanges_atomic_iff crystals miner "id|4654|\nprice|100|\ntotal|5|\namount|2"
    ⟨by decide, by decide⟩ crystals_listed (by decide) (by decide) (by decide) (by decide)).mpr
    (Or.inr (Or.inr (Or.inr (Or.inr ?_))))
  rw [if_neg (by decide)]
  exact ⟨by decide, by decide⟩

end Message

end CrystalSale

end NopyServer
