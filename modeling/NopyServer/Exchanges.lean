/-
Three exchanges of items: the offers of `exn_apply_exchange`, the melody of
`ex_handle_get` and the table of `CustomExchangeLogic`.  All three take the
payment with one `Modify` and give the reward with another, and none gives the
payment back when the reward is refused.  So an exchange is all or nothing
exactly when no payment is made, or the reward is taken in by the backpack
that the payment leaves and starts no sale of fish; in infinite mode, which
takes no payment, exactly when the reward is refused.
-/
import NopyServer.HarvestJobs
import NopyServer.ItemMoves

namespace NopyServer

namespace Exchange

open Inventory Relation SlotPack

/-- The members of `ExchangeNewEntry` that an exchange reads. -/
structure ExchangeNewEntry where
  inId : Int
  inAmt : Int
  outId : Int
  outAmt : Int

/-- How far an exchange comes. -/
inductive Deal where
  | refused
  | unrewarded
  | done
deriving Repr, DecidableEq

/-- A payment and then its reward, when there is enough to pay with. -/
def payThenReward (env : Env) (enough forceReturn : Bool)
    (e : ExchangeNewEntry) (s : Session) : Deal × Session :=
  if enough = false then (.refused, s)
  else
    let paid := modify env s e.inId (-e.inAmt) forceReturn
    if paid.ret ≠ 0 then (.refused, paid.session)
    else
      let rewarded := modify env paid.session e.outId e.outAmt forceReturn
      if rewarded.ret ≠ 0 then (.unrewarded, rewarded.session)
      else (.done, rewarded.session)

/-- `exn_has_requirements`. -/
def exnHasRequirements (pl : Player) (e : ExchangeNewEntry) : Bool :=
  decide (e.inAmt ≤ contains pl.inv e.inId)

/-- `exn_apply_exchange`. -/
def exnApplyExchange (env : Env) (e : ExchangeNewEntry) (s : Session) :
    Bool × Session :=
  let deal := payThenReward env (exnHasRequirements s.pl e) false e s
  (deal.1 == .done, deal.2)

/-- The counts of the day in the file of the exchange center, as
`ex_load_state` returns them. -/
structure ExState where
  doctorCount : Int := 0
  legendCount : Int := 0
deriving DecidableEq

/-- `Role::Prefix`. -/
def rolePrefix (pl : Player) : String :=
  let role := pl.account.role
  if role.ownerServer then "`b[OWNER] @"
  else if pl.hasConfigAccess then "`c[CONFIG] @"
  else if role.staff then "`4[STAFF] @"
  else if role.streamers then "`4[STREAM] @"
  else if role.donatur then "`2[DONATOR] @"
  else if role.unlimited then "`8[UNLIMITED] @"
  else if role.god then "`9[GOD] @"
  else if role.developer then "`6[DEV] @"
  else if role.administrator then "`e[ADMIN] @"
  else if role.moderator then "`#[MOD] @"
  else if role.vip then "`1[VIP] @"
  else "`w"

/-- `ex_take_cost`. -/
def exTakeCost (env : Env) (itemId amount : Int) (s : Session) :
    Bool × Session :=
  if PthtAutoHarvest.has env.items s.pl itemId amount = false then (false, s)
  else
    let taken := modify env s itemId (-amount) true
    (taken.ret == 0, taken.session)

/-- `ex_give_melody`. -/
def exGiveMelody (env : Env) (s : Session) : Session :=
  (modify env s 19614 1 true).session

/-- A title that was paid for, with the new name color. -/
def giveTitle (give : Titles → Titles) (s : Session) : Session :=
  s.mapPlayer fun pl =>
    { pl with title := give pl.title, nameColor := rolePrefix pl }

/-- `ex_handle_get`, from the counts of the day to the counts saved. -/
def exHandleGet (env : Env) (which : String) (st : ExState) (s : Session) :
    ExState × Session :=
  if which = "ex_melody" then
    let cost := exTakeCost env 7188 50 s
    if cost.1 = false then (st, cost.2) else (st, exGiveMelody env cost.2)
  else if which = "ex_doctor" then
    if s.pl.title.doctor = true then (st, s)
    else if 2 ≤ st.doctorCount then (st, s)
    else
      let cost := exTakeCost env 8470 2 s
      if cost.1 = false then (st, cost.2)
      else
        ({ st with doctorCount := st.doctorCount + 1 },
          giveTitle (fun title => { title with doctor := true }) cost.2)
  else if which = "ex_legend" then
    if s.pl.title.ofLegend = true then (st, s)
    else if 5 ≤ st.legendCount then (st, s)
    else
      let cost := exTakeCost env 8470 10 s
      if cost.1 = false then (st, cost.2)
      else
        ({ st with legendCount := st.legendCount + 1 },
          giveTitle (fun title => { title with ofLegend := true }) cost.2)
  else (st, s)

/-- An entry of `exchange_items.json`. -/
structure ConvertEntry where
  fromId : Int
  fromCount : Int
  toId : Int
  toCount : Int

def ConvertEntry.offer (e : ConvertEntry) : ExchangeNewEntry :=
  ⟨e.fromId, e.fromCount, e.toId, e.toCount⟩

/-- `GetItemAmount`, the same loop as `Contains`. -/
def getItemAmount (pl : Player) (itemId : Int) : Int := contains pl.inv itemId

/-- The entry that a button of the dialog stands for. -/
def chosenEntry (button : String) (exchanges : List ConvertEntry) :
    Option ConvertEntry :=
  (exchanges.zipIdx.find? fun entry =>
    button == "convert" ++ toString entry.2).map Prod.fst

/-- `CustomExchangeLogic`, over the table it reads from its file. -/
def customExchangeLogic (env : Env) (button : String)
    (exchanges : List ConvertEntry) (s : Session) : Session :=
  if button = "backsetexchange" then s
  else
    match chosenEntry button exchanges with
    | none => s
    | some e =>
        (payThenReward env (decide (e.fromCount ≤ getItemAmount s.pl e.fromId))
          false e.offer s).2

/-- The gems and all counts are as before. -/
def Unchanged (s t : Session) : Prop :=
  t.pl.gems = s.pl.gems ∧ ∀ id, contains t.pl.inv id = contains s.pl.inv id

/-- The counts that an exchange leaves. -/
def exchanged (e : ExchangeNewEntry) (s : Session) (id : Int) : Int :=
  contains s.pl.inv id - (if e.inId = id then e.inAmt else 0) +
    if e.outId = id then e.outAmt else 0

/-- The payment is gone and the reward is there.  Auto conversion may change locks and
gems into each other in the same call: where it is on they are counted by their worth. -/
structure Swapped (e : ExchangeNewEntry) (s t : Session) : Prop where
  items : ∀ id, id ∉ lockIds → contains t.pl.inv id = exchanged e s id
  worth : (purse t.pl).value =
    (purse s.pl).value - e.inAmt * lockGems e.inId + e.outAmt * lockGems e.outId
  locks : ¬ Converts s.pl → t.pl.gems = s.pl.gems ∧
    ∀ id, contains t.pl.inv id = exchanged e s id

/-- The whole exchange or nothing of it, and the returned value says which. -/
def AllOrNothing (e : ExchangeNewEntry) (s : Session)
    (result : Bool × Session) : Prop :=
  result.1 = true ∧ Swapped e s result.2 ∨
    result.1 = false ∧ Unchanged s result.2

section Conditions

/-- No payment is made. -/
def Refused (env : Env) (pl : Player) (e : ExchangeNewEntry) : Prop :=
  contains pl.inv e.inId < e.inAmt ∨ ¬ Accepts env e.inId

/-- The reward is a valid item, and the backpack has room for it. -/
def Rewarded (env : Env) (e : ExchangeNewEntry) (pl : Player) : Prop :=
  Taken env pl e.outId e.outAmt

/-- The reward starts no sale of fish. -/
def RewardKept (env : Env) (e : ExchangeNewEntry) (pl : Player) : Prop :=
  Unsold env pl e.outId e.outAmt

/-- The session as `Modify` leaves it after the payment. -/
def paid (env : Env) (forceReturn : Bool) (e : ExchangeNewEntry) (s : Session) : Session :=
  (modify env s e.inId (-e.inAmt) forceReturn).session

/-- No payment without reward, and no reward without payment. -/
def Fair (env : Env) (forceReturn : Bool) (e : ExchangeNewEntry) (s : Session) : Prop :=
  Refused env s.pl e ∨
    if s.pl.infiniteMode = true then ¬ Rewarded env e s.pl
    else Rewarded env e (paid env forceReturn e s).pl ∧
      RewardKept env e (paid env forceReturn e s).pl

/-- The reward is fish that is sold at once, and its price is the payment. -/
def BoughtBack (env : Env) (forceReturn : Bool) (e : ExchangeNewEntry) (s : Session) : Prop :=
  ¬ Refused env s.pl e ∧ s.pl.infiniteMode = false ∧
    Rewarded env e (paid env forceReturn e s).pl ∧
    ¬ RewardKept env e (paid env forceReturn e s).pl ∧
    Unchanged s (modify env (paid env forceReturn e s) e.outId e.outAmt forceReturn).session

end Conditions

section Core

variable {env : Env} {s : Session} {e : ExchangeNewEntry} {enough : Bool}
  {forceReturn : Bool}

theorem payThenReward_refused
    (henough : enough = true → e.inAmt ≤ contains s.pl.inv e.inId)
    (hrefused : Refused env s.pl e) :
    payThenReward env enough forceReturn e s = (.refused, s) := by
  unfold payThenReward
  by_cases hflag : enough = false
  · rw [if_pos hflag]
  · have hle := henough (by simpa using hflag)
    have hnot : ¬ Accepts env e.inId := by
      rcases hrefused with hfew | hnot
      · omega
      · exact hnot
    rw [if_neg hflag, modify_not_accepted hnot]
    rfl

/-- After a payment the reward alone decides. -/
theorem payThenReward_rewarded (hflag : enough = true)
    (hret : (modify env s e.inId (-e.inAmt) forceReturn).ret = 0) :
    payThenReward env enough forceReturn e s =
      (if (modify env (paid env forceReturn e s) e.outId e.outAmt forceReturn).ret ≠ 0
        then .unrewarded else .done,
        (modify env (paid env forceReturn e s) e.outId e.outAmt forceReturn).session) := by
  unfold payThenReward paid
  rw [if_neg (by simp [hflag])]
  dsimp only
  rw [if_neg (by simp [hret])]
  split_ifs <;> rfl

/-- The payment outside infinite mode. -/
theorem paid_moved (hlocks : env.items.LocksListed) (hs : Live s) (hin : 0 < e.inAmt)
    (hpaid : ¬ Refused env s.pl e) :
    (modify env s e.inId (-e.inAmt) forceReturn).ret = 0 ∧
      Live (paid env forceReturn e s) ∧
      Moved (single e.inId (-e.inAmt)) (-e.inAmt * lockGems e.inId) s
        (paid env forceReturn e s) := by
  obtain ⟨henough, haccepts⟩ := not_or.mp hpaid
  exact modify_paid hlocks hs (not_not.mp haccepts) hin (Int.not_lt.mp henough) forceReturn

/-- A payment in infinite mode takes nothing. -/
theorem paid_infinite (hinfinite : s.pl.infiniteMode = true) (hin : 0 < e.inAmt)
    (hpaid : ¬ Refused env s.pl e) :
    (modify env s e.inId (-e.inAmt) forceReturn).ret = 0 ∧ paid env forceReturn e s = s := by
  obtain ⟨henough, haccepts⟩ := not_or.mp hpaid
  unfold paid
  rw [modify_infinite_take hinfinite hin (not_not.mp haccepts) (Int.not_lt.mp henough)]
  exact ⟨rfl, rfl⟩

/-- Where the payment leaves nothing to convert, the backpack has just lost it. -/
theorem paid_settled (hlocks : env.items.LocksListed) (hs : Live s) (hin : 0 < e.inAmt)
    (hpaid : ¬ Refused env s.pl e)
    (hsettled : Settled s.pl ⟨s.pl.gems, (view 0 s.pl.inv).less e.inId e.inAmt⟩) :
    view 0 (paid env forceReturn e s).pl.inv = (view 0 s.pl.inv).less e.inId e.inAmt := by
  obtain ⟨henough, haccepts⟩ := not_or.mp hpaid
  rw [contains_eq_total hs.slots] at henough
  have houtcome := (modify_taken forceReturn hlocks hs (not_not.mp haccepts) hin
    (Int.not_lt.mp henough)).2
  exact congrArg Purse.pack (houtcome.still hsettled)

end Core

section Parts

variable {env : Env} {s t u v : Session} {e : ExchangeNewEntry} {worth : Int}

theorem Unchanged.refl (s : Session) : Unchanged s s := ⟨rfl, fun _ => rfl⟩

theorem Unchanged.value (hs : SlotInv s.pl.inv) (ht : SlotInv t.pl.inv) (h : Unchanged s t) :
    (purse t.pl).value = (purse s.pl).value := by
  have hcounts : ∀ id, total id t.pl.inv = total id s.pl.inv := by
    intro id
    rw [← contains_eq_total ht, ← contains_eq_total hs]
    exact h.2 id
  unfold Purse.value packValue purse
  simp only [view_amount, hcounts, h.1]

/-- The payment and the reward together. -/
theorem swapped_of_moved (hpay : Moved (single e.inId (-e.inAmt)) (-e.inAmt * lockGems e.inId) s u)
    (hreward : Moved (single e.outId e.outAmt) (e.outAmt * lockGems e.outId) u t) :
    Swapped e s t := by
  have hboth := hpay.trans hreward
  have hcounts : ∀ id, contains s.pl.inv id +
      (single e.inId (-e.inAmt) id + single e.outId e.outAmt id) = exchanged e s id := by
    intro id
    unfold exchanged single
    split_ifs <;> omega
  refine ⟨fun id hid => (hboth.items id hid).trans (hcounts id), ?_, fun hquiet => ?_⟩
  · rw [hboth.worth, Int.neg_mul, ← add_assoc]
    rfl
  · obtain ⟨hgems, hlocks⟩ := hboth.locks hquiet
    exact ⟨hgems, fun id => (hlocks id).trans (hcounts id)⟩

/-- Without reward the payment is missed. -/
theorem not_whole_of_unrewarded (hs : SlotInv s.pl.inv) (ht : SlotInv t.pl.inv)
    (hin : 0 < e.inAmt) (hout : 0 < e.outAmt)
    (hpay : Moved (single e.inId (-e.inAmt)) (-e.inAmt * lockGems e.inId) s t) :
    ¬ (Swapped e s t ∨ Unchanged s t) := by
  rintro (hswapped | hsame)
  · have hworth := hswapped.worth
    rw [hpay.worth, Int.neg_mul] at hworth
    by_cases hlock : e.outId ∈ lockIds
    · have hmore := Int.mul_pos hout (lockGems_pos hlock)
      omega
    · have hcount := hswapped.items e.outId hlock
      rw [hpay.items e.outId hlock] at hcount
      simp only [exchanged, single, ↓reduceIte] at hcount
      split_ifs at hcount <;> omega
  · by_cases hlock : e.inId ∈ lockIds
    · have hworth := hpay.worth
      rw [hsame.value hs ht, Int.neg_mul] at hworth
      have hless := Int.mul_pos hin (lockGems_pos hlock)
      omega
    · have hcount := hpay.items e.inId hlock
      rw [hsame.2 e.inId, single_self] at hcount
      omega

/-- In infinite mode a reward comes without payment. -/
theorem not_whole_of_grown (hs : SlotInv s.pl.inv) (hin : 0 < e.inAmt) (hout : 0 < e.outAmt)
    (ht : Grown (fun id => total id s.pl.inv + single e.outId e.outAmt id)
      ((purse s.pl).value + e.outAmt * lockGems e.outId) t) :
    ¬ (Swapped e s t ∨ Unchanged s t) := by
  have hmore : ∀ id, contains s.pl.inv id + single e.outId e.outAmt id ≤
      contains t.pl.inv id := by
    intro id
    rw [contains_eq_total hs, contains_eq_total ht.slots]
    exact ht.counts id
  rintro (hswapped | hsame)
  · by_cases hlock : e.inId ∈ lockIds
    · have hworth := ht.worth
      rw [hswapped.worth] at hworth
      have hless := Int.mul_pos hin (lockGems_pos hlock)
      omega
    · have hcount := hmore e.inId
      rw [hswapped.items e.inId hlock] at hcount
      simp only [exchanged, single, ↓reduceIte] at hcount
      omega
  · have hcount := hmore e.outId
    rw [hsame.2 e.outId, single_self] at hcount
    omega

/-- A sale takes something that an exchange has to leave. -/
theorem not_swapped_of_sold (hlocks : env.items.LocksListed) (hv : Live v)
    (hnodup : (env.exchangeSetPrice.map Prod.fst).Nodup) (hsome : sale env v.pl ≠ [])
    (hwhole : Swapped e s v) : ¬ Swapped e s (processAutoSellFishInventory env v) := by
  intro hswapped
  obtain ⟨⟨id, hid, hcount, hgone⟩, -⟩ := sold_one hlocks hv hnodup hsome
  rw [hswapped.items id hid] at hgone
  rw [hwhole.items id hid] at hcount
  omega

end Parts

section AllOrNothing

variable {env : Env} {s : Session} {e : ExchangeNewEntry} {enough : Bool}
  {forceReturn : Bool}

/-- The ways an exchange can end, each with what is left of the two sides. -/
theorem payThenReward_cases (hlocks : env.items.LocksListed) (hs : SlotInv s.pl.inv)
    (hgems : s.pl.gems < 2 ^ 31) (hnodup : (env.exchangeSetPrice.map Prod.fst).Nodup)
    (hin : 0 < e.inAmt) (hout : 0 < e.outAmt)
    (henough : enough = true ↔ e.inAmt ≤ contains s.pl.inv e.inId) :
    let deal := payThenReward env enough forceReturn e s
    Fair env forceReturn e s ∧
        (deal.1 = .done ∧ Swapped e s deal.2 ∨ deal.1 ≠ .done ∧ Unchanged s deal.2) ∨
      BoughtBack env forceReturn e s ∧ ¬ Fair env forceReturn e s ∧
        deal.1 = .done ∧ Unchanged s deal.2 ∧ ¬ Swapped e s deal.2 ∨
      ¬ Fair env forceReturn e s ∧ ¬ BoughtBack env forceReturn e s ∧
        ¬ (Swapped e s deal.2 ∨ Unchanged s deal.2) := by
  dsimp only
  by_cases hpaid : Refused env s.pl e
  · rw [payThenReward_refused henough.mp hpaid]
    exact Or.inl ⟨Or.inl hpaid, Or.inr ⟨by simp, Unchanged.refl s⟩⟩
  have hflag : enough = true := henough.mpr (Int.not_lt.mp (not_or.mp hpaid).1)
  by_cases hinfinite : s.pl.infiniteMode = true
  · obtain ⟨hret, hsame⟩ := @paid_infinite env s e forceReturn hinfinite hin hpaid
    have hfair : Fair env forceReturn e s ↔ ¬ Rewarded env e s.pl := by
      unfold Fair
      rw [or_iff_right hpaid, if_pos hinfinite]
    have hgift := @modify_gift_iff env s e.outId e.outAmt hs hout forceReturn
    rw [payThenReward_rewarded hflag hret, hsame]
    by_cases hroom : Rewarded env e s.pl
    · have hgrown := (Grown.start hs hinfinite).given (le_of_lt hout) (hgift.mpr hroom)
      refine Or.inr (Or.inr ⟨fun h => hfair.mp h hroom, ?_,
        not_whole_of_grown hs hin hout hgrown⟩)
      rintro ⟨-, hfinite, -⟩
      simp [hinfinite] at hfinite
    · have hrefused := modify_of_not_fits hs hout forceReturn hroom
      rw [if_pos hrefused.1, hrefused.2]
      exact Or.inl ⟨hfair.mpr hroom, Or.inr ⟨by simp, Unchanged.refl s⟩⟩
  · have hlive : Live s := ⟨hs, by simpa using hinfinite, hgems⟩
    obtain ⟨hret, hu, hpay⟩ := @paid_moved env s e forceReturn hlocks hlive hin hpaid
    have hfair : Fair env forceReturn e s ↔ Rewarded env e (paid env forceReturn e s).pl ∧
        RewardKept env e (paid env forceReturn e s).pl := by
      unfold Fair
      rw [or_iff_right hpaid, if_neg hinfinite]
    have hback : BoughtBack env forceReturn e s ↔
        (Rewarded env e (paid env forceReturn e s).pl ∧
          ¬ RewardKept env e (paid env forceReturn e s).pl) ∧
        Unchanged s (modify env (paid env forceReturn e s) e.outId e.outAmt
          forceReturn).session := by
      unfold BoughtBack
      simp [hpaid, hlive.finite, and_assoc]
    rw [payThenReward_rewarded hflag hret, hfair, hback]
    generalize paid env forceReturn e s = u at hu hpay ⊢
    rcases modify_gift_cases hlocks hu hout forceReturn with
      ⟨hroom, hret, hafter⟩ | ⟨hroom, hret, v, hv, hgift, hend⟩
    · rw [if_pos hret, hafter]
      exact Or.inr (Or.inr ⟨fun h => hroom h.1, fun h => hroom h.1.1,
        not_whole_of_unrewarded hs hu.slots hin hout hpay⟩)
    · have hwhole := swapped_of_moved hpay hgift
      rw [if_neg (by simp [hret])]
      rcases hend with ⟨hkept, hafter⟩ | ⟨hkept, hsome, hafter⟩
      · rw [hafter]
        exact Or.inl ⟨⟨hroom, hkept⟩, Or.inl ⟨rfl, hwhole⟩⟩
      · have hnot := not_swapped_of_sold hlocks hv hnodup hsome hwhole
        rw [hafter]
        by_cases hsame : Unchanged s (processAutoSellFishInventory env v)
        · exact Or.inr (Or.inl ⟨⟨⟨hroom, hkept⟩, hsame⟩, fun h => hkept h.2, rfl, hsame,
            hnot⟩)
        · exact Or.inr (Or.inr ⟨fun h => hkept h.2, fun h => hsame h.2,
            fun h => h.elim hnot hsame⟩)

theorem payThenReward_told_iff (hlocks : env.items.LocksListed) (hs : SlotInv s.pl.inv)
    (hgems : s.pl.gems < 2 ^ 31) (hnodup : (env.exchangeSetPrice.map Prod.fst).Nodup)
    (hin : 0 < e.inAmt) (hout : 0 < e.outAmt)
    (henough : enough = true ↔ e.inAmt ≤ contains s.pl.inv e.inId) :
    let deal := payThenReward env enough forceReturn e s
    AllOrNothing e s (deal.1 == .done, deal.2) ↔ Fair env forceReturn e s := by
  dsimp only
  unfold AllOrNothing
  simp only [beq_iff_eq, beq_eq_false_iff_ne]
  rcases @payThenReward_cases env s e enough forceReturn hlocks hs hgems hnodup hin hout henough
    with ⟨hfair, hwhole⟩ | ⟨-, hunfair, hdone, -, hnot⟩ | ⟨hunfair, -, hnot⟩
  · exact iff_of_true hwhole hfair
  · refine iff_of_false ?_ hunfair
    rintro (⟨-, hswapped⟩ | ⟨hne, -⟩)
    · exact hnot hswapped
    · exact hne hdone
  · exact iff_of_false (fun h => hnot (h.imp And.right And.right)) hunfair

theorem payThenReward_whole_iff (hlocks : env.items.LocksListed) (hs : SlotInv s.pl.inv)
    (hgems : s.pl.gems < 2 ^ 31) (hnodup : (env.exchangeSetPrice.map Prod.fst).Nodup)
    (hin : 0 < e.inAmt) (hout : 0 < e.outAmt)
    (henough : enough = true ↔ e.inAmt ≤ contains s.pl.inv e.inId) :
    let t := (payThenReward env enough forceReturn e s).2
    Swapped e s t ∨ Unchanged s t ↔
      Fair env forceReturn e s ∨ BoughtBack env forceReturn e s := by
  dsimp only
  rcases @payThenReward_cases env s e enough forceReturn hlocks hs hgems hnodup hin hout henough
    with ⟨hfair, hwhole⟩ | ⟨hback, -, -, hsame, -⟩ | ⟨hunfair, hback, hnot⟩
  · exact iff_of_true (hwhole.imp And.right And.right) (Or.inl hfair)
  · exact iff_of_true (Or.inr hsame) (Or.inr hback)
  · exact iff_of_false hnot (not_or.mpr ⟨hunfair, hback⟩)

/-- `Has` asks for the whole stack. -/
theorem has_iff (hs : SlotInv s.pl.inv) {id amount : Int} (hpos : 0 < id)
    (hsize : id < env.items.size) (hamount : 0 < amount) :
    PthtAutoHarvest.has env.items s.pl id amount = true ↔
      amount ≤ contains s.pl.inv id := by
  have hne : id ≠ 0 := Int.ne_of_gt hpos
  rw [contains_eq_total hs]
  simp only [PthtAutoHarvest.has, hpos, hsize, decide_true, Bool.true_and,
    List.any_eq_true, Bool.and_eq_true, beq_iff_eq, decide_eq_true_eq]
  constructor
  · rintro ⟨⟨key, n⟩, hmem, rfl, hle⟩
    obtain ⟨pre, post, hinv⟩ := List.append_of_mem hmem
    rw [hinv] at hs ⊢
    rwa [hs.wellFormed.total_stack hne]
  · intro hle
    by_contra habsent
    have hnone : ∀ slot ∈ s.pl.inv, slot.1 ≠ id := by
      rintro ⟨key, n⟩ hmem rfl
      apply habsent
      refine ⟨(key, n), hmem, rfl, ?_⟩
      obtain ⟨pre, post, hinv⟩ := List.append_of_mem hmem
      rw [hinv] at hs hle
      rwa [hs.wellFormed.total_stack hne] at hle
    rw [total_eq_zero_of_not_mem hnone] at hle
    omega

/-- Fifty blue gem locks for a melody. -/
def melody : ExchangeNewEntry := ⟨7188, 50, 19614, 1⟩

theorem exTakeCost_then (inId inAmt outId outAmt : Int) :
    (if (exTakeCost env inId inAmt s).1 = false then
      (exTakeCost env inId inAmt s).2
    else (modify env (exTakeCost env inId inAmt s).2 outId outAmt true).session) =
      (payThenReward env (PthtAutoHarvest.has env.items s.pl inId inAmt) true
        ⟨inId, inAmt, outId, outAmt⟩ s).2 := by
  unfold exTakeCost payThenReward
  dsimp only
  by_cases hhas : PthtAutoHarvest.has env.items s.pl inId inAmt = false
  · simp [hhas]
  · simp only [hhas]
    by_cases hret : (modify env s inId (-inAmt) true).ret = 0
    · simp only [hret, beq_self_eq_true, Bool.true_eq_false, ↓reduceIte, ne_eq,
        not_true_eq_false]
      split_ifs <;> rfl
    · simp [hret]

theorem exHandleGet_melody (st : ExState) :
    (exHandleGet env "ex_melody" st s).2 = (payThenReward env
      (PthtAutoHarvest.has env.items s.pl 7188 50) true melody s).2 := by
  have hbranch : (exHandleGet env "ex_melody" st s).2 =
      if (exTakeCost env 7188 50 s).1 = false then (exTakeCost env 7188 50 s).2
      else exGiveMelody env (exTakeCost env 7188 50 s).2 := by
    unfold exHandleGet
    rw [if_pos rfl]
    generalize exTakeCost env 7188 50 s = cost
    cases hcost : cost.1 with
    | false => simp only [hcost, ↓reduceIte]
    | true => simp only [hcost, ↓reduceIte, Bool.true_eq_false]
  have hmelody := @exTakeCost_then env s 7188 50 19614 1
  rw [hbranch, melody, ← hmelody, exGiveMelody]

/-- A customer with ten of an item and no free slot. -/
def customer : Session where
  pl := { inv := [(2, 10)] }

end AllOrNothing

end Exchange

end NopyServer
