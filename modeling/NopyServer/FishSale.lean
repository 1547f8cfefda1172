/-
What `ProcessAutoSellFishInventory` removes and what it pays.  The prices of
the kinds sold are added up in world locks and paid in four denominations; the
digit of the million is computed and never paid, and the hundred millions are
paid with locks of a million.  So the payment is exact up to a million, and
short by what the two digits stand for beyond.

Locks that do not fit into the backpack are laid down beside the player, so
the payment is counted in the backpack and among the drops together.
-/
import Mathlib.Algebra.Order.BigOperators.Group.List
import Mathlib.Tactic.Ring
import NopyServer.Conversions
import NopyServer.DropCleanUp

namespace NopyServer

namespace Inventory

open BoundedLoop Relation SlotPack

/-- The drops of the world the player stands in. -/
def groundDrops (s : Session) : List DropEntry :=
  match s.worlds.find? fun world => world.name == s.pl.world with
  | some world => world.dropNew
  | none => []

/-- The player stands in a loaded world. -/
def Stands (s : Session) : Prop :=
  ∃ world ∈ s.worlds, world.name = s.pl.world

instance (s : Session) : Decidable (Stands s) :=
  inferInstanceAs (Decidable (∃ world ∈ s.worlds, _))

/-- The worth of the locks among some drops, in gems. -/
def dropValue (entries : List DropEntry) : Int :=
  packValue 0 ⟨fun id => dropTotal id entries, 0⟩

/-- The locks and gems of a player and the locks on the ground, in gems. -/
def wealth (s : Session) : Int :=
  (purse s.pl).value + dropValue (groundDrops s)

/-- A price at which a kind of fish is sold from some amounts. -/
def sellable (env : Env) (amount : Int → Int) (price : Int × Int) : Bool :=
  0 < price.2 && 0 < price.1 && price.1 < env.items.size &&
    env.items.isFish price.1 && price.1 != 112 && 0 < amount price.1

/-- The kinds of fish a table of prices sells, each with its price. -/
def kindsSold (env : Env) (amount : Int → Int) (prices : List (Int × Int)) :
    List (Int × Int) :=
  prices.filter (sellable env amount)

/-- The kinds of fish that `ProcessAutoSellFishInventory` sells for a player. -/
def sale (env : Env) (pl : Player) : List (Int × Int) :=
  if pl.autosellfish = true ∧ pl.autosellfishProcessing = false then
    kindsSold env (contains pl.inv) env.exchangeSetPrice
  else []

/-- What the kinds sold are worth, in world locks. -/
def takings (sold : List (Int × Int)) : Int :=
  min 2000000000 (sold.map Prod.snd).sum

section Ground

variable {items : Items} {env : Env} {s t : Session} {name : String}
  {world : World}

theorem stands_iff_find : Stands s ↔
    ∃ world, (s.worlds.find? fun world => world.name == s.pl.world) =
      some world := by
  unfold Stands
  constructor
  · rintro ⟨world, hmem, hname⟩
    rw [← Option.isSome_iff_exists, List.find?_isSome]
    exact ⟨world, hmem, by simpa using hname⟩
  · rintro ⟨world, hfind⟩
    exact ⟨world, List.mem_of_find?_eq_some hfind,
      by simpa using List.find?_some hfind⟩

/-- The drop goes to the first world of the name, and to no other. -/
theorem dropInWorld_find {now : Int} {drop : WorldDrop} {worlds : List World}
    (hfind : (worlds.find? fun world => world.name == name) = some world) :
    ((dropInWorld items now name drop worlds).find?
      fun world => world.name == name) =
        some (visualDrop items now world drop) := by
  induction worlds with
  | nil => cases hfind
  | cons first rest ih =>
      unfold dropInWorld
      by_cases hname : first.name = name
      · have hfirst : first = world := by simpa [hname] using hfind
        subst hfirst
        have hkept : (visualDrop items now first drop).name = name := hname
        rw [if_pos hname]
        simp [hkept]
      · have hrest : (rest.find? fun world => world.name == name) =
            some world := by simpa [hname] using hfind
        rw [if_neg hname]
        simpa [hname] using ih hrest

theorem groundDrops_congr (hworlds : t.worlds = s.worlds)
    (hname : t.pl.world = s.pl.world) : groundDrops t = groundDrops s := by
  unfold groundDrops
  rw [hworlds, hname]

theorem Confined.surroundings (hconfined : Confined s t)
    (hsettings : settings t.pl = settings s.pl) :
    t.worlds = s.worlds ∧ t.now = s.now ∧ t.pl.world = s.pl.world := by
  have hname : t.pl.world = s.pl.world :=
    settings_congr hsettings Player.world fun _ => rfl
  unfold Confined at hconfined
  rw [hconfined]
  exact ⟨rfl, rfl, hname⟩

/-- What is dropped lies in the world afterwards, and the clean-up may have run. -/
theorem dropped_ground (hstands : Stands s) {drop : WorldDrop}
    (hid : normalizeDropId drop.id = drop.id) (hgem : drop.id ≠ 112)
    (hcount : drop.count ≤ 2 ^ 31 - 200) (hname : t.pl.world = s.pl.world)
    (hworlds : t.worlds = dropInWorld env.items s.now s.pl.world drop s.worlds) (other : Int) :
    dropTotal other (groundDrops t) =
      dropTotal other (groundDrops s) + (if drop.id = other then drop.count else 0) -
        swept env.items s.now drop (groundDrops s) other := by
  obtain ⟨world, hfind⟩ := stands_iff_find.mp hstands
  have hafter := @dropInWorld_find env.items s.pl.world world s.now drop
    s.worlds hfind
  have hground : groundDrops s = world.dropNew := by
    unfold groundDrops
    rw [hfind]
  have hlaid : groundDrops t = (visualDrop env.items s.now world drop).dropNew := by
    unfold groundDrops
    rw [hworlds, hname, hafter]
  have htotal := @dropTotal_visualDrop_swept env.items s.now drop world
    (by rw [hid]; exact hgem) hcount other
  rw [hid] at htotal
  rw [hground, hlaid]
  exact htotal

/-- Where the player stands in no loaded world nothing is dropped. -/
theorem dropInWorld_lost (hstands : ¬ Stands s) (items : Items) (now : Int) (drop : WorldDrop) :
    dropInWorld items now s.pl.world drop s.worlds = s.worlds := by
  have hnames : ∀ world ∈ s.worlds, world.name ≠ s.pl.world :=
    fun world hworld hname => hstands ⟨world, hworld, hname⟩
  generalize s.worlds = worlds at hnames
  induction worlds with
  | nil => rfl
  | cons first rest ih =>
      rw [dropInWorld, if_neg (hnames first List.mem_cons_self),
        ih fun world hworld => hnames world (List.mem_cons_of_mem first hworld)]

end Ground

section Payment

variable {env : Env} {s t u : Session} {id amount : Int}

/-- What one of an item is worth as money, in gems. -/
def lockGems (id : Int) : Int :=
  packValue 0 ⟨fun other => if id = other then 1 else 0, 0⟩

theorem packValue_give {gems c : Int} {pack next : Pack Int}
    (hgiven : ∀ other, next.amount other =
      pack.amount other + if id = other then c else 0) :
    packValue gems next = packValue gems pack + c * lockGems id := by
  have hfactor : ∀ other, (if id = other then c else 0) =
      c * if id = other then 1 else 0 := fun other => (mul_boole _ c).symm
  unfold lockGems packValue
  simp only [hgiven, hfactor]
  ring

theorem change_given {pack next : Pack Int} {c : Int}
    (h : pack.change 200 id c = some next) (other : Int) :
    next.amount other = pack.amount other + if id = other then c else 0 := by
  rw [Pack.change_amount h]
  by_cases hid : id = other
  · subst hid
    simp
  · simp [hid, Ne.symm hid]

/-- A payment: the wealth grows by the worth of it, and no item but the locks
changes. -/
structure Paid (worth : Int) (s t : Session) : Prop where
  settings : settings t.pl = settings s.pl
  wealth : wealth t = wealth s + worth
  others : ∀ id, id ∉ lockIds → total id t.pl.inv = total id s.pl.inv

theorem Paid.refl (s : Session) : Paid 0 s s :=
  ⟨rfl, (add_zero _).symm, fun _ _ => rfl⟩

theorem Paid.trans {worth worth' : Int} (hst : Paid worth s t)
    (htu : Paid worth' t u) : Paid (worth + worth') s u where
  settings := htu.settings.trans hst.settings
  wealth := by rw [htu.wealth, hst.wealth, add_assoc]
  others id hid := (htu.others id hid).trans (hst.others id hid)

theorem lock_not_sold (hlocks : env.items.LocksListed) (hid : id ∈ lockIds)
    (pl : Player) (c : Int) : ¬ Sells env pl id c := by
  rintro ⟨-, -, -, -, -, hfish⟩
  rw [hlocks.notFish id hid] at hfish
  cases hfish

theorem lock_plain (hid : id ∈ lockIds) :
    normalizeDropId id = id ∧ id ≠ 112 := by
  simp only [lockIds, List.mem_cons, List.not_mem_nil, or_false] at hid
  rcases hid with rfl | rfl | rfl | rfl | rfl <;> decide

/-- A change of an item moves the worth of the purse by the worth of it,
conversions or not. -/
theorem Outcome.value {pack : Pack Int} {c : Int}
    (hchange : (view 0 s.pl.inv).change 200 id c = some pack)
    (h : Outcome s pack t) : (purse t.pl).value = (purse s.pl).value + c * lockGems id := by
  have hvalue := conversions_value h.steps
  have hgrown := @packValue_give id s.pl.gems c _ _ (change_given hchange)
  unfold Purse.value at hvalue ⊢
  rw [hvalue, hgrown]
  rfl

theorem Outcome.wealth {pack : Pack Int} {c : Int}
    (hchange : (view 0 s.pl.inv).change 200 id c = some pack)
    (h : Outcome s pack t) : wealth t = wealth s + c * lockGems id := by
  obtain ⟨hworlds, -, hname⟩ := h.confined.surroundings h.settings
  unfold Inventory.wealth
  rw [groundDrops_congr hworlds hname, h.value hchange]
  omega

theorem Outcome.others {pack : Pack Int} {c : Int}
    (hchange : (view 0 s.pl.inv).change 200 id c = some pack)
    (h : Outcome s pack t) {other : Int} (hother : other ∉ lockIds) :
    total other t.pl.inv = total other s.pl.inv + if id = other then c else 0 :=
  (conversions_others h.steps hother).trans (change_given hchange other)

/-- Locks that `Modify` takes in. -/
theorem Outcome.paid (hid : id ∈ lockIds) {pack : Pack Int} {c : Int}
    (hchange : (view 0 s.pl.inv).change 200 id c = some pack)
    (h : Outcome s pack t) : Paid (c * lockGems id) s t where
  settings := h.settings
  wealth := h.wealth hchange
  others other hother := by
    have hne : id ≠ other := fun heq => hother (heq ▸ hid)
    rw [h.others hchange hother, if_neg hne, add_zero]

/-- The worth of the locks that are lost with a drop, in gems: those that the clean-up
takes, or the drop itself where there is no loaded world. -/
def lostWorth (env : Env) (s : Session) (drop : WorldDrop) : Int :=
  if Stands s then
    packValue 0 ⟨swept env.items s.now drop (groundDrops s), 0⟩
  else drop.count * lockGems drop.id

theorem packValue_sub (left right : Int → Int) :
    packValue 0 ⟨fun id => left id - right id, 0⟩ =
      packValue 0 ⟨left, 0⟩ - packValue 0 ⟨right, 0⟩ := by
  unfold packValue
  dsimp only
  ring

/-- Locks that are dropped lie on the ground, less what is lost. -/
theorem dropped_paid {drop : WorldDrop} (hid : drop.id ∈ lockIds)
    (hcount : drop.count ≤ 2 ^ 31 - 200) (hs : Live s) (hpl : t.pl = s.pl)
    (hworlds : t.worlds = dropInWorld env.items s.now s.pl.world drop s.worlds) :
    Live t ∧ Paid (drop.count * lockGems drop.id - lostWorth env s drop) s t := by
  obtain ⟨hplain, hgem⟩ := lock_plain hid
  refine ⟨⟨hpl ▸ hs.slots, hpl ▸ hs.finite, hpl ▸ hs.gems⟩, by rw [hpl], ?_,
    fun _ _ => by rw [hpl]⟩
  unfold wealth lostWorth
  rw [hpl]
  by_cases hstands : Stands s
  · rw [if_pos hstands]
    have hground : dropValue (groundDrops t) = packValue 0
        ⟨fun other => dropTotal other (groundDrops s) + (if drop.id = other then drop.count
          else 0) - swept env.items s.now drop (groundDrops s) other, 0⟩ :=
      congrArg (fun totals : Int → Int => packValue 0 ⟨totals, 0⟩) (funext fun other =>
        dropped_ground hstands hplain hgem hcount (congrArg Player.world hpl) hworlds other)
    have hgrown := @packValue_give drop.id 0 drop.count
      ⟨fun other => dropTotal other (groundDrops s), 0⟩
      ⟨fun other => dropTotal other (groundDrops s) +
        if drop.id = other then drop.count else 0, 0⟩ fun _ => rfl
    rw [hground, packValue_sub (fun other => dropTotal other (groundDrops s) +
      if drop.id = other then drop.count else 0), hgrown]
    unfold dropValue
    omega
  · rw [if_neg hstands]
    have hsame : groundDrops t = groundDrops s :=
      groundDrops_congr (hworlds.trans (dropInWorld_lost hstands env.items s.now drop))
        (congrArg Player.world hpl)
    rw [hsame]
    omega

/-- A drop of `dropBeside`. -/
def besideDrop (id count : Int) (s : Session) : WorldDrop :=
  ⟨id, count, s.pl.x + (s.rand.1 % 2 : Nat), s.pl.y + (s.rand.2.rand.1 % 2 : Nat)⟩

/-- The worth of the locks that a payment of one kind of lock loses: nothing where the
locks fit into the backpack. -/
def lost (env : Env) (id amount : Int) (s : Session) : Int :=
  if amount ≤ 0 ∨ (view 0 s.pl.inv).Fits 200 id amount then 0
  else lostWorth env s (besideDrop id amount s)

/-- The loop of a payment gives a stack at most once. -/
theorem giveLockOrDrop_once
    (modify : Session → Int → Int → Bool → Modified) (hlimit : amount ≤ 200) :
    giveLockOrDrop modify env id amount s =
      if 0 < amount then
        if (modify s id amount true).ret ≠ 0 then
          dropBeside env id amount (modify s id amount true).session
        else (modify s id amount true).session
      else s := by
  unfold giveLockOrDrop
  by_cases hpos : 0 < amount
  · have hgive : (if 200 < amount then 200 else amount) = amount :=
      if_neg (by omega)
    have hfirst : giveLockBody modify env id (s, amount) =
        .again (if (modify s id amount true).ret ≠ 0 then
          dropBeside env id amount (modify s id amount true).session
        else (modify s id amount true).session, 0) := by
      unfold giveLockBody
      dsimp only
      rw [if_pos hpos, hgive, sub_self]
    have hlast (t : Session) :
        giveLockBody modify env id (t, 0) = .stop (t, 0) := by
      unfold giveLockBody
      simp
    obtain ⟨n, hn⟩ : ∃ n, amount.toNat = n + 1 := ⟨amount.toNat - 1, by omega⟩
    rw [if_pos hpos, run_again _ hfirst, hn, run_stop _ (hlast _)]
  · have hstop : giveLockBody modify env id (s, amount) = .stop (s, amount) := by
      unfold giveLockBody
      simp [hpos]
    rw [if_neg hpos, run_stop _ hstop]

/-- One denomination is paid, into the backpack or onto the ground. -/
theorem giveLockOrDrop_paid (hlocks : env.items.LocksListed)
    (hid : id ∈ lockIds) (hs : Live s) (hnonneg : 0 ≤ amount) (hlimit : amount ≤ 200) :
    Live (giveLockOrDrop (modify env) env id amount s) ∧
      Paid (amount * lockGems id - lost env id amount s) s
        (giveLockOrDrop (modify env) env id amount s) := by
  rw [giveLockOrDrop_once (modify env) hlimit, lost]
  by_cases hpos : 0 < amount
  · have hnonneg : 0 ≤ (view 0 s.pl.inv).amount id :=
      (hs.slots.wellFormed.total_bounds (by decide)
        (Int.ne_of_gt (lock_accepts hlocks hid).1)).1
    have hfits : (view 0 s.pl.inv).Fits 200 id amount ↔
        (view 0 s.pl.inv).change 200 id amount ≠ none := Pack.fits_iff hpos hnonneg
    rw [if_pos hpos]
    rcases modify_outcome true hlocks hs (lock_accepts hlocks hid)
      (lock_not_sold hlocks hid s.pl amount) with
      ⟨pack, hchange, hret, houtcome⟩ | ⟨hnone, hret, hsame⟩
    · rw [if_neg (by simp [hret]), if_pos (Or.inr (hfits.mpr (by simp [hchange]))), sub_zero]
      exact ⟨houtcome.live hs, houtcome.paid hid hchange⟩
    · have hnot : ¬ (amount ≤ 0 ∨ (view 0 s.pl.inv).Fits 200 id amount) := by
        rw [hfits, hnone]
        simp [hpos]
      rw [if_pos (by simp [hret]), hsame, if_neg hnot]
      exact @dropped_paid env s _ (besideDrop id amount s) hid
        (show amount ≤ 2 ^ 31 - 200 by omega) hs rfl rfl
  · have hzero : amount = 0 := by omega
    rw [if_neg hpos, if_pos (Or.inl (Int.not_lt.mp hpos)), hzero, zero_mul]
    exact ⟨hs, Paid.refl s⟩

/-- What a list of payments loses, each made where the ones before it end. -/
def lostAlong (env : Env) : List (Int × Int) → Session → Int
  | [], _ => 0
  | pay :: rest, s =>
      lost env pay.1 pay.2 s +
        lostAlong env rest (giveLockOrDrop (modify env) env pay.1 pay.2 s)

/-- A list of payments, by induction over it. -/
theorem payments_paid (hlocks : env.items.LocksListed) {pays : List (Int × Int)}
    (hpays : ∀ pay ∈ pays, pay.1 ∈ lockIds ∧ 0 ≤ pay.2 ∧ pay.2 ≤ 200) (hs : Live s) :
    Live (pays.foldl (fun s pay => giveLockOrDrop (modify env) env pay.1 pay.2 s) s) ∧
      Paid ((pays.map fun pay => pay.2 * lockGems pay.1).sum - lostAlong env pays s) s
        (pays.foldl (fun s pay => giveLockOrDrop (modify env) env pay.1 pay.2 s) s) := by
  induction pays generalizing s with
  | nil => exact ⟨hs, Paid.refl s⟩
  | cons pay rest ih =>
      obtain ⟨⟨hid, hnonneg, hlimit⟩, hrest⟩ := List.forall_mem_cons.mp hpays
      obtain ⟨hlive, hfirst⟩ := giveLockOrDrop_paid hlocks hid hs hnonneg hlimit
      obtain ⟨hlast, hpaid⟩ := ih hrest hlive
      refine ⟨hlast, ?_⟩
      have hboth := hfirst.trans hpaid
      have hworth : (List.map (fun pay => pay.2 * lockGems pay.1) (pay :: rest)).sum -
          lostAlong env (pay :: rest) s =
          pay.2 * lockGems pay.1 - lost env pay.1 pay.2 s +
            ((rest.map fun pay => pay.2 * lockGems pay.1).sum -
              lostAlong env rest (giveLockOrDrop (modify env) env pay.1 pay.2 s)) := by
        rw [List.map_cons, List.sum_cons, lostAlong]
        omega
      rw [hworth]
      exact hboth

/-- The payments that a total is split into. -/
def payments (totalWl : Int) : List (Int × Int) :=
  [(8470, totalWl / 100 / 100 / 100 / 100), (7188, totalWl / 100 / 100 % 100),
    (1796, totalWl / 100 % 100), (242, totalWl % 100)]

/-- What is paid for a total, in world locks. -/
def payment (totalWl : Int) : Int :=
  totalWl % 10 ^ 6 + 10 ^ 6 * (totalWl / 10 ^ 8)

/-- What is not paid of a total. -/
def unpaid (totalWl : Int) : Int := totalWl - payment totalWl

theorem payForFish_paid (hlocks : env.items.LocksListed) (hs : Live s) {totalWl : Int}
    (hnonneg : 0 ≤ totalWl) (hcap : totalWl ≤ 2000000000) :
    Live (payForFish (modify env) env totalWl s) ∧
      Paid (3000 * payment totalWl - lostAlong env (payments totalWl) s) s
        (payForFish (modify env) env totalWl s) := by
  have hpays : ∀ pay ∈ payments totalWl, pay.1 ∈ lockIds ∧ 0 ≤ pay.2 ∧ pay.2 ≤ 200 := by
    intro pay hpay
    simp only [payments, List.mem_cons, List.not_mem_nil, or_false] at hpay
    rcases hpay with rfl | rfl | rfl | rfl <;>
      exact ⟨by simp [lockIds], by dsimp only; omega, by dsimp only; omega⟩
  have hworth : 3000 * payment totalWl =
      ((payments totalWl).map fun pay => pay.2 * lockGems pay.1).sum := by
    have hgems : lockGems 8470 = 3000000000 ∧ lockGems 7188 = 30000000 ∧
        lockGems 1796 = 300000 ∧ lockGems 242 = 3000 := by decide
    obtain ⟨h₁, h₂, h₃, h₄⟩ := hgems
    simp only [payments, List.map_cons, List.map_nil, List.sum_cons, List.sum_nil, h₁, h₂, h₃, h₄,
      payment]
    omega
  rw [hworth]
  exact payments_paid hlocks hpays hs

end Payment

section Selling

variable {env : Env} {s t : Session} {price : Int × Int}
  {amount amount' : Int → Int}

/-- The fish of some kinds is gone; no other item but the locks changes, and
the wealth does not. -/
structure SoldOut (sold : List (Int × Int)) (s t : Session) : Prop where
  settings : settings t.pl = settings s.pl
  wealth : wealth t = wealth s
  others : ∀ id, id ∉ lockIds → total id t.pl.inv =
    if id ∈ sold.map Prod.fst then 0 else total id s.pl.inv

theorem SoldOut.none (s : Session) : SoldOut [] s s :=
  ⟨rfl, rfl, fun _ _ => rfl⟩

theorem SoldOut.cons {sold : List (Int × Int)} {u : Session}
    (hfirst : SoldOut [price] s t) (hrest : SoldOut sold t u) :
    SoldOut (price :: sold) s u where
  settings := hrest.settings.trans hfirst.settings
  wealth := hrest.wealth.trans hfirst.wealth
  others id hid := by
    rw [hrest.others id hid, hfirst.others id hid]
    simp only [List.map_cons, List.map_nil, List.mem_cons, List.not_mem_nil,
      or_false]
    by_cases hlater : id ∈ sold.map Prod.fst
    · simp [hlater]
    · simp [hlater]

theorem sellable_iff : sellable env amount price = true ↔
    0 < price.2 ∧ 0 < price.1 ∧ price.1 < env.items.size ∧
      env.items.isFish price.1 = true ∧ price.1 ≠ 112 ∧ 0 < amount price.1 := by
  simp [sellable, and_assoc]

theorem fish_not_lock (hlocks : env.items.LocksListed) {id : Int}
    (hfish : env.items.isFish id = true) : id ∉ lockIds := by
  intro hid
  rw [hlocks.notFish id hid] at hfish
  cases hfish

theorem lockGems_eq_zero {id : Int} (hid : id ∉ lockIds) : lockGems id = 0 := by
  simp only [lockIds, List.mem_cons, List.not_mem_nil, or_false, not_or] at hid
  simp [lockGems, packValue, hid]

/-- One price of the sale adds to the total of it, up to two thousand
millions. -/
def addPrice (totalWl : Int) (price : Int × Int) : Int :=
  min (totalWl + price.2) 2000000000

/-- A kind of fish that can be sold is sold whole. -/
theorem sellFishKind_of_sellable (hlocks : env.items.LocksListed)
    (hs : Live s) (soldAny : Bool) (totalWl : Int)
    (hsell : sellable env (fun id => total id s.pl.inv) price = true) :
    ∃ t, sellFishKind (modify env) env (s, soldAny, totalWl) price =
        (t, true, addPrice totalWl price) ∧
      Live t ∧ SoldOut [price] s t := by
  obtain ⟨hprice, hpos, hsize, hfish, hgem, hcount⟩ := sellable_iff.mp hsell
  have hid := fish_not_lock hlocks hfish
  have hcontains := contains_eq_total hs.slots price.1
  have hbounds := hs.slots.wellFormed.total_bounds (by decide)
    (Int.ne_of_gt hpos)
  have hno : ¬ Sells env s.pl price.1 (-contains s.pl.inv price.1) := by
    rintro ⟨hgift, -⟩
    omega
  obtain ⟨taken, htaken⟩ : ∃ taken, (view 0 s.pl.inv).change 200 price.1
      (-contains s.pl.inv price.1) = some taken := by
    apply Pack.change_take
    · omega
    · simp only [view_amount]
      omega
    · exact hbounds.2
  obtain ⟨hret, houtcome⟩ := modify_changed true hlocks hs
    ⟨hpos, le_of_lt hsize, hgem⟩ hno htaken
  refine ⟨_, ?_, houtcome.live hs, houtcome.settings, ?_, ?_⟩
  · unfold sellFishKind
    dsimp only
    rw [if_neg (by omega), if_neg (by omega), if_neg (by simp [hfish]),
      if_neg (by omega), if_neg (by simp [hret])]
    rfl
  · rw [houtcome.wealth htaken, lockGems_eq_zero hid, mul_zero, add_zero]
  · intro other hother
    rw [houtcome.others htaken hother]
    by_cases heq : other = price.1
    · subst heq
      simp [hcontains]
    · simp [heq, Ne.symm heq]

theorem sellFishKind_of_not_sellable (hs : SlotInv s.pl.inv) (soldAny : Bool)
    (totalWl : Int)
    (hkeep : sellable env (fun id => total id s.pl.inv) price ≠ true) :
    sellFishKind (modify env) env (s, soldAny, totalWl) price =
      (s, soldAny, totalWl) := by
  rw [ne_eq, sellable_iff] at hkeep
  unfold sellFishKind
  dsimp only
  rw [contains_eq_total hs]
  by_cases hprice : price.2 ≤ 0
  · rw [if_pos hprice]
  by_cases hid : price.1 ≤ 0 ∨ (env.items.size : Int) ≤ price.1
  · rw [if_neg hprice, if_pos hid]
  by_cases hfish : env.items.isFish price.1 = false
  · rw [if_neg hprice, if_neg hid, if_pos hfish]
  by_cases hcount : total price.1 s.pl.inv ≤ 0
  · rw [if_neg hprice, if_neg hid, if_neg hfish, if_pos hcount]
  have hgem : price.1 = 112 := by
    by_contra hgem
    exact hkeep ⟨by omega, by omega, by omega, by simpa using hfish, hgem,
      by omega⟩
  have hrefused : ¬ Accepts env price.1 := fun haccepts => haccepts.2.2 hgem
  rw [if_neg hprice, if_neg hid, if_neg hfish, if_neg hcount,
    modify_not_accepted hrefused]
  rfl

/-- Selling one kind leaves what is sold of the others alone. -/
theorem kindsSold_congr (hlocks : env.items.LocksListed)
    (prices : List (Int × Int))
    (hsame : ∀ other ∈ prices, other.1 ∉ lockIds →
      amount' other.1 = amount other.1) :
    kindsSold env amount' prices = kindsSold env amount prices := by
  apply List.filter_congr
  intro other hother
  rw [Bool.eq_iff_iff, sellable_iff, sellable_iff]
  by_cases hfish : env.items.isFish other.1 = true
  · rw [hsame other hother (fish_not_lock hlocks hfish)]
  · simp [hfish]

/-- The sale of all kinds, by induction over the table of prices. -/
theorem sellFishKinds_sold (hlocks : env.items.LocksListed)
    (prices : List (Int × Int)) (hnodup : (prices.map Prod.fst).Nodup)
    (hs : Live s) (soldAny : Bool) (totalWl : Int) :
    ∃ t, prices.foldl (sellFishKind (modify env) env) (s, soldAny, totalWl) =
        (t, soldAny || kindsSold env (fun id => total id s.pl.inv) prices ≠ [],
          (kindsSold env (fun id => total id s.pl.inv) prices).foldl addPrice
            totalWl) ∧
      Live t ∧
      SoldOut (kindsSold env (fun id => total id s.pl.inv) prices) s t := by
  induction prices generalizing s soldAny totalWl with
  | nil => exact ⟨s, by simp [kindsSold], hs, SoldOut.none s⟩
  | cons price prices ih =>
      rw [List.map_cons, List.nodup_cons] at hnodup
      rw [List.foldl_cons]
      by_cases hsell : sellable env (fun id => total id s.pl.inv) price = true
      · obtain ⟨t, hfirst, ht, hout⟩ :=
          sellFishKind_of_sellable hlocks hs soldAny totalWl hsell
        have hlater : kindsSold env (fun id => total id t.pl.inv) prices =
            kindsSold env (fun id => total id s.pl.inv) prices := by
          apply kindsSold_congr hlocks
          intro other hother hlock
          have hne : other.1 ≠ price.1 := fun heq =>
            hnodup.1 (heq ▸ List.mem_map_of_mem hother)
          simpa [hne] using hout.others other.1 hlock
        have hcons : kindsSold env (fun id => total id s.pl.inv)
            (price :: prices) =
              price :: kindsSold env (fun id => total id s.pl.inv) prices := by
          unfold kindsSold
          rw [List.filter_cons_of_pos hsell]
        obtain ⟨u, hrest, hu, houtRest⟩ :=
          ih hnodup.2 ht true (addPrice totalWl price)
        rw [hlater] at hrest houtRest
        rw [hfirst, hrest, hcons]
        exact ⟨u, by simp, hu, hout.cons houtRest⟩
      · have hcons : kindsSold env (fun id => total id s.pl.inv)
            (price :: prices) =
              kindsSold env (fun id => total id s.pl.inv) prices := by
          unfold kindsSold
          rw [List.filter_cons_of_neg hsell]
        rw [sellFishKind_of_not_sellable hs.slots soldAny totalWl hsell,
          hcons]
        exact ih hnodup.2 hs soldAny totalWl

/-- Capping after every price is capping the sum. -/
theorem foldl_addPrice (sold : List (Int × Int))
    (hpos : ∀ price ∈ sold, 0 < price.2) {totalWl : Int}
    (hcap : totalWl ≤ 2000000000) :
    sold.foldl addPrice totalWl =
      min (totalWl + (sold.map Prod.snd).sum) 2000000000 := by
  induction sold generalizing totalWl with
  | nil =>
      simp only [List.foldl_nil, List.map_nil, List.sum_nil]
      omega
  | cons price sold ih =>
      have hprice := hpos price List.mem_cons_self
      have hrest : 0 ≤ (sold.map Prod.snd).sum := by
        apply List.sum_nonneg
        intro n hn
        obtain ⟨other, hother, rfl⟩ := List.mem_map.mp hn
        exact le_of_lt (hpos other (List.mem_cons_of_mem _ hother))
      rw [List.foldl_cons, ih (fun other hother =>
        hpos other (List.mem_cons_of_mem _ hother)) (by
          unfold addPrice
          omega)]
      simp only [List.map_cons, List.sum_cons, addPrice]
      omega

end Selling

section Whole

variable {env : Env} {s : Session}

/-- The fish of the kinds on sale is gone, every other item but the locks is as
before, and the wealth has grown by what the kinds are worth. -/
structure FishSold (env : Env) (s t : Session) : Prop where
  others : ∀ id, id ∉ lockIds → contains t.pl.inv id =
    if id ∈ (sale env s.pl).map Prod.fst then 0 else contains s.pl.inv id
  paid : wealth t = wealth s + 3000 * takings (sale env s.pl)

theorem takings_bounds {sold : List (Int × Int)}
    (hpos : ∀ price ∈ sold, 0 < price.2) :
    0 ≤ takings sold ∧ takings sold ≤ 2000000000 ∧
      (sold ≠ [] → 0 < takings sold) := by
  have hsum : 0 ≤ (sold.map Prod.snd).sum := by
    apply List.sum_nonneg
    intro n hn
    obtain ⟨price, hprice, rfl⟩ := List.mem_map.mp hn
    exact le_of_lt (hpos price hprice)
  unfold takings
  refine ⟨by omega, by omega, ?_⟩
  intro hne
  cases sold with
  | nil => exact absurd rfl hne
  | cons price sold =>
      have hprice := hpos price List.mem_cons_self
      have hrest : 0 ≤ (sold.map Prod.snd).sum := by
        apply List.sum_nonneg
        intro n hn
        obtain ⟨other, hother, rfl⟩ := List.mem_map.mp hn
        exact le_of_lt (hpos other (List.mem_cons_of_mem _ hother))
      simp only [List.map_cons, List.sum_cons]
      omega

theorem kindsSold_pos {amount : Int → Int} {prices : List (Int × Int)} :
    ∀ price ∈ kindsSold env amount prices, 0 < price.2 := by
  intro price hprice
  exact (sellable_iff.mp (List.mem_filter.mp hprice).2).1

theorem sellFishKinds_of_nothing {prices : List (Int × Int)}
    (hs : SlotInv s.pl.inv)
    (hnone : kindsSold env (fun id => total id s.pl.inv) prices = []) :
    prices.foldl (sellFishKind (modify env) env) (s, false, 0) =
      (s, false, 0) := by
  induction prices with
  | nil => rfl
  | cons price prices ih =>
      have hkeep := List.filter_eq_nil_iff.mp hnone
      rw [List.foldl_cons, sellFishKind_of_not_sellable hs false 0
        (hkeep price List.mem_cons_self)]
      exact ih (List.filter_eq_nil_iff.mpr fun other hother =>
        hkeep other (List.mem_cons_of_mem _ hother))

/-- A sale in which nothing can be sold changes nothing. -/
theorem sellFish_of_nothing (hs : SlotInv s.pl.inv)
    (hnothing : sale env s.pl = []) :
    processAutoSellFishInventory env s = s := by
  unfold processAutoSellFishInventory sellFishWith
  by_cases hoff : s.pl.autosellfish = false
  · rw [if_pos hoff]
  by_cases hbusy : s.pl.autosellfishProcessing = true
  · rw [if_neg hoff, if_pos hbusy]
  have hidle : s.pl.autosellfishProcessing = false := by simpa using hbusy
  have hnone : kindsSold env (contains s.pl.inv) env.exchangeSetPrice = [] := by
    unfold sale at hnothing
    rwa [if_pos ⟨by simpa using hoff, hidle⟩] at hnothing
  have hamount : (fun id => total id (setSelling true s).pl.inv) =
      contains s.pl.inv := funext fun id => (contains_eq_total hs id).symm
  have hfold := @sellFishKinds_of_nothing env (setSelling true s)
    env.exchangeSetPrice hs (hamount.symm ▸ hnone)
  have hback : setSelling false (setSelling true s) = s := by
    obtain ⟨pl, worlds, now, rands⟩ := s
    dsimp only at hidle
    simp only [setSelling, ← hidle]
  rw [if_neg hoff, if_neg hbusy, hfold]
  simpa using hback

/-- The sale after a call keeps what there is nothing to sell of. -/
theorem sellAfter_of_nothing {seller : Player} {i c gems : Int}
    {pack : Pack Int} (hs : SlotInv s.pl.inv)
    (hpurse : purse s.pl = ⟨gems, pack⟩)
    (hnothing : Sells env seller i c →
      kindsSold env pack.amount env.exchangeSetPrice = []) :
    sellAfter env seller i c s = s := by
  unfold sellAfter
  by_cases hsells : Sells env seller i c
  · rw [if_pos hsells]
    apply sellFish_of_nothing hs
    unfold sale
    split_ifs
    · rw [← hnothing hsells]
      exact congrFun (congrArg (kindsSold env)
        (funext (contains_of_purse hs hpurse))) _
    · rfl
  · rw [if_neg hsells]

/-- A gift that leaves nothing to convert and nothing to sell stays as it is
put. -/
theorem gift_stays (hlocks : env.items.LocksListed) (hs : Live s) {i c : Int}
    (haccepts : Accepts env i) (hc : 0 < c) (forceReturn : Bool)
    (hfits : (view 0 s.pl.inv).Fits 200 i c)
    (hsettled : Settled s.pl ⟨s.pl.gems, (view 0 s.pl.inv).plus i c⟩)
    (hunsold : Sells env s.pl i c → kindsSold env
      ((view 0 s.pl.inv).plus i c).amount env.exchangeSetPrice = []) :
    let given := modify env s i c forceReturn
    given.ret = 0 ∧ Live given.session ∧ Confined s given.session ∧
      settings given.session.pl = settings s.pl ∧
      purse given.session.pl = ⟨s.pl.gems, (view 0 s.pl.inv).plus i c⟩ := by
  dsimp only
  have hnonneg := (hs.slots.wellFormed.total_bounds (by decide)
    (Int.ne_of_gt haccepts.1)).1
  rcases modify_called forceReturn hs.slots haccepts (by simp [hs.finite]) with
    ⟨next, left, hchanged, heq⟩ | ⟨left, -, hnone⟩
  · have hplus := Pack.eq_plus_of_change hc hnonneg hchanged.view
    have houtcome := outcome_autoConvert hlocks hs hchanged
    rw [hplus] at houtcome
    have hpurse := houtcome.still hsettled
    rw [heq, sellAfter_of_nothing houtcome.slots hpurse hunsold]
    exact ⟨rfl, houtcome.live hs, houtcome.confined, houtcome.settings, hpurse⟩
  · exact absurd hnone ((Pack.fits_iff hc hnonneg).mp hfits)

theorem sale_pos : ∀ price ∈ sale env s.pl, 0 < price.2 := by
  intro price hprice
  unfold sale at hprice
  split_ifs at hprice
  · exact kindsSold_pos price hprice
  · cases hprice

/-- The session once a sale has taken its fish. -/
def soldOut (env : Env) (s : Session) : Session :=
  (env.exchangeSetPrice.foldl (sellFishKind (modify env) env) (setSelling true s, false, 0)).1

/-- The kinds that a sale takes, and what it hands to the payment. -/
theorem sale_taken (hlocks : env.items.LocksListed) (hs : Live s)
    (hnodup : (env.exchangeSetPrice.map Prod.fst).Nodup)
    (hon : s.pl.autosellfish = true)
    (hidle : s.pl.autosellfishProcessing = false) :
    ∃ t, t = soldOut env s ∧ processAutoSellFishInventory env s = setSelling false
        (if sale env s.pl ≠ [] then
          payForFish (modify env) env (takings (sale env s.pl)) t else t) ∧
      Live t ∧ SoldOut (sale env s.pl) (setSelling true s) t := by
  have hstart : Live (setSelling true s) := ⟨hs.slots, hs.finite, hs.gems⟩
  have hamount : (fun id => total id (setSelling true s).pl.inv) =
      contains s.pl.inv :=
    funext fun id => (contains_eq_total hs.slots id).symm
  have hsale : sale env s.pl = kindsSold env
      (fun id => total id (setSelling true s).pl.inv) env.exchangeSetPrice := by
    unfold sale
    rw [if_pos ⟨hon, hidle⟩, hamount]
  obtain ⟨t, hfold, ht, hout⟩ := sellFishKinds_sold hlocks
    env.exchangeSetPrice hnodup hstart false 0
  obtain ⟨-, -, hnone⟩ := takings_bounds (@sale_pos env s)
  rw [← hsale, foldl_addPrice _ sale_pos (by decide), zero_add, min_comm,
    ← takings] at hfold
  rw [← hsale] at hout
  refine ⟨t, by rw [soldOut, hfold], ?_, ht, hout⟩
  unfold processAutoSellFishInventory sellFishWith
  rw [if_neg (by simp [hon]), if_neg (by simp [hidle]), hfold]
  by_cases hempty : sale env s.pl = []
  · simp [hempty]
  · simp [hempty, hnone hempty]

/-- A sale as it is: the right fish goes, and the two upper digits of what it
is worth are not paid as they should be. -/
theorem sellFish_effect (hlocks : env.items.LocksListed) (hs : Live s)
    (hnodup : (env.exchangeSetPrice.map Prod.fst).Nodup) (hsome : sale env s.pl ≠ []) :
    (∀ id, id ∉ lockIds →
      contains (processAutoSellFishInventory env s).pl.inv id =
        if id ∈ (sale env s.pl).map Prod.fst then 0
        else contains s.pl.inv id) ∧
    wealth (processAutoSellFishInventory env s) =
      wealth s + 3000 * payment (takings (sale env s.pl)) -
        lostAlong env (payments (takings (sale env s.pl))) (soldOut env s) := by
  have hactive : s.pl.autosellfish = true ∧ s.pl.autosellfishProcessing = false := by
    by_contra hnot
    exact hsome (if_neg hnot)
  obtain ⟨t, htaken, hresult, ht, hout⟩ := sale_taken hlocks hs hnodup hactive.1 hactive.2
  obtain ⟨hnonneg, hcap, -⟩ := takings_bounds (@sale_pos env s)
  obtain ⟨hu, hpaid⟩ := payForFish_paid hlocks ht hnonneg hcap
  rw [hresult, if_pos hsome, ← htaken]
  generalize payForFish (modify env) env (takings (sale env s.pl)) t = u at hu hpaid ⊢
  constructor
  · intro id hid
    have hafter : contains (setSelling false u).pl.inv id = total id u.pl.inv :=
      contains_eq_total hu.slots id
    rw [hafter, hpaid.others id hid, hout.others id hid, contains_eq_total hs.slots]
    rfl
  · have hafter : wealth (setSelling false u) = wealth u := rfl
    have hbefore : wealth (setSelling true s) = wealth s := rfl
    rw [hafter, hpaid.wealth, hout.wealth, hbefore]
    omega

/-- The sale pays what the kinds sold are worth exactly when nothing is sold, or what
the upper digits leave unpaid, nothing below a million, and the locks that are lost
with the payments come to nothing. -/
theorem autoSellFish_pays_iff (hlocks : env.items.LocksListed) (hs : Live s)
    (hnodup : (env.exchangeSetPrice.map Prod.fst).Nodup) :
    FishSold env s (processAutoSellFishInventory env s) ↔
      sale env s.pl = [] ∨
        3000 * unpaid (takings (sale env s.pl)) +
          lostAlong env (payments (takings (sale env s.pl))) (soldOut env s) = 0 := by
  by_cases hnothing : sale env s.pl = []
  · refine iff_of_true ?_ (Or.inl hnothing)
    rw [sellFish_of_nothing hs.slots hnothing]
    constructor
    · simp [hnothing]
    · simp [hnothing, takings]
  · obtain ⟨hothers, hwealth⟩ := sellFish_effect hlocks hs hnodup hnothing
    rw [or_iff_right hnothing]
    unfold unpaid
    constructor
    · intro hsold
      have hpaid := hsold.paid
      omega
    · intro hzero
      exact ⟨hothers, by omega⟩

end Whole

section Kind

variable {env : Env} {s : Session} {i n c : Int} {mode : Bool}
  {tiles : List (List WorldBlock)}

/-- A player whose conversions are off, with so many of one item, among worlds
of certain blocks. -/
structure Seller (i n : Int) (mode : Bool) (tiles : List (List WorldBlock))
    (s : Session) : Prop where
  slots : SlotInv s.pl.inv
  convert : s.pl.autoConvert = false ∨ s.pl.autoConvertProcessing = true
  mode : s.pl.infiniteMode = mode
  count : total i s.pl.inv = n
  tiles : s.worlds.map World.blocks = tiles

theorem Seller.changed {id : Int} {next : Player} (hs : Seller i n mode tiles s)
    (hchanged : Changed s.pl id c next) :
    Seller i (if id = i then n + c else n) mode tiles { s with pl := next } where
  slots := hchanged.slots
  convert := by
    have hconvert : next.autoConvert = s.pl.autoConvert :=
      Player.core_congr hchanged.core Player.autoConvert fun _ => rfl
    have hprocessing : next.autoConvertProcessing = s.pl.autoConvertProcessing :=
      Player.core_congr hchanged.core Player.autoConvertProcessing fun _ => rfl
    dsimp only
    rw [hconvert, hprocessing]
    exact hs.convert
  mode := (Player.core_congr hchanged.core Player.infiniteMode
    fun _ => rfl).trans hs.mode
  count := by
    split_ifs with hid
    · subst hid
      exact (Pack.change_amount_self hchanged.view).trans (by rw [← hs.count]; rfl)
    · exact (Pack.change_amount_of_ne hchanged.view (Ne.symm hid)).trans hs.count
  tiles := hs.tiles

/-- A call for another item, which is neither converted nor sold. -/
theorem Seller.other {id : Int} (hs : Seller i n mode tiles s) (forceReturn : Bool)
    (hid : id ≠ i) (hplain : c ≤ 0 ∨ env.items.isFish id = false) :
    Seller i n mode tiles (modify env s id c forceReturn).session := by
  by_cases haccepts : Accepts env id
  · by_cases hstop : s.pl.infiniteMode = true ∧ c < 0
    · rw [modify_infinite forceReturn hstop.1 hstop.2]
      exact hs
    · rcases modify_plain forceReturn hs.slots haccepts hs.convert
        (hplain.imp_right fun hfish => Or.inr (Or.inr hfish)) hstop with
        ⟨next, left, hcall, hchanged⟩ | ⟨left, hcall, -⟩
      · have hnext := hs.changed hchanged
        rw [if_neg hid] at hnext
        rw [hcall]
        exact hnext
      · rw [hcall]
        exact hs
  · rw [modify_not_accepted haccepts]
    exact hs

theorem dropInWorld_tiles (items : Items) (now : Int) (name : String)
    (drop : WorldDrop) (worlds : List World) :
    (dropInWorld items now name drop worlds).map World.blocks =
      worlds.map World.blocks := by
  induction worlds with
  | nil => rfl
  | cons world rest ih =>
      unfold dropInWorld
      split
      · rfl
      · rw [List.map_cons, List.map_cons, ih]

/-- No call changes a block. -/
theorem carried_tiles (env : Env) (tiles : List (List WorldBlock)) (depth : Nat) :
    Carried (modifyN env depth) fun s => s.worlds.map World.blocks = tiles := by
  have hdropped : ∀ (s : Session) items now name drop (rands : Nat → Nat),
      s.worlds.map World.blocks = tiles →
        (dropInWorld items now name drop s.worlds).map World.blocks = tiles := by
    intro s items now name drop rands hs
    rw [dropInWorld_tiles]
    exact hs
  have hcall : ∀ {convert sell : Session → Session},
      (∀ s : Session, s.worlds.map World.blocks = tiles →
        (convert s).worlds.map World.blocks = tiles) →
      (∀ s : Session, s.worlds.map World.blocks = tiles →
        (sell s).worlds.map World.blocks = tiles) →
      ∀ (s : Session) i c forceReturn, s.worlds.map World.blocks = tiles →
        (modifyWith env convert sell s i c forceReturn).session.worlds.map World.blocks =
          tiles := by
    intro convert sell hconvert hsell s i c forceReturn hs
    unfold modifyWith
    split_ifs
    · exact hs
    · exact hs
    · split
      · exact hs
      · dsimp only
        split
        · exact hsell _ (hconvert _ hs)
        · exact hconvert _ hs
  induction depth with
  | zero =>
      have hmodify : ∀ (s : Session) i c forceReturn, s.worlds.map World.blocks = tiles →
          (modifyN env 0 s i c forceReturn).session.worlds.map World.blocks = tiles :=
        hcall (fun _ hs => hs) fun _ hs => hs
      refine ⟨fun s hs _ => ?_, hmodify, hdropped⟩
      have hgiven := hmodify s 1796 1 true hs
      dsimp only at hgiven ⊢
      exact hgiven
  | succ depth ih =>
      have hmodify : ∀ (s : Session) i c forceReturn, s.worlds.map World.blocks = tiles →
          (modifyN env (depth + 1) s i c forceReturn).session.worlds.map World.blocks =
            tiles :=
        hcall (fun s hs => ih.autoConvertWith (fun _ _ h => h) hs)
          fun s hs => ih.sellFishWith env (fun _ _ h => h) hs
      refine ⟨fun s hs _ => ?_, hmodify, hdropped⟩
      have hgiven := hmodify s 1796 1 true hs
      dsimp only at hgiven ⊢
      exact hgiven

theorem modify_tiles (env : Env) (s : Session) (i c : Int) (forceReturn : Bool) :
    (modify env s i c forceReturn).session.worlds.map World.blocks =
      s.worlds.map World.blocks :=
  (carried_tiles env _ 2).modify s i c forceReturn rfl

theorem Seller.giveLockOrDrop {id amount : Int} (hs : Seller i n mode tiles s)
    (hid : id ≠ i) (hplain : env.items.isFish id = false) :
    Seller i n mode tiles (giveLockOrDrop (modify env) env id amount s) := by
  refine run_invariant (fun state : Session × Int => Seller i n mode tiles state.1)
    (fun state hstate => ?_) _ hs
  unfold giveLockBody
  by_cases hpos : 0 < state.2
  · simp only [hpos, ↓reduceIte, Next.state_again]
    generalize (if 200 < state.2 then 200 else state.2) = give
    have hgiven := hstate.other (c := give) true hid (Or.inr hplain)
    split
    · refine ⟨hgiven.slots, hgiven.convert, hgiven.mode, hgiven.count, ?_⟩
      exact (dropInWorld_tiles _ _ _ _ _).trans hgiven.tiles
    · exact hgiven
  · simp only [hpos, ↓reduceIte, Next.state_stop]
    exact hstate

theorem Seller.payForFish (hlocks : env.items.LocksListed) (hid : i ∉ lockIds)
    (hs : Seller i n mode tiles s) (totalWl : Int) :
    Seller i n mode tiles (payForFish (modify env) env totalWl s) := by
  have hgive : ∀ {t : Session} {id : Int} (amount : Int), id ∈ lockIds →
      Seller i n mode tiles t →
      Seller i n mode tiles (Inventory.giveLockOrDrop (modify env) env id amount t) := by
    intro t id amount hlock ht
    exact ht.giveLockOrDrop (fun heq => hid (heq ▸ hlock)) (hlocks.notFish id hlock)
  exact hgive _ (by decide) (hgive _ (by decide) (hgive _ (by decide)
    (hgive _ (by decide) hs)))

/-- A price at which the item is sold, for so many of it. -/
def SoldAt (env : Env) (mode : Bool) (i n : Int) (prices : List (Int × Int)) :
    Prop :=
  mode = false ∧ ∃ price ∈ prices, price.1 = i ∧
    sellable env (fun _ => n) price = true

instance (env : Env) (mode : Bool) (i n : Int) (prices : List (Int × Int)) :
    Decidable (SoldAt env mode i n prices) :=
  inferInstanceAs (Decidable (_ ∧ _))

theorem soldAt_cons {price : Int × Int} {prices : List (Int × Int)} :
    SoldAt env mode i n (price :: prices) ↔
      SoldAt env mode i n [price] ∨ SoldAt env mode i n prices := by
  simp only [SoldAt, List.mem_cons, List.not_mem_nil, or_false, exists_eq_or_imp,
    exists_eq_left, and_or_left]

/-- Nothing is sold of what there is none of. -/
theorem not_soldAt_zero (prices : List (Int × Int)) :
    ¬ SoldAt env mode i 0 prices := by
  rintro ⟨-, price, -, -, hsell⟩
  exact lt_irrefl _ (sellable_iff.mp hsell).2.2.2.2.2

theorem Seller.sellFishKind (hs : Seller i n mode tiles s) (price : Int × Int)
    (soldAny : Bool) (totalWl : Int) :
    Seller i (if SoldAt env mode i n [price] then 0 else n) mode tiles
      (sellFishKind (modify env) env (s, soldAny, totalWl) price).1 := by
  have hsame : price.1 = i → sellable env (fun _ => n) price =
      sellable env (fun id => total id s.pl.inv) price := by
    intro hid
    unfold sellable
    simp only [hid, hs.count]
  by_cases hsell : sellable env (fun id => total id s.pl.inv) price = true
  · obtain ⟨hprice, hpos, hsize, hfish, hgem, hcount⟩ := sellable_iff.mp hsell
    have hcontains := contains_eq_total hs.slots price.1
    have hcall : (Inventory.sellFishKind (modify env) env (s, soldAny, totalWl)
        price).1 =
        (modify env s price.1 (-contains s.pl.inv price.1) true).session := by
      unfold Inventory.sellFishKind
      dsimp only
      rw [if_neg (by omega), if_neg (by omega), if_neg (by simp [hfish]),
        if_neg (by omega)]
      split <;> rfl
    rw [hcall]
    by_cases hid : price.1 = i
    · subst hid
      cases mode with
      | true =>
          rw [modify_infinite true hs.mode (by omega), if_neg (fun hsold => by
            cases hsold.1)]
          exact hs
      | false =>
          rw [if_pos ⟨rfl, price, List.mem_singleton_self _, rfl,
            (hsame rfl).trans hsell⟩]
          have hbounds := hs.slots.wellFormed.total_bounds (by decide)
            (Int.ne_of_gt hpos)
          rcases modify_plain true hs.slots ⟨hpos, le_of_lt hsize, hgem⟩ hs.convert
            (Or.inl (by omega : -contains s.pl.inv price.1 ≤ 0))
            (by simp [hs.mode]) with
            ⟨next, left, hsold, hchanged⟩ | ⟨left, -, hnone⟩
          · have hnext := hs.changed hchanged
            have hall : n + -contains s.pl.inv price.1 = 0 := by
              rw [hcontains, hs.count, add_neg_cancel]
            rw [if_pos rfl, hall] at hnext
            rw [hsold]
            exact hnext
          · obtain ⟨taken, htaken⟩ := @Pack.change_take _ _ 200
              (-contains s.pl.inv price.1) (view 0 s.pl.inv) price.1 (by omega)
              (by simp only [view_amount]; omega) hbounds.2
            rw [hnone] at htaken
            cases htaken
    · rw [if_neg (by
        rintro ⟨-, other, hother, heq, -⟩
        rw [List.mem_singleton.mp hother] at heq
        exact hid heq)]
      exact hs.other true hid (Or.inl (by omega))
  · rw [sellFishKind_of_not_sellable hs.slots soldAny totalWl hsell, if_neg]
    · exact hs
    · rintro ⟨-, other, hother, heq, hsold⟩
      rw [List.mem_singleton.mp hother] at heq hsold
      exact hsell ((hsame heq).symm.trans hsold)

theorem Seller.sellFishKinds (hs : Seller i n mode tiles s) (prices : List (Int × Int))
    (soldAny : Bool) (totalWl : Int) :
    Seller i (if SoldAt env mode i n prices then 0 else n) mode tiles
      (prices.foldl (Inventory.sellFishKind (modify env) env)
        (s, soldAny, totalWl)).1 := by
  induction prices generalizing s n soldAny totalWl with
  | nil =>
      rw [if_neg (by rintro ⟨-, price, hprice, -⟩; exact List.not_mem_nil hprice)]
      exact hs
  | cons price prices ih =>
      have hfirst := @Seller.sellFishKind env _ _ _ _ _ hs price soldAny totalWl
      rw [List.foldl_cons]
      generalize Inventory.sellFishKind (modify env) env (s, soldAny, totalWl)
        price = state at hfirst ⊢
      obtain ⟨t, soldAny', totalWl'⟩ := state
      have hrest := ih hfirst soldAny' totalWl'
      by_cases hsold : SoldAt env mode i n [price]
      · rw [if_pos hsold, if_neg (not_soldAt_zero prices)] at hrest
        rw [if_pos (soldAt_cons.mpr (Or.inl hsold))]
        exact hrest
      · rw [if_neg hsold] at hrest
        have hiff : SoldAt env mode i n (price :: prices) ↔
            SoldAt env mode i n prices :=
          soldAt_cons.trans (or_iff_right hsold)
        simp only [hiff]
        exact hrest

/-- A sale takes all of an item that has a price, and nothing of another one
that is no lock. -/
theorem Seller.sale (hlocks : env.items.LocksListed) (hid : i ∉ lockIds)
    (hs : Seller i n mode tiles s) (hon : s.pl.autosellfish = true)
    (hidle : s.pl.autosellfishProcessing = false) :
    Seller i (if SoldAt env mode i n env.exchangeSetPrice then 0 else n) mode tiles
      (processAutoSellFishInventory env s) := by
  have hstart : Seller i n mode tiles (setSelling true s) :=
    ⟨hs.slots, hs.convert, hs.mode, hs.count, hs.tiles⟩
  have hsold := @Seller.sellFishKinds env _ _ _ _ _ hstart env.exchangeSetPrice false 0
  have hoff : ¬ s.pl.autosellfish = false := by simp [hon]
  have hbusy : ¬ s.pl.autosellfishProcessing = true := by simp [hidle]
  unfold processAutoSellFishInventory sellFishWith
  rw [if_neg hoff, if_neg hbusy]
  generalize env.exchangeSetPrice.foldl (Inventory.sellFishKind (modify env) env)
    (setSelling true s, false, 0) = state at hsold ⊢
  obtain ⟨t, soldAny, totalWl⟩ := state
  dsimp only at hsold ⊢
  generalize (if SoldAt env mode i n env.exchangeSetPrice then 0 else n) = m
    at hsold ⊢
  have hresult : Seller i m mode tiles (if soldAny = true ∧ 0 < totalWl then
      Inventory.payForFish (modify env) env totalWl t else t) := by
    split_ifs
    · exact hsold.payForFish hlocks hid totalWl
    · exact hsold
  exact ⟨hresult.slots, hresult.convert, hresult.mode, hresult.count, hresult.tiles⟩

end Kind

section Example

/-- A lake with one kind of fish, at a price. -/
def fishLake (price : Int) : Env where
  items := ⟨20298, fun id => if id = 3000 then { blockType := .fish } else {}⟩
  exchangeSetPrice := [(3000, price)]

/-- A fisher with one fish and room for a lock. -/
def fisher : Session where
  pl := { world := "LAKE", inv := [(3000, 1), (0, 0)], autosellfish := true }
  worlds := [{ name := "LAKE" }]

/-- A fish for a million world locks is taken for nothing. -/
theorem autoSellFish_million_unpaid :
    ¬ ∀ (env : Env) (s : Session), env.items.LocksListed → Live s → Stands s →
      (env.exchangeSetPrice.map Prod.fst).Nodup →
        FishSold env s (processAutoSellFishInventory env s) := by
  intro hall
  have hsold := hall (fishLake 1000000) fisher ⟨by decide, by decide⟩
    ⟨by decide, rfl, by decide⟩ ⟨_, List.mem_singleton_self _, rfl⟩
    (by decide)
  exact absurd hsold.paid (by decide)

/-- A fish for 123 world locks is paid in full. -/
theorem autoSellFish_pays_small :
    FishSold (fishLake 123) fisher
      (processAutoSellFishInventory (fishLake 123) fisher) :=
  (@autoSellFish_pays_iff (fishLake 123) fisher ⟨by decide, by decide⟩
    ⟨by decide, rfl, by decide⟩ (by decide)).mpr (Or.inr (by decide))

end Example

end Inventory

end NopyServer
