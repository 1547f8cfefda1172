/-
`TakeWL`: the four lower locks are taken out of the backpack as a whole, and
what they were worth beyond the amount is given back in the largest locks
possible.  Nothing looks at whether the change was accepted.

So exactly the amount is taken when the stacks found and the change refused are together
worth what was counted: the change is to fit as a whole, as long as `AutoConvert` has no
gems to buy locks for and no way to the fifth lock.
-/
import NopyServer.ItemMoves

namespace NopyServer

namespace Inventory

open SlotPack

section Definitions

variable (env : Env)

/-- `GetTotalWL`. -/
def getTotalWL (inv : List (Int × Int)) : Int :=
  contains inv 242 + contains inv 1796 * 100 + contains inv 7188 * 10000 +
    contains inv 8470 * 1000000

/-- The locks `TakeWL` takes, in its order. -/
def takenLocks : List Int := [242, 1796, 7188, 8470]

/-- The whole stack of a lock is taken. -/
def takeStack (s : Session) (id : Int) : Session :=
  let c := -contains s.pl.inv id
  if c ≠ 0 then (modify env s id c false).session else s

/-- `mgl`, `bgl`, `dl` and `wl`, each with its lock. -/
def changeOf (remain : Int) : List (Int × Int) :=
  let mgl := remain / 1000000
  let remain := remain % 1000000
  let bgl := remain / 10000
  let remain := remain % 10000
  let dl := remain / 100
  let wl := remain % 100
  [(8470, mgl), (7188, bgl), (1796, dl), (242, wl)]

/-- One lock of the change is given. -/
def giveChange (s : Session) (lock : Int × Int) : Session :=
  if 0 < lock.2 then (modify env s lock.1 lock.2 false).session else s

/-- `TakeWL`. -/
def takeWL (amount : Int) (s : Session) : Bool × Session :=
  let total := getTotalWL s.pl.inv
  if total < amount then (false, s)
  else
    let remain := total - amount
    let s := takenLocks.foldl (takeStack env) s
    if 0 < remain then (true, (changeOf remain).foldl (giveChange env) s)
    else (true, s)

end Definitions

section Conditions

/-- `AutoConvert` buys diamond locks for gems. -/
def BuysLocks (pl : Player) : Prop :=
  Converts pl ∧ pl.autoCvModeGemsToDl = true

/-- The payment as it should be: refused and without effect, or made exactly.
The fifth lock, into which `AutoConvert` may turn the fourth, is counted, and so are
the gems where it may turn them into locks. -/
def Paying (amount : Int) (s : Session) (result : Bool × Session) : Prop :=
  let worth (pl : Player) : Int :=
    getTotalWL pl.inv + 100000000 * contains pl.inv 20298
  (getTotalWL s.pl.inv < amount → result = (false, s)) ∧
  (amount ≤ getTotalWL s.pl.inv → result.1 = true ∧
    3000 * (worth result.2.pl + amount) + result.2.pl.gems =
      3000 * worth s.pl + s.pl.gems ∧
    (BuysLocks s.pl ∨ result.2.pl.gems = s.pl.gems) ∧
    ∀ id, id ∉ lockIds →
      contains result.2.pl.inv id = contains s.pl.inv id)

/-- The worth in gems of what is refused of some locks, each given to the backpack that
the ones before it leave. -/
def refused (env : Env) : List (Int × Int) → Session → Int
  | [], _ => 0
  | lock :: rest, s =>
      (if (view 0 s.pl.inv).Fits 200 lock.1 lock.2 then 0 else lock.2 * lockGems lock.1) +
        refused env rest (giveChange env s lock)

/-- The worth in gems of some stacks, each as it is found when its turn to be taken
comes. -/
def found (env : Env) : List Int → Session → Int
  | [], _ => 0
  | id :: rest, s =>
      contains s.pl.inv id * lockGems id + found env rest (takeStack env s id)

/-- The change can be given: no stack of it is larger than a slot holds, and
there are slots for all of its stacks once the locks are gone. -/
def Changeable (amount : Int) (inv : List (Int × Int)) : Prop :=
  let remain := getTotalWL inv - amount
  remain / 1000000 ≤ 200 ∧
    ((changeOf remain).countP fun lock => decide (lock.2 ≠ 0)) ≤
      getSlots inv + takenLocks.countP fun id => decide (contains inv id ≠ 0)

/-- `AutoConvert` is off, or has no gems to convert and no way to the fifth
lock. -/
def Steady (pl : Player) : Prop :=
  Converts pl → (pl.autoCvModeGemsToDl = false ∨ pl.gems < 300000) ∧
    (pl.autoCvModeGglTo20298 = false ∨ contains pl.inv 20298 = 200 ∨
      getTotalWL pl.inv < 100000000)

instance (amount : Int) (inv : List (Int × Int)) :
    Decidable (Changeable amount inv) :=
  inferInstanceAs (Decidable (_ ∧ _))

end Conditions

section Purses

theorem takenLocks_lock {id : Int} (hid : id ∈ takenLocks) : id ∈ lockIds := by
  simp only [takenLocks, lockIds, List.mem_cons, List.not_mem_nil,
    or_false] at hid ⊢
  omega

variable {pl : Player} {a b : Purse} {pack next : Pack Int}

/-- `getTotalWL` of amounts. -/
def worthOf (pack : Pack Int) : Int :=
  pack.amount 242 + pack.amount 1796 * 100 + pack.amount 7188 * 10000 +
    pack.amount 8470 * 1000000

theorem getTotalWL_eq {inv : List (Int × Int)} (hs : SlotInv inv) :
    getTotalWL inv = worthOf (view 0 inv) := by
  unfold getTotalWL worthOf
  simp only [contains_eq_total hs, view_amount]

theorem packValue_eq (gems : Int) (pack : Pack Int) : packValue gems pack =
    3000 * (worthOf pack + 100000000 * pack.amount 20298) + gems := by
  unfold packValue worthOf
  omega

theorem Shifted.worthOf (h : Shifted takenLocks a b) :
    worthOf b.pack = worthOf a.pack := by
  have hvalue := h.value
  unfold Purse.value at hvalue
  rw [packValue_eq, packValue_eq, h.gems, h.others 20298 (by decide)] at hvalue
  omega

/-- `Steady`, of a purse. -/
structure SteadyAt (pl : Player) (purse : Purse) : Prop where
  gems : pl.autoCvModeGemsToDl = false ∨ purse.gems < 300000
  top : pl.autoCvModeGglTo20298 = false ∨ purse.pack.amount 20298 = 200 ∨
    worthOf purse.pack < 100000000

theorem SteadyAt.shifted (h : SteadyAt pl a) (hab : Shifted takenLocks a b) :
    SteadyAt pl b := by
  constructor
  · rw [hab.gems]
    exact h.gems
  · rw [hab.others 20298 (by decide), hab.worthOf]
    exact h.top

/-- From a steady purse the four lower locks are only converted among
themselves. -/
theorem SteadyAt.within (h : SteadyAt pl a)
    (hnonneg : ∀ id, 0 ≤ a.pack.amount id) : Within pl takenLocks a := by
  intro next hnext
  cases hnext with
  | @item fromId toId gems pack next hstep hon hexchange =>
      obtain ⟨henough, hfull⟩ :=
        exchange_range (ladder_locks hstep).2.2 hexchange
      by_cases htop : fromId = 8470
      · exfalso
        subst htop
        have hto : toId = 20298 := by simpa [ladder] using hstep
        subst hto
        have hwl := hnonneg 242
        have hdl := hnonneg 1796
        have hbgl := hnonneg 7188
        rcases h.top with hoff | hlimit | hlow
        · exact absurd (hoff.symm.trans hon) (by decide)
        · dsimp only at hlimit
          omega
        · unfold Inventory.worthOf at hlow
          dsimp only at hlow hwl hdl hbgl
          omega
      · refine ⟨rfl, fromId, ?_, toId, ?_, hstep, hexchange⟩ <;>
          simp only [ladder, List.mem_cons, Prod.mk.injEq, List.not_mem_nil,
            or_false] at hstep <;>
          simp only [takenLocks, List.mem_cons, List.not_mem_nil, or_false] <;>
          omega
  | gems hon henough _ =>
      exfalso
      rcases h.gems with hoff | hfew
      · exact absurd (hoff.symm.trans hon) (by decide)
      · exact absurd hfew (not_lt.mpr henough)

/-- What a call leaves of steady amounts. -/
theorem Outcome.shifted {s t : Session} (h : Outcome s pack t)
    (hsteady : Converts s.pl → SteadyAt s.pl ⟨s.pl.gems, pack⟩)
    (hnonneg : ∀ id, 0 ≤ pack.amount id) :
    Shifted takenLocks ⟨s.pl.gems, pack⟩ (purse t.pl) := by
  by_cases hconverts : Converts s.pl
  · apply conversions_shifted (by decide) _ h.steps
    intro b hb
    exact ((hsteady hconverts).shifted hb).within (hb.nonneg hnonneg)
  · rw [h.quiet hconverts]
    exact Shifted.refl _ _

end Purses

section Moves

variable {env : Env} {s t u : Session} {id c worth more : Int}

/-- Some locks are moved: everything else is as before, and gems are only moved where they
may buy locks. -/
structure LocksMoved (worth : Int) (s t : Session) : Prop where
  live : Live t
  settings : settings t.pl = settings s.pl
  worth : (purse t.pl).value = (purse s.pl).value + worth
  others : ∀ id, id ∉ lockIds → contains t.pl.inv id = contains s.pl.inv id
  gems : BuysLocks s.pl ∨ t.pl.gems = s.pl.gems

theorem LocksMoved.refl (hs : Live s) : LocksMoved 0 s s :=
  ⟨hs, rfl, (add_zero _).symm, fun _ _ => rfl, Or.inr rfl⟩

theorem LocksMoved.trans (hst : LocksMoved worth s t) (htu : LocksMoved more t u) :
    LocksMoved (worth + more) s u where
  live := htu.live
  settings := htu.settings.trans hst.settings
  worth := by rw [htu.worth, hst.worth, add_assoc]
  others id hid := (htu.others id hid).trans (hst.others id hid)
  gems := by
    have hbuys : BuysLocks t.pl ↔ BuysLocks s.pl := by
      unfold BuysLocks
      rw [converts_of_settings hst.settings,
        settings_congr hst.settings Player.autoCvModeGemsToDl fun _ => rfl]
    rcases htu.gems with hbuy | hsame
    · exact Or.inl (hbuys.mp hbuy)
    · exact hst.gems.imp_right hsame.trans

theorem Outcome.locksMoved {pack : Pack Int} (hs : Live s) (hid : id ∈ lockIds)
    (hchange : (view 0 s.pl.inv).change 200 id c = some pack) (h : Outcome s pack t) :
    LocksMoved (c * lockGems id) s t where
  live := h.live hs
  settings := h.settings
  worth := h.value hchange
  others other hother := by
    have hne : id ≠ other := fun heq => hother (heq ▸ hid)
    rw [contains_eq_total h.slots, contains_eq_total hs.slots, h.others hchange hother,
      if_neg hne, add_zero]
  gems := by
    by_cases hconverts : Converts s.pl
    · cases hmode : s.pl.autoCvModeGemsToDl with
      | true => exact Or.inl ⟨hconverts, hmode⟩
      | false =>
          right
          apply conversions_conserve Purse.gems _ h.steps
          intro a b hstep
          cases hstep with
          | item _ _ _ => rfl
          | gems hon _ _ =>
              rw [hmode] at hon
              cases hon
    · exact Or.inr (congrArg Purse.gems (h.quiet hconverts))

/-- Locks that are there are taken. -/
theorem lock_taken (hlocks : env.items.LocksListed) (hs : Live s) (hid : id ∈ lockIds)
    (hc : 0 < c) (henough : c ≤ contains s.pl.inv id) (forceReturn : Bool) :
    LocksMoved (-c * lockGems id) s (modify env s id (-c) forceReturn).session := by
  rw [contains_eq_total hs.slots] at henough
  have hcap := (hs.slots.wellFormed.total_bounds (by decide) (lockIds_ne_zero hid)).2
  exact (modify_taken forceReturn hlocks hs (lock_accepts hlocks hid) hc henough).2.locksMoved hs
    hid (Pack.change_less hc henough hcap)

/-- Locks are given when they fit. -/
theorem lock_given (hlocks : env.items.LocksListed) (hs : Live s) (hid : id ∈ lockIds)
    (hc : 0 < c) (forceReturn : Bool) :
    LocksMoved (if (view 0 s.pl.inv).Fits 200 id c then c * lockGems id else 0) s
      (modify env s id c forceReturn).session := by
  have hnonneg : 0 ≤ (view 0 s.pl.inv).amount id :=
    (hs.slots.wellFormed.total_bounds (by decide) (lockIds_ne_zero hid)).1
  by_cases hfits : (view 0 s.pl.inv).Fits 200 id c
  · have hchange := Pack.change_plus hc hnonneg hfits
    rw [if_pos hfits]
    exact (modify_changed forceReturn hlocks hs (lock_accepts hlocks hid)
      (lock_not_sold hlocks hid s.pl c) hchange).2.locksMoved hs hid hchange
  · rw [if_neg hfits, (modify_of_not_fits hs.slots hc forceReturn fun h => hfits h.2).2]
    exact LocksMoved.refl hs

/-- The stacks are taken, whatever is converted in between. -/
theorem takeStacks_moved (hlocks : env.items.LocksListed) (hs : Live s) {ids : List Int}
    (hids : ∀ id ∈ ids, id ∈ lockIds) :
    LocksMoved (-found env ids s) s (ids.foldl (takeStack env) s) := by
  induction ids generalizing s with
  | nil => exact LocksMoved.refl hs
  | cons id ids ih =>
      obtain ⟨hid, hrest⟩ := List.forall_mem_cons.mp hids
      have hfirst : LocksMoved (-contains s.pl.inv id * lockGems id) s
          (takeStack env s id) := by
        have hnonneg := (hs.slots.wellFormed.total_bounds (by decide) (lockIds_ne_zero hid)).1
        rw [← contains_eq_total hs.slots] at hnonneg
        unfold takeStack
        dsimp only
        by_cases hzero : contains s.pl.inv id = 0
        · rw [if_neg (by omega), hzero, neg_zero, zero_mul]
          exact LocksMoved.refl hs
        · rw [if_pos (by omega)]
          exact lock_taken hlocks hs hid (by omega) (le_refl _) false
      have hboth := hfirst.trans (ih hfirst.live hrest)
      have hworth : -found env (id :: ids) s =
          -contains s.pl.inv id * lockGems id + -found env ids (takeStack env s id) := by
        rw [found, neg_add, neg_mul]
      rw [hworth]
      exact hboth

/-- What there is of the change is given, less what is refused. -/
theorem giveChanges_moved (hlocks : env.items.LocksListed) (hs : Live s)
    {lots : List (Int × Int)} (hlots : ∀ lock ∈ lots, lock.1 ∈ lockIds ∧ 0 ≤ lock.2) :
    LocksMoved ((lots.map fun lock => lock.2 * lockGems lock.1).sum - refused env lots s) s
      (lots.foldl (giveChange env) s) := by
  induction lots generalizing s with
  | nil => exact LocksMoved.refl hs
  | cons lock lots ih =>
      obtain ⟨⟨hid, hnonneg⟩, hrest⟩ := List.forall_mem_cons.mp hlots
      have hfirst : LocksMoved (lock.2 * lockGems lock.1 -
          if (view 0 s.pl.inv).Fits 200 lock.1 lock.2 then 0 else lock.2 * lockGems lock.1) s
          (giveChange env s lock) := by
        unfold giveChange
        by_cases hpos : 0 < lock.2
        · have hgiven := lock_given hlocks hs hid hpos false
          rw [if_pos hpos]
          split_ifs at hgiven ⊢
          · rw [sub_zero]
            exact hgiven
          · rw [sub_self]
            exact hgiven
        · have hzero : lock.2 = 0 := by omega
          rw [if_neg hpos, hzero, zero_mul, ite_self]
          exact LocksMoved.refl hs
      have hboth := hfirst.trans (ih hfirst.live hrest)
      have hworth : ((lock :: lots).map fun lock => lock.2 * lockGems lock.1).sum -
          refused env (lock :: lots) s =
          (lock.2 * lockGems lock.1 - if (view 0 s.pl.inv).Fits 200 lock.1 lock.2 then 0
            else lock.2 * lockGems lock.1) +
          ((lots.map fun lock => lock.2 * lockGems lock.1).sum -
            refused env lots (giveChange env s lock)) := by
        rw [List.map_cons, List.sum_cons, refused]
        omega
      rw [hworth]
      exact hboth

end Moves

section Taking

variable {env : Env} {s t : Session} {emptied : List Int} {id : Int}

/-- Some of the locks have been taken. -/
structure Emptied (s t : Session) (emptied : List Int) : Prop where
  live : Live t
  settings : settings t.pl = settings s.pl
  gems : t.pl.gems = s.pl.gems
  others : ∀ id, id ∉ takenLocks → total id t.pl.inv = total id s.pl.inv
  slots : (view 0 t.pl.inv).slotsOf takenLocks =
    (view 0 s.pl.inv).slotsOf takenLocks
  worth : worthOf (view 0 t.pl.inv) ≤ worthOf (view 0 s.pl.inv)
  gone : ∀ id ∈ emptied, total id t.pl.inv = 0

theorem Emptied.refl (hs : Live s) : Emptied s s [] :=
  ⟨hs, rfl, rfl, fun _ _ => rfl, rfl, le_refl _, by simp⟩

theorem Emptied.steadyAt (h : Emptied s t emptied) (hs : SlotInv s.pl.inv)
    (hsteady : Steady s.pl) {pack : Pack Int}
    (htop : pack.amount 20298 = total 20298 t.pl.inv)
    (hworth : worthOf pack ≤ worthOf (view 0 t.pl.inv))
    (hconverts : Converts t.pl) : SteadyAt t.pl ⟨t.pl.gems, pack⟩ := by
  obtain ⟨hgems, hlast⟩ := hsteady ((converts_of_settings h.settings).mp hconverts)
  constructor
  · rw [settings_congr h.settings Player.autoCvModeGemsToDl fun _ => rfl, h.gems]
    exact hgems
  · rw [settings_congr h.settings Player.autoCvModeGglTo20298 fun _ => rfl]
    refine hlast.imp_right (Or.imp (fun hfull => ?_) fun hlow => ?_)
    · rw [htop, h.others 20298 (by decide), ← contains_eq_total hs, hfull]
    · rw [getTotalWL_eq hs] at hlow
      exact lt_of_le_of_lt (le_trans hworth h.worth) hlow

theorem total_nonneg_of_live (hs : Live s) (id : Int) :
    0 ≤ (view 0 s.pl.inv).amount id := by
  by_cases hid : id = 0
  · subst hid
    exact le_of_eq hs.slots.wellFormed.total_empty.symm
  · exact (hs.slots.wellFormed.total_bounds (by decide) hid).1

/-- Amounts after one of the locks is taken whole. -/
theorem less_whole (pack : Pack Int) (id other : Int) :
    (pack.less id (pack.amount id)).amount other =
      if id = other then 0 else pack.amount other := by
  change pack.amount other - (if id = other then pack.amount id else 0) = _
  split_ifs with heq
  · rw [heq, sub_self]
  · exact sub_zero _

theorem worthOf_less_whole {pack : Pack Int} (hnonneg : ∀ id, 0 ≤ pack.amount id) :
    worthOf (pack.less id (pack.amount id)) ≤ worthOf pack := by
  have hle (other : Int) :
      (pack.less id (pack.amount id)).amount other ≤ pack.amount other := by
    rw [less_whole]
    split_ifs
    · exact hnonneg other
    · exact le_refl _
  have hwl := hle 242
  have hdl := hle 1796
  have hbgl := hle 7188
  have hmgl := hle 8470
  unfold worthOf
  omega

/-- A lock of which there is none is not taken. -/
theorem Emptied.none_left (h : Emptied s t emptied)
    (hzero : total id t.pl.inv = 0) : Emptied s t (emptied ++ [id]) := by
  refine ⟨h.live, h.settings, h.gems, h.others, h.slots, h.worth, ?_⟩
  intro other hother
  rcases List.mem_append.mp hother with hbefore | hnew
  · exact h.gone other hbefore
  · rw [List.mem_singleton.mp hnew]
    exact hzero

/-- One more of the locks is taken.  What conversions make of the others does
not bring it back. -/
theorem Emptied.takeStack (hlocks : env.items.LocksListed)
    (hs : SlotInv s.pl.inv) (hsteady : Steady s.pl) (h : Emptied s t emptied)
    (hid : id ∈ takenLocks) (hlow : ∀ step ∈ ladder,
      step.2 ∈ emptied ++ [id] → step.1 ∈ emptied ++ [id]) :
    Emptied s (takeStack env t id) (emptied ++ [id]) := by
  have hlock := takenLocks_lock hid
  have hnonneg := total_nonneg_of_live h.live
  have hamount : 0 ≤ total id t.pl.inv := hnonneg id
  unfold Inventory.takeStack
  dsimp only
  rw [contains_eq_total h.live.slots]
  by_cases hzero : total id t.pl.inv = 0
  · rw [if_neg (by omega)]
    exact h.none_left hzero
  · rw [if_pos (by omega)]
    have houtcome := (modify_taken false hlocks h.live (lock_accepts hlocks hlock)
      (by omega : 0 < total id t.pl.inv) (le_refl _)).2
    have hcap := (h.live.slots.wellFormed.total_bounds (by decide)
      (lockIds_ne_zero hlock)).2
    have hless := @Pack.change_less Int _ 200 (total id t.pl.inv)
      (view 0 t.pl.inv) id (by omega) (le_refl _) hcap
    have hleft := less_whole (view 0 t.pl.inv) id
    have hworth := @worthOf_less_whole id _ hnonneg
    rw [view_amount] at hleft hworth
    generalize (view 0 t.pl.inv).less id (total id t.pl.inv) = pack at *
    have htop : pack.amount 20298 = total 20298 t.pl.inv := by
      have hne : id ≠ 20298 := fun heq => absurd (heq ▸ hid) (by decide)
      rw [hleft, if_neg hne, view_amount]
    have hshifted := houtcome.shifted (h.steadyAt hs hsteady htop hworth)
      (Pack.change_nonneg hless hnonneg)
    have hgone : ∀ other ∈ emptied ++ [id], pack.amount other = 0 := by
      intro other hother
      rw [hleft]
      split_ifs with heq
      · rfl
      · rcases List.mem_append.mp hother with hbefore | hnew
        · exact h.gone other hbefore
        · exact absurd (List.mem_singleton.mp hnew).symm heq
    generalize (modify env t id (-total id t.pl.inv) false).session = u at *
    constructor
    · exact houtcome.live h.live
    · exact houtcome.settings.trans h.settings
    · exact (hshifted.gems : u.pl.gems = t.pl.gems).trans h.gems
    · intro other hother
      have hne : id ≠ other := fun heq => hother (heq ▸ hid)
      have hkept : total other u.pl.inv = pack.amount other :=
        hshifted.others other hother
      rw [hkept, hleft, if_neg hne, view_amount, h.others other hother]
    · exact hshifted.slots.trans
        ((Pack.change_slotsOf hless hid (by decide)).trans h.slots)
    · have hworthU : worthOf (view 0 u.pl.inv) = worthOf pack := hshifted.worthOf
      exact hworthU ▸ le_trans hworth h.worth
    · exact hshifted.low _ hlow hgone

/-- All four locks are taken. -/
theorem emptied_takenLocks (hlocks : env.items.LocksListed) (hs : Live s)
    (hsteady : Steady s.pl) :
    Emptied s (takenLocks.foldl (takeStack env) s) takenLocks := by
  have hstep {t : Session} {emptied : List Int} (id : Int) :=
    @Emptied.takeStack env s t emptied id hlocks hs.slots hsteady
  have hwl := hstep 242 (Emptied.refl hs) (by decide) (by decide)
  have hdl := hstep 1796 hwl (by decide) (by decide)
  have hbgl := hstep 7188 hdl (by decide) (by decide)
  exact hstep 8470 hbgl (by decide) (by decide)

end Taking

section Giving

variable {env : Env} {s t : Session} {i c gems : Int} {pl : Player}
  {pack next : Pack Int} {gifts : List (Int × Int)}

/-- A gift of a lock after which there is nothing to convert. -/
theorem lock_gift (hlocks : env.items.LocksListed) (hs : Live s)
    (hi : i ∈ lockIds) (hc : 0 < c) (forceReturn : Bool)
    (hnext : next = if (view 0 s.pl.inv).Fits 200 i c then
      (view 0 s.pl.inv).plus i c else view 0 s.pl.inv)
    (hsettled : Settled s.pl ⟨s.pl.gems, next⟩) :
    let given := (modify env s i c forceReturn).session
    Live given ∧ settings given.pl = settings s.pl ∧
      purse given.pl = ⟨s.pl.gems, next⟩ := by
  dsimp only
  have haccepts := lock_accepts hlocks hi
  by_cases hfits : (view 0 s.pl.inv).Fits 200 i c
  · rw [if_pos hfits] at hnext
    subst hnext
    have hunsold : Sells env s.pl i c → kindsSold env
        ((view 0 s.pl.inv).plus i c).amount env.exchangeSetPrice = [] :=
      fun hsells => absurd hi (fish_not_lock hlocks hsells.2.2.2.2.2)
    obtain ⟨-, hlive, -, hsettings, hpurse⟩ := gift_stays hlocks hs haccepts hc
      forceReturn hfits hsettled hunsold
    exact ⟨hlive, hsettings, hpurse⟩
  · rw [if_neg hfits] at hnext
    subst hnext
    have hrefused := @modify_of_not_fits env s i c hs.slots hc forceReturn
      fun h => hfits h.2
    rw [hrefused.2]
    exact ⟨hs, rfl, rfl⟩

/-- The change that is still to be given lets no stack grow to a hundred that
could be converted. -/
structure Spare (pl : Player) (gems : Int) (pack : Pack Int)
    (gifts : List (Int × Int)) : Prop where
  gems : pl.autoCvModeGemsToDl = false ∨ gems < 300000
  low : ∀ id ∈ [(242 : Int), 1796, 7188],
    pack.amount id + total id gifts < 100
  top : pl.autoCvModeGglTo20298 = false ∨ pack.amount 20298 = 200 ∨
    pack.amount 8470 + total 8470 gifts < 100

theorem total_gifts_nonneg (hpos : ∀ gift ∈ gifts, 0 < gift.2) (id : Int) :
    0 ≤ total id gifts := by
  unfold total
  apply List.sum_nonneg
  intro n hn
  obtain ⟨gift, hgift, rfl⟩ := List.mem_map.mp hn
  have hle := hpos gift hgift
  split_ifs <;> omega

theorem Spare.no_conversion (h : Spare pl gems pack gifts)
    (hpos : ∀ gift ∈ gifts, 0 < gift.2) (next : Purse) :
    ¬ Conversion pl ⟨gems, pack⟩ next := by
  have hrest := total_gifts_nonneg hpos
  intro hnext
  cases hnext with
  | @item fromId toId gems pack next hstep hon hexchange =>
      obtain ⟨henough, hfull⟩ :=
        exchange_range (ladder_locks hstep).2.2 hexchange
      have hleft := hrest fromId
      by_cases htop : fromId = 8470
      · subst htop
        have hto : toId = 20298 := by simpa [ladder] using hstep
        subst hto
        rcases h.top with hoff | hlimit | hfew
        · exact absurd (hoff.symm.trans hon) (by decide)
        · omega
        · omega
      · have hmem : fromId ∈ [(242 : Int), 1796, 7188] := by
          simp only [ladder, List.mem_cons, Prod.mk.injEq, List.not_mem_nil,
            or_false] at hstep ⊢
          omega
        have hfew := h.low fromId hmem
        omega
  | gems hon henough _ =>
      rcases h.gems with hoff | hfew
      · exact absurd (hoff.symm.trans hon) (by decide)
      · exact absurd hfew (not_lt.mpr henough)

theorem Spare.step {gift : Int × Int} (h : Spare pl gems pack (gift :: gifts))
    (hgift : 0 < gift.2) (hne : gift.1 ≠ 20298) (hnext : next =
      if pack.Fits 200 gift.1 gift.2 then pack.plus gift.1 gift.2 else pack) :
    Spare pl gems next gifts := by
  have hle (id : Int) :
      next.amount id + total id gifts ≤
        pack.amount id + total id (gift :: gifts) := by
    rw [hnext, total_cons]
    split_ifs with hfits hid
    · simp only [Pack.plus, if_pos hid]
      omega
    · simp only [Pack.plus, if_neg hid]
      omega
    · omega
    · omega
  have htop : next.amount 20298 = pack.amount 20298 := by
    rw [hnext]
    split_ifs
    · simp [Pack.plus, hne]
    · rfl
  constructor
  · exact h.gems
  · intro id hid
    exact lt_of_le_of_lt (hle id) (h.low id hid)
  · rw [htop]
    exact h.top.imp_right (Or.imp_right (lt_of_le_of_lt (hle 8470)))

/-- The gifts one after the other. -/
theorem giveChange_gifts (hlocks : env.items.LocksListed) (hs : Live s)
    (hpos : ∀ gift ∈ gifts, 0 < gift.2)
    (hgifts : ∀ gift ∈ gifts, gift.1 ∈ takenLocks)
    (hspare : Converts s.pl → Spare s.pl s.pl.gems (view 0 s.pl.inv) gifts) :
    let given := gifts.foldl (giveChange env) s
    SlotInv given.pl.inv ∧ purse given.pl = ⟨s.pl.gems,
      (view 0 s.pl.inv).giveAll 200 (fun _ => true) gifts⟩ := by
  dsimp only
  induction gifts generalizing s with
  | nil => exact ⟨hs.slots, rfl⟩
  | cons gift gifts ih =>
      have hgift := hpos gift List.mem_cons_self
      have hlater := fun other hother =>
        hpos other (List.mem_cons_of_mem gift hother)
      have hmem := hgifts gift List.mem_cons_self
      have hlock := takenLocks_lock hmem
      have hne : gift.1 ≠ 20298 := fun heq => absurd (heq ▸ hmem) (by decide)
      have hnext (hconverts : Converts s.pl) :=
        (hspare hconverts).step hgift hne rfl
      obtain ⟨hlive, hsettings, hpurse⟩ := lock_gift hlocks hs hlock hgift false
        rfl fun hconverts => (hnext hconverts).no_conversion hlater
      have hgive : giveChange env s gift =
          (modify env s gift.1 gift.2 false).session := if_pos hgift
      rw [List.foldl_cons, hgive]
      generalize (modify env s gift.1 gift.2 false).session = given at *
      have hgems : given.pl.gems = s.pl.gems := congrArg Purse.gems hpurse
      have hview : view 0 given.pl.inv = _ := congrArg Purse.pack hpurse
      have hrest (hconverts : Converts given.pl) :
          Spare given.pl given.pl.gems (view 0 given.pl.inv) gifts := by
        have hkept := hnext ((converts_of_settings hsettings).mp hconverts)
        rw [hgems, hview]
        constructor
        · rw [settings_congr hsettings Player.autoCvModeGemsToDl fun _ => rfl]
          exact hkept.gems
        · exact hkept.low
        · rw [settings_congr hsettings Player.autoCvModeGglTo20298 fun _ => rfl]
          exact hkept.top
      have hlast := ih hlive hlater (fun other hother =>
        hgifts other (List.mem_cons_of_mem gift hother)) hrest
      rw [hgems, hview] at hlast
      simpa [Pack.giveAll] using hlast

/-- Only what there is of the change is given. -/
theorem giveChange_filter (lots : List (Int × Int)) :
    lots.foldl (giveChange env) s = (lots.filter fun lock =>
      decide (0 < lock.2)).foldl (giveChange env) s := by
  rw [List.foldl_filter]
  congr 1
  funext t lock
  by_cases hlock : 0 < lock.2 <;> simp [giveChange, hlock]

end Giving

section Change

variable {remain : Int} {pack : Pack Int}

/-- What there is of the change. -/
def giftsOf (remain : Int) : List (Int × Int) :=
  (changeOf remain).filter fun lock => decide (0 < lock.2)

theorem giftsOf_pos : ∀ gift ∈ giftsOf remain, 0 < gift.2 := by
  intro gift hgift
  exact of_decide_eq_true (List.mem_filter.mp hgift).2

theorem changeOf_locks : ∀ lock ∈ changeOf remain, lock.1 ∈ takenLocks := by
  intro lock hlock
  simp only [changeOf, List.mem_cons, List.not_mem_nil, or_false] at hlock
  rcases hlock with rfl | rfl | rfl | rfl <;> simp [takenLocks]

theorem changeOf_nonneg (hremain : 0 ≤ remain) :
    ∀ lock ∈ changeOf remain, 0 ≤ lock.2 := by
  intro lock hlock
  simp only [changeOf, List.mem_cons, List.not_mem_nil, or_false] at hlock
  rcases hlock with rfl | rfl | rfl | rfl <;> dsimp only <;> omega

theorem giftsOf_length (hremain : 0 ≤ remain) : (giftsOf remain).length =
    (changeOf remain).countP fun lock => decide (lock.2 ≠ 0) := by
  unfold giftsOf
  rw [← List.countP_eq_length_filter]
  apply List.countP_congr
  intro lock hlock
  have hnonneg := changeOf_nonneg hremain lock hlock
  simp only [decide_eq_true_eq]
  omega

theorem total_giftsOf (hremain : 0 ≤ remain) (id : Int) :
    total id (giftsOf remain) = total id (changeOf remain) := by
  have hnonneg := changeOf_nonneg hremain
  unfold giftsOf
  generalize changeOf remain = lots at hnonneg ⊢
  induction lots with
  | nil => rfl
  | cons lock lots ih =>
      have hlock := hnonneg lock List.mem_cons_self
      have hrest := ih fun other hother =>
        hnonneg other (List.mem_cons_of_mem lock hother)
      by_cases hpos : 0 < lock.2
      · rw [List.filter_cons_of_pos (by simpa using hpos), total_cons, total_cons,
          hrest]
      · have hzero : lock.2 = 0 := by omega
        rw [List.filter_cons_of_neg (by simpa using hpos), total_cons, hrest, hzero,
          ite_self, zero_add]

/-- The digits of the change. -/
theorem total_changeOf (remain : Int) :
    total 8470 (changeOf remain) = remain / 1000000 ∧
    total 7188 (changeOf remain) = remain % 1000000 / 10000 ∧
    total 1796 (changeOf remain) = remain % 1000000 % 10000 / 100 ∧
    total 242 (changeOf remain) = remain % 1000000 % 10000 % 100 := by
  simp [changeOf]

theorem giftsOf_locks : ∀ gift ∈ giftsOf remain, gift.1 ∈ takenLocks :=
  fun gift hgift => changeOf_locks gift (List.mem_filter.mp hgift).1

/-- Change that is worth what remains has every stack whole, and a slot for
each. -/
theorem change_fits (hremain : 0 ≤ remain) (hnonneg : ∀ id, 0 ≤ pack.amount id)
    (hnone : ∀ id ∈ takenLocks, pack.amount id = 0)
    (hcap : (pack.giveAll 200 (fun _ => true)
      (giftsOf remain)).amount 8470 ≤ 200)
    (hworth : worthOf (pack.giveAll 200 (fun _ => true) (giftsOf remain)) =
      remain) :
    remain / 1000000 ≤ 200 ∧ (giftsOf remain).length ≤ pack.room := by
  obtain ⟨hmgl, hbgl, hdl, hwl⟩ := total_changeOf remain
  have hslots := @Pack.giveAll_slotsOf Int _ 200 pack takenLocks
    (fun _ => true) _ giftsOf_pos hnonneg (@giftsOf_locks remain) (by decide)
  have hle (id : Int) (hid : id ∈ takenLocks) :
      (pack.giveAll 200 (fun _ => true) (giftsOf remain)).amount id ≤
        total id (changeOf remain) := by
    have hgiven := @Pack.giveAll_amount_le Int _ 200 pack (fun _ => true)
      (giftsOf remain) giftsOf_pos id
    rwa [hnone id hid, total_giftsOf hremain, zero_add] at hgiven
  have hle8470 := hmgl ▸ hle 8470 (by decide)
  have hle7188 := hbgl ▸ hle 7188 (by decide)
  have hle1796 := hdl ▸ hle 1796 (by decide)
  have hle242 := hwl ▸ hle 242 (by decide)
  unfold worthOf at hworth
  generalize pack.giveAll 200 (fun _ => true) (giftsOf remain) = given at *
  refine ⟨by omega, ?_⟩
  -- every digit is there, so each of the stacks has its slot
  have h8470 : given.amount 8470 = remain / 1000000 := by omega
  have h7188 : given.amount 7188 = remain % 1000000 / 10000 := by omega
  have h1796 : given.amount 1796 = remain % 1000000 % 10000 / 100 := by omega
  have h242 : given.amount 242 = remain % 1000000 % 10000 % 100 := by omega
  have hempty : takenLocks.countP (fun id => decide (pack.amount id ≠ 0)) = 0 :=
    List.countP_eq_zero.mpr fun id hid => by simp [hnone id hid]
  have hcount : takenLocks.countP (fun id => decide (given.amount id ≠ 0)) =
      (giftsOf remain).length := by
    rw [giftsOf_length hremain]
    simp only [takenLocks, changeOf, List.countP_cons, List.countP_nil, h8470,
      h7188, h1796, h242]
    omega
  unfold Pack.slotsOf at hslots
  omega

/-- With room for every stack, all of the change arrives. -/
theorem change_arrives (hremain : 0 ≤ remain)
    (hnonneg : ∀ id, 0 ≤ pack.amount id)
    (hnone : ∀ id ∈ takenLocks, pack.amount id = 0)
    (hlimit : remain / 1000000 ≤ 200)
    (hroom : (giftsOf remain).length ≤ pack.room) :
    worthOf (pack.giveAll 200 (fun _ => true) (giftsOf remain)) = remain := by
  obtain ⟨hmgl, hbgl, hdl, hwl⟩ := total_changeOf remain
  have htotal := total_giftsOf hremain
  have hneeded : Pack.needed (fun _ => true) (giftsOf remain) pack ≤
      pack.room := le_trans List.countP_le_length hroom
  have hfits : ∀ gift ∈ giftsOf remain,
      pack.amount gift.1 + total gift.1 (giftsOf remain) ≤ 200 := by
    intro gift hgift
    have hmem := giftsOf_locks gift hgift
    rw [hnone _ hmem, htotal]
    simp only [takenLocks, List.mem_cons, List.not_mem_nil, or_false] at hmem
    rcases hmem with h | h | h | h <;> rw [h] <;> omega
  have hall := @Pack.giveAll_amount Int _ 200 pack (fun _ => true)
    (giftsOf remain) (fun _ _ => rfl) giftsOf_pos hnonneg hfits hneeded
  unfold worthOf
  simp only [hall, htotal, hmgl, hbgl, hdl, hwl]
  rw [hnone 8470 (by decide), hnone 7188 (by decide), hnone 1796 (by decide),
    hnone 242 (by decide)]
  omega

/-- All of the change arrives exactly when no stack is too large and there are
enough slots. -/
theorem giveAll_change_iff (hremain : 0 ≤ remain)
    (hnonneg : ∀ id, 0 ≤ pack.amount id)
    (hnone : ∀ id ∈ takenLocks, pack.amount id = 0)
    (hcap : (pack.giveAll 200 (fun _ => true)
      (giftsOf remain)).amount 8470 ≤ 200) :
    worthOf (pack.giveAll 200 (fun _ => true) (giftsOf remain)) = remain ↔
      remain / 1000000 ≤ 200 ∧ (giftsOf remain).length ≤ pack.room := by
  constructor
  · intro hworth
    exact change_fits hremain hnonneg hnone hcap hworth
  · rintro ⟨hlimit, hroom⟩
    exact change_arrives hremain hnonneg hnone hlimit hroom

end Change

section Payment

variable {env : Env} {s : Session} {amount : Int}

/-- The change comes after the locks are taken. -/
theorem takeWL_eq (henough : amount ≤ getTotalWL s.pl.inv) :
    takeWL env amount s = (true,
      (giftsOf (getTotalWL s.pl.inv - amount)).foldl (giveChange env)
        (takenLocks.foldl (takeStack env) s)) := by
  unfold takeWL
  dsimp only
  rw [if_neg (by omega)]
  split_ifs with hsome
  · rw [giveChange_filter]
    rfl
  · have hzero : getTotalWL s.pl.inv - amount = 0 := by omega
    rw [hzero]
    rfl

/-- The change is worth what remains. -/
theorem changeOf_worth (remain : Int) :
    ((changeOf remain).map fun lock => lock.2 * lockGems lock.1).sum = 3000 * remain := by
  have hgems : lockGems 8470 = 3000000000 ∧ lockGems 7188 = 30000000 ∧
      lockGems 1796 = 300000 ∧ lockGems 242 = 3000 := by decide
  obtain ⟨h₁, h₂, h₃, h₄⟩ := hgems
  simp only [changeOf, List.map_cons, List.map_nil, List.sum_cons, List.sum_nil, h₁, h₂, h₃, h₄]
  omega

/-- The worth of a purse, with `getTotalWL`. -/
theorem value_eq {pl : Player} (hs : SlotInv pl.inv) : (purse pl).value =
    3000 * (getTotalWL pl.inv + 100000000 * contains pl.inv 20298) + pl.gems := by
  rw [getTotalWL_eq hs, contains_eq_total hs]
  exact packValue_eq pl.gems (view 0 pl.inv)

/-- Exactly the amount is taken when the stacks found and the change refused are worth
what was counted. -/
theorem takeWL_found_iff (hlocks : env.items.LocksListed) (hs : Live s)
    (henough : amount ≤ getTotalWL s.pl.inv) :
    Paying amount s (takeWL env amount s) ↔
      found env takenLocks s + refused env (changeOf (getTotalWL s.pl.inv - amount))
        (takenLocks.foldl (takeStack env) s) = 3000 * getTotalWL s.pl.inv := by
  have htaken := takeStacks_moved hlocks hs
    (fun id (hid : id ∈ takenLocks) => takenLocks_lock hid)
  have hgiven := giveChanges_moved hlocks htaken.live fun lock hlock =>
    ⟨takenLocks_lock (changeOf_locks lock hlock),
      changeOf_nonneg (by omega : 0 ≤ getTotalWL s.pl.inv - amount) lock hlock⟩
  have hboth := htaken.trans hgiven
  have hvalue := hgiven.worth
  rw [changeOf_worth] at hvalue
  rw [takeWL_eq henough]
  unfold giftsOf
  rw [← giveChange_filter]
  unfold Paying
  dsimp only
  rw [htaken.worth, value_eq hboth.live.slots, value_eq hs.slots] at hvalue
  generalize (changeOf (getTotalWL s.pl.inv - amount)).foldl (giveChange env)
    (takenLocks.foldl (takeStack env) s) = u at hboth hvalue ⊢
  constructor
  · rintro ⟨-, hpaid⟩
    have hexact := (hpaid henough).2.1
    omega
  · intro hsame
    exact ⟨fun hfew => absurd hfew (by omega),
      fun _ => ⟨rfl, by omega, hboth.gems, hboth.others⟩⟩

/-- The change of a steady player is not converted. -/
theorem Emptied.spare {t : Session} {remain : Int} (hs : SlotInv s.pl.inv)
    (hsteady : Steady s.pl) (h : Emptied s t takenLocks) (hremain : 0 ≤ remain)
    (hle : remain ≤ getTotalWL s.pl.inv) (hconverts : Converts t.pl) :
    Spare t.pl t.pl.gems (view 0 t.pl.inv) (giftsOf remain) := by
  obtain ⟨hgems, htop⟩ := hsteady ((converts_of_settings h.settings).mp hconverts)
  obtain ⟨hmgl, hbgl, hdl, hwl⟩ := total_changeOf remain
  constructor
  · rw [settings_congr h.settings Player.autoCvModeGemsToDl fun _ => rfl, h.gems]
    exact hgems
  · intro id hid
    have hmem : id ∈ takenLocks := by
      revert hid
      simp only [takenLocks, List.mem_cons, List.not_mem_nil, or_false]
      omega
    rw [view_amount, h.gone id hmem, total_giftsOf hremain, zero_add]
    simp only [List.mem_cons, List.not_mem_nil, or_false] at hid
    rcases hid with rfl | rfl | rfl
    · omega
    · omega
    · omega
  · rw [settings_congr h.settings Player.autoCvModeGglTo20298 fun _ => rfl,
      view_amount, view_amount, h.others 20298 (by decide),
      h.gone 8470 (by decide), total_giftsOf hremain, hmgl,
      ← contains_eq_total hs]
    exact htop.imp_right (Or.imp_right fun hlow => by omega)

/-- What a payment leaves of a steady player. -/
theorem takeWL_effect (hlocks : env.items.LocksListed) (hs : Live s)
    (hsteady : Steady s.pl) (hamount : 0 ≤ amount)
    (henough : amount ≤ getTotalWL s.pl.inv) :
    ∃ pack : Pack Int, (∀ id, 0 ≤ pack.amount id) ∧
      (∀ id ∈ takenLocks, pack.amount id = 0) ∧
      (∀ id, id ∉ takenLocks → pack.amount id = total id s.pl.inv) ∧
      pack.room = (view 0 s.pl.inv).slotsOf takenLocks ∧
      (takeWL env amount s).1 = true ∧
      SlotInv (takeWL env amount s).2.pl.inv ∧
      (takeWL env amount s).2.pl.gems = s.pl.gems ∧
      view 0 (takeWL env amount s).2.pl.inv =
        pack.giveAll 200 (fun _ => true)
          (giftsOf (getTotalWL s.pl.inv - amount)) := by
  have hempty := emptied_takenLocks hlocks hs hsteady
  have hremain : 0 ≤ getTotalWL s.pl.inv - amount := by omega
  rw [takeWL_eq henough]
  generalize takenLocks.foldl (takeStack env) s = t at hempty ⊢
  obtain ⟨hslots, hpurse⟩ := giveChange_gifts hlocks hempty.live giftsOf_pos
    giftsOf_locks (hempty.spare hs.slots hsteady hremain (by omega))
  refine ⟨view 0 t.pl.inv, total_nonneg_of_live hempty.live, hempty.gone,
    hempty.others, ?_, rfl, hslots, (congrArg Purse.gems hpurse).trans hempty.gems,
    congrArg Purse.pack hpurse⟩
  rw [← hempty.slots]
  unfold Pack.slotsOf
  rw [List.countP_eq_zero.mpr fun id hid => by simp [hempty.gone id hid]]
  rfl

theorem changeable_iff (hs : SlotInv s.pl.inv)
    (henough : amount ≤ getTotalWL s.pl.inv) :
    Changeable amount s.pl.inv ↔
      (getTotalWL s.pl.inv - amount) / 1000000 ≤ 200 ∧
        (giftsOf (getTotalWL s.pl.inv - amount)).length ≤
          (view 0 s.pl.inv).slotsOf takenLocks := by
  unfold Changeable
  dsimp only
  rw [giftsOf_length (by omega)]
  unfold Pack.slotsOf
  simp only [contains_eq_total hs, view_amount, view_room]
  rfl

/-- Of a steady player exactly the amount is taken when the change can be
given, and only then. -/
theorem takeWL_steady_iff (hlocks : env.items.LocksListed) (hs : Live s)
    (hsteady : Steady s.pl) (hamount : 0 ≤ amount)
    (henough : amount ≤ getTotalWL s.pl.inv) :
    Paying amount s (takeWL env amount s) ↔ Changeable amount s.pl.inv := by
  obtain ⟨pack, hnonneg, hnone, hothers, hroom, hresult, hslots, hgems, hview⟩ :=
    takeWL_effect hlocks hs hsteady hamount henough
  have hcap := (hslots.wellFormed.total_bounds (by decide)
    (lockIds_ne_zero (show 8470 ∈ lockIds by decide))).2
  have hcontains (id : Int) (hid : id ∉ takenLocks) :
      contains (takeWL env amount s).2.pl.inv id = contains s.pl.inv id := by
    have hkept := @Pack.giveAll_amount_of_ne Int _ 200 pack (fun _ => true)
      (giftsOf (getTotalWL s.pl.inv - amount)) id fun gift hgift _ heq =>
        hid (heq ▸ changeOf_locks gift (List.mem_filter.mp hgift).1)
    rw [contains_eq_total hslots, contains_eq_total hs.slots, ← hothers id hid,
      ← hkept, ← hview, view_amount]
  have hworth := getTotalWL_eq hslots
  rw [hview] at hworth
  rw [← view_amount 0, hview] at hcap
  rw [changeable_iff hs.slots henough, ← hroom,
    ← giveAll_change_iff (by omega) hnonneg hnone hcap, ← hworth]
  unfold Paying
  dsimp only
  rw [hcontains 20298 (by decide), hgems]
  constructor
  · rintro ⟨-, hpaid⟩
    have hexact := (hpaid henough).2.1
    omega
  · intro hexact
    refine ⟨fun hfew => absurd hfew (by omega),
      fun _ => ⟨hresult, by omega, Or.inr rfl, ?_⟩⟩
    intro id hid
    apply hcontains
    intro hmem
    exact hid (takenLocks_lock hmem)

/-- A player with some locks and a number of free slots. -/
def locksmith (locks : List (Int × Int)) (free : Nat) : Session where
  pl := { inv := locks ++ List.replicate free (0, 0) }
  worlds := []

end Payment

end Inventory

end NopyServer
