/-
When `GiveItemSafe` loses nothing.  A gift that fits goes into the backpack.
One that does not fit tops up the stack of the item and lays the rest on the
ground, but only where there is a stack: without one, `SaveDropItemMoreTimes`
calls `Modify` once more, which fails as before, and the gift is gone.
-/
import NopyServer.BuxGems
import NopyServer.DropCleanUp
import NopyServer.FishSale

namespace NopyServer

namespace BuxGems

open Inventory Relation SlotPack

/-- The player's count of an item and its count among the drops around. -/
def held (i : Int) (s : Session) : Int :=
  contains s.pl.inv i + dropTotal i (groundDrops s)

/-- A gift of an item that loses nothing. -/
structure NothingLost (i c : Int) (s t : Session) : Prop where
  grown : held i t = held i s + c
  slots : SlotInv t.pl.inv

/-- The backpack has room for the whole gift. -/
def GiftFits (inv : List (Int × Int)) (i c : Int) : Prop :=
  contains inv i + c ≤ 200 ∧ (0 < contains inv i ∨ 0 < getSlots inv)

instance (inv : List (Int × Int)) (i c : Int) : Decidable (GiftFits inv i c) :=
  inferInstanceAs (Decidable (_ ∧ _))

/-- The rest of a gift as it is dropped beside the player. -/
def restDrop (s : Session) (i rest : Int) : WorldDrop :=
  ⟨normalizeDropId i, rest, s.pl.x + (s.rand.1 % 17 : Nat), s.pl.y + (s.rand.2.rand.1 % 17 : Nat)⟩

/-- What the drops of an item gain by a rest: nothing where the drop is renamed, and
less what the clean-up takes. -/
def landed (env : Env) (i rest : Int) (s : Session) : Int :=
  (if normalizeDropId i = i then rest else 0) -
    swept env.items s.now (restDrop s i rest) (groundDrops s) i

/-- Some of the item is there already, the sum is an `int`, and the rest lies on the
ground afterwards. -/
structure Topped (env : Env) (i c : Int) (s : Session) : Prop where
  present : 0 < contains s.pl.inv i
  sum : contains s.pl.inv i + c < 2 ^ 31
  landed : landed env i (contains s.pl.inv i + c - 200) s = contains s.pl.inv i + c - 200

/-- What `Modify` hands to its two callees: the gift is in the backpack. -/
def handed (env : Env) (i c : Int) (s : Session) : Session :=
  { s with pl := (modifySlots env.items s.pl i c false).1.getD s.pl }

/-- Auto conversion and the automatic sale of fish leave what is held of the item. -/
def LeftAlone (env : Env) (i c : Int) (s : Session) : Prop :=
  held i (sellAfter env s.pl i c (autoConvert env (handed env i c s))) =
    held i (handed env i c s)

/-- The purse with the gift in it. -/
def withGift (pl : Player) (i c : Int) : Purse :=
  ⟨pl.gems, (view 0 pl.inv).plus i c⟩

/-- Neither auto conversion nor the sale of fish has anything to do with a gift
that fits. -/
structure Untouched (env : Env) (pl : Player) (i c : Int) : Prop where
  conversions : ¬ Converts pl ∨ pl.infiniteMode = false ∧
    (i ∉ lockIds ∨ Settled pl (withGift pl i c))
  sale : Sells env pl i c →
    kindsSold env (withGift pl i c).pack.amount env.exchangeSetPrice = []

section Fitting

variable {env : Env} {s : Session} {i c : Int} {pack : Pack Int}

theorem giftFits_iff_fits (hs : SlotInv s.pl.inv) :
    GiftFits s.pl.inv i c ↔ (view 0 s.pl.inv).Fits 200 i c := by
  unfold GiftFits Pack.Fits
  rw [contains_eq_total hs]
  rfl

/-- `GiftFits` says when the amounts can be changed. -/
theorem giftFits_iff (hs : SlotInv s.pl.inv) (hi : i ≠ 0) (hc : 0 < c) :
    GiftFits s.pl.inv i c ↔ (view 0 s.pl.inv).change 200 i c ≠ none := by
  rw [giftFits_iff_fits hs]
  exact Pack.fits_iff hc (hs.wellFormed.total_bounds (by decide) hi).1

/-- The changed amounts are those of `withGift`. -/
theorem withGift_of_change (hs : SlotInv s.pl.inv) (hi : i ≠ 0) (hc : 0 < c)
    (hchange : (view 0 s.pl.inv).change 200 i c = some pack) :
    withGift s.pl i c = ⟨s.pl.gems, pack⟩ := by
  have hnonneg := (hs.wellFormed.total_bounds (by decide) hi).1
  unfold withGift
  rw [Pack.eq_plus_of_change hc hnonneg hchange]

end Fitting

section Pointer

variable {env : Env} {s : Session} {w : Nat} {f : World → World}

/-- A change behind the pointer to the world that was found. -/
theorem find_modify {worlds : List World} {p : World → Bool}
    {f : World → World} {w : Nat} (hf : ∀ world, p (f world) = p world)
    (hw : worlds.findIdx? p = some w) :
    (worlds.modify w f).find? p = (worlds.find? p).map f := by
  induction worlds generalizing w with
  | nil => simp at hw
  | cons first rest ih =>
      rw [List.findIdx?_cons] at hw
      by_cases hfirst : p first = true
      · rw [if_pos hfirst] at hw
        cases hw
        simp [hf, hfirst]
      · rw [if_neg hfirst] at hw
        obtain ⟨k, hk, rfl⟩ := Option.map_eq_some_iff.mp hw
        simpa [hfirst] using ih hk

/-- A pointer to the world the player stands in. -/
def Points (w : Nat) (s : Session) : Prop := s.findWorld s.pl.world = some w

/-- A player in a loaded world has a pointer to it. -/
theorem stands_iff_points : Stands s ↔ ∃ w, Points w s := by
  unfold Points Session.findWorld
  rw [← Option.isSome_iff_exists, List.findIdx?_isSome, List.any_eq_true]
  unfold Stands
  simp only [beq_iff_eq]

theorem Points.mapWorld (hpoints : Points w s) (hf : ∀ world, (f world).name = world.name) :
    Points w (s.mapWorld w f) :=
  (s.findWorld_mapWorld w hf s.pl.world).trans hpoints

/-- What lies in the world after a change behind the pointer. -/
theorem Points.ground (hpoints : Points w s) (hf : ∀ world, (f world).name = world.name) :
    ∃ world, groundDrops s = world.dropNew ∧
      groundDrops (s.mapWorld w f) = (f world).dropNew := by
  obtain ⟨world, hfind⟩ := stands_iff_find.mp (stands_iff_points.mpr ⟨w, hpoints⟩)
  have hafter := @find_modify s.worlds (fun world => world.name == s.pl.world) f w
    (fun world => by rw [hf]) hpoints
  refine ⟨world, ?_, ?_⟩
  · unfold groundDrops
    rw [hfind]
  · unfold groundDrops Session.mapWorld
    dsimp only
    rw [hafter, hfind]
    rfl

theorem Points.ground_kept (hpoints : Points w s)
    (hname : ∀ world, (f world).name = world.name)
    (hdrops : ∀ world, (f world).dropNew = world.dropNew) :
    groundDrops (s.mapWorld w f) = groundDrops s := by
  obtain ⟨world, hbefore, hafter⟩ := hpoints.ground hname
  rw [hafter, hdrops, hbefore]

theorem Points.mapBlock {b : Nat} {g : WorldBlock → WorldBlock} (hpoints : Points w s) :
    groundDrops (s.mapBlock w b g) = groundDrops s ∧ Points w (s.mapBlock w b g) :=
  ⟨hpoints.ground_kept (fun _ => rfl) fun _ => rfl, hpoints.mapWorld fun _ => rfl⟩

theorem Points.freshen (hpoints : Points w s) :
    groundDrops (s.freshen w) = groundDrops s ∧ Points w (s.freshen w) :=
  ⟨hpoints.ground_kept (fun _ => rfl) fun _ => rfl, hpoints.mapWorld fun _ => rfl⟩

/-- A drop lies in the world afterwards. -/
theorem Points.dropped (hpoints : Points w s) {drop : WorldDrop}
    (hgem : normalizeDropId drop.id ≠ 112) (hcount : drop.count ≤ 2 ^ 31 - 200)
    (hfit : DropsFit s.now (groundDrops s) 1) (other : Int) :
    dropTotal other (groundDrops
        (s.mapWorld w fun world => visualDrop env.items s.now world drop)) =
      dropTotal other (groundDrops s) +
        if normalizeDropId drop.id = other then drop.count else 0 := by
  obtain ⟨world, hbefore, hafter⟩ := @Points.ground s w
    (fun world => visualDrop env.items s.now world drop) hpoints fun _ => rfl
  rw [hbefore] at hfit ⊢
  rw [hafter]
  exact (dropTotal_visualDrop env.items hfit hcount hgem other).1

end Pointer

section Gifts

variable {env : Env} {s : Session} {i c : Int}

/-- Auto conversion leaves a gift that it has nothing to do with. -/
theorem converted_gift (hlocks : env.items.LocksListed) (hs : SlotInv s.pl.inv)
    (hgems : s.pl.gems < 2 ^ 31) (hi : i ≠ 0) (hc : 0 < c) {next : Player}
    (hchanged : Changed s.pl i c next)
    (huntouched : ¬ Converts s.pl ∨ s.pl.infiniteMode = false ∧
      (i ∉ lockIds ∨ Settled s.pl (withGift s.pl i c))) :
    let t := autoConvert env { s with pl := next }
    SlotInv t.pl.inv ∧ groundDrops t = groundDrops s ∧
      contains t.pl.inv i = contains s.pl.inv i + c ∧
      ∀ id, id ∉ lockIds →
        contains t.pl.inv id = (withGift s.pl i c).pack.amount id := by
  dsimp only
  have hgift := withGift_of_change hs hi hc hchanged.view
  have hself : (withGift s.pl i c).pack.amount i = contains s.pl.inv i + c := by
    rw [contains_eq_total hs]
    simp [withGift, Pack.plus]
  by_cases hconverts : Converts s.pl
  · obtain ⟨hfinite, hsafe⟩ :=
      huntouched.resolve_left (not_not_intro hconverts)
    have houtcome := outcome_autoConvert hlocks ⟨hs, hfinite, hgems⟩ hchanged
    obtain ⟨hworlds, -, hname⟩ :=
      houtcome.confined.surroundings houtcome.settings
    have hothers : ∀ id, id ∉ lockIds →
        contains (autoConvert env { s with pl := next }).pl.inv id =
          (withGift s.pl i c).pack.amount id := by
      intro id hid
      rw [contains_eq_total houtcome.slots, hgift]
      exact conversions_others houtcome.steps hid
    refine ⟨houtcome.slots, groundDrops_congr hworlds hname, ?_, hothers⟩
    rw [← hself]
    rcases hsafe with hplain | hsettled
    · exact hothers i hplain
    · rw [hgift] at hsettled ⊢
      have hstill := houtcome.still hsettled
      rw [contains_eq_total houtcome.slots]
      exact congrFun (congrArg (fun purse => purse.pack.amount) hstill) i
  · have hoff := (converts_of_core hchanged.core).not.mpr hconverts
    have hsame : autoConvert env { s with pl := next } =
        { s with pl := next } :=
      autoConvertWith_quiet (not_converts_iff.mp hoff)
    have hname : next.world = s.pl.world :=
      Player.core_congr hchanged.core Player.world fun _ => rfl
    have hamount : ∀ id, contains next.inv id =
        (withGift s.pl i c).pack.amount id := by
      intro id
      rw [contains_eq_total hchanged.slots, hgift]
      rfl
    rw [hsame]
    exact ⟨hchanged.slots, groundDrops_congr rfl hname,
      (hamount i).trans hself, fun id _ => hamount id⟩

/-- A gift that fits is in the backpack when `Modify` calls its callees. -/
theorem modify_handed (hs : SlotInv s.pl.inv) (haccepts : Accepts env i) (hc : 0 < c)
    (hfits : GiftFits s.pl.inv i c) :
    Changed s.pl i c (handed env i c s).pl ∧ (modify env s i c false).ret = 0 ∧
      (modify env s i c false).session =
        sellAfter env s.pl i c (autoConvert env (handed env i c s)) := by
  have hi : i ≠ 0 := Int.ne_of_gt haccepts.1
  have hnonneg := contains_nonneg hs hi
  have hcap := hfits.1
  have hstop : ¬ (200 < c ∨ s.pl.inv = []) := by
    rintro (hmany | hnil)
    · omega
    · obtain ⟨-, hstack | hfree⟩ := hfits
      · rw [hnil] at hstack
        exact lt_irrefl 0 hstack
      · rw [hnil] at hfree
        exact lt_irrefl 0 hfree
  rcases @modifySlots_spec env.items s.pl i c false hs haccepts.1 (by omega) with
    ⟨next, left, hslots, hchanged⟩ | ⟨left, -, hnone⟩
  · have hhanded : handed env i c s = { s with pl := next } := by
      unfold handed
      rw [hslots]
      rfl
    rw [hhanded]
    have hsells := @sells_autoConvert env s i c next hchanged.core
    have hcalled : modify env s i c false = ⟨0, left,
        sellAfter env s.pl i c (autoConvert env { s with pl := next })⟩ := by
      rw [modify_eq]
      unfold modifyWith
      rw [if_neg fun h => hstop ((guard_iff haccepts).mp h), if_neg (by omega), hslots]
      unfold sellAfter
      by_cases hsale : Sells env s.pl i c
      · rw [if_pos hsale]
        exact if_pos (hsells.mpr hsale)
      · rw [if_neg hsale]
        exact if_neg (hsells.not.mpr hsale)
    rw [hcalled]
    exact ⟨hchanged, rfl, rfl⟩
  · exact absurd hnone ((giftFits_iff hs hi hc).mp hfits)

/-- What the player holds when the callees are called. -/
theorem held_handed (hs : SlotInv s.pl.inv)
    (hchanged : Changed s.pl i c (handed env i c s).pl) :
    held i (handed env i c s) = held i s + c := by
  have hname : (handed env i c s).pl.world = s.pl.world :=
    Player.core_congr hchanged.core Player.world fun _ => rfl
  have hself : contains (handed env i c s).pl.inv i = contains s.pl.inv i + c := by
    rw [contains_eq_total hchanged.slots, contains_eq_total hs]
    exact Pack.change_amount_self hchanged.view
  have hground : groundDrops (handed env i c s) = groundDrops s := groundDrops_congr rfl hname
  unfold held
  rw [hself, hground]
  omega

/-- A gift that fits is not lost exactly when the callees leave it alone. -/
theorem fits_loses_nothing_iff (hs : SlotInv s.pl.inv) (haccepts : Accepts env i) (hc : 0 < c)
    (hfits : GiftFits s.pl.inv i c) :
    NothingLost i c s (giveItemSafe env i c s) ↔ LeftAlone env i c s := by
  obtain ⟨hchanged, hret, hcalled⟩ := modify_handed hs haccepts hc hfits
  have hgiven : giveItemSafe env i c s = (modify env s i c false).session := by
    unfold giveItemSafe
    exact if_pos hret
  have hslots := (modify_slots env hs i c false).1
  have hheld := held_handed hs hchanged
  unfold LeftAlone
  rw [← hcalled, hgiven]
  constructor
  · intro hnothing
    rw [hnothing.grown]
    exact hheld.symm
  · intro hleft
    exact ⟨hleft.trans hheld, hslots⟩

/-- The callees leave a gift alone that they have nothing to do with. -/
theorem leftAlone_of_untouched (hlocks : env.items.LocksListed)
    (hs : SlotInv s.pl.inv) (hgems : s.pl.gems < 2 ^ 31)
    (haccepts : Accepts env i) (hc : 0 < c) (hfits : GiftFits s.pl.inv i c)
    (huntouched : Untouched env s.pl i c) : LeftAlone env i c s := by
  obtain ⟨hchanged, -⟩ := modify_handed hs haccepts hc hfits
  obtain ⟨hslots, hground, hself, hothers⟩ := converted_gift hlocks hs hgems
    (Int.ne_of_gt haccepts.1) hc hchanged huntouched.conversions
  have hunsold : sellAfter env s.pl i c (autoConvert env (handed env i c s)) =
      autoConvert env (handed env i c s) := by
    unfold sellAfter
    by_cases hsells : Sells env s.pl i c
    · rw [if_pos hsells]
      apply sellFish_of_nothing hslots
      unfold sale
      split_ifs
      · have hsold := huntouched.sale hsells
        rw [← hsold]
        exact kindsSold_congr hlocks _ fun other _ hid => hothers other.1 hid
      · rfl
    · rw [if_neg hsells]
  have hheld := held_handed hs hchanged
  unfold LeftAlone
  rw [hunsold]
  refine Eq.trans ?_ hheld.symm
  unfold held
  have hground : groundDrops (autoConvert env (handed env i c s)) = groundDrops s := hground
  have hself : contains (autoConvert env (handed env i c s)).pl.inv i =
      contains s.pl.inv i + c := hself
  rw [hself, hground]
  omega

/-- A gift that does not fit is refused by `Modify`. -/
theorem modify_of_full (hs : SlotInv s.pl.inv) (hc : 0 < c)
    (hfull : ¬ GiftFits s.pl.inv i c) (forceReturn : Bool) :
    (modify env s i c forceReturn).ret ≠ 0 ∧
      (modify env s i c forceReturn).session = s := by
  apply modify_of_not_fits hs hc
  rintro ⟨-, hfits⟩
  exact hfull ((giftFits_iff_fits hs).mpr hfits)

/-- The slot that `HasItemsInInv` finds is the stack of the item. -/
theorem hasItemsInInv_split {inv : List (Int × Int)} (hs : SlotInv inv)
    (hi : i ≠ 0) (hpresent : 0 < contains inv i) :
    ∃ pre post, inv = pre ++ (i, contains inv i) :: post ∧
      hasItemsInInv inv i 1 = some pre.length := by
  obtain ⟨slot, hmem, hslot⟩ : ∃ slot ∈ inv, slot.1 = i := by
    by_contra habsent
    push Not at habsent
    rw [contains_eq_total hs, total_eq_zero_of_not_mem habsent] at hpresent
    exact absurd hpresent (lt_irrefl 0)
  obtain ⟨key, n⟩ := slot
  obtain rfl : key = i := hslot
  obtain ⟨pre, post, rfl⟩ := List.append_of_mem hmem
  have hstack : contains (pre ++ (key, n) :: post) key = n := by
    rw [contains_eq_total hs, hs.wellFormed.total_stack hi]
  have hother := hs.wellFormed.not_mem_of_stack hi
  rw [hstack] at hpresent ⊢
  refine ⟨pre, post, rfl, ?_⟩
  have hpre : pre.findIdx? (fun slot => slot.1 == key &&
      (decide (1 ≤ slot.2) || (1 : Int) == -1)) = none := by
    rw [List.findIdx?_eq_none_iff]
    intro slot hslot
    simp [hother slot (List.mem_append_left _ hslot)]
  unfold hasItemsInInv
  rw [List.findIdx?_append, hpre, List.findIdx?_cons]
  have hone : (1 : Int) ≤ n := hpresent
  simp [hone]

/-- The rest of a gift lies on the ground afterwards, less what the clean-up takes. -/
theorem dropRest_ground (hstands : Stands s) (hgem : normalizeDropId i ≠ 112)
    (hcount : c ≤ 2 ^ 31 - 200) :
    dropTotal i (groundDrops (dropRest env i c s)) =
      dropTotal i (groundDrops s) + landed env i c s := by
  obtain ⟨w, hpoints⟩ := stands_iff_points.mp hstands
  have hdrawn : Points w s.rand.2.rand.2 := hpoints
  obtain ⟨hkept, hafter⟩ := hdrawn.freshen
  have hground : groundDrops (s.rand.2.rand.2.freshen w) = groundDrops s := hkept
  unfold dropRest
  dsimp only
  rw [hdrawn]
  dsimp only
  obtain ⟨world, hbefore, hlaid⟩ := @Points.ground _ w
    (fun world => visualDrop env.items s.now world ⟨i, c, s.pl.x + (s.rand.1 % 17 : Nat),
      s.pl.y + (s.rand.2.rand.1 % 17 : Nat)⟩) hafter fun _ => rfl
  rw [hground] at hbefore
  refine (congrArg (dropTotal i) hlaid).trans
    ((dropTotal_visualDrop_swept env.items s.now _ hgem hcount i).trans ?_)
  unfold landed restDrop
  rw [hbefore]
  dsimp only
  omega

/-- Without a stack a gift that does not fit is gone. -/
theorem giveItemSafe_of_absent (hs : SlotInv s.pl.inv) (hc : 0 < c)
    (hfull : ¬ GiftFits s.pl.inv i c)
    (habsent : contains s.pl.inv i = 0) : giveItemSafe env i c s = s := by
  obtain ⟨hret, hsame⟩ := @modify_of_full env s i c hs hc hfull false
  obtain ⟨-, hagain⟩ := @modify_of_full env s i c hs hc hfull true
  unfold giveItemSafe
  dsimp only
  rw [if_neg hret, hsame]
  unfold saveDropItemMoreTimes
  dsimp only
  rw [if_pos habsent, hagain]

/-- With a stack the stack is set to `n`. -/
theorem stack_set (hs : SlotInv s.pl.inv) (hi : 0 < i) (hpresent : 0 < contains s.pl.inv i)
    (n : Int) :
    ∃ idx, hasItemsInInv s.pl.inv i 1 = some idx ∧
      (SlotInv (s.pl.inv.set idx (i, n)) ↔ 1 ≤ n ∧ n ≤ 200) ∧
      (1 ≤ n → n ≤ 200 → contains (s.pl.inv.set idx (i, n)) i = n) := by
  obtain ⟨pre, post, hinv, hidx⟩ := hasItemsInInv_split hs (Int.ne_of_gt hi) hpresent
  generalize contains s.pl.inv i = held at hinv hidx
  have hset : s.pl.inv.set pre.length (i, n) = pre ++ (i, n) :: post := by
    rw [hinv, set_length_append]
  have hslots : 1 ≤ n → n ≤ 200 → SlotInv (pre ++ (i, n) :: post) := by
    intro hlow hhigh
    rw [hinv] at hs
    apply hs.replace
    · right
      exact ⟨hi, by dsimp only; omega, hhigh⟩
    · intro _
      exact hs.wellFormed.not_mem_of_stack (Int.ne_of_gt hi)
  refine ⟨pre.length, hidx, ?_, ?_⟩
  · rw [hset]
    refine ⟨fun hafter => ?_, fun hbound => hslots hbound.1 hbound.2⟩
    have hslot := hafter.slot (i, n) (by simp)
    simp only [Prod.mk.injEq] at hslot
    omega
  · intro hlow hhigh
    have hafter := hslots hlow hhigh
    rw [hset, contains_eq_total hafter, hafter.wellFormed.total_stack (Int.ne_of_gt hi)]

/-- A stack that the gift goes beyond is set to two hundred, and the rest is dropped. -/
theorem saved_topped (hs : SlotInv s.pl.inv) (haccepts : Accepts env i) (hstands : Stands s)
    (hpresent : 0 < contains s.pl.inv i) (hover : 200 < contains s.pl.inv i + c)
    (hsum : contains s.pl.inv i + c < 2 ^ 31) :
    SlotInv (saveDropItemMoreTimes env i c s).pl.inv ∧
      held i (saveDropItemMoreTimes env i c s) = 200 + dropTotal i (groundDrops s) +
        landed env i (contains s.pl.inv i + c - 200) s := by
  have hgem : normalizeDropId i ≠ 112 := fun h =>
    haccepts.2.2 (normalizeDropId_eq_gem h)
  obtain ⟨idx, hidx, hslots, hstack⟩ := stack_set hs haccepts.1 hpresent 200
  obtain ⟨t, ht⟩ : ∃ t : Session,
      t = { s with pl := { s.pl with inv := s.pl.inv.set idx (i, 200) } } := ⟨_, rfl⟩
  have htopped : saveDropItemMoreTimes env i c s =
      dropRest env i (contains s.pl.inv i + c - 200) t := by
    unfold saveDropItemMoreTimes
    dsimp only
    rw [if_neg (Int.ne_of_gt hpresent), hidx, int32_of_range (by omega) hsum]
    dsimp only
    rw [if_pos hover, ht]
    rfl
  have hground : groundDrops t = groundDrops s := by
    rw [ht]
    exact groundDrops_congr rfl rfl
  have hstandsT : Stands t := by
    rw [ht]
    exact hstands
  have hlandedT (rest : Int) : landed env i rest t = landed env i rest s := by
    unfold landed restDrop
    rw [hground, ht]
    rfl
  have hpl : (dropRest env i (contains s.pl.inv i + c - 200) t).pl = t.pl :=
    Carried.dropRest (fun pl => pl) i _ t
  have hinv : t.pl.inv = s.pl.inv.set idx (i, 200) := by rw [ht]
  have hrest := @dropRest_ground env t i (contains s.pl.inv i + c - 200) hstandsT hgem
    (by omega)
  rw [htopped]
  constructor
  · rw [hpl, hinv]
    exact hslots.mpr ⟨by decide, le_refl _⟩
  · unfold held
    rw [hpl, hinv, hstack (by decide) (le_refl _), hrest, hground, hlandedT]
    omega

/-- A sum of the two counts that is wrapped sets the stack to a negative count. -/
theorem saved_wrapped (hs : SlotInv s.pl.inv) (hi : 0 < i) (hint : c < 2 ^ 31)
    (hpresent : 0 < contains s.pl.inv i) (hsum : ¬ contains s.pl.inv i + c < 2 ^ 31) :
    ¬ SlotInv (saveDropItemMoreTimes env i c s).pl.inv := by
  intro hafter
  have hbound := (hs.wellFormed.total_bounds (by decide) (Int.ne_of_gt hi)).2
  rw [← contains_eq_total hs] at hbound
  obtain ⟨idx, hidx, hslots, -⟩ := stack_set hs hi hpresent (int32 (contains s.pl.inv i + c))
  have hwrapped : int32 (contains s.pl.inv i + c) ≤ 0 := by
    unfold int32
    rw [Int.bmod_def]
    omega
  have hset : saveDropItemMoreTimes env i c s = s.mapPlayer fun pl =>
      { pl with inv := pl.inv.set idx (i, int32 (contains s.pl.inv i + c)) } := by
    unfold saveDropItemMoreTimes
    dsimp only
    rw [if_neg (Int.ne_of_gt hpresent), hidx]
    dsimp only
    rw [if_neg (by omega)]
  rw [hset] at hafter
  have hlow := (hslots.mp hafter).1
  omega

/-- A gift to a stack that it does not fit into is not lost exactly when it tops the
stack up. -/
theorem stack_loses_nothing_iff (hs : SlotInv s.pl.inv) (haccepts : Accepts env i)
    (hc : 0 < c) (hint : c < 2 ^ 31) (hstands : Stands s)
    (hfull : ¬ GiftFits s.pl.inv i c) (hpresent : 0 < contains s.pl.inv i) :
    NothingLost i c s (giveItemSafe env i c s) ↔ Topped env i c s := by
  have hover : 200 < contains s.pl.inv i + c := by
    unfold GiftFits at hfull
    omega
  obtain ⟨hret, hsame⟩ := @modify_of_full env s i c hs hc hfull false
  have hgiven : giveItemSafe env i c s = saveDropItemMoreTimes env i c s := by
    unfold giveItemSafe
    dsimp only
    rw [if_neg hret, hsame]
  rw [hgiven]
  by_cases hsum : contains s.pl.inv i + c < 2 ^ 31
  · obtain ⟨hslots, hheld⟩ := saved_topped hs haccepts hstands hpresent hover hsum
    constructor
    · intro hnothing
      refine ⟨hpresent, hsum, ?_⟩
      have hgrown := hnothing.grown
      rw [hheld] at hgrown
      unfold held at hgrown
      omega
    · intro htop
      refine ⟨?_, hslots⟩
      rw [hheld, htop.landed]
      unfold held
      omega
  · exact iff_of_false
      (fun hnothing => saved_wrapped hs haccepts.1 hint hpresent hsum hnothing.slots)
      fun htop => hsum htop.sum

/-- A player with one kind of item in a single slot. -/
def collector (count : Int) : Session where
  pl := { world := "HOME", inv := [(2, count)] }
  worlds := [{ name := "HOME" }]

theorem collector_drops (count : Int) :
    Stands (collector count) ∧
      (unlapsed (collector count).now (groundDrops (collector count))).length < 500 :=
  ⟨⟨_, List.mem_singleton_self _, rfl⟩, by simp [unlapsed, groundDrops, collector]⟩

end Gifts

end BuxGems

end NopyServer
