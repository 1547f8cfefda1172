/-
What calls of `Modify` move, their conversions counted in.  Outside infinite mode a call
that makes its change moves the count of its item by it and the worth of the locks and
gems by the worth of it: conversions only turn locks and gems into each other.  In
infinite mode no count and no worth ever falls, and a gift is still there afterwards
whatever else was added.
-/
import NopyServer.FishSale

namespace NopyServer

namespace Inventory

open SlotPack

section Finite

variable {env : Env} {s t u : Session} {given more : Int → Int} {worth extra : Int}

/-- The counts are moved by some amounts.  Where conversions run, locks and gems may be
turned into each other in the same call, and are counted by their worth. -/
structure Moved (given : Int → Int) (worth : Int) (s t : Session) : Prop where
  settings : settings t.pl = settings s.pl
  confined : Confined s t
  items : ∀ id, id ∉ lockIds → contains t.pl.inv id = contains s.pl.inv id + given id
  worth : (purse t.pl).value = (purse s.pl).value + worth
  locks : ¬ Converts s.pl → t.pl.gems = s.pl.gems ∧
    ∀ id, contains t.pl.inv id = contains s.pl.inv id + given id

/-- So many of one item. -/
def single (i c : Int) : Int → Int := fun id => if i = id then c else 0

@[simp] theorem single_self (i c : Int) : single i c i = c := if_pos rfl

theorem Moved.trans (hst : Moved given worth s t) (htu : Moved more extra t u) :
    Moved (fun id => given id + more id) (worth + extra) s u where
  settings := htu.settings.trans hst.settings
  confined := hst.confined.trans htu.confined
  items id hid := by rw [htu.items id hid, hst.items id hid, add_assoc]
  worth := by rw [htu.worth, hst.worth, add_assoc]
  locks hquiet := by
    obtain ⟨hgems, hcounts⟩ := hst.locks hquiet
    obtain ⟨hgems', hcounts'⟩ :=
      htu.locks ((converts_of_settings hst.settings).not.mpr hquiet)
    exact ⟨hgems'.trans hgems, fun id => by rw [hcounts' id, hcounts id, add_assoc]⟩

/-- A call that makes its change, a sale apart. -/
theorem Outcome.moved {i c : Int} {pack : Pack Int} (hs : SlotInv s.pl.inv)
    (hchange : (view 0 s.pl.inv).change 200 i c = some pack) (h : Outcome s pack t) :
    Moved (single i c) (c * lockGems i) s t where
  settings := h.settings
  confined := h.confined
  items id hid := by
    rw [contains_eq_total h.slots, contains_eq_total hs]
    exact h.others hchange hid
  worth := h.value hchange
  locks hquiet := by
    have hpurse := h.quiet hquiet
    refine ⟨congrArg Purse.gems hpurse, fun id => ?_⟩
    rw [contains_of_purse h.slots hpurse, contains_eq_total hs]
    exact change_given hchange id

/-- A payment that there is enough for. -/
theorem modify_paid (hlocks : env.items.LocksListed) (hs : Live s) {i c : Int}
    (haccepts : Accepts env i) (hc : 0 < c) (henough : c ≤ contains s.pl.inv i)
    (forceReturn : Bool) :
    let taken := modify env s i (-c) forceReturn
    taken.ret = 0 ∧ Live taken.session ∧
      Moved (single i (-c)) (-c * lockGems i) s taken.session := by
  rw [contains_eq_total hs.slots] at henough
  have hcap := (hs.slots.wellFormed.total_bounds (by decide) (Int.ne_of_gt haccepts.1)).2
  obtain ⟨hret, houtcome⟩ := modify_taken forceReturn hlocks hs haccepts hc henough
  exact ⟨hret, houtcome.live hs, houtcome.moved hs.slots (Pack.change_less hc henough hcap)⟩

/-- A gift that fits, before the sale that may follow it. -/
theorem modify_gift (hlocks : env.items.LocksListed) (hs : Live s) {i c : Int}
    (haccepts : Accepts env i) (hc : 0 < c) (hfits : (view 0 s.pl.inv).Fits 200 i c)
    (forceReturn : Bool) :
    ∃ t, Live t ∧ Moved (single i c) (c * lockGems i) s t ∧
      (modify env s i c forceReturn).ret = 0 ∧
      (modify env s i c forceReturn).session = sellAfter env s.pl i c t := by
  have hnonneg := (hs.slots.wellFormed.total_bounds (by decide) (Int.ne_of_gt haccepts.1)).1
  rcases modify_called forceReturn hs.slots haccepts (by simp [hs.finite]) with
    ⟨next, left, hchanged, heq⟩ | ⟨left, -, hnone⟩
  · have houtcome := outcome_autoConvert hlocks hs hchanged
    refine ⟨_, houtcome.live hs, houtcome.moved hs.slots hchanged.view, ?_⟩
    rw [heq]
    exact ⟨rfl, rfl⟩
  · exact absurd hnone ((Pack.fits_iff hc hnonneg).mp hfits)

/-- There is room for a gift, and its id is a valid one. -/
def Taken (env : Env) (pl : Player) (i c : Int) : Prop :=
  Accepts env i ∧ (view 0 pl.inv).Fits 200 i c

/-- A gift starts no sale of fish. -/
def Unsold (env : Env) (pl : Player) (i c : Int) : Prop :=
  Sells env pl i c →
    kindsSold env ((view 0 pl.inv).plus i c).amount env.exchangeSetPrice = []

/-- What a gift puts up for sale, seen before the gift. -/
theorem sale_of_moved {i c : Int} (hlocks : env.items.LocksListed) (hs : SlotInv s.pl.inv)
    (hgift : Moved (single i c) worth s t) (hsells : Sells env s.pl i c) :
    sale env t.pl =
      kindsSold env ((view 0 s.pl.inv).plus i c).amount env.exchangeSetPrice := by
  obtain ⟨-, hon, hidle, -⟩ := hsells
  have hon' : t.pl.autosellfish = true :=
    (settings_congr hgift.settings Player.autosellfish fun _ => rfl).trans hon
  have hidle' : t.pl.autosellfishProcessing = false :=
    (settings_congr hgift.settings Player.autosellfishProcessing fun _ => rfl).trans hidle
  unfold sale
  rw [if_pos ⟨hon', hidle'⟩]
  apply kindsSold_congr hlocks
  intro other _ hother
  rw [hgift.items other.1 hother, contains_eq_total hs]
  by_cases hid : other.1 = i
  · simp [Pack.plus, single, hid]
  · simp [Pack.plus, single, Ne.symm hid]

theorem sellFish_live (hlocks : env.items.LocksListed) (hs : Live s)
    (hnodup : (env.exchangeSetPrice.map Prod.fst).Nodup) :
    Live (processAutoSellFishInventory env s) := by
  by_cases hnothing : sale env s.pl = []
  · rw [sellFish_of_nothing hs.slots hnothing]
    exact hs
  · have hactive : s.pl.autosellfish = true ∧ s.pl.autosellfishProcessing = false := by
      by_contra hnot
      exact hnothing (if_neg hnot)
    obtain ⟨u, -, hresult, hu, -⟩ := sale_taken hlocks hs hnodup hactive.1 hactive.2
    obtain ⟨hnonneg, hcap, -⟩ := takings_bounds (@sale_pos env s)
    obtain ⟨hlast, -⟩ := payForFish_paid hlocks hu hnonneg hcap
    rw [hresult, if_pos hnothing]
    exact ⟨hlast.slots, hlast.finite, hlast.gems⟩

/-- A gift is refused, or stays as it is put, or is followed by a sale that takes
something. -/
theorem modify_gift_cases (hlocks : env.items.LocksListed) (hs : Live s) {i c : Int}
    (hc : 0 < c) (forceReturn : Bool) :
    (¬ Taken env s.pl i c ∧ (modify env s i c forceReturn).ret ≠ 0 ∧
      (modify env s i c forceReturn).session = s) ∨
    (Taken env s.pl i c ∧ (modify env s i c forceReturn).ret = 0 ∧
      ∃ t, Live t ∧ Moved (single i c) (c * lockGems i) s t ∧
        ((Unsold env s.pl i c ∧ (modify env s i c forceReturn).session = t) ∨
          (¬ Unsold env s.pl i c ∧ sale env t.pl ≠ [] ∧
            (modify env s i c forceReturn).session =
              processAutoSellFishInventory env t))) := by
  by_cases htaken : Taken env s.pl i c
  · obtain ⟨t, ht, hgift, hret, hafter⟩ :=
      modify_gift hlocks hs htaken.1 hc htaken.2 forceReturn
    refine Or.inr ⟨htaken, hret, t, ht, hgift, ?_⟩
    rw [hafter, sellAfter]
    by_cases hunsold : Unsold env s.pl i c
    · refine Or.inl ⟨hunsold, ?_⟩
      split_ifs with hsells
      · apply sellFish_of_nothing ht.slots
        rw [sale_of_moved hlocks hs.slots hgift hsells]
        exact hunsold hsells
      · rfl
    · obtain ⟨hsells, hsome⟩ := Classical.not_imp.mp hunsold
      rw [← sale_of_moved hlocks hs.slots hgift hsells] at hsome
      exact Or.inr ⟨hunsold, hsome, if_pos hsells⟩
  · exact Or.inl ⟨htaken, modify_of_not_fits hs.slots hc forceReturn htaken⟩

/-- A sale takes all of something that there was. -/
theorem sold_one (hlocks : env.items.LocksListed) (hs : Live s)
    (hnodup : (env.exchangeSetPrice.map Prod.fst).Nodup) (hsome : sale env s.pl ≠ []) :
    (∃ id, id ∉ lockIds ∧ 0 < contains s.pl.inv id ∧
      contains (processAutoSellFishInventory env s).pl.inv id = 0) ∧
    ∀ id, id ∉ lockIds → contains (processAutoSellFishInventory env s).pl.inv id ≤
      contains s.pl.inv id := by
  have hleft := (sellFish_effect hlocks hs hnodup hsome).1
  have hsold : ∀ price ∈ sale env s.pl, sellable env (contains s.pl.inv) price = true := by
    intro price hprice
    unfold sale at hprice
    split_ifs at hprice
    · exact (List.mem_filter.mp hprice).2
    · cases hprice
  constructor
  · obtain ⟨price, hprice⟩ := List.exists_mem_of_ne_nil _ hsome
    obtain ⟨-, -, -, hfish, -, hcount⟩ := sellable_iff.mp (hsold price hprice)
    have hlock := fish_not_lock hlocks hfish
    refine ⟨price.1, hlock, hcount, ?_⟩
    rw [hleft price.1 hlock, if_pos (List.mem_map_of_mem hprice)]
  · intro id hid
    rw [hleft id hid]
    split_ifs with hmem
    · obtain ⟨price, hprice, rfl⟩ := List.mem_map.mp hmem
      exact le_of_lt (sellable_iff.mp (hsold price hprice)).2.2.2.2.2
    · exact le_refl _

end Finite

section Infinite

variable {env : Env} {s t : Session} {counts : Int → Int} {worth i c : Int}

/-- In infinite mode, with at least so many of each item and at least so much worth. -/
structure Grown (counts : Int → Int) (worth : Int) (t : Session) : Prop where
  infinite : t.pl.infiniteMode = true
  slots : SlotInv t.pl.inv
  counts : ∀ id, counts id ≤ total id t.pl.inv
  worth : worth ≤ (purse t.pl).value

/-- What a session has, it has at least. -/
theorem Grown.start (hs : SlotInv s.pl.inv) (hinfinite : s.pl.infiniteMode = true) :
    Grown (fun id => total id s.pl.inv) (purse s.pl).value s :=
  ⟨hinfinite, hs, fun _ => le_refl _, le_refl _⟩

theorem lockGems_nonneg (id : Int) : 0 ≤ lockGems id := by
  unfold lockGems packValue
  dsimp only
  split_ifs <;> omega

theorem lockGems_pos {id : Int} (hid : id ∈ lockIds) : 0 < lockGems id := by
  simp only [lockIds, List.mem_cons, List.not_mem_nil, or_false] at hid
  rcases hid with rfl | rfl | rfl | rfl | rfl <;> decide

/-- A gift is had besides. -/
theorem Grown.changed {next : Player} (ht : Grown counts worth t)
    (hchanged : Changed t.pl i c next) :
    Grown (fun id => counts id + single i c id) (worth + c * lockGems i)
      { t with pl := next } where
  infinite := (Player.core_congr hchanged.core Player.infiniteMode
    fun _ => rfl).trans ht.infinite
  slots := hchanged.slots
  counts id := by
    have hafter := change_given hchanged.view id
    simp only [view_amount] at hafter
    dsimp only [single]
    rw [hafter]
    exact add_le_add_left (ht.counts id) _
  worth := by
    have hgems : next.gems = t.pl.gems :=
      Player.core_congr hchanged.core Player.gems fun _ => rfl
    have hvalue : (purse next).value = (purse t.pl).value + c * lockGems i := by
      unfold Purse.value purse
      rw [hgems]
      exact packValue_give (change_given hchanged.view)
    dsimp only
    rw [hvalue]
    exact add_le_add_left ht.worth _

theorem Grown.less {fewer : Int → Int} {little : Int} (ht : Grown counts worth t)
    (hcounts : ∀ id, fewer id ≤ counts id) (hworth : little ≤ worth) : Grown fewer little t :=
  ⟨ht.infinite, ht.slots, fun id => (hcounts id).trans (ht.counts id), hworth.trans ht.worth⟩

/-- Without the gift there is still what there was. -/
theorem Grown.without (hc : 0 ≤ c)
    (ht : Grown (fun id => counts id + single i c id) (worth + c * lockGems i) t) :
    Grown counts worth t := by
  have hmore := Int.mul_nonneg hc (lockGems_nonneg i)
  apply ht.less _ (by omega)
  intro id
  unfold single
  split_ifs <;> omega

/-- The parts of a session that are looked at. -/
theorem Grown.congr (ht : Grown counts worth t)
    (hinfinite : s.pl.infiniteMode = t.pl.infiniteMode) (hinv : s.pl.inv = t.pl.inv)
    (hgems : s.pl.gems = t.pl.gems) : Grown counts worth s := by
  refine ⟨hinfinite.trans ht.infinite, hinv ▸ ht.slots, fun id => hinv ▸ ht.counts id, ?_⟩
  have hsame : purse s.pl = purse t.pl := by
    unfold purse
    rw [hinv, hgems]
  rw [hsame]
  exact ht.worth

/-- The gems for a lock that was given are worth no more than the lock. -/
theorem Grown.bought (ht : Grown counts (worth + 300000) t) :
    Grown counts worth { t with pl := { t.pl with gems := t.pl.gems - 300000 } } := by
  refine ⟨ht.infinite, ht.slots, ht.counts, ?_⟩
  have hbefore := ht.worth
  unfold Purse.value packValue purse at hbefore ⊢
  dsimp only at hbefore ⊢
  omega

section Callbacks

variable {convert sell : Session → Session}

/-- In infinite mode a call that is no gift taken in changes nothing. -/
theorem modifyWith_still (hinfinite : t.pl.infiniteMode = true) {forceReturn : Bool}
    (hnot : ¬ ((modifyWith env convert sell t i c forceReturn).ret = 0 ∧ 0 ≤ c)) :
    (modifyWith env convert sell t i c forceReturn).session = t := by
  by_cases hc : 0 ≤ c
  · have hret := fun h => hnot ⟨h, hc⟩
    unfold modifyWith at hret ⊢
    split_ifs at hret ⊢ with hguard hmode
    · rfl
    · rfl
    · split at hret
      · rfl
      · dsimp only at hret
        split_ifs at hret <;> exact absurd rfl hret
  · unfold modifyWith
    split_ifs with hguard hmode
    · rfl
    · rfl
    · exact absurd ⟨hinfinite, by omega⟩ hmode

/-- A gift that is taken in is there after both callbacks. -/
theorem Grown.modifyWith_given
    (hconvert : ∀ {counts worth t}, Grown counts worth t → Grown counts worth (convert t))
    (hsell : ∀ {counts worth t}, Grown counts worth t → Grown counts worth (sell t))
    (ht : Grown counts worth t) (hc : 0 ≤ c) {forceReturn : Bool}
    (hret : (modifyWith env convert sell t i c forceReturn).ret = 0) :
    Grown (fun id => counts id + single i c id) (worth + c * lockGems i)
      (modifyWith env convert sell t i c forceReturn).session := by
  unfold modifyWith at hret ⊢
  split_ifs at hret ⊢ with hguard hinfinite
  · cases hret
  · omega
  · rcases @modifySlots_spec env.items t.pl i c forceReturn ht.slots (by omega)
      (by omega) with ⟨next, left, heq, hchanged⟩ | ⟨left, heq, -⟩
    · have hnext := hconvert (ht.changed hchanged)
      rw [heq]
      dsimp only
      split_ifs
      · exact hsell hnext
      · exact hnext
    · rw [heq] at hret
      cases hret

theorem Grown.modifyWith
    (hconvert : ∀ {counts worth t}, Grown counts worth t → Grown counts worth (convert t))
    (hsell : ∀ {counts worth t}, Grown counts worth t → Grown counts worth (sell t))
    (ht : Grown counts worth t) (i c : Int) (forceReturn : Bool) :
    Grown counts worth (modifyWith env convert sell t i c forceReturn).session := by
  by_cases hgiven : (Inventory.modifyWith env convert sell t i c forceReturn).ret = 0 ∧ 0 ≤ c
  · exact (ht.modifyWith_given hconvert hsell hgiven.2 hgiven.1).without hgiven.2
  · rw [modifyWith_still ht.infinite hgiven]
    exact ht

end Callbacks

/-- At every depth of calls. -/
theorem carried_grown (env : Env) (depth : Nat) (counts : Int → Int) (worth : Int) :
    Carried (modifyN env depth) (Grown counts worth) := by
  have hcall : ∀ {convert sell : Session → Session},
      (∀ {counts worth t}, Grown counts worth t → Grown counts worth (convert t)) →
      (∀ {counts worth t}, Grown counts worth t → Grown counts worth (sell t)) →
      ∀ {counts worth}, Carried (Inventory.modifyWith env convert sell) (Grown counts worth) := by
    intro convert sell hconvert hsell counts worth
    refine ⟨fun t ht hret => ?_, fun t i c forceReturn ht =>
      ht.modifyWith hconvert hsell i c forceReturn, fun _ _ _ _ _ _ ht =>
        ht.congr rfl rfl rfl⟩
    have hgiven := ht.modifyWith_given hconvert hsell (by decide) hret
    have hworth : worth + 300000 ≤ worth + 1 * lockGems 1796 := by
      have hgems : lockGems 1796 = 300000 := by decide
      omega
    have hless : ∀ id, counts id ≤ counts id + single 1796 1 id := by
      intro id
      unfold single
      split_ifs <;> omega
    have hmore := (hgiven.less hless hworth).bought
    dsimp only at hmore ⊢
    exact hmore
  induction depth generalizing counts worth with
  | zero => exact hcall (fun ht => ht) fun ht => ht
  | succ depth ih =>
      exact hcall (fun ht => (ih _ _).autoConvertWith (fun _ _ h => h.congr rfl rfl rfl) ht)
        fun ht => (ih _ _).sellFishWith env (fun _ _ h => h.congr rfl rfl rfl) ht

theorem Grown.modify (ht : Grown counts worth t) (i c : Int) (forceReturn : Bool) :
    Grown counts worth (modify env t i c forceReturn).session :=
  (carried_grown env 2 counts worth).modify t i c forceReturn ht

/-- A gift in infinite mode is still there, whatever else was added. -/
theorem Grown.given (ht : Grown counts worth t) (hc : 0 ≤ c) {forceReturn : Bool}
    (hret : (Inventory.modify env t i c forceReturn).ret = 0) :
    Grown (fun id => counts id + single i c id) (worth + c * lockGems i)
      (Inventory.modify env t i c forceReturn).session := by
  rw [modify_eq] at hret ⊢
  exact ht.modifyWith_given
    (fun hu => (carried_grown env 2 _ _).autoConvertWith (fun _ _ h => h.congr rfl rfl rfl) hu)
    (fun hu => (carried_grown env 2 _ _).sellFishWith env (fun _ _ h => h.congr rfl rfl rfl) hu)
    hc hret

/-- Nothing is taken in infinite mode. -/
theorem modify_infinite_take (hinfinite : s.pl.infiniteMode = true) (hc : 0 < c)
    (haccepts : Accepts env i) (henough : c ≤ contains s.pl.inv i) (forceReturn : Bool) :
    modify env s i (-c) forceReturn = ⟨0, 0, s⟩ := by
  have hslots : s.pl.inv ≠ [] := by
    intro hnil
    rw [hnil] at henough
    have hzero : contains [] i = 0 := rfl
    omega
  rw [modify_eq]
  unfold modifyWith
  rw [if_neg, if_pos ⟨hinfinite, by omega⟩]
  rw [@guard_iff env s i (-c) haccepts]
  simp only [hslots, or_false]
  omega

/-- A gift is taken in exactly when it is accepted and fits. -/
theorem modify_gift_iff (hs : SlotInv s.pl.inv) (hc : 0 < c) (forceReturn : Bool) :
    (modify env s i c forceReturn).ret = 0 ↔
      Accepts env i ∧ (view 0 s.pl.inv).Fits 200 i c := by
  constructor
  · intro hret
    by_contra hnot
    exact (modify_of_not_fits hs hc forceReturn hnot).1 hret
  · rintro ⟨haccepts, hfits⟩
    have hnonneg := (hs.wellFormed.total_bounds (by decide) (Int.ne_of_gt haccepts.1)).1
    rcases @modify_called env s i c forceReturn hs haccepts (by omega) with
      ⟨next, left, -, heq⟩ | ⟨left, -, hnone⟩
    · rw [heq]
    · exact absurd hnone ((Pack.fits_iff hc hnonneg).mp hfits)

end Infinite

section Others

variable {modify : Session → Int → Int → Bool → Modified} {env : Env} {s t : Session}
  {counts : Int → Int} {i c : Int}

/-- `Modify` for locks and for what is taken only, which is all that its callbacks ask
of it. -/
def onLocks (modify : Session → Int → Int → Bool → Modified) (s : Session) (i c : Int)
    (forceReturn : Bool) : Modified :=
  if i ∈ lockIds ∨ c ≤ 0 then modify s i c forceReturn else ⟨-1, c, s⟩

theorem tryConvertItem_onLocks {fromId toId : Int} (hfrom : fromId ∈ lockIds)
    (hto : toId ∈ lockIds) :
    tryConvertItem (onLocks modify) fromId toId = tryConvertItem modify fromId toId := by
  have hbody : convertItemBody (onLocks modify) fromId toId =
      convertItemBody modify fromId toId := by
    funext state
    unfold convertItemBody onLocks
    simp only [hfrom, hto, true_or, ↓reduceIte]
  funext enabled s
  unfold tryConvertItem
  rw [hbody]

theorem convertRound_onLocks : convertRound (onLocks modify) = convertRound modify := by
  have hgems : tryConvertGems (onLocks modify) = tryConvertGems modify := by
    have hdl : (1796 : Int) ∈ lockIds := by decide
    have hbody : convertGemsBody (onLocks modify) = convertGemsBody modify := by
      funext state
      unfold convertGemsBody onLocks
      simp only [hdl, true_or, ↓reduceIte]
    funext s
    unfold tryConvertGems
    rw [hbody]
  funext s
  unfold convertRound
  rw [hgems, tryConvertItem_onLocks (by decide) (by decide),
    tryConvertItem_onLocks (by decide) (by decide),
    tryConvertItem_onLocks (by decide) (by decide),
    tryConvertItem_onLocks (by decide) (by decide)]

theorem autoConvertWith_onLocks : autoConvertWith (onLocks modify) = autoConvertWith modify := by
  have hround : convertRoundsBody (onLocks modify) = convertRoundsBody modify := by
    funext s
    unfold convertRoundsBody
    rw [convertRound_onLocks]
  funext s
  unfold autoConvertWith
  rw [hround]

theorem giveLockOrDrop_onLocks (hi : i ∈ lockIds) :
    giveLockOrDrop (onLocks modify) env i = giveLockOrDrop modify env i := by
  have hbody : giveLockBody (onLocks modify) env i = giveLockBody modify env i := by
    funext state
    unfold giveLockBody onLocks
    simp only [hi, true_or, ↓reduceIte]
  funext amount s
  unfold giveLockOrDrop
  rw [hbody]

theorem sellFishWith_onLocks : sellFishWith (onLocks modify) env = sellFishWith modify env := by
  have hkind : sellFishKind (onLocks modify) env = sellFishKind modify env := by
    funext state price
    unfold sellFishKind
    dsimp only
    split_ifs with hprice hid hfish hcount <;>
      simp_all [onLocks, Int.le_of_lt]
  have hpay : payForFish (onLocks modify) env = payForFish modify env := by
    funext totalWl s
    unfold payForFish
    rw [giveLockOrDrop_onLocks (by decide), giveLockOrDrop_onLocks (by decide),
      giveLockOrDrop_onLocks (by decide), giveLockOrDrop_onLocks (by decide)]
  funext s
  unfold sellFishWith
  rw [hkind, hpay]

/-- In infinite mode, with exactly so many of each item but the locks. -/
structure Even (counts : Int → Int) (t : Session) : Prop where
  infinite : t.pl.infiniteMode = true
  slots : SlotInv t.pl.inv
  counts : ∀ id, id ∉ lockIds → total id t.pl.inv = counts id

theorem Even.congr (ht : Even counts t)
    (hinfinite : s.pl.infiniteMode = t.pl.infiniteMode) (hinv : s.pl.inv = t.pl.inv) :
    Even counts s :=
  ⟨hinfinite.trans ht.infinite, hinv ▸ ht.slots, fun id hid => hinv ▸ ht.counts id hid⟩

theorem Even.changed {next : Player} (ht : Even counts t) (hchanged : Changed t.pl i c next) :
    Even (fun id => counts id + single i c id) { t with pl := next } where
  infinite := (Player.core_congr hchanged.core Player.infiniteMode
    fun _ => rfl).trans ht.infinite
  slots := hchanged.slots
  counts id hid := by
    have hafter := change_given hchanged.view id
    simp only [view_amount] at hafter
    dsimp only [single]
    rw [hafter, ht.counts id hid]

/-- A gift that is taken in, over callbacks that leave the other items alone. -/
theorem Even.modifyWith_given {convert sell : Session → Session}
    (hconvert : ∀ {counts t}, Even counts t → Even counts (convert t))
    (hsell : ∀ {counts t}, Even counts t → Even counts (sell t)) (ht : Even counts t)
    (hc : 0 ≤ c) {forceReturn : Bool}
    (hret : (modifyWith env convert sell t i c forceReturn).ret = 0) :
    Even (fun id => counts id + single i c id)
      (modifyWith env convert sell t i c forceReturn).session := by
  unfold modifyWith at hret ⊢
  split_ifs at hret ⊢ with hguard hinfinite
  · cases hret
  · omega
  · rcases @modifySlots_spec env.items t.pl i c forceReturn ht.slots (by omega)
      (by omega) with ⟨next, left, heq, hchanged⟩ | ⟨left, heq, -⟩
    · have hnext := hconvert (ht.changed hchanged)
      rw [heq]
      dsimp only
      split_ifs
      · exact hsell hnext
      · exact hnext
    · rw [heq] at hret
      cases hret

/-- A gift of a lock is none of another item. -/
theorem Even.of_lock (hi : i ∈ lockIds ∨ c = 0)
    (ht : Even (fun id => counts id + single i c id) t) : Even counts t := by
  refine ⟨ht.infinite, ht.slots, fun id hid => ?_⟩
  rw [ht.counts id hid]
  unfold single
  split_ifs with hsame
  · have hzero := hi.resolve_left fun hlock => hid (hsame ▸ hlock)
    omega
  · exact add_zero _

/-- What a version of `Modify` does in infinite mode. -/
structure Infinitely (modify : Session → Int → Int → Bool → Modified) : Prop where
  given : ∀ {counts t} i c forceReturn, Even counts t → 0 ≤ c →
    (modify t i c forceReturn).ret = 0 →
      Even (fun id => counts id + single i c id) (modify t i c forceReturn).session
  still : ∀ {t : Session} i c forceReturn, t.pl.infiniteMode = true →
    ¬ ((modify t i c forceReturn).ret = 0 ∧ 0 ≤ c) →
      (modify t i c forceReturn).session = t

/-- The callbacks leave every item but the locks alone. -/
theorem Infinitely.carried (hmodify : Infinitely modify) :
    Carried (onLocks modify) (Even counts) := by
  have hcall : ∀ t i c forceReturn, Even counts t →
      Even counts (onLocks modify t i c forceReturn).session := by
    intro t i c forceReturn ht
    unfold onLocks
    split_ifs with hlock
    · by_cases hgiven : (modify t i c forceReturn).ret = 0 ∧ 0 ≤ c
      · exact (hmodify.given i c forceReturn ht hgiven.2 hgiven.1).of_lock
          (hlock.imp_right fun hle => le_antisymm hle hgiven.2)
      · rw [hmodify.still i c forceReturn ht.infinite hgiven]
        exact ht
    · exact ht
  exact ⟨fun t ht _ => (hcall t 1796 1 true ht).congr rfl rfl, hcall,
    fun _ _ _ _ _ _ ht => ht.congr rfl rfl⟩

/-- At every depth of calls. -/
theorem infinitely_modifyN (env : Env) (depth : Nat) : Infinitely (modifyN env depth) := by
  induction depth with
  | zero =>
      exact ⟨fun i c forceReturn ht hc hret =>
          ht.modifyWith_given (fun hu => hu) (fun hu => hu) hc hret,
        fun i c forceReturn hinfinite hnot => modifyWith_still hinfinite hnot⟩
  | succ depth ih =>
      refine ⟨fun i c forceReturn ht hc hret =>
          ht.modifyWith_given (fun hu => ?_) (fun hu => ?_) hc hret,
        fun i c forceReturn hinfinite hnot => modifyWith_still hinfinite hnot⟩
      · rw [← autoConvertWith_onLocks]
        exact ih.carried.autoConvertWith (fun _ _ h => h.congr rfl rfl) hu
      · rw [← sellFishWith_onLocks]
        exact ih.carried.sellFishWith env (fun _ _ h => h.congr rfl rfl) hu

/-- In infinite mode a gift that is taken in moves its own item only, locks apart. -/
theorem modify_infinite_others (hs : SlotInv s.pl.inv) (hinfinite : s.pl.infiniteMode = true)
    (hc : 0 ≤ c) {forceReturn : Bool} (hret : (Inventory.modify env s i c forceReturn).ret = 0)
    {id : Int} (hid : id ∉ lockIds) :
    total id (Inventory.modify env s i c forceReturn).session.pl.inv =
      total id s.pl.inv + single i c id := by
  have hstart : Even (fun id => total id s.pl.inv) s := ⟨hinfinite, hs, fun _ _ => rfl⟩
  exact ((infinitely_modifyN env 2).given i c forceReturn hstart hc hret).counts id hid

end Others

end Inventory

end NopyServer
