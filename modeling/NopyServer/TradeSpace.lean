/-
`trade_space_check` against what it foretells.  The check counts the slots that
an offer needs; the trade then adds the offered items one after another, each
with a call of `Modify`.  The two agree for what a backpack can hold, in every
order of the calls.
-/
import NopyServer.FishSale
import NopyServer.TradeRuns

namespace NopyServer

open Inventory SlotPack

namespace Trade

section Space

variable {env : Env} {now : Int} {server : Server} {p q : Nat} {pl cp : Player}
  {inv offer : List (Int × Int)} {s : Session}

/-- `Modify` succeeds for every item of an offer, one after another. -/
def addsAll (env : Env) : List (Int × Int) → Session → Bool
  | [], _ => true
  | entry :: rest, s =>
      let added := modify env s entry.1 entry.2 false
      added.ret == 0 && addsAll env rest added.session

/-- The entries of an offer: items that a backpack can hold, in amounts of at
most a stack. -/
def Stackable (env : Env) (offer : List (Int × Int)) : Prop :=
  ∀ entry ∈ offer, Accepts env entry.1 ∧ 1 ≤ entry.2 ∧ entry.2 ≤ 200

instance (env : Env) (offer : List (Int × Int)) : Decidable (Stackable env offer) :=
  inferInstanceAs (Decidable (∀ entry ∈ offer, _))

/-- No call for an item of the offer converts or sells anything.  A sale is set
off by any fish that arrives, and takes every fish with a price. -/
structure Undisturbed (env : Env) (pl : Player) (offer : List (Int × Int)) :
    Prop where
  convert : pl.autoConvert = false ∨ pl.autoConvertProcessing = true
  sell : pl.autosellfish = false ∨ pl.autosellfishProcessing = true ∨
    (∀ entry ∈ offer, env.items.isFish entry.1 = false) ∨
    ∀ price ∈ env.exchangeSetPrice, sellable env (fun _ => 1) price = true →
      contains pl.inv price.1 = 0 ∧ price.1 ∉ offer.map Prod.fst

theorem answer_of_accepts (hslots : SlotInv inv) {i : Int}
    (haccepts : Accepts env i) :
    answer env inv i = (view 0 inv).amount i := by
  have hanswer : answer env inv i = contains inv i := if_pos haccepts
  rw [hanswer, contains_eq_total hslots i]
  rfl

/-- The loop of the check counts a slot for each item without a stack. -/
theorem slotsNeeded_eq (hslots : SlotInv inv) (hoffer : Stackable env offer)
    (slots : Int) :
    slotsNeeded env inv offer slots =
      if ∀ entry ∈ offer, (view 0 inv).amount entry.1 + entry.2 ≤ 200 then
        some (slots - offer.length +
          offer.countP fun entry => decide ((view 0 inv).amount entry.1 = 0))
      else none := by
  induction offer generalizing slots with
  | nil => simp [slotsNeeded]
  | cons entry rest ih =>
      obtain ⟨⟨haccepts, hpos, hstack⟩, hrest⟩ := List.forall_mem_cons.mp hoffer
      unfold slotsNeeded
      rw [answer_of_accepts hslots haccepts, ih hrest, ih hrest, List.length_cons,
        List.countP_cons]
      have hamount := (hslots.wellFormed.total_bounds (by decide)
        (Int.ne_of_gt haccepts.1)).1
      change 0 ≤ (view 0 inv).amount entry.1 at hamount
      by_cases hhead : (view 0 inv).amount entry.1 + entry.2 ≤ 200
      · have hfull : ¬ 200 < (view 0 inv).amount entry.1 + entry.2 := by omega
        have hall : (∀ other ∈ entry :: rest,
              (view 0 inv).amount other.1 + other.2 ≤ 200) ↔
            ∀ other ∈ rest, (view 0 inv).amount other.1 + other.2 ≤ 200 := by
          rw [List.forall_mem_cons]
          exact and_iff_right hhead
        by_cases hfits : ∀ other ∈ rest,
            (view 0 inv).amount other.1 + other.2 ≤ 200
        · rw [if_neg hfull, if_pos hfits, if_pos hfits, if_pos (hall.mpr hfits)]
          by_cases hzero : (view 0 inv).amount entry.1 = 0
          · rw [if_neg (not_not_intro hzero), if_pos (decide_eq_true hzero)]
            congr 1
            push_cast
            omega
          · rw [if_pos hzero, if_neg fun hnone => hzero (of_decide_eq_true hnone)]
            congr 1
            push_cast
            omega
        · rw [if_neg hfull, if_neg hfits, if_neg hfits, ite_self,
            if_neg (hall.not.mpr hfits)]
      · have hfull : 200 < (view 0 inv).amount entry.1 + entry.2 := by omega
        rw [if_pos hfull, if_pos (by omega), if_neg]
        intro hall
        exact hhead (hall entry List.mem_cons_self)

theorem spaceFor_iff (hslots : SlotInv inv) (hoffer : Stackable env offer) :
    spaceFor env inv offer = true ↔ (view 0 inv).FitsAll 200 offer := by
  unfold spaceFor Pack.FitsAll
  rw [slotsNeeded_eq hslots hoffer]
  have hroom : (view 0 inv).room = getSlots inv := rfl
  by_cases hcap : ∀ entry ∈ offer, (view 0 inv).amount entry.1 + entry.2 ≤ 200
  · rw [if_pos hcap, hroom, and_iff_right hcap]
    simp only [decide_eq_true_eq]
    omega
  · rw [if_neg hcap]
    constructor
    · intro hfalse
      cases hfalse
    · rintro ⟨hall, -⟩
      exact absurd hall hcap

theorem Undisturbed.congr {next : Player} {rest : List (Int × Int)}
    (hcalm : Undisturbed env pl offer) (hcore : next.core = pl.core)
    (hrest : ∀ entry ∈ rest, entry ∈ offer)
    (hheld : ∀ i ∉ offer.map Prod.fst, contains next.inv i = contains pl.inv i) :
    Undisturbed env next rest := by
  have hconvert : next.autoConvert = pl.autoConvert :=
    Player.core_congr hcore Player.autoConvert fun _ => rfl
  have hprocessing : next.autoConvertProcessing = pl.autoConvertProcessing :=
    Player.core_congr hcore Player.autoConvertProcessing fun _ => rfl
  have hfish : next.autosellfish = pl.autosellfish :=
    Player.core_congr hcore Player.autosellfish fun _ => rfl
  have hselling : next.autosellfishProcessing = pl.autosellfishProcessing :=
    Player.core_congr hcore Player.autosellfishProcessing fun _ => rfl
  constructor
  · rw [hconvert, hprocessing]
    exact hcalm.convert
  · rw [hfish, hselling]
    rcases hcalm.sell with hoff | hbusy | hplain | hunsold
    · exact Or.inl hoff
    · exact Or.inr (Or.inl hbusy)
    · exact Or.inr (Or.inr (Or.inl fun entry hentry => hplain entry (hrest entry hentry)))
    · refine Or.inr (Or.inr (Or.inr fun price hprice hsells => ?_))
      obtain ⟨hnone, hnot⟩ := hunsold price hprice hsells
      refine ⟨(hheld price.1 hnot).trans hnone, fun hmem => hnot ?_⟩
      obtain ⟨entry, hentry, heq⟩ := List.mem_map.mp hmem
      exact List.mem_map.mpr ⟨entry, hrest entry hentry, heq⟩

/-- A call for an item of the offer is the change of its stack alone. -/
theorem modify_undisturbed (hslots : SlotInv s.pl.inv) (hcalm : Undisturbed env s.pl offer)
    {i c : Int} (haccepts : Accepts env i) (hi : i ∈ offer.map Prod.fst) (hc : 0 < c) :
    (∃ next left, modify env s i c false = ⟨0, left, { s with pl := next }⟩ ∧
      Changed s.pl i c next) ∨
    (∃ left, modify env s i c false = ⟨-1, left, s⟩ ∧
      (view 0 s.pl.inv).change 200 i c = none) := by
  rcases @modify_called env s i c false hslots haccepts (by omega) with
    ⟨next, left, hchanged, hcall⟩ | hrefused
  · left
    have hquiet : next.autoConvert = false ∨ next.autoConvertProcessing = true := by
      rw [Player.core_congr hchanged.core Player.autoConvert fun _ => rfl,
        Player.core_congr hchanged.core Player.autoConvertProcessing fun _ => rfl]
      exact hcalm.convert
    have hunsold : sellAfter env s.pl i c { s with pl := next } = { s with pl := next } := by
      apply sellAfter_of_nothing (s := { s with pl := next }) hchanged.slots rfl
      rintro ⟨-, hon, hidle, -, -, hfish⟩
      rcases hcalm.sell with hoff | hbusy | hplain | hunsold
      · exact absurd (hoff.symm.trans hon) (by decide)
      · exact absurd (hidle.symm.trans hbusy) (by decide)
      · obtain ⟨entry, hentry, rfl⟩ := List.mem_map.mp hi
        exact absurd ((hplain entry hentry).symm.trans hfish) (by decide)
      · refine List.filter_eq_nil_iff.mpr fun price hprice hsells => ?_
        have hother : ∀ {amount : Int → Int}, sellable env amount price = true →
            sellable env (fun _ => 1) price = true ∧ 0 < amount price.1 := by
          intro amount h
          simp only [sellable, Bool.and_eq_true, decide_eq_true_eq] at h ⊢
          exact ⟨⟨h.1, by decide⟩, h.2⟩
        obtain ⟨hpriced, hsome⟩ := hother hsells
        obtain ⟨hnone, hnot⟩ := hunsold price hprice hpriced
        have hne : price.1 ≠ i := fun heq => hnot (heq ▸ hi)
        rw [contains_eq_total hslots] at hnone
        have hkept : (view 0 next.inv).amount price.1 = total price.1 s.pl.inv :=
          Pack.change_amount_of_ne hchanged.view hne
        dsimp only at hsome
        omega
    refine ⟨next, left, ?_, hchanged⟩
    rw [hcall, autoConvert, autoConvertWith_quiet hquiet, hunsold]
  · exact Or.inr hrefused

/-- All calls succeed exactly when the backpack has room for all items. -/
theorem addsAll_iff (hslots : SlotInv s.pl.inv) (hoffer : Stackable env offer)
    (hdistinct : (offer.map Prod.fst).Nodup)
    (hcalm : Undisturbed env s.pl offer) :
    addsAll env offer s = true ↔ (view 0 s.pl.inv).FitsAll 200 offer := by
  induction offer generalizing s with
  | nil => simp [addsAll, Pack.FitsAll]
  | cons entry rest ih =>
      obtain ⟨⟨haccepts, hpos, hstack⟩, hrest⟩ := List.forall_mem_cons.mp hoffer
      rw [List.map_cons, List.nodup_cons] at hdistinct
      have hother : ∀ other ∈ rest, other.1 ≠ entry.1 := by
        intro other hmem heq
        exact hdistinct.1 (heq ▸ List.mem_map_of_mem hmem)
      have hamount := (hslots.wellFormed.total_bounds (by decide)
        (Int.ne_of_gt haccepts.1)).1
      rw [Pack.fitsAll_cons hamount hother]
      unfold addsAll
      dsimp only
      rcases modify_undisturbed hslots hcalm haccepts (by simp) hpos with
        ⟨next, left, hadded, hchanged⟩ | ⟨left, hadded, hnone⟩
      · have hview := Pack.eq_plus_of_change hpos hamount hchanged.view
        have hfits : (view 0 s.pl.inv).Fits 200 entry.1 entry.2 :=
          (Pack.fits_iff hpos hamount).mpr
            (by rw [hchanged.view]; exact Option.some_ne_none _)
        have hheld : ∀ i ∉ (entry :: rest).map Prod.fst,
            contains next.inv i = contains s.pl.inv i := by
          intro i hi
          have hne : i ≠ entry.1 := fun heq => hi (by simp [heq])
          rw [contains_eq_total hchanged.slots, contains_eq_total hslots]
          exact Pack.change_amount_of_ne hchanged.view hne
        have hlater := @ih { s with pl := next } hchanged.slots hrest hdistinct.2
          (hcalm.congr hchanged.core (fun other => List.mem_cons_of_mem entry) hheld)
        rw [hadded]
        dsimp only
        rw [Bool.and_eq_true, hlater, ← hview]
        exact ⟨fun hboth => ⟨hfits, hboth.2⟩, fun hboth => ⟨rfl, hboth.2⟩⟩
      · rw [hadded]
        have hnot := fun hfits => (Pack.fits_iff hpos hamount).mp hfits hnone
        constructor
        · intro hfailed
          cases hfailed
        · rintro ⟨hfits, -⟩
          exact absurd hfits hnot

/-- The check says whether all offered items can be added, in every order. -/
def Foretells (env : Env) (now : Int) (server : Server) (p q : Nat)
    (pl cp : Player) : Prop :=
  (tradeSpaceCheck env now p q server).1 = true ↔
    ∀ order, order.Perm cp.trading.tradeItems →
      addsAll env order (server.session pl now) = true

/-- The check is right about every offer of the items that are `allowed`. -/
def ForetellsFor (allowed : Env → Player → List (Int × Int) → Prop) : Prop :=
  ∀ (env : Env) (now : Int) (server : Server) (p q : Nat) (pl cp : Player),
    server.players[p]? = some pl → server.players[q]? = some cp →
    SlotInv pl.inv → pl.autoConvert = false → pl.infiniteMode = false →
    Offer cp.trading.tradeItems →
    (∀ entry ∈ cp.trading.tradeItems, entry.2 ≤ 200) →
    allowed env pl cp.trading.tradeItems → Foretells env now server p q pl cp

/-- For an offer of distinct items that a backpack can hold, in amounts of at
most a stack, and a receiver for whom no sale of fish is set off, the check says
whether all of them can be added, in every order. -/
theorem tradeSpaceCheck_foretells (hpl : server.players[p]? = some pl)
    (hcp : server.players[q]? = some cp) (hslots : SlotInv pl.inv)
    (hdistinct : (cp.trading.tradeItems.map Prod.fst).Nodup)
    (hoffer : Stackable env cp.trading.tradeItems)
    (hcalm : Undisturbed env pl cp.trading.tradeItems) :
    Foretells env now server p q pl cp := by
  unfold Foretells
  rw [tradeSpaceCheck_eq hpl hcp hslots]
  have hadds : ∀ order, order.Perm cp.trading.tradeItems →
      (addsAll env order (server.session pl now) = true ↔
        (view 0 pl.inv).FitsAll 200 cp.trading.tradeItems) := by
    intro order horder
    rw [← Pack.FitsAll.perm horder]
    refine addsAll_iff hslots (fun entry hentry =>
        hoffer entry (horder.mem_iff.mp hentry))
      ((horder.map Prod.fst).nodup_iff.mpr hdistinct) ?_
    exact hcalm.congr rfl (fun entry hentry => horder.mem_iff.mp hentry) fun _ _ => rfl
  rw [spaceFor_iff hslots hoffer]
  constructor
  · intro hfits order horder
    exact (hadds order horder).mpr hfits
  · intro hall
    exact (hadds _ (List.Perm.refl _)).mp (hall _ (List.Perm.refl _))

/-- A receiver with a full stack and two free slots, and somebody who offers. -/
def receiving (sells : Bool) (offer : List (Int × Int)) : Server where
  players := [{ inv := [(8, 200), (0, 0), (0, 0)], autosellfish := sells },
    offerer offer]

/-- Gems never get into a backpack, and a fish that is sold on arrival leaves
its locks in the slots of what comes next. -/
theorem tradeSpaceCheck_misjudges :
    ¬ ForetellsFor (fun _ _ _ => True) ∧
      ¬ ForetellsFor (fun _ pl _ => pl.autosellfish = false) ∧
      ¬ ForetellsFor (fun env _ offer => ∀ entry ∈ offer, Accepts env entry.1) := by
  have hgem : ¬ ForetellsFor fun _ pl _ => pl.autosellfish = false := by
    intro hall
    have hforetells := hall { items := ⟨200, fun _ => {}⟩ } 0
      (receiving false [(112, 1)]) 0 1 _ _ rfl rfl (by decide) rfl rfl
      ⟨by decide, by decide, by decide⟩ (by decide) rfl
    exact absurd (hforetells.mp (by decide) [(112, 1)] (List.Perm.refl _))
      (by decide)
  refine ⟨?_, hgem, ?_⟩
  · intro hall
    apply hgem
    intro env now server p q pl cp hpl hcp hslots hconvert hfinite hoffer hcounts _
    exact hall env now server p q pl cp hpl hcp hslots hconvert hfinite hoffer
      hcounts trivial
  · intro hall
    have hforetells := hall
      { items := ⟨20298, fun id => if id = 3000 then { blockType := .fish } else {}⟩
        exchangeSetPrice := [(3000, 101)] } 0
      (receiving true [(3000, 1), (2, 1)]) 0 1 _ _ rfl rfl (by decide) rfl rfl
      ⟨by decide, by decide, by decide⟩ (by decide)
      (by simp only [offerer]; decide)
    exact absurd (hforetells.mp (by decide) [(3000, 1), (2, 1)]
      (List.Perm.refl _)) (by decide)

/-- A stack that is full and a new item. -/
theorem tradeSpaceCheck_foretells_full :
    Foretells { items := ⟨200, fun _ => {}⟩ } 0 (receiving false [(2, 1), (8, 1)])
      0 1 { inv := [(8, 200), (0, 0), (0, 0)] } (offerer [(2, 1), (8, 1)]) :=
  tradeSpaceCheck_foretells rfl rfl (by decide) (by decide) (by decide)
    ⟨Or.inl rfl, Or.inl rfl⟩

end Space

end Trade

end NopyServer
