/-
What holds over a trade.  Two players of one world send the messages of a trade
in any order: their offers keep at most four entries, and no acceptance survives
a changed offer, as long as no step runs into one of the slips of the functions
of a trade.  `cancel_trade` clears both offers and leaves the partner's
acceptance; the second copy of `mod_trade` changes an offer and resets only the
sender's acceptance; and the dialog `trade_item` lets a negative count through.
-/
import NopyServer.BoxLedger
import NopyServer.Trade

namespace NopyServer

open Inventory SlotPack

namespace Trade

section Offers

variable {itemId count : Int} {offer next : List (Int × Int)}

/-- What an offer should be. -/
structure Offer (offer : List (Int × Int)) : Prop where
  short : offer.length ≤ 4
  distinct : (offer.map Prod.fst).Nodup
  counts : ∀ entry ∈ offer, 1 ≤ entry.2

theorem offer_nil : Offer [] := ⟨by decide, by decide, by simp⟩

theorem Offer.sublist (hoffer : Offer offer) (hsub : next.Sublist offer) :
    Offer next where
  short := hsub.length_le.trans hoffer.short
  distinct := (hsub.map Prod.fst).nodup hoffer.distinct
  counts entry hentry := hoffer.counts entry (hsub.subset hentry)

/-- One iteration leaves the state alone or moves the entry to the end. -/
theorem changeEntry_cases (itemId count : Int) (state : List (Int × Int) × Bool)
    (i : Nat) :
    (changeEntry itemId count state i = state ∧
        ∀ entry, state.1[i]? = some entry → entry.1 ≠ itemId) ∨
      ∃ entry last, state.1[i]? = some entry ∧
        state.1[state.1.length - 1]? = some last ∧ entry.1 = itemId ∧
        changeEntry itemId count state i =
          ((state.1.set i last).set (state.1.length - 1) (itemId, count), true) := by
  unfold changeEntry
  split
  next entry last hentry hlast =>
    rw [List.getLast?_eq_getElem?] at hlast
    split_ifs with hitem
    · exact Or.inr ⟨entry, last, hentry, hlast, hitem, rfl⟩
    · refine Or.inl ⟨rfl, fun other hother => ?_⟩
      rw [hentry] at hother
      rw [← Option.some.inj hother]
      exact hitem
  next hnone =>
    refine Or.inl ⟨rfl, fun entry hentry => ?_⟩
    have hne : state.1 ≠ [] := List.ne_nil_of_mem (List.mem_of_getElem? hentry)
    exact (hnone entry _ hentry (List.getLast?_eq_some_getLast hne)).elim

/-- The ids of an offer and whether its counts are right. -/
structure Rearranged (offer next : List (Int × Int)) : Prop where
  ids : (next.map Prod.fst).Perm (offer.map Prod.fst)
  counts : (∀ entry ∈ offer, 1 ≤ entry.2) → ∀ entry ∈ next, 1 ≤ entry.2

theorem changeEntry_rearranged (hcount : 1 ≤ count)
    (state : List (Int × Int) × Bool) (i : Nat)
    (hstate : Rearranged offer state.1) :
    Rearranged offer (changeEntry itemId count state i).1 := by
  rcases changeEntry_cases itemId count state i with
    ⟨hsame, -⟩ | ⟨entry, last, hentry, hlast, hitem, hmoved⟩
  · rw [hsame]
    exact hstate
  · rw [hmoved]
    constructor
    · refine List.Perm.trans ?_ hstate.ids
      obtain ⟨hi, hentry⟩ := List.getElem?_eq_some_iff.mp hentry
      obtain ⟨hj, hlast⟩ := List.getElem?_eq_some_iff.mp hlast
      have hperm := @List.set_set_perm _ (state.1.map Prod.fst) i
        (state.1.length - 1) (by simpa using hi) (by simpa using hj)
      simpa [List.map_set, hentry, hlast, hitem] using hperm
    · intro hcounts other hother
      have hbefore := hstate.counts hcounts
      rcases List.mem_or_eq_of_mem_set hother with hset | rfl
      · rcases List.mem_or_eq_of_mem_set hset with hold | rfl
        · exact hbefore other hold
        · exact hbefore other (List.mem_of_getElem? hlast)
      · exact hcount

theorem changeOffer_rearranged (hcount : 1 ≤ count) (offer : List (Int × Int)) :
    Rearranged offer (changeOffer itemId count offer).1 := by
  have hstart : Rearranged offer (offer, false).1 := ⟨List.Perm.refl _, fun h => h⟩
  refine List.foldlRecOn (List.range offer.length) (changeEntry itemId count)
    (motive := fun state => Rearranged offer state.1) hstart ?_
  intro state hstate i _
  exact changeEntry_rearranged hcount state i hstate

/-- As long as the flag is not set the loop has met no entry of the item. -/
theorem changeOffer_prefix (k : Nat) :
    let state := (List.range k).foldl (changeEntry itemId count) (offer, false)
    state.2 = false → state.1 = offer ∧
      ∀ j < k, ∀ entry, offer[j]? = some entry → entry.1 ≠ itemId := by
  induction k with
  | zero => exact fun _ => ⟨rfl, fun j hj => absurd hj (Nat.not_lt_zero j)⟩
  | succ k ih =>
      rw [List.range_succ, List.foldl_append, List.foldl_cons, List.foldl_nil]
      dsimp only at ih ⊢
      generalize (List.range k).foldl (changeEntry itemId count) (offer, false) =
        state at ih ⊢
      intro hflag
      rcases changeEntry_cases itemId count state k with
        ⟨hsame, hother⟩ | ⟨entry, last, -, -, -, hmoved⟩
      · rw [hsame] at hflag ⊢
        obtain ⟨hoffer, hbefore⟩ := ih hflag
        refine ⟨hoffer, fun j hj => ?_⟩
        rcases Nat.lt_succ_iff_lt_or_eq.mp hj with hlt | rfl
        · exact hbefore j hlt
        · rw [hoffer] at hother
          exact hother
      · rw [hmoved] at hflag
        cases hflag

theorem changeOffer_absent (hflag : (changeOffer itemId count offer).2 = false) :
    (changeOffer itemId count offer).1 = offer ∧
      ∀ entry ∈ offer, entry.1 ≠ itemId := by
  obtain ⟨hoffer, hother⟩ := changeOffer_prefix offer.length hflag
  refine ⟨hoffer, fun entry hentry => ?_⟩
  obtain ⟨j, hj⟩ := List.mem_iff_getElem?.mp hentry
  exact hother j (List.getElem?_eq_some_iff.mp hj).1 entry hj

theorem changeOffer_of_absent (habsent : ∀ entry ∈ offer, entry.1 ≠ itemId) :
    changeOffer itemId count offer = (offer, false) := by
  refine List.foldlRecOn (List.range offer.length) (changeEntry itemId count)
    (motive := fun state => state = (offer, false)) rfl ?_
  intro state hstate i _
  rcases changeEntry_cases itemId count state i with
    ⟨hsame, -⟩ | ⟨entry, last, hentry, -, hitem, -⟩
  · rw [hsame]
    exact hstate
  · rw [hstate] at hentry
    exact absurd hitem (habsent entry (List.mem_of_getElem? hentry))

/-- Adding to an offer keeps it what it should be. -/
theorem addOffer_offer (hcount : 1 ≤ count) (hoffer : Offer offer)
    (hadd : addOffer itemId count offer = some next) : Offer next := by
  have hrearranged := @changeOffer_rearranged itemId count hcount offer
  unfold addOffer at hadd
  dsimp only at hadd
  split_ifs at hadd with hflag hfull
  · rw [← Option.some.inj hadd]
    refine ⟨?_, hrearranged.ids.nodup_iff.mpr hoffer.distinct,
      hrearranged.counts hoffer.counts⟩
    have hlength := hrearranged.ids.length_eq
    rw [List.length_map, List.length_map] at hlength
    rw [hlength]
    exact hoffer.short
  · obtain ⟨hsame, habsent⟩ := changeOffer_absent
      (Bool.eq_false_iff.mpr hflag)
    rw [hsame] at hadd hfull
    rw [← Option.some.inj hadd]
    refine ⟨?_, ?_, ?_⟩
    · rw [List.length_append, List.length_singleton]
      omega
    · rw [List.map_append, List.nodup_append]
      refine ⟨hoffer.distinct, by simp, fun id hid other hother => ?_⟩
      obtain ⟨entry, hentry, rfl⟩ := List.mem_map.mp hid
      rw [List.mem_singleton.mp hother]
      exact habsent entry hentry
    · intro entry hentry
      rcases List.mem_append.mp hentry with hold | hnew
      · exact hoffer.counts entry hold
      · rw [List.mem_singleton.mp hnew]
        exact hcount

theorem removeOffer_offer (hoffer : Offer offer) (itemId : Int) :
    Offer (removeOffer itemId offer) :=
  hoffer.sublist List.eraseP_sublist

/-- A message that asks for the offer there already is. -/
def Idles (itemId count : Int) (remove : Bool) (offer : List (Int × Int)) : Prop :=
  if remove then ∀ entry ∈ offer, entry.1 ≠ itemId
  else count = 0 ∨ offer.getLast? = some (itemId, count) ∨
    ((∀ entry ∈ offer, entry.1 ≠ itemId) ∧ 4 ≤ offer.length)

/-- The offer that the second copy of `mod_trade` computes. -/
def aloneOffer (itemId count : Int) (remove : Bool) (offer : List (Int × Int)) :
    Option (List (Int × Int)) :=
  if remove then some (removeOffer itemId offer)
  else if count = 0 then none
  else addOffer itemId count offer

/-- An entry that is the last one already stays where it is. -/
theorem changeOffer_last (hdistinct : (offer.map Prod.fst).Nodup)
    (hlast : offer.getLast? = some (itemId, count)) :
    (changeOffer itemId count offer).1 = offer := by
  rw [List.getLast?_eq_getElem?] at hlast
  have hstart : (offer, false).1 = offer := rfl
  refine List.foldlRecOn (List.range offer.length) (changeEntry itemId count)
    (motive := fun state => state.1 = offer) hstart ?_
  intro state hstate i _
  rcases changeEntry_cases itemId count state i with
    ⟨hsame, -⟩ | ⟨entry, last, hentry, -, hitem, hmoved⟩
  · rw [hsame]
    exact hstate
  · rw [hmoved]
    rw [hstate] at hentry ⊢
    have hid : (offer.map Prod.fst)[i]? = (offer.map Prod.fst)[offer.length - 1]? := by
      rw [List.getElem?_map, List.getElem?_map, hentry, hlast, Option.map_some,
        Option.map_some, hitem]
    have hlt : i < (offer.map Prod.fst).length := by
      rw [List.length_map]
      exact (List.getElem?_eq_some_iff.mp hentry).1
    rw [(List.getElem?_inj hlt hdistinct).mp hid, List.set_set]
    obtain ⟨hi, hget⟩ := List.getElem?_eq_some_iff.mp hlast
    rw [← hget]
    exact List.set_getElem_self hi

theorem aloneOffer_idle {remove : Bool} (hoffer : Offer offer)
    (hidles : Idles itemId count remove offer) :
    aloneOffer itemId count remove offer = none ∨
      aloneOffer itemId count remove offer = some offer := by
  unfold Idles at hidles
  unfold aloneOffer
  cases remove with
  | true =>
      right
      rw [if_pos rfl] at hidles ⊢
      unfold removeOffer
      rw [List.eraseP_of_forall_not fun entry hentry => by
        simpa using hidles entry hentry]
  | false =>
      rw [if_neg Bool.false_ne_true] at hidles ⊢
      by_cases hzero : count = 0
      · exact Or.inl (if_pos hzero)
      · rw [if_neg hzero]
        rcases hidles with hzero' | hlast | ⟨habsent, hfull⟩
        · exact absurd hzero' hzero
        · right
          have hsame := changeOffer_last hoffer.distinct hlast
          have hflag : (changeOffer itemId count offer).2 = true := by
            by_contra hflag
            have habsent := (changeOffer_absent (Bool.eq_false_iff.mpr hflag)).2
            exact habsent _ (List.mem_of_getLast? hlast) rfl
          unfold addOffer
          dsimp only
          rw [hflag, if_pos rfl, hsame]
        · left
          unfold addOffer
          rw [changeOffer_of_absent habsent]
          dsimp only
          rw [if_neg Bool.false_ne_true, if_pos (Nat.lt_of_succ_le hfull)]

theorem aloneOffer_offer {remove : Bool} (hcount : 0 ≤ count ∨ remove = true)
    (hoffer : Offer offer)
    (halone : aloneOffer itemId count remove offer = some next) : Offer next := by
  unfold aloneOffer at halone
  split_ifs at halone with hremove hzero
  · rw [← Option.some.inj halone]
    exact removeOffer_offer hoffer itemId
  · refine addOffer_offer ?_ hoffer halone
    rcases hcount with hcount | hcount
    · omega
    · exact absurd hcount hremove

end Offers

section Seats

variable {server : Server} {p q : Nat} {pl cp : Player} {tp tq : Trading}

/-- Two players of one loaded world, whom their ids tell from everybody else
there, and who trade with each other or with nobody. -/
structure Pair (server : Server) (p q : Nat) (pl cp : Player) : Prop where
  first : server.players[p]? = some pl
  second : server.players[q]? = some cp
  apart : p ≠ q
  together : cp.world = pl.world
  loaded : (loadedWorld server pl.world).isSome = true
  firstId : ∀ (k : Nat) (third : Player), server.players[k]? = some third →
    third.world = pl.world → third.netID = pl.netID → k = p
  secondId : ∀ (k : Nat) (third : Player), server.players[k]? = some third →
    third.world = pl.world → third.netID = cp.netID → k = q
  real : ∀ (k : Nat) (third : Player), server.players[k]? = some third →
    third.world = pl.world → third.netID ≠ -1
  firstWith : pl.trading.tradingWith = -1 ∨ pl.trading.tradingWith = cp.netID
  secondWith : cp.trading.tradingWith = -1 ∨ cp.trading.tradingWith = pl.netID
  firstSlots : SlotInv pl.inv
  secondSlots : SlotInv cp.inv

theorem Pair.symm (hpair : Pair server p q pl cp) : Pair server q p cp pl where
  first := hpair.second
  second := hpair.first
  apart := hpair.apart.symm
  together := hpair.together.symm
  loaded := by
    rw [hpair.together]
    exact hpair.loaded
  firstId := by
    rw [hpair.together]
    exact hpair.secondId
  secondId := by
    rw [hpair.together]
    exact hpair.firstId
  real := by
    rw [hpair.together]
    exact hpair.real
  firstWith := hpair.secondWith
  secondWith := hpair.firstWith
  firstSlots := hpair.secondSlots
  secondSlots := hpair.firstSlots

/-- Each of the two names the other. -/
def Mutual (pl cp : Player) : Prop :=
  pl.trading.tradingWith = cp.netID ∧ cp.trading.tradingWith = pl.netID

instance (pl cp : Player) : Decidable (Mutual pl cp) :=
  inferInstanceAs (Decidable (_ ∧ _))

theorem isPartner_iff (pl cp : Player) :
    isPartner pl cp = true ↔ cp.world = pl.world ∧ Mutual pl cp := by
  unfold isPartner Mutual
  simp only [Bool.and_eq_true, beq_iff_eq]
  constructor
  · rintro ⟨⟨hworld, hpl⟩, hcp⟩
    exact ⟨hworld, hpl.symm, hcp.symm⟩
  · rintro ⟨hworld, hpl, hcp⟩
    exact ⟨⟨hworld, hpl.symm⟩, hcp.symm⟩

/-- A partner can only be the other one of the two. -/
theorem Pair.partner_second (hpair : Pair server p q pl cp) {k : Nat}
    {third : Player} (hthird : server.players[k]? = some third)
    (hpartner : isPartner pl third = true) : k = q := by
  obtain ⟨hworld, hwith, -⟩ := (isPartner_iff pl third).mp hpartner
  rcases hpair.firstWith with hnone | hsecond
  · exact absurd (hwith.symm.trans hnone) (hpair.real k third hthird hworld)
  · exact hpair.secondId k third hthird hworld (hwith.symm.trans hsecond)

theorem Pair.partner_eq (hpair : Pair server p q pl cp) :
    partner server pl = if Mutual pl cp then some q else none := by
  unfold partner
  cases hfound : server.players.findIdx? (isPartner pl) with
  | none =>
      rw [List.findIdx?_eq_none_iff] at hfound
      rw [if_neg]
      intro hmutual
      have hnot := hfound cp (List.mem_of_getElem? hpair.second)
      rw [(isPartner_iff pl cp).mpr ⟨hpair.together, hmutual⟩] at hnot
      cases hnot
  | some k =>
      obtain ⟨hlt, hpartner, -⟩ := List.findIdx?_eq_some_iff_getElem.mp hfound
      have hthird := List.getElem?_eq_getElem hlt
      have hk := hpair.partner_second hthird hpartner
      subst hk
      rw [hpair.second] at hthird
      rw [← Option.some.inj hthird, isPartner_iff] at hpartner
      rw [if_pos hpartner.2]

/-- The server with other trades of the two. -/
def seat (p q : Nat) (tp tq : Trading) (server : Server) : Server :=
  mapTrading p (fun _ => tp) (mapTrading q (fun _ => tq) server)

theorem seat_first (hpl : server.players[p]? = some pl) (hapart : p ≠ q) :
    (seat p q tp tq server).players[p]? = some { pl with trading := tp } := by
  simp [seat, mapTrading, Server.mapPlayer, hpl, hapart.symm]

theorem seat_second (hcp : server.players[q]? = some cp) (hapart : p ≠ q) :
    (seat p q tp tq server).players[q]? = some { cp with trading := tq } := by
  simp [seat, mapTrading, Server.mapPlayer, hcp, hapart]

theorem mapTrading_first (f : Trading → Trading) :
    mapTrading p f (seat p q tp tq server) = seat p q (f tp) tq server := by
  simp [seat, mapTrading, Server.mapPlayer, List.modify_modify_eq, Function.comp_def]

theorem mapTrading_second (hapart : p ≠ q) (f : Trading → Trading) :
    mapTrading q f (seat p q tp tq server) = seat p q tp (f tq) server := by
  simp only [seat, mapTrading, Server.mapPlayer]
  rw [List.modify_modify_ne _ _ _ hapart, List.modify_modify_eq]
  rfl

theorem Pair.seat_self (hpair : Pair server p q pl cp) :
    seat p q pl.trading cp.trading server = server := by
  have hsecond : server.players.modify q (fun cp' =>
      { cp' with trading := cp.trading }) = server.players :=
    Ledger.modify_fixed hpair.second rfl
  have hfirst : server.players.modify p (fun pl' =>
      { pl' with trading := pl.trading }) = server.players :=
    Ledger.modify_fixed hpair.first rfl
  simp only [seat, mapTrading, Server.mapPlayer, hsecond, hfirst]

theorem Pair.map_first (hpair : Pair server p q pl cp) (f : Trading → Trading) :
    mapTrading p f server = seat p q (f pl.trading) cp.trading server := by
  have hself := @mapTrading_first server p q pl.trading cp.trading f
  rwa [hpair.seat_self] at hself

theorem Pair.map_second (hpair : Pair server p q pl cp) (f : Trading → Trading) :
    mapTrading q f server = seat p q pl.trading (f cp.trading) server := by
  have hself := @mapTrading_second server p q pl.trading cp.trading
    hpair.apart f
  rwa [hpair.seat_self] at hself

theorem seat_seat (hapart : p ≠ q) (sp sq : Trading) :
    seat p q tp tq (seat p q sp sq server) = seat p q tp tq server := by
  change mapTrading p (fun _ => tp) (mapTrading q (fun _ => tq) _) = _
  rw [mapTrading_second hapart, mapTrading_first]

theorem seat_comm (hapart : p ≠ q) :
    seat q p tq tp server = seat p q tp tq server := by
  simp only [seat, mapTrading, Server.mapPlayer]
  rw [List.modify_modify_ne _ _ _ hapart]

/-- Other trades of the two, who still trade with each other or with nobody. -/
theorem Pair.reseat (hpair : Pair server p q pl cp) {tp tq : Trading}
    (hfirst : tp.tradingWith = -1 ∨ tp.tradingWith = cp.netID)
    (hsecond : tq.tradingWith = -1 ∨ tq.tradingWith = pl.netID) :
    Pair (seat p q tp tq server) p q { pl with trading := tp }
      { cp with trading := tq } := by
  have hback : ∀ (k : Nat) (third : Player),
      (seat p q tp tq server).players[k]? = some third →
      ∃ old, server.players[k]? = some old ∧ third.world = old.world ∧
        third.netID = old.netID := by
    intro k third hthird
    simp only [seat, mapTrading, Server.mapPlayer, List.getElem?_modify] at hthird
    cases hold : server.players[k]? with
    | none =>
        rw [hold] at hthird
        cases hthird
    | some old =>
        rw [hold] at hthird
        refine ⟨old, rfl, ?_⟩
        rw [← Option.some.inj hthird]
        dsimp only
        split_ifs <;> exact ⟨rfl, rfl⟩
  refine ⟨seat_first hpair.first hpair.apart, seat_second hpair.second hpair.apart,
    hpair.apart, hpair.together, hpair.loaded, ?_, ?_, ?_, hfirst, hsecond,
    hpair.firstSlots, hpair.secondSlots⟩
  · intro k third hthird hworld hid
    obtain ⟨old, hold, holdWorld, holdId⟩ := hback k third hthird
    exact hpair.firstId k old hold (holdWorld.symm.trans hworld)
      (holdId.symm.trans hid)
  · intro k third hthird hworld hid
    obtain ⟨old, hold, holdWorld, holdId⟩ := hback k third hthird
    exact hpair.secondId k old hold (holdWorld.symm.trans hworld)
      (holdId.symm.trans hid)
  · intro k third hthird hworld
    obtain ⟨old, hold, holdWorld, holdId⟩ := hback k third hthird
    rw [holdId]
    exact hpair.real k old hold (holdWorld.symm.trans hworld)

/-- Worlds of the same names. -/
theorem Pair.worlds (hpair : Pair server p q pl cp) {worlds : List World}
    (hnames : worlds.map World.name = server.worlds.map World.name) :
    Pair { server with worlds := worlds } p q pl cp := by
  refine ⟨hpair.first, hpair.second, hpair.apart, hpair.together, ?_,
    hpair.firstId, hpair.secondId, hpair.real, hpair.firstWith, hpair.secondWith,
    hpair.firstSlots, hpair.secondSlots⟩
  have hloaded := hpair.loaded
  unfold loadedWorld at hloaded ⊢
  rw [List.find?_isSome] at hloaded ⊢
  obtain ⟨world, hworld, hname⟩ := hloaded
  have hmem : world.name ∈ worlds.map World.name := by
    rw [hnames]
    exact List.mem_map_of_mem hworld
  obtain ⟨same, hsame, hsameName⟩ := List.mem_map.mp hmem
  exact ⟨same, hsame, by rw [hsameName]; exact hname⟩

end Seats

section Steps

variable {server : Server} {p q : Nat} {pl cp : Player} {itemId count : Int}
  {remove : Bool}

/-- The trades of the two after a step: right offers, and no acceptance when an
offer has changed. -/
structure Outcome (pl cp : Player) (tp tq : Trading) : Prop where
  firstOffer : Offer tp.tradeItems
  secondOffer : Offer tq.tradeItems
  firstWith : tp.tradingWith = -1 ∨ tp.tradingWith = cp.netID
  secondWith : tq.tradingWith = -1 ∨ tq.tradingWith = pl.netID
  cleared : tp.tradeItems ≠ pl.trading.tradeItems ∨
      tq.tradeItems ≠ cp.trading.tradeItems →
    tp.tradeAccept = false ∧ tq.tradeAccept = false

/-- The same offers and partners. -/
structure SameDeal (pl cp : Player) (tp tq : Trading) : Prop where
  firstItems : tp.tradeItems = pl.trading.tradeItems
  secondItems : tq.tradeItems = cp.trading.tradeItems
  firstWith : tp.tradingWith = pl.trading.tradingWith
  secondWith : tq.tradingWith = cp.trading.tradingWith

/-- A step that changes the trades of the two and nothing else that matters. -/
def Settles (server : Server) (p q : Nat) (pl cp : Player) (next : Server) :
    Prop :=
  ∃ tp tq worlds, next = { seat p q tp tq server with worlds := worlds } ∧
    worlds.map World.name = server.worlds.map World.name ∧ Outcome pl cp tp tq

theorem Settles.of_seat {tp tq : Trading} {next : Server}
    (hnext : next = seat p q tp tq server) (houtcome : Outcome pl cp tp tq) :
    Settles server p q pl cp next :=
  ⟨tp, tq, server.worlds, hnext, rfl, houtcome⟩

theorem Settles.symm {next : Server} (hapart : p ≠ q)
    (hsettles : Settles server q p cp pl next) : Settles server p q pl cp next := by
  obtain ⟨tq, tp, worlds, rfl, hnames, houtcome⟩ := hsettles
  refine ⟨tp, tq, worlds, ?_, hnames, ?_⟩
  · rw [seat_comm hapart]
  · exact ⟨houtcome.secondOffer, houtcome.firstOffer, houtcome.secondWith,
      houtcome.firstWith, fun hchanged => (houtcome.cleared hchanged.symm).symm⟩

/-- `cancel_trade` on the two. -/
theorem Pair.cancelTrade_eq (hpair : Pair server p q pl cp) :
    cancelTrade p server = seat p q {}
      (if Mutual pl cp then Trading.left cp.trading else cp.trading) server := by
  unfold cancelTrade
  rw [hpair.first, Option.bind_some, hpair.partner_eq]
  by_cases hmutual : Mutual pl cp
  · rw [if_pos hmutual, if_pos hmutual]
    dsimp only
    rw [hpair.map_second, mapTrading_first]
  · rw [if_neg hmutual, if_neg hmutual]
    dsimp only
    rw [hpair.map_first]

variable (hpair : Pair server p q pl cp) (hfirst : Offer pl.trading.tradeItems)
  (hsecond : Offer cp.trading.tradeItems)

include hpair hfirst hsecond

theorem SameDeal.outcome {tp tq : Trading} (hsame : SameDeal pl cp tp tq) :
    Outcome pl cp tp tq where
  firstOffer := hsame.firstItems ▸ hfirst
  secondOffer := hsame.secondItems ▸ hsecond
  firstWith := hsame.firstWith ▸ hpair.firstWith
  secondWith := hsame.secondWith ▸ hpair.secondWith
  cleared hchanged := hchanged.elim (absurd hsame.firstItems)
    (absurd hsame.secondItems)

/-- A step that does nothing. -/
theorem settles_same : Settles server p q pl cp server :=
  Settles.of_seat hpair.seat_self.symm
    (SameDeal.outcome hpair hfirst hsecond ⟨rfl, rfl, rfl, rfl⟩)

/-- `cancel_trade` finds the other without acceptance, or nothing to clear. -/
def CancelSafe (pl cp : Player) : Prop :=
  cp.trading.tradeAccept = false ∨
    pl.trading.tradeItems = [] ∧ (Mutual pl cp → cp.trading.tradeItems = [])

omit hfirst in
theorem cancelTrade_settles (hsafe : CancelSafe pl cp) :
    Settles server p q pl cp (cancelTrade p server) := by
  refine Settles.of_seat hpair.cancelTrade_eq ⟨offer_nil, ?_, Or.inl rfl, ?_, ?_⟩
  · split_ifs
    · exact offer_nil
    · exact hsecond
  · split_ifs
    · exact Or.inl rfl
    · exact hpair.secondWith
  · intro hchanged
    refine ⟨rfl, ?_⟩
    have haccept : (if Mutual pl cp then Trading.left cp.trading
        else cp.trading).tradeAccept = cp.trading.tradeAccept := by
      split_ifs <;> rfl
    rw [haccept]
    rcases hsafe with hsafe | ⟨hmine, htheirs⟩
    · exact hsafe
    · exfalso
      rcases hchanged with hchanged | hchanged
      · exact hchanged hmine.symm
      · split_ifs at hchanged with hmutual
        · exact hchanged (htheirs hmutual).symm
        · exact hchanged rfl

/-- The second copy of `mod_trade` finds the other without acceptance, or leaves
the offer as it is. -/
def AloneSafe (pl cp : Player) (itemId count : Int) (remove : Bool) : Prop :=
  cp.trading.tradeAccept = false ∨ Idles itemId count remove pl.trading.tradeItems

theorem modAlone_settles (hcount : 0 ≤ count ∨ remove = true)
    (hsafe : AloneSafe pl cp itemId count remove) :
    Settles server p q pl cp (modAlone p pl itemId count remove server) := by
  unfold modAlone
  cases hoffer : aloneOffer itemId count remove pl.trading.tradeItems with
  | none =>
      unfold aloneOffer at hoffer
      simp only [hoffer]
      exact settles_same hpair hfirst hsecond
  | some tradeItems =>
      have hplain := hoffer
      unfold aloneOffer at hplain
      simp only [hplain]
      rw [if_pos (by exact hpair.loaded), setAccept, setOffer, hpair.map_first,
        mapTrading_first]
      refine Settles.of_seat rfl ⟨aloneOffer_offer hcount hfirst hoffer, hsecond,
        hpair.firstWith, hpair.secondWith, fun hchanged => ⟨rfl, ?_⟩⟩
      rcases hsafe with hsafe | hidles
      · exact hsafe
      · exfalso
        rcases aloneOffer_idle hfirst hidles with hnone | hsame
        · rw [hnone] at hoffer
          cases hoffer
        · rw [hsame] at hoffer
          rcases hchanged with hchanged | hchanged
          · exact hchanged (Option.some.inj hoffer).symm
          · exact hchanged rfl

theorem modWith_settles (hcount : 1 ≤ count ∨ remove = true) :
    Settles server p q pl cp (modWith p q pl itemId count remove server) := by
  unfold modWith
  cases remove with
  | true =>
      rw [if_pos rfl]
      dsimp only
      have hoffer := removeOffer_offer hfirst itemId
      by_cases hnone : offered itemId pl.trading.tradeItems = 0
      · rw [if_pos hnone, setOffer, hpair.map_first]
        have hseat := @Pair.reseat server p q pl cp hpair
          { pl.trading with
            tradeItems := removeOffer itemId pl.trading.tradeItems }
          cp.trading hpair.firstWith hpair.secondWith
        rw [hseat.cancelTrade_eq, seat_seat hpair.apart, setAccept, setAccept,
          mapTrading_first, mapTrading_second hpair.apart]
        refine Settles.of_seat rfl ⟨offer_nil, ?_, Or.inl rfl, ?_,
          fun _ => ⟨rfl, rfl⟩⟩
        · dsimp only
          split_ifs
          · exact offer_nil
          · exact hsecond
        · dsimp only
          split_ifs
          · exact Or.inl rfl
          · exact hpair.secondWith
      · rw [if_neg hnone, setAccept, setAccept, setOffer, hpair.map_first,
          mapTrading_first, mapTrading_second hpair.apart]
        exact Settles.of_seat rfl ⟨hoffer, hsecond, hpair.firstWith,
          hpair.secondWith, fun _ => ⟨rfl, rfl⟩⟩
  | false =>
      rw [if_neg Bool.false_ne_true]
      cases hadd : addOffer itemId count pl.trading.tradeItems with
      | none => exact settles_same hpair hfirst hsecond
      | some tradeItems =>
          dsimp only
          rw [setAccept, setAccept, setOffer, hpair.map_first, mapTrading_first,
            mapTrading_second hpair.apart]
          have hpos : 1 ≤ count := hcount.resolve_right Bool.false_ne_true
          exact Settles.of_seat rfl ⟨addOffer_offer hpos hfirst hadd, hsecond,
            hpair.firstWith, hpair.secondWith, fun _ => ⟨rfl, rfl⟩⟩

/-- A call of `mod_trade` that meets no slip. -/
def ModSafe (server : Server) (pl cp : Player) (itemId count : Int)
    (remove : Bool) : Prop :=
  pl.trading.tradingWith ≠ -1 →
    if Mutual pl cp then
      if pl.trading.blockTrade then CancelSafe pl cp
      else if cp.trading.blockTrade then CancelSafe cp pl
      else ∀ world, loadedWorld server pl.world = some world →
        leavesSearch pl cp world itemId count remove = true →
        AloneSafe pl cp itemId count remove
    else AloneSafe pl cp itemId count remove

theorem modTrade_settles (hcount : 0 ≤ count ∨ remove = true)
    (hsafe : ModSafe server pl cp itemId count remove) :
    Settles server p q pl cp (modTrade p itemId count remove server) := by
  unfold modTrade
  rw [hpair.first]
  dsimp only
  by_cases hnobody : pl.trading.tradingWith = -1
  · rw [if_pos hnobody]
    exact settles_same hpair hfirst hsecond
  · rw [if_neg hnobody, hpair.partner_eq]
    have hsafe := hsafe hnobody
    by_cases hmutual : Mutual pl cp
    · rw [if_pos hmutual] at hsafe ⊢
      obtain ⟨world, hworld⟩ := Option.isSome_iff_exists.mp hpair.loaded
      dsimp only
      rw [hpair.second, hworld]
      dsimp only
      cases hblock : pl.trading.blockTrade with
      | true =>
          rw [hblock, if_pos rfl] at hsafe
          rw [if_pos (Or.inl rfl), if_pos rfl]
          exact cancelTrade_settles hpair hsecond hsafe
      | false =>
          rw [hblock, if_neg Bool.false_ne_true] at hsafe
          cases hotherBlock : cp.trading.blockTrade with
          | true =>
              rw [hotherBlock, if_pos rfl] at hsafe
              rw [if_pos (Or.inr rfl), if_neg Bool.false_ne_true]
              exact (cancelTrade_settles hpair.symm hfirst hsafe).symm hpair.apart
          | false =>
              rw [hotherBlock, if_neg Bool.false_ne_true] at hsafe
              rw [if_neg (by simp)]
              split
              next hleaves =>
                exact modAlone_settles hpair hfirst hsecond hcount
                  (hsafe world hworld hleaves)
              next hstays =>
                refine modWith_settles hpair hfirst hsecond ?_
                rcases hcount with hcount | hremove
                · by_contra hnot
                  have hzero : count = 0 ∧ remove = false := by
                    rw [not_or, Bool.not_eq_true] at hnot
                    exact ⟨by omega, hnot.2⟩
                  exact hstays (by simp [leavesSearch, hzero])
                · exact Or.inr hremove
    · rw [if_neg hmutual] at hsafe ⊢
      exact modAlone_settles hpair hfirst hsecond hcount hsafe

/-- The key of a world that the player does not own. -/
def foreignKey (server : Server) (pl : Player) (itemId : Int) : Bool :=
  (itemId == 1424 || itemId == 5816) &&
    (loadedWorld server pl.world).any fun world =>
      !iequals world.ownerName pl.tankIDName

/-- A message with an item that meets no slip, where what follows does not. -/
def OfferSafe (env : Env) (cch : String) (server : Server) (pl cp : Player)
    (follows : Int → Int → Prop) : Prop :=
  ∀ itemId, messageItem cch = some itemId → contains pl.inv itemId ≠ 0 →
    (env.items.item itemId).untradeable = false →
    env.items.isFish itemId = false →
    if foreignKey server pl itemId = true ∧ pl.trading.tradingWith ≠ -1 then
      CancelSafe pl cp
    else (Mutual pl cp ∧ itemId = 5816 ∧ cp.guildId ≠ 0) ∨
      follows itemId (contains pl.inv itemId)

omit hfirst hsecond in
theorem guildss_eq (itemId : Int) :
    (server.players.any fun cp =>
        isPartner pl cp && itemId == 5816 && cp.guildId != 0) = true ↔
      Mutual pl cp ∧ itemId = 5816 ∧ cp.guildId ≠ 0 := by
  rw [List.any_eq_true]
  constructor
  · rintro ⟨third, hthird, hall⟩
    simp only [Bool.and_eq_true, beq_iff_eq, bne_iff_ne] at hall
    obtain ⟨⟨hpartner, hitem⟩, hguild⟩ := hall
    obtain ⟨k, hk⟩ := List.mem_iff_getElem?.mp hthird
    rw [hpair.partner_second hk hpartner, hpair.second] at hk
    rw [← Option.some.inj hk] at hpartner hguild
    exact ⟨((isPartner_iff pl cp).mp hpartner).2, hitem, hguild⟩
  · rintro ⟨hmutual, hitem, hguild⟩
    refine ⟨cp, List.mem_of_getElem? hpair.second, ?_⟩
    simp only [Bool.and_eq_true, beq_iff_eq, bne_iff_ne]
    exact ⟨⟨(isPartner_iff pl cp).mpr ⟨hpair.together, hmutual⟩, hitem⟩, hguild⟩

theorem offerMessage_settles {env : Env} {cch : String}
    {next : Int → Int → Server → Server} {follows : Int → Int → Prop}
    (hidle : ∀ itemId c server pl, server.players[p]? = some pl →
      pl.trading.tradingWith = -1 → next itemId c server = server)
    (hnext : ∀ itemId c, follows itemId c →
      Settles server p q pl cp (next itemId c server))
    (hsafe : OfferSafe env cch server pl cp follows) :
    Settles server p q pl cp (offerMessage env cch p next server) := by
  have hsame := settles_same hpair hfirst hsecond
  unfold offerMessage
  rw [hpair.first]
  cases hmessage : messageItem cch with
  | none => exact hsame
  | some itemId =>
      dsimp only
      by_cases hnone : contains pl.inv itemId = 0
      · rw [if_pos hnone]
        exact hsame
      rw [if_neg hnone]
      by_cases hbanned : (env.items.item itemId).untradeable = true ∨
          env.items.isFish itemId = true
      · rw [if_pos hbanned]
        exact hsame
      rw [if_neg hbanned]
      rw [not_or, Bool.not_eq_true, Bool.not_eq_true] at hbanned
      have hsafe := hsafe itemId hmessage hnone hbanned.1 hbanned.2
      change Settles server p q pl cp
        (if (server.players.any fun cp =>
            isPartner pl cp && itemId == 5816 && cp.guildId != 0) = true then
          (if foreignKey server pl itemId = true ∧ pl.trading.tradingWith ≠ -1 then
            cancelTrade p server else server)
        else next itemId (contains pl.inv itemId)
          (if foreignKey server pl itemId = true ∧ pl.trading.tradingWith ≠ -1 then
            cancelTrade p server else server))
      by_cases hforeign : foreignKey server pl itemId = true ∧
          pl.trading.tradingWith ≠ -1
      · rw [if_pos hforeign] at hsafe ⊢
        have hcancelled := cancelTrade_settles hpair hsecond hsafe
        split
        · exact hcancelled
        · have hfirst' : (cancelTrade p server).players[p]? =
              some { pl with trading := {} } := by
            rw [hpair.cancelTrade_eq]
            exact seat_first hpair.first hpair.apart
          rw [hidle _ _ _ _ hfirst' rfl]
          exact hcancelled
      · rw [if_neg hforeign] at hsafe ⊢
        split
        · exact hsame
        next hguild =>
          rw [guildss_eq hpair] at hguild
          exact hnext _ _ (hsafe.resolve_left hguild)

omit hpair hfirst hsecond in
theorem modTrade_nobody {server : Server} {p : Nat} {pl : Player}
    (hpl : server.players[p]? = some pl) (hnobody : pl.trading.tradingWith = -1)
    (itemId count : Int) (remove : Bool) :
    modTrade p itemId count remove server = server := by
  unfold modTrade
  rw [hpl]
  exact if_pos hnobody

theorem remTradeMessage_settles {env : Env} {cch : String}
    (hsafe : OfferSafe env cch server pl cp fun itemId c =>
      ModSafe server pl cp itemId c true) :
    Settles server p q pl cp (remTradeMessage env cch p server) := by
  refine offerMessage_settles hpair hfirst hsecond ?_ ?_ hsafe
  · intro itemId c server pl hpl hnobody
    exact modTrade_nobody hpl hnobody itemId c true
  · intro itemId c hmod
    exact modTrade_settles hpair hfirst hsecond (Or.inr rfl) hmod

theorem modTradeMessage_settles {env : Env} {cch : String}
    (hsafe : OfferSafe env cch server pl cp fun itemId c =>
      c = 1 → ModSafe server pl cp itemId c false) :
    Settles server p q pl cp (modTradeMessage env cch p server) := by
  refine offerMessage_settles hpair hfirst hsecond ?_ ?_ hsafe
  · intro itemId c server pl hpl hnobody
    rw [modTrade_nobody hpl hnobody, ite_self]
  · intro itemId c hmod
    split
    next hone =>
      exact modTrade_settles hpair hfirst hsecond (Or.inl (by omega)) (hmod hone)
    next => exact settles_same hpair hfirst hsecond

/-- What `Modify` answers when it is asked for an item. -/
def answer (env : Env) (inv : List (Int × Int)) (itemId : Int) : Int :=
  if 0 < itemId ∧ itemId ≤ env.items.size ∧ itemId ≠ 112 then contains inv itemId
  else 0

omit hpair hfirst hsecond in
theorem askAt_eq (hpl : server.players[p]? = some pl) (hslots : SlotInv pl.inv)
    (env : Env) (now : Int) (itemId : Int) :
    askAt env now p itemId server = (answer env pl.inv itemId, server) := by
  have hset : server.players.set p pl = server.players := by
    obtain ⟨hlt, hget⟩ := List.getElem?_eq_some_iff.mp hpl
    rw [← hget]
    exact List.set_getElem_self hlt
  unfold askAt answer
  rw [hpl]
  dsimp only
  split
  next haccepts =>
    rw [modify_query hslots haccepts]
    dsimp only [Server.session]
    rw [hset]
  next haccepts =>
    rw [modify_not_accepted haccepts]
    dsimp only [Server.session]
    rw [hset]

/-- The dialog `trade_item` meets no slip. -/
def ItemSafe (env : Env) (cch : String) (server : Server) (pl cp : Player) : Prop :=
  let count := atoi (TextScanner.get cch "count")
  let itemId := atoi (getEmbed cch "itemID")
  env.isNumber (getEmbed cch "itemID") = true →
    env.isNumber (TextScanner.get cch "count") = true →
    count ≤ answer env pl.inv itemId → answer env pl.inv itemId ≠ 0 →
    0 ≤ count ∧ ModSafe server pl cp itemId count false

theorem tradeItem_settles {env : Env} {now : Int} {cch : String}
    (hsafe : ItemSafe env cch server pl cp) :
    Settles server p q pl cp (tradeItem env now cch p server) := by
  have hsame := settles_same hpair hfirst hsecond
  unfold ItemSafe at hsafe
  unfold tradeItem
  dsimp only at hsafe ⊢
  generalize TextScanner.get cch "count" = count at hsafe ⊢
  generalize getEmbed cch "itemID" = itemId at hsafe ⊢
  by_cases hnumbers : env.isNumber itemId = false ∨ env.isNumber count = false
  · rw [if_pos hnumbers]
    exact hsame
  rw [if_neg hnumbers, askAt_eq hpair.first hpair.firstSlots]
  rw [not_or, Bool.not_eq_false, Bool.not_eq_false] at hnumbers
  dsimp only
  split
  · exact hsame
  next henough =>
    rw [not_or, Int.not_lt] at henough
    obtain ⟨hcount, hmod⟩ := hsafe hnumbers.1 hnumbers.2 henough.1 henough.2
    exact modTrade_settles hpair hfirst hsecond (Or.inl hcount) hmod

/-- `trade_started` is about the other one of the two. -/
def StartSafe (cch : String) (q : Nat) (server : Server) (pl : Player) : Prop :=
  ∀ k, startTarget cch pl server = some k → k = q

theorem tradeStarted_settles {cch : String}
    (hsafe : StartSafe cch q server pl) :
    Settles server p q pl cp (tradeStarted cch p server) := by
  have hsame := settles_same hpair hfirst hsecond
  unfold tradeStarted
  rw [hpair.first]
  dsimp only
  cases htarget : startTarget cch pl server with
  | none => exact hsame
  | some k =>
      rw [hsafe k htarget]
      dsimp only
      rw [hpair.second]
      dsimp only
      split
      · exact hsame
      · split
        · exact hsame
        · split
          · rw [hpair.map_first]
            exact Settles.of_seat rfl ⟨hfirst, hsecond, Or.inl rfl,
              hpair.secondWith, fun hchanged => hchanged.elim (absurd rfl) (absurd rfl)⟩
          · rw [hpair.map_first, setAccept, mapTrading_second hpair.apart]
            exact Settles.of_seat rfl ⟨hfirst, hsecond, Or.inr rfl,
              hpair.secondWith, fun hchanged => hchanged.elim (absurd rfl) (absurd rfl)⟩

/-- `slots_needed` of `trade_space_check`. -/
def slotsNeeded (env : Env) (inv : List (Int × Int)) :
    List (Int × Int) → Int → Option Int
  | [], slots => some slots
  | entry :: rest, slots =>
      if answer env inv entry.1 ≠ 0 then
        if 200 < answer env inv entry.1 + entry.2 then none
        else slotsNeeded env inv rest (slots - 1)
      else slotsNeeded env inv rest slots

/-- The backpack has room for an offer. -/
def spaceFor (env : Env) (inv offer : List (Int × Int)) : Bool :=
  match slotsNeeded env inv offer offer.length with
  | some slots => slots ≤ getSlots inv
  | none => false

omit hpair hfirst hsecond in
theorem spaceLoop_eq (hpl : server.players[p]? = some pl)
    (hslots : SlotInv pl.inv) (env : Env) (now : Int) (offer : List (Int × Int))
    (slots : Int) :
    spaceLoop env now p offer slots server =
      (slotsNeeded env pl.inv offer slots, server) := by
  induction offer generalizing slots with
  | nil => rfl
  | cons entry rest ih =>
      unfold spaceLoop slotsNeeded
      rw [askAt_eq hpl hslots]
      dsimp only
      rw [ih, ih]
      split
      · split <;> rfl
      · rfl

omit hpair hfirst hsecond in
theorem tradeSpaceCheck_eq (hpl : server.players[p]? = some pl)
    (hcp : server.players[q]? = some cp) (hslots : SlotInv pl.inv) (env : Env)
    (now : Int) :
    tradeSpaceCheck env now p q server =
      (spaceFor env pl.inv cp.trading.tradeItems, server) := by
  unfold tradeSpaceCheck spaceFor
  rw [hcp]
  dsimp only
  rw [spaceLoop_eq hpl hslots]
  dsimp only
  rw [hpl]
  cases slotsNeeded env pl.inv cp.trading.tradeItems cp.trading.tradeItems.length with
  | none => rfl
  | some slots => rfl

/-- A player still has everything that it offers. -/
def HoldsOffer (pl : Player) : Prop :=
  ∀ entry ∈ pl.trading.tradeItems, contains pl.inv entry.1 ≠ 0

omit hpair hfirst hsecond in
theorem checkOffer_holds {server : Server} {q : Nat} {cp : Player}
    (hcp : server.players[q]? = some cp) (hholds : HoldsOffer cp) :
    checkOffer q server = (false, server) := by
  unfold checkOffer
  rw [hcp]
  refine if_neg ?_
  rintro ⟨-, hany⟩
  obtain ⟨entry, hentry, hnone⟩ := List.any_eq_true.mp hany
  exact hholds entry hentry (by simpa using hnone)

omit hfirst hsecond in
/-- Both have accepted: the acceptances are taken back for want of room, or the
trade is blocked until it is confirmed. -/
theorem bothAccepted_settles (env : Env) (now : Int)
    (hsafe : spaceFor env pl.inv cp.trading.tradeItems = true →
      spaceFor env cp.inv pl.trading.tradeItems = true →
      HoldsOffer pl ∧ HoldsOffer cp) :
    ∃ flag tp tq, bothAccepted env now p q server = (flag, seat p q tp tq server) ∧
      SameDeal pl cp tp tq := by
  unfold bothAccepted
  rw [tradeSpaceCheck_eq hpair.first hpair.second hpair.firstSlots]
  dsimp only
  cases hmine : spaceFor env pl.inv cp.trading.tradeItems with
  | false =>
      rw [if_pos rfl, setAccept, setAccept, hpair.map_first,
        mapTrading_second hpair.apart]
      exact ⟨true, _, _, rfl, ⟨rfl, rfl, rfl, rfl⟩⟩
  | true =>
      rw [if_neg (by decide),
        tradeSpaceCheck_eq hpair.second hpair.first hpair.secondSlots]
      dsimp only
      cases htheirs : spaceFor env cp.inv pl.trading.tradeItems with
      | false =>
          rw [if_pos rfl, setAccept, setAccept, hpair.map_first,
            mapTrading_second hpair.apart]
          exact ⟨true, _, _, rfl, ⟨rfl, rfl, rfl, rfl⟩⟩
      | true =>
          obtain ⟨hholds, hotherHolds⟩ := hsafe hmine htheirs
          rw [if_neg (by decide), checkOffer_holds hpair.second hotherHolds]
          dsimp only
          rw [checkOffer_holds hpair.first hholds, if_pos ⟨rfl, rfl⟩,
            sendTradeConfirmDialog, hpair.map_first, mapTrading_second hpair.apart]
          exact ⟨false, _, _, rfl, ⟨rfl, rfl, rfl, rfl⟩⟩

omit hfirst hsecond in
/-- The loop of `trade_accept` passes over everybody but the partner. -/
theorem acceptBody_other (env : Env) (now : Int) (status flag : Bool) {k : Nat}
    (hk : k = q → ¬ Mutual pl cp) :
    acceptBody env now p status (flag, server) k = (flag, server) := by
  unfold acceptBody
  dsimp only
  rw [hpair.first]
  cases hthird : server.players[k]? with
  | none => rfl
  | some third =>
      refine if_neg fun hpartner => ?_
      have hkq := hpair.partner_second hthird hpartner
      rw [hkq, hpair.second] at hthird
      rw [← Option.some.inj hthird] at hpartner
      exact hk hkq ((isPartner_iff pl cp).mp hpartner).2

omit hpair hfirst hsecond in
theorem names_fresh (worlds : List World) (w : Nat) :
    (worlds.modify w fun world => { world with freshWorld := true }).map
        World.name =
      worlds.map World.name := by
  have hmap := Ledger.map_modify
    (fun world : World => { world with freshWorld := true }) World.name id
    (fun _ => rfl) worlds w
  rwa [List.modify_id] at hmap

omit hfirst hsecond in
/-- The iteration of the partner. -/
theorem acceptBody_partner (env : Env) (now : Int) (status : Bool)
    (hmutual : Mutual pl cp)
    (hsafe : status = true → cp.trading.tradeAccept = true →
      spaceFor env pl.inv cp.trading.tradeItems = true →
      spaceFor env cp.inv pl.trading.tradeItems = true →
      HoldsOffer pl ∧ HoldsOffer cp) :
    ∃ flag tp tq worlds, acceptBody env now p status (false, server) q =
        (flag, { seat p q tp tq server with worlds := worlds }) ∧
      worlds.map World.name = server.worlds.map World.name ∧
      SameDeal pl cp tp tq := by
  have hpartner := (isPartner_iff pl cp).mpr ⟨hpair.together, hmutual⟩
  have hfound : (findWorld server pl.world).isSome = true := by
    have hloaded := hpair.loaded
    unfold loadedWorld at hloaded
    unfold findWorld
    rw [List.find?_isSome] at hloaded
    rw [List.findIdx?_isSome, List.any_eq_true]
    exact hloaded
  obtain ⟨w, hw⟩ := Option.isSome_iff_exists.mp hfound
  unfold acceptBody
  dsimp only
  rw [hpair.first, hpair.second]
  dsimp only
  rw [if_pos hpartner, hw]
  dsimp only
  have hnames := names_fresh server.worlds w
  have hfresh := hpair.worlds hnames
  generalize server.worlds.modify w _ = worlds at hnames hfresh ⊢
  rw [setAccept, hfresh.map_first]
  have hseat := @Pair.reseat _ p q pl cp hfresh
    { pl.trading with tradeAccept := status } cp.trading hpair.firstWith
    hpair.secondWith
  split
  next hboth =>
    rw [hseat.first, hseat.second] at hboth
    obtain ⟨flag, tp, tq, hbothAccepted, hsame⟩ := bothAccepted_settles hseat env
      now (hsafe hboth.1 hboth.2)
    rw [hbothAccepted]
    dsimp only
    rw [seat_seat hpair.apart]
    exact ⟨flag, tp, tq, worlds, rfl, hnames,
      ⟨hsame.firstItems, hsame.secondItems, hsame.firstWith, hsame.secondWith⟩⟩
  next =>
    exact ⟨true, _, _, worlds, rfl, hnames, ⟨rfl, rfl, rfl, rfl⟩⟩

/-- `trade_accept` meets no slip. -/
def AcceptSafe (env : Env) (cch : String) (pl cp : Player) : Prop :=
  (explode "\n" ((explode "|" cch).getD 2 "")).getD 0 "" = "1" →
    Mutual pl cp → cp.trading.tradeAccept = true →
    spaceFor env pl.inv cp.trading.tradeItems = true →
    spaceFor env cp.inv pl.trading.tradeItems = true →
    HoldsOffer pl ∧ HoldsOffer cp

theorem tradeAccept_settles {env : Env} {now : Int} {cch : String}
    (hsafe : AcceptSafe env cch pl cp) :
    Settles server p q pl cp (tradeAccept env now cch p server) := by
  have hsame := settles_same hpair hfirst hsecond
  unfold AcceptSafe at hsafe
  unfold tradeAccept
  rw [hpair.first]
  dsimp only
  generalize (explode "\n" ((explode "|" cch).getD 2 "")).getD 0 "" = status
    at hsafe ⊢
  split
  · exact hsame
  · split
    · exact hsame
    · split
      · exact hsame
      · by_cases hmutual : Mutual pl cp
        · obtain ⟨flag, tp, tq, worlds, hbody, hnames, hdeal⟩ :=
            acceptBody_partner hpair env now (status == "1") hmutual
              (fun hstatus => hsafe (beq_iff_eq.mp hstatus) hmutual)
          have hfold := BoundedLoop.foldl_range_single
            (List.getElem?_eq_some_iff.mp hpair.second).1
            (fun k hk => acceptBody_other hpair env now (status == "1") false
              fun heq => absurd heq hk) hbody
            (fun k hk => acceptBody_other
              ((hpair.reseat (hdeal.firstWith ▸ hpair.firstWith)
                (hdeal.secondWith ▸ hpair.secondWith)).worlds hnames) env now
              (status == "1") flag fun heq => absurd heq hk)
          rw [hfold]
          cases flag with
          | true =>
              exact ⟨tp, tq, worlds, rfl, hnames,
                hdeal.outcome hpair hfirst hsecond⟩
          | false =>
              change Settles server p q pl cp (setAccept p (status == "1")
                (seat p q tp tq { server with worlds := worlds }))
              rw [setAccept, mapTrading_first]
              exact ⟨_, tq, worlds, rfl, hnames,
                SameDeal.outcome hpair hfirst hsecond
                  ⟨hdeal.firstItems, hdeal.secondItems, hdeal.firstWith,
                    hdeal.secondWith⟩⟩
        · have hnobody := fun k => @acceptBody_other server p q pl cp hpair env now
            (status == "1") false k fun _ => hmutual
          rw [BoundedLoop.foldl_range_single
            (List.getElem?_eq_some_iff.mp hpair.second).1 (fun k _ => hnobody k)
            (hnobody q) fun k _ => hnobody k]
          change Settles server p q pl cp (setAccept p (status == "1") server)
          rw [setAccept, hpair.map_first]
          exact Settles.of_seat rfl
            (SameDeal.outcome hpair hfirst hsecond ⟨rfl, rfl, rfl, rfl⟩)

/-- A message that meets none of the slips. -/
def Safe (env : Env) (server : Server) (q : Nat) (pl cp : Player) :
    Message → Prop
  | .started cch => StartSafe cch q server pl
  | .mod cch => OfferSafe env cch server pl cp fun itemId c =>
      c = 1 → ModSafe server pl cp itemId c false
  | .rem cch => OfferSafe env cch server pl cp fun itemId c =>
      ModSafe server pl cp itemId c true
  | .item cch => ItemSafe env cch server pl cp
  | .accept cch => AcceptSafe env cch pl cp
  | .cancel => CancelSafe pl cp

/-- Every message that meets no slip settles the trades of the two. -/
theorem handle_settles {env : Env} {now : Int} {message : Message}
    (hsafe : Safe env server q pl cp message) :
    Settles server p q pl cp (handle env now message p server) := by
  cases message with
  | started cch => exact tradeStarted_settles hpair hfirst hsecond hsafe
  | mod cch => exact modTradeMessage_settles hpair hfirst hsecond hsafe
  | rem cch => exact remTradeMessage_settles hpair hfirst hsecond hsafe
  | item cch => exact tradeItem_settles hpair hfirst hsecond hsafe
  | accept cch => exact tradeAccept_settles hpair hfirst hsecond hsafe
  | cancel => exact cancelTrade_settles hpair hsecond hsafe

end Steps

section Runs

variable {env : Env} {start server next : Server} {i j : Nat}

/-- One of the two sends a message. -/
inductive Step (env : Env) (i j : Nat) : Server → Server → Prop where
  | first (server : Server) (now : Int) (message : Message) :
      Step env i j server (handle env now message i server)
  | second (server : Server) (now : Int) (message : Message) :
      Step env i j server (handle env now message j server)

/-- One of the two sends a message that meets no slip. -/
inductive SafeStep (env : Env) (i j : Nat) : Server → Server → Prop where
  | first (server : Server) (pl cp : Player) (now : Int) (message : Message)
      (hfirst : server.players[i]? = some pl)
      (hsecond : server.players[j]? = some cp)
      (hsafe : Safe env server j pl cp message) :
      SafeStep env i j server (handle env now message i server)
  | second (server : Server) (pl cp : Player) (now : Int) (message : Message)
      (hfirst : server.players[i]? = some pl)
      (hsecond : server.players[j]? = some cp)
      (hsafe : Safe env server i cp pl message) :
      SafeStep env i j server (handle env now message j server)

/-- The two, with the offers they should have. -/
def Right (server : Server) (i j : Nat) (pl cp : Player) : Prop :=
  Pair server i j pl cp ∧ Offer pl.trading.tradeItems ∧
    Offer cp.trading.tradeItems

/-- No acceptance survives a changed offer. -/
def Reset (pl cp pl' cp' : Player) : Prop :=
  pl'.trading.tradeItems ≠ pl.trading.tradeItems ∨
      cp'.trading.tradeItems ≠ cp.trading.tradeItems →
    pl'.trading.tradeAccept = false ∧ cp'.trading.tradeAccept = false

theorem Settles.right {pl cp : Player} (hpair : Pair server i j pl cp)
    (hsettles : Settles server i j pl cp next) :
    ∃ pl' cp', Right next i j pl' cp' ∧ Reset pl cp pl' cp' := by
  obtain ⟨tp, tq, worlds, rfl, hnames, houtcome⟩ := hsettles
  have hnext := (hpair.reseat houtcome.firstWith houtcome.secondWith).worlds hnames
  exact ⟨_, _, ⟨hnext, houtcome.firstOffer, houtcome.secondOffer⟩,
    houtcome.cleared⟩

theorem safeStep_right {pl cp : Player} (hright : Right server i j pl cp)
    (hstep : SafeStep env i j server next) :
    ∃ pl' cp', Right next i j pl' cp' ∧ Reset pl cp pl' cp' := by
  obtain ⟨hpair, hoffer, hotherOffer⟩ := hright
  cases hstep with
  | first pl₀ cp₀ now message hfirst hsecond hsafe =>
      rw [hpair.first] at hfirst
      rw [hpair.second] at hsecond
      rw [← Option.some.inj hfirst, ← Option.some.inj hsecond] at hsafe
      exact (handle_settles hpair hoffer hotherOffer hsafe).right hpair
  | second pl₀ cp₀ now message hfirst hsecond hsafe =>
      rw [hpair.first] at hfirst
      rw [hpair.second] at hsecond
      rw [← Option.some.inj hfirst, ← Option.some.inj hsecond] at hsafe
      exact ((handle_settles hpair.symm hotherOffer hoffer hsafe).symm
        hpair.apart).right hpair

/-- Over every run of messages of the two that meets no slip, both offers have at
most four entries with distinct items and counts of at least one, and a step that
changes either offer leaves neither of the two with an acceptance. -/
theorem no_acceptance_survives {pl cp : Player} (hright : Right start i j pl cp)
    (hrun : Relation.ReflTransGen (SafeStep env i j) start server) :
    ∃ pl cp, server.players[i]? = some pl ∧ server.players[j]? = some cp ∧
      Offer pl.trading.tradeItems ∧ Offer cp.trading.tradeItems ∧
      ∀ next, SafeStep env i j server next →
        ∃ pl' cp', next.players[i]? = some pl' ∧ next.players[j]? = some cp' ∧
          Reset pl cp pl' cp' := by
  have hreached : ∃ pl cp, Right server i j pl cp := by
    induction hrun with
    | refl => exact ⟨pl, cp, hright⟩
    | tail _ hstep ih =>
        obtain ⟨pl, cp, hbefore⟩ := ih
        obtain ⟨pl', cp', hafter, -⟩ := safeStep_right hbefore hstep
        exact ⟨pl', cp', hafter⟩
  obtain ⟨pl, cp, hpair, hoffer, hotherOffer⟩ := hreached
  refine ⟨pl, cp, hpair.first, hpair.second, hoffer, hotherOffer, ?_⟩
  intro next hstep
  obtain ⟨pl', cp', hafter, hreset⟩ := safeStep_right
    ⟨hpair, hoffer, hotherOffer⟩ hstep
  exact ⟨pl', cp', hafter.1.first, hafter.1.second, hreset⟩

/-- A player with a dirt block and an offer, and one who has accepted it. -/
def offerer (offer : List (Int × Int)) : Player :=
  { netID := 1, tankIDName := "Ann", world := "START", inv := [(2, 1), (0, 0)]
    trading := { tradingWith := 2, tradeItems := offer } }

def accepter : Player :=
  { netID := 2, tankIDName := "Ben", world := "START", inv := [(0, 0)]
    trading := { tradingWith := 1, tradeAccept := true } }

def traders (offer : List (Int × Int)) : Server where
  players := [offerer offer, accepter]
  worlds := [{ name := "START" }]

theorem traders_pair (offer : List (Int × Int)) :
    Pair (traders offer) 0 1 (offerer offer) accepter := by
  have hplayers : ∀ (k : Nat) (third : Player),
      (traders offer).players[k]? = some third →
      k = 0 ∧ third = offerer offer ∨ k = 1 ∧ third = accepter := by
    intro k third hthird
    match k with
    | 0 => exact Or.inl ⟨rfl, (Option.some.inj hthird).symm⟩
    | 1 => exact Or.inr ⟨rfl, (Option.some.inj hthird).symm⟩
    | k + 2 => cases hthird
  refine ⟨rfl, rfl, by decide, rfl, rfl, ?_, ?_, ?_, Or.inr rfl, Or.inr rfl,
    (by decide : SlotInv [(2, 1), (0, 0)]), (by decide : SlotInv [(0, 0)])⟩
  · intro k third hthird _ hid
    rcases hplayers k third hthird with ⟨hk, -⟩ | ⟨-, rfl⟩
    · exact hk
    · exact absurd hid (by decide : (2 : Int) ≠ 1)
  · intro k third hthird _ hid
    rcases hplayers k third hthird with ⟨-, rfl⟩ | ⟨hk, -⟩
    · exact absurd hid (by decide : (1 : Int) ≠ 2)
    · exact hk
  · intro k third hthird _
    rcases hplayers k third hthird with ⟨-, rfl⟩ | ⟨-, rfl⟩
    · exact (by decide : (1 : Int) ≠ -1)
    · exact (by decide : (2 : Int) ≠ -1)

theorem traders_right {offer : List (Int × Int)} (hoffer : Offer offer) :
    Right (traders offer) 0 1 (offerer offer) accepter :=
  ⟨traders_pair offer, hoffer, offer_nil⟩

/-- A cancelled trade leaves the partner's acceptance. -/
theorem cancel_keeps_acceptance :
    ¬ ∀ (env : Env) (start server : Server) (i j : Nat) (pl cp : Player),
      Right start i j pl cp →
      Relation.ReflTransGen (Step env i j) start server →
      ∃ pl cp, server.players[i]? = some pl ∧ server.players[j]? = some cp ∧
        Offer pl.trading.tradeItems ∧ Offer cp.trading.tradeItems ∧
        ∀ next, Step env i j server next →
          ∃ pl' cp', next.players[i]? = some pl' ∧
            next.players[j]? = some cp' ∧ Reset pl cp pl' cp' := by
  intro hall
  have hoffer : Offer [(2, 1)] := ⟨by decide, by decide, by decide⟩
  obtain ⟨pl, cp, hpl, hcp, -, -, hnext⟩ := hall { items := ⟨0, fun _ => {}⟩ }
    (traders [(2, 1)]) _ 0 1 _ _ (traders_right hoffer) .refl
  obtain ⟨pl', cp', hpl', hcp', hreset⟩ := hnext _ (.first _ 0 .cancel)
  rw [← Option.some.inj hpl, ← Option.some.inj hcp, ← Option.some.inj hpl',
    ← Option.some.inj hcp'] at hreset
  exact absurd (hreset (Or.inl (by decide))).2 (by decide)

/-- The message that offers the dirt block. -/
def offerMessageText : String := "action|mod_trade\nitemID|2\n"

theorem offerMessageText_safe :
    Safe { items := ⟨100, fun _ => {}⟩ } (traders []) 1 (offerer []) accepter
      (.mod offerMessageText) := by
  intro itemId hitem _ _ _
  have htwo : itemId = 2 :=
    Option.some.inj (hitem.symm.trans (by decide +kernel :
      messageItem offerMessageText = some 2))
  subst htwo
  rw [if_neg (by decide)]
  refine Or.inr fun _ _ => ?_
  rw [if_pos (by decide : Mutual (offerer []) accepter), if_neg (by decide),
    if_neg (by decide)]
  intro world hworld hleaves
  rw [← Option.some.inj hworld] at hleaves
  exact absurd hleaves (by decide)

/-- An offer takes the partner's acceptance back. -/
theorem offer_takes_acceptance_back :
    let next := handle { items := ⟨100, fun _ => {}⟩ } 0 (.mod offerMessageText) 0
      (traders [])
    (next.players.map fun pl => pl.trading.tradeItems) = [[(2, 1)], []] ∧
      (accepter.trading.tradeAccept = true ∧
        ∃ pl' cp', next.players[0]? = some pl' ∧ next.players[1]? = some cp' ∧
          Reset (offerer []) accepter pl' cp') := by
  refine ⟨by decide +kernel, rfl, ?_⟩
  obtain ⟨pl, cp, hpl, hcp, -, -, hnext⟩ := @no_acceptance_survives
    { items := ⟨100, fun _ => {}⟩ } (traders []) _ 0 1 _ _
    (traders_right offer_nil) .refl
  rw [← Option.some.inj hpl, ← Option.some.inj hcp] at hnext
  exact hnext _ (.first _ (offerer []) accepter 0 _ rfl rfl offerMessageText_safe)

end Runs

end Trade

end NopyServer
