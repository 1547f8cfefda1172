/-
`SecretBansos::GiveToAllPlayers`.  The slots that the giveaway may need are
counted beforehand, so no gift fails for want of a slot, unless a conversion
takes one in between; what is not looked at is the cap of a stack.  A gift that
would pass it is left out, the ones after it are given, and the player is told
that everything was delivered.

No entry can make up for one that was left out: what is missing of an item, or
of the worth of the locks, is missing at the end.
-/
import NopyServer.ItemMoves
import NopyServer.Server

namespace NopyServer

namespace SecretBansos

open BoundedLoop Inventory SlotPack

/-- The test of an entry's id. -/
def validEntry (items : Items) (id : Int) : Bool :=
  0 < id && id < items.size

/-- `needed_slots`. -/
def neededSlots (env : Env) (giveaway : List (Int × Int)) (pl : Player) : Nat :=
  giveaway.countP fun entry =>
    validEntry env.items entry.1 && decide (contains pl.inv entry.1 ≤ 0)

/-- One iteration of the loop over one entry, with `left`. -/
def giveEntryBody (env : Env) (id : Int) (state : Session × Int) :
    Next (Session × Int) :=
  if 0 < state.2 then
    let add := if 200 < state.2 then 200 else state.2
    let given := modify env state.1 id add false
    if given.ret ≠ 0 then .stop (given.session, state.2)
    else .again (given.session, state.2 - add)
  else .stop state

/-- One entry of the giveaway. -/
def giveEntry (env : Env) (s : Session) (entry : Int × Int) : Session :=
  if validEntry env.items entry.1 = false then s
  else (run (giveEntryBody env entry.1) (entry.2.toNat + 1) (s, entry.2)).1

/-- What a player is told. -/
inductive Told where
  | skipped
  | delivered
deriving Repr, DecidableEq

/-- The turn of one player. -/
def giveToPlayer (env : Env) (giveaway : List (Int × Int)) (s : Session) :
    Told × Session :=
  if getSlots s.pl.inv < neededSlots env giveaway s.pl then (.skipped, s)
  else (.delivered, giveaway.foldl (giveEntry env) s)

/-- The turn of the player at an index, with what the players before were
told. -/
def giveTurn (env : Env) (now : Int) (giveaway : List (Int × Int))
    (acc : List Told × Server) (peer : Nat) : List Told × Server :=
  match acc.2.players[peer]? with
  | none => acc
  | some pl =>
      (acc.1 ++ [(giveToPlayer env giveaway (acc.2.session pl now)).1],
        acc.2.serve peer now fun s => (giveToPlayer env giveaway s).2)

/-- `GiveToAllPlayers`. -/
def giveToAllPlayers (env : Env) (now : Int) (giveaway : List (Int × Int))
    (server : Server) : List Told × Server :=
  (List.range server.players.length).foldl (giveTurn env now giveaway)
    ([], server)

/-- What a giveaway is worth as money, in gems. -/
def worth (giveaway : List (Int × Int)) : Int :=
  packValue 0 ⟨fun id => total id giveaway, 0⟩

/-- Every entry is there in its full quantity.  Where conversions run, locks and gems may
be turned into each other in the same call, and are counted by their worth; in infinite
mode conversions and the sale of fish add locks besides. -/
structure Received (giveaway : List (Int × Int)) (pl after : Player) : Prop where
  items : ∀ id, id ∉ lockIds →
    contains after.inv id = contains pl.inv id + total id giveaway
  worth : (purse pl).value + worth giveaway ≤ (purse after).value
  locks : ¬ Converts pl → ∀ id,
    contains pl.inv id + total id giveaway ≤ contains after.inv id
  exact : pl.infiniteMode = false →
    (purse after).value = (purse pl).value + SecretBansos.worth giveaway ∧
      (¬ Converts pl → after.gems = pl.gems ∧ ∀ id,
        contains after.inv id = contains pl.inv id + total id giveaway)

/-- Everything was delivered, or the player was skipped. -/
def AllOrNothing (giveaway : List (Int × Int)) (pl : Player) (told : Told)
    (after : Player) : Prop :=
  told = .delivered ∧ Received giveaway pl after ∨
    told = .skipped ∧ after.gems = pl.gems ∧
      ∀ id, contains after.inv id = contains pl.inv id

section Conditions

/-- An entry that can be given at all: gems are no item of the backpack. -/
def givable (env : Env) (id : Int) : Bool :=
  validEntry env.items id && id != 112

theorem givable_iff {env : Env} {id : Int} : givable env id = true ↔
    (0 < id ∧ id < env.items.size) ∧ id ≠ 112 := by
  simp [givable, validEntry]

/-- Too few slots are free. -/
def Skipped (env : Env) (giveaway : List (Int × Int)) (pl : Player) : Prop :=
  getSlots pl.inv < neededSlots env giveaway pl

/-- Every entry can be given, and none of them fills a stack beyond its cap. -/
def Deliverable (env : Env) (giveaway : List (Int × Int)) (pl : Player) : Prop :=
  ∀ entry ∈ giveaway, givable env entry.1 = true ∧
    contains pl.inv entry.1 + total entry.1 giveaway ≤ 200

instance (env : Env) (giveaway : List (Int × Int)) (pl : Player) :
    Decidable (Deliverable env giveaway pl) :=
  inferInstanceAs (Decidable (∀ entry ∈ giveaway, _))

/-- Every entry, at its turn, can be given and finds room in the backpack as the entries
before it leave it; and outside infinite mode it starts no sale of fish. -/
def Served (env : Env) : List (Int × Int) → Session → Prop
  | [], _ => True
  | entry :: rest, s =>
      (givable env entry.1 = true ∧ (view 0 s.pl.inv).Fits 200 entry.1 entry.2 ∧
        (s.pl.infiniteMode = false → Unsold env s.pl entry.1 entry.2)) ∧
      Served env rest (giveEntry env s entry)

/-- Neither conversions nor the sale of fish are on. -/
def Plain (pl : Player) : Prop :=
  ¬ Converts pl ∧ ¬ (pl.autosellfish = true ∧ pl.autosellfishProcessing = false)

instance (pl : Player) : Decidable (Plain pl) :=
  inferInstanceAs (Decidable (_ ∧ _))

end Conditions

section Turn

variable {env : Env} {s t : Session} {giveaway : List (Int × Int)}

/-- The loop over an entry of at most a stack gives it once. -/
theorem giveEntry_once {entry : Int × Int} (hpos : 1 ≤ entry.2)
    (hlimit : entry.2 ≤ 200) :
    giveEntry env s entry =
      if validEntry env.items entry.1 = false then s
      else (modify env s entry.1 entry.2 false).session := by
  unfold giveEntry
  split_ifs with hvalid
  · rfl
  · have hadd : (if 200 < entry.2 then 200 else entry.2) = entry.2 :=
      if_neg (by omega)
    obtain ⟨n, hn⟩ : ∃ n, entry.2.toNat = n + 1 :=
      ⟨entry.2.toNat - 1, by omega⟩
    by_cases hret : (modify env s entry.1 entry.2 false).ret = 0
    · have hfirst : giveEntryBody env entry.1 (s, entry.2) =
          .again ((modify env s entry.1 entry.2 false).session, 0) := by
        unfold giveEntryBody
        dsimp only
        rw [if_pos (by omega), hadd, if_neg (by simp [hret]), sub_self]
      have hlast (t : Session) :
          giveEntryBody env entry.1 (t, 0) = .stop (t, 0) := by
        unfold giveEntryBody
        simp
      rw [run_again _ hfirst, hn, run_stop _ (hlast _)]
    · have hstop : giveEntryBody env entry.1 (s, entry.2) =
          .stop ((modify env s entry.1 entry.2 false).session, entry.2) := by
        unfold giveEntryBody
        dsimp only
        rw [if_pos (by omega), hadd, if_pos (by simpa using hret)]
      rw [run_stop _ hstop]

/-- A gift outside auto conversion. -/
theorem gift_plain (hs : SlotInv s.pl.inv) {i c : Int}
    (haccepts : Accepts env i) (hc : 0 < c)
    (hfits : (view 0 s.pl.inv).Fits 200 i c) (hoff : ¬ Converts s.pl)
    (hunsold : Sells env s.pl i c → kindsSold env
      ((view 0 s.pl.inv).plus i c).amount env.exchangeSetPrice = []) :
    SlotInv (modify env s i c false).session.pl.inv ∧
      settings (modify env s i c false).session.pl = settings s.pl ∧
      purse (modify env s i c false).session.pl =
        ⟨s.pl.gems, (view 0 s.pl.inv).plus i c⟩ := by
  have hnonneg := (hs.wellFormed.total_bounds (by decide)
    (Int.ne_of_gt haccepts.1)).1
  rcases @modify_called env s i c false hs haccepts (by omega) with
    ⟨next, left, hchanged, heq⟩ | ⟨left, -, hnone⟩
  · have hstill : autoConvert env { s with pl := next } = { s with pl := next } :=
      autoConvertWith_quiet
        (not_converts_iff.mp ((converts_of_core hchanged.core).not.mpr hoff))
    have hgems : next.gems = s.pl.gems :=
      Player.core_congr hchanged.core Player.gems fun _ => rfl
    have hpurse : purse next = ⟨s.pl.gems, (view 0 s.pl.inv).plus i c⟩ := by
      unfold purse
      rw [hgems, Pack.eq_plus_of_change hc hnonneg hchanged.view]
    have hkept := @sellAfter_of_nothing env { s with pl := next } s.pl i c
      _ _ hchanged.slots hpurse hunsold
    rw [heq, hstill, hkept]
    exact ⟨hchanged.slots, settings_of_core hchanged.core, hpurse⟩
  · exact absurd hnone ((Pack.fits_iff hc hnonneg).mp hfits)

/-- A player in the middle of the turn, with the amounts given so far. -/
structure Delivering (s t : Session) (pack : Pack Int) : Prop where
  slots : SlotInv t.pl.inv
  settings : settings t.pl = settings s.pl
  purse : purse t.pl = ⟨s.pl.gems, pack⟩

/-- An entry that can be given and fits is given. -/
theorem Delivering.given {pack : Pack Int} {entry : Int × Int}
    (ht : Delivering s t pack) (hpos : 1 ≤ entry.2)
    (hgivable : givable env entry.1 = true)
    (hfits : pack.Fits 200 entry.1 entry.2)
    (hplain : Plain s.pl) :
    Delivering s (modify env t entry.1 entry.2 false).session
      (pack.plus entry.1 entry.2) := by
  have hview : view 0 t.pl.inv = pack := congrArg Purse.pack ht.purse
  have hgemsT : t.pl.gems = s.pl.gems := congrArg Purse.gems ht.purse
  obtain ⟨⟨hid, hsize⟩, hgem⟩ := givable_iff.mp hgivable
  have haccepts : Accepts env entry.1 := ⟨hid, le_of_lt hsize, hgem⟩
  subst hview
  have hunsold : ¬ Sells env t.pl entry.1 entry.2 := by
    rintro ⟨-, hon, hidle, -⟩
    rw [settings_congr ht.settings Player.autosellfish fun _ => rfl] at hon
    rw [settings_congr ht.settings Player.autosellfishProcessing fun _ => rfl] at hidle
    exact hplain.2 ⟨hon, hidle⟩
  obtain ⟨hslots, hsettings, hpurse⟩ := gift_plain ht.slots haccepts hpos
    hfits ((converts_of_settings ht.settings).not.mpr hplain.1) fun h => absurd h hunsold
  exact ⟨hslots, hsettings.trans ht.settings, hgemsT ▸ hpurse⟩

/-- An entry that cannot be given, or does not fit, changes nothing. -/
theorem modify_of_left_out {entry : Int × Int} (hs : SlotInv s.pl.inv)
    (hpos : 1 ≤ entry.2) (hvalid : validEntry env.items entry.1 = true)
    (hnot : ¬ (givable env entry.1 = true ∧
      (view 0 s.pl.inv).Fits 200 entry.1 entry.2)) :
    (modify env s entry.1 entry.2 false).session = s := by
  refine (modify_of_not_fits hs hpos false ?_).2
  rintro ⟨haccepts, hfits⟩
  apply hnot
  refine ⟨givable_iff.mpr ⟨⟨haccepts.1, ?_⟩, haccepts.2.2⟩, hfits⟩
  unfold validEntry at hvalid
  simp only [Bool.and_eq_true, decide_eq_true_eq] at hvalid
  exact hvalid.2

/-- One entry is given when it can be given and fits. -/
theorem Delivering.giveEntry {pack next : Pack Int} {entry : Int × Int}
    (ht : Delivering s t pack) (hpos : 1 ≤ entry.2) (hlimit : entry.2 ≤ 200)
    (hnext : next = if givable env entry.1 = true ∧
      pack.Fits 200 entry.1 entry.2 then pack.plus entry.1 entry.2 else pack)
    (hplain : Plain s.pl) :
    Delivering s (giveEntry env t entry) next := by
  have hview : view 0 t.pl.inv = pack := congrArg Purse.pack ht.purse
  rw [giveEntry_once hpos hlimit]
  by_cases hgiven : givable env entry.1 = true ∧ pack.Fits 200 entry.1 entry.2
  · obtain ⟨⟨hid, hsize⟩, -⟩ := givable_iff.mp hgiven.1
    have hvalid : validEntry env.items entry.1 ≠ false := by
      simp [validEntry, hid, hsize]
    rw [if_neg hvalid]
    rw [if_pos hgiven] at hnext
    subst hnext
    exact ht.given hpos hgiven.1 hgiven.2 hplain
  · rw [if_neg hgiven] at hnext
    subst hnext
    split_ifs with hinvalid
    · exact ht
    · rw [modify_of_left_out ht.slots hpos (by simpa using hinvalid)
        (by rwa [hview])]
      exact ht

/-- The entries one after the other, from those given before. -/
theorem Delivering.giveEntries (hplain : Plain s.pl)
    (hqty : ∀ entry ∈ giveaway, 1 ≤ entry.2 ∧ entry.2 ≤ 200)
    (before entries : List (Int × Int)) (hsplit : before ++ entries = giveaway)
    (ht : Delivering s t
      ((view 0 s.pl.inv).giveAll 200 (givable env) before)) :
    Delivering s (entries.foldl (SecretBansos.giveEntry env) t)
      ((view 0 s.pl.inv).giveAll 200 (givable env) giveaway) := by
  induction entries generalizing before t with
  | nil =>
      rw [List.append_nil] at hsplit
      exact hsplit ▸ ht
  | cons entry entries ih =>
      have hnext : (before ++ [entry]) ++ entries = giveaway := by
        rw [← hsplit, List.append_assoc, List.singleton_append]
      obtain ⟨hpos, hlimit⟩ := hqty entry (by simp [← hsplit])
      apply ih (before ++ [entry]) hnext
      exact ht.giveEntry hpos hlimit (Pack.giveAll_concat before entry) hplain

theorem giveEntries_slots (hqty : ∀ entry ∈ giveaway, 1 ≤ entry.2 ∧ entry.2 ≤ 200)
    (hs : SlotInv s.pl.inv) :
    SlotInv (giveaway.foldl (giveEntry env) s).pl.inv := by
  induction giveaway generalizing s with
  | nil => exact hs
  | cons entry entries ih =>
      obtain ⟨hpos, hlimit⟩ := hqty entry List.mem_cons_self
      apply ih fun other hother => hqty other (List.mem_cons_of_mem _ hother)
      rw [giveEntry_once hpos hlimit]
      split_ifs
      · exact hs
      · exact (modify_slots env hs _ _ _).1

theorem giveToPlayer_skipped (hskip : Skipped env giveaway s.pl) :
    giveToPlayer env giveaway s = (.skipped, s) := if_pos hskip

theorem giveToPlayer_delivered (hskip : ¬ Skipped env giveaway s.pl) :
    giveToPlayer env giveaway s =
      (.delivered, giveaway.foldl (giveEntry env) s) := if_neg hskip

/-- A player who is told of a delivery has got all of it. -/
theorem allOrNothing_delivered {pl after : Player} :
    AllOrNothing giveaway pl .delivered after ↔ Received giveaway pl after := by
  simp [AllOrNothing]

theorem allOrNothing_skipped (pl : Player) : AllOrNothing giveaway pl .skipped pl :=
  Or.inr ⟨rfl, rfl, fun _ => rfl⟩

theorem total_pos (hqty : ∀ entry ∈ giveaway, 1 ≤ entry.2 ∧ entry.2 ≤ 200)
    {entry : Int × Int} (hentry : entry ∈ giveaway) :
    0 < total entry.1 giveaway := by
  unfold total
  apply lt_of_lt_of_le (b := entry.2) (by linarith [(hqty entry hentry).1])
  have hmem : entry.2 ∈ giveaway.map fun slot =>
      if slot.1 = entry.1 then slot.2 else 0 :=
    List.mem_map.mpr ⟨entry, hentry, if_pos rfl⟩
  apply List.single_le_sum _ _ hmem
  intro n hn
  obtain ⟨other, hother, rfl⟩ := List.mem_map.mp hn
  have hle := (hqty other hother).1
  split_ifs <;> omega

/-- Where neither conversions nor sales run, the turn of a player. -/
theorem giveToPlayer_plain_iff (hs : SlotInv s.pl.inv)
    (hqty : ∀ entry ∈ giveaway, 1 ≤ entry.2 ∧ entry.2 ≤ 200) (hplain : Plain s.pl) :
    AllOrNothing giveaway s.pl (giveToPlayer env giveaway s).1
        (giveToPlayer env giveaway s).2.pl ↔
      Skipped env giveaway s.pl ∨ Deliverable env giveaway s.pl := by
  by_cases hskip : Skipped env giveaway s.pl
  · rw [giveToPlayer_skipped hskip]
    exact iff_of_true (allOrNothing_skipped s.pl) (Or.inl hskip)
  · have hlast := @Delivering.giveEntries env s s giveaway hplain hqty [] giveaway rfl
      ⟨hs, rfl, rfl⟩
    have hamount (id : Int) := contains_of_purse hlast.slots hlast.purse id
    rw [giveToPlayer_delivered hskip, allOrNothing_delivered, or_iff_right hskip]
    constructor
    · intro hall entry hentry
      have hleast := hall.locks hplain.1 entry.1
      have hpos := total_pos hqty hentry
      have hgivable : givable env entry.1 = true := by
        by_contra hnot
        have hsame := @Pack.giveAll_amount_of_ne _ _ 200 (view 0 s.pl.inv)
          (givable env) giveaway entry.1 fun gift _ hvalid heq =>
            hnot (heq ▸ hvalid)
        rw [hamount, hsame, contains_eq_total hs, view_amount] at hleast
        omega
      have hid := (givable_iff.mp hgivable).1.1
      have hcap := (hlast.slots.wellFormed.total_bounds (by decide) (Int.ne_of_gt hid)).2
      rw [← contains_eq_total hlast.slots] at hcap
      exact ⟨hgivable, hleast.trans hcap⟩
    · intro hfits
      have hnonneg (key : Int) : 0 ≤ (view 0 s.pl.inv).amount key := by
        by_cases hkey : key = 0
        · subst hkey
          exact le_of_eq hs.wellFormed.total_empty.symm
        · exact (hs.wellFormed.total_bounds (by decide) hkey).1
      have hneeded : Pack.needed (givable env) giveaway (view 0 s.pl.inv) =
          neededSlots env giveaway s.pl := by
        apply List.countP_congr
        intro entry hentry
        have hgivable := (hfits entry hentry).1
        have hvalid : validEntry env.items entry.1 = true :=
          (Bool.and_eq_true_iff.mp hgivable).1
        rw [contains_eq_total hs, hgivable, hvalid, view_amount]
      have hgiven : ∀ id, ((view 0 s.pl.inv).giveAll 200 (givable env) giveaway).amount id =
          total id s.pl.inv + total id giveaway := by
        apply Pack.giveAll_amount (fun entry hentry => (hfits entry hentry).1)
          (fun entry hentry => (hqty entry hentry).1) hnonneg
        · intro entry hentry
          have hcap := (hfits entry hentry).2
          rwa [contains_eq_total hs] at hcap
        · rw [hneeded]
          exact not_lt.mp hskip
      have hcounts : ∀ id, contains (giveaway.foldl (giveEntry env) s).pl.inv id =
          contains s.pl.inv id + total id giveaway := by
        intro id
        rw [hamount, contains_eq_total hs, hgiven]
      have hworth : (purse (giveaway.foldl (giveEntry env) s).pl).value =
          (purse s.pl).value + worth giveaway := by
        rw [hlast.purse]
        unfold Purse.value packValue worth packValue purse
        simp only [hgiven, view_amount]
        omega
      exact ⟨fun id _ => hcounts id, le_of_eq hworth.symm,
        fun _ id => le_of_eq (hcounts id).symm,
        fun _ => ⟨hworth, fun _ => ⟨congrArg Purse.gems hlast.purse, hcounts⟩⟩⟩

end Turn

section Entries

variable {env : Env} {s t : Session} {entry : Int × Int} {giveaway : List (Int × Int)}

theorem worth_nil : worth [] = 0 := by
  decide

theorem worth_cons (entry : Int × Int) (rest : List (Int × Int)) :
    worth (entry :: rest) = entry.2 * lockGems entry.1 + worth rest := by
  rw [add_comm]
  apply packValue_give
  intro other
  dsimp only
  rw [total_cons, add_comm]

theorem total_cons_single (id : Int) (entry : Int × Int) (rest : List (Int × Int)) :
    total id (entry :: rest) = single entry.1 entry.2 id + total id rest :=
  total_cons id entry rest

/-- What an entry finds. -/
def Fitting (env : Env) (pl : Player) (entry : Int × Int) : Prop :=
  givable env entry.1 = true ∧ (view 0 pl.inv).Fits 200 entry.1 entry.2

theorem fitting_iff (hvalid : validEntry env.items entry.1 = true) (pl : Player) :
    Fitting env pl entry ↔ Taken env pl entry.1 entry.2 := by
  have hrange := hvalid
  unfold validEntry at hrange
  simp only [Bool.and_eq_true, decide_eq_true_eq] at hrange
  unfold Fitting Taken Accepts
  rw [givable_iff]
  constructor
  · exact fun h => ⟨⟨hrange.1, le_of_lt hrange.2, h.1.2⟩, h.2⟩
  · exact fun h => ⟨⟨hrange, h.1.2.2⟩, h.2⟩

/-- One entry, outside infinite mode. -/
theorem giveEntry_cases (hlocks : env.items.LocksListed) (hs : Live s)
    (hpos : 1 ≤ entry.2) (hlimit : entry.2 ≤ 200) :
    (¬ Fitting env s.pl entry ∧ giveEntry env s entry = s) ∨
    (Fitting env s.pl entry ∧ ∃ t, Live t ∧
      Moved (single entry.1 entry.2) (entry.2 * lockGems entry.1) s t ∧
        ((Unsold env s.pl entry.1 entry.2 ∧ giveEntry env s entry = t) ∨
          (¬ Unsold env s.pl entry.1 entry.2 ∧ sale env t.pl ≠ [] ∧
            giveEntry env s entry = processAutoSellFishInventory env t))) := by
  rw [giveEntry_once hpos hlimit]
  by_cases hvalid : validEntry env.items entry.1 = true
  · rw [if_neg (by simp [hvalid]), fitting_iff hvalid]
    rcases modify_gift_cases hlocks hs hpos false with
      ⟨hroom, -, hafter⟩ | ⟨hroom, -, t, ht, hgift, hend⟩
    · exact Or.inl ⟨hroom, hafter⟩
    · exact Or.inr ⟨hroom, t, ht, hgift, hend⟩
  · rw [if_pos (by simpa using hvalid)]
    exact Or.inl ⟨fun h => hvalid (Bool.and_eq_true_iff.mp h.1).1, rfl⟩

/-- What an entry can add at most: no item more than is given, and no worth more than is
given where every item is there. -/
theorem giveEntry_most (hlocks : env.items.LocksListed) (hs : Live s)
    (hnodup : (env.exchangeSetPrice.map Prod.fst).Nodup)
    (hpos : 1 ≤ entry.2) (hlimit : entry.2 ≤ 200) :
    let t := giveEntry env s entry
    Live t ∧
      (∀ id, id ∉ lockIds → contains t.pl.inv id ≤
        contains s.pl.inv id + single entry.1 entry.2 id) ∧
      ((∀ id, id ∉ lockIds → contains t.pl.inv id =
          contains s.pl.inv id + single entry.1 entry.2 id) →
        (purse t.pl).value ≤ (purse s.pl).value + entry.2 * lockGems entry.1 ∧
        ((purse s.pl).value + entry.2 * lockGems entry.1 ≤ (purse t.pl).value →
          Fitting env s.pl entry ∧ Unsold env s.pl entry.1 entry.2)) := by
  dsimp only
  rcases giveEntry_cases hlocks hs hpos hlimit with
    ⟨hroom, hafter⟩ | ⟨hroom, t, ht, hgift, ⟨hkept, hafter⟩ | ⟨hkept, hsome, hafter⟩⟩
  · rw [hafter]
    refine ⟨hs, fun id _ => ?_, fun hall => ?_⟩
    · unfold single
      split_ifs <;> omega
    · have hlock : entry.1 ∈ lockIds := by
        by_contra hid
        have hmissed := hall entry.1 hid
        rw [single_self] at hmissed
        omega
      have hmore := Int.mul_pos hpos (lockGems_pos hlock)
      omega
  · rw [hafter]
    refine ⟨ht, fun id hid => le_of_eq (hgift.items id hid), fun _ => ?_⟩
    exact ⟨le_of_eq hgift.worth, fun _ => ⟨hroom, hkept⟩⟩
  · obtain ⟨⟨id, hid, hcount, hgone⟩, hless⟩ := sold_one hlocks ht hnodup hsome
    rw [hafter]
    refine ⟨sellFish_live hlocks ht hnodup, fun other hother => ?_, fun hall => ?_⟩
    · rw [← hgift.items other hother]
      exact hless other hother
    · have hmissed := hall id hid
      rw [hgone, ← hgift.items id hid] at hmissed
      omega

/-- The same of all entries, by induction over them. -/
theorem giveEntries_most (hlocks : env.items.LocksListed) (hs : Live s)
    (hnodup : (env.exchangeSetPrice.map Prod.fst).Nodup)
    (hqty : ∀ entry ∈ giveaway, 1 ≤ entry.2 ∧ entry.2 ≤ 200) :
    let t := giveaway.foldl (giveEntry env) s
    (∀ id, id ∉ lockIds →
      contains t.pl.inv id ≤ contains s.pl.inv id + total id giveaway) ∧
    ((∀ id, id ∉ lockIds →
        contains t.pl.inv id = contains s.pl.inv id + total id giveaway) →
      (purse t.pl).value ≤ (purse s.pl).value + worth giveaway ∧
      ((purse s.pl).value + worth giveaway ≤ (purse t.pl).value →
        Served env giveaway s)) := by
  induction giveaway generalizing s with
  | nil =>
      refine ⟨fun id _ => le_of_eq (add_zero _).symm, fun _ => ⟨?_, fun _ => trivial⟩⟩
      rw [worth_nil, add_zero]
      exact le_refl _
  | cons entry rest ih =>
      obtain ⟨⟨hpos, hlimit⟩, hrest⟩ := List.forall_mem_cons.mp hqty
      obtain ⟨hlive, hmost, hfirst⟩ := @giveEntry_most env s entry hlocks hs hnodup hpos hlimit
      obtain ⟨hmore, hlast⟩ := ih hlive hrest
      dsimp only at hmore hlast ⊢
      rw [List.foldl_cons]
      generalize rest.foldl (giveEntry env) (giveEntry env s entry) = t at hmore hlast ⊢
      simp only [total_cons_single, worth_cons]
      refine ⟨fun id hid => ?_, fun hall => ?_⟩
      · have hupper := hmost id hid
        have hupper' := hmore id hid
        omega
      · obtain ⟨hvalue, hgiven⟩ := hfirst fun id hid => by
          have hupper := hmost id hid
          have hupper' := hmore id hid
          have hexact := hall id hid
          omega
        obtain ⟨hvalue', hserved⟩ := hlast fun id hid => by
          have hupper := hmost id hid
          have hupper' := hmore id hid
          have hexact := hall id hid
          omega
        refine ⟨by omega, fun hworth => ?_⟩
        obtain ⟨hroom, hkept⟩ := hgiven (by omega)
        exact ⟨⟨hroom.1, hroom.2, fun _ => hkept⟩, hserved (by omega)⟩

/-- Entries that are served are all there. -/
theorem Served.moved (hlocks : env.items.LocksListed) (hs : Live s)
    (hqty : ∀ entry ∈ giveaway, 1 ≤ entry.2 ∧ entry.2 ≤ 200) (hserved : Served env giveaway s) :
    Moved (fun id => total id giveaway) (worth giveaway) s
      (giveaway.foldl (giveEntry env) s) := by
  induction giveaway generalizing s with
  | nil =>
      refine ⟨rfl, Confined.refl s, fun id _ => (add_zero _).symm, ?_,
        fun _ => ⟨rfl, fun id => (add_zero _).symm⟩⟩
      rw [worth_nil, add_zero]
      rfl
  | cons entry rest ih =>
      obtain ⟨⟨hpos, hlimit⟩, hrest⟩ := List.forall_mem_cons.mp hqty
      obtain ⟨⟨hvalid, hfits, hkept⟩, hlast⟩ := hserved
      have hroom : Fitting env s.pl entry := ⟨hvalid, hfits⟩
      rcases giveEntry_cases hlocks hs hpos hlimit with
        ⟨hnot, -⟩ | ⟨-, t, ht, hgift, ⟨-, hafter⟩ | ⟨hsold, -⟩⟩
      · exact absurd hroom hnot
      · rw [hafter] at hlast
        have hboth := hgift.trans (ih ht hrest hlast)
        rw [List.foldl_cons, hafter, worth_cons]
        have htotals : (fun id => total id (entry :: rest)) =
            fun id => single entry.1 entry.2 id + total id rest :=
          funext fun id => total_cons_single id entry rest
        rw [htotals]
        exact hboth
      · exact absurd (hkept hs.finite) hsold

end Entries

section Infinite

variable {env : Env} {s t : Session} {entry : Int × Int} {giveaway : List (Int × Int)}
  {counts : Int → Int} {least : Int}

/-- One entry, in infinite mode. -/
theorem giveEntry_infinite (hs : SlotInv s.pl.inv) (hinfinite : s.pl.infiniteMode = true)
    (hpos : 1 ≤ entry.2) (hlimit : entry.2 ≤ 200) :
    (¬ Fitting env s.pl entry ∧ giveEntry env s entry = s) ∨
    (Fitting env s.pl entry ∧
      (∀ id, id ∉ lockIds → total id (giveEntry env s entry).pl.inv =
        total id s.pl.inv + single entry.1 entry.2 id) ∧
      ∀ {counts least}, Grown counts least s →
        Grown (fun id => counts id + single entry.1 entry.2 id)
          (least + entry.2 * lockGems entry.1) (giveEntry env s entry)) := by
  rw [giveEntry_once hpos hlimit]
  by_cases hvalid : validEntry env.items entry.1 = true
  · rw [if_neg (by simp [hvalid]), fitting_iff hvalid]
    by_cases hroom : Taken env s.pl entry.1 entry.2
    · have hret := (modify_gift_iff hs hpos false).mpr hroom
      exact Or.inr ⟨hroom, fun id hid =>
        modify_infinite_others hs hinfinite (by omega) hret hid,
        fun hgrown => hgrown.given (by omega) hret⟩
    · exact Or.inl ⟨hroom, (modify_of_not_fits hs hpos false hroom).2⟩
  · rw [if_pos (by simpa using hvalid)]
    exact Or.inl ⟨fun h => hvalid (Bool.and_eq_true_iff.mp h.1).1, rfl⟩

theorem grown_giveEntry (hs : Grown counts least s) (hpos : 1 ≤ entry.2)
    (hlimit : entry.2 ≤ 200) : Grown counts least (giveEntry env s entry) := by
  rcases @giveEntry_infinite env s entry hs.slots hs.infinite hpos hlimit with
    ⟨-, hafter⟩ | ⟨-, -, hgrown⟩
  · rw [hafter]
    exact hs
  · exact (hgrown hs).without (by omega)

/-- Entries that are served in infinite mode are all there. -/
theorem Served.grown (hs : Grown counts least s)
    (hqty : ∀ entry ∈ giveaway, 1 ≤ entry.2 ∧ entry.2 ≤ 200) (hserved : Served env giveaway s) :
    (∀ id, id ∉ lockIds → total id (giveaway.foldl (giveEntry env) s).pl.inv =
      total id s.pl.inv + total id giveaway) ∧
    Grown (fun id => counts id + total id giveaway) (least + worth giveaway)
      (giveaway.foldl (giveEntry env) s) := by
  induction giveaway generalizing s counts least with
  | nil =>
      refine ⟨fun id _ => (add_zero _).symm, hs.less (fun id => le_of_eq (add_zero _)) ?_⟩
      rw [worth_nil, add_zero]
  | cons entry rest ih =>
      obtain ⟨⟨hpos, hlimit⟩, hrest⟩ := List.forall_mem_cons.mp hqty
      obtain ⟨⟨hvalid, hfits, -⟩, hlast⟩ := hserved
      rcases @giveEntry_infinite env s entry hs.slots hs.infinite hpos hlimit with
        ⟨hnot, -⟩ | ⟨-, hothers, hgrown⟩
      · exact absurd ⟨hvalid, hfits⟩ hnot
      · obtain ⟨hitems, hall⟩ := ih (hgrown hs) hrest hlast
        rw [List.foldl_cons]
        refine ⟨fun id hid => ?_, hall.less (fun id => ?_) ?_⟩
        · rw [hitems id hid, hothers id hid, total_cons_single, add_assoc]
        · rw [total_cons_single, add_assoc]
        · rw [worth_cons, add_assoc]

/-- Of a giveaway without locks that is all there in infinite mode, every entry was
served. -/
theorem served_of_items (hs : Grown counts least s)
    (hqty : ∀ entry ∈ giveaway, 1 ≤ entry.2 ∧ entry.2 ≤ 200)
    (hothers : ∀ entry ∈ giveaway, entry.1 ∉ lockIds) :
    let t := giveaway.foldl (giveEntry env) s
    (∀ id, id ∉ lockIds → total id t.pl.inv ≤ total id s.pl.inv + total id giveaway) ∧
    ((∀ id, id ∉ lockIds → total id t.pl.inv = total id s.pl.inv + total id giveaway) →
      Served env giveaway s) := by
  induction giveaway generalizing s with
  | nil => exact ⟨fun id _ => le_of_eq (add_zero _).symm, fun _ => trivial⟩
  | cons entry rest ih =>
      obtain ⟨⟨hpos, hlimit⟩, hrest⟩ := List.forall_mem_cons.mp hqty
      obtain ⟨hid, hothers⟩ := List.forall_mem_cons.mp hothers
      obtain ⟨hmore, hlast⟩ := ih (@grown_giveEntry env s entry _ _ hs hpos hlimit) hrest hothers
      dsimp only at hmore hlast ⊢
      rw [List.foldl_cons]
      generalize rest.foldl (giveEntry env) (giveEntry env s entry) = t at hmore hlast ⊢
      simp only [total_cons_single]
      rcases @giveEntry_infinite env s entry hs.slots hs.infinite hpos hlimit with
        ⟨hnot, hafter⟩ | ⟨hroom, hmoved, -⟩
      · rw [hafter] at hmore
        constructor
        · intro id hlock
          have hupper := hmore id hlock
          have hgift : 0 ≤ single entry.1 entry.2 id := by
            unfold single
            split_ifs <;> omega
          omega
        · intro hall
          have hupper := hmore entry.1 hid
          have hexact := hall entry.1 hid
          rw [single_self] at hexact
          omega
      · constructor
        · intro id hlock
          have hupper := hmore id hlock
          rw [hmoved id hlock] at hupper
          omega
        · intro hall
          refine ⟨⟨hroom.1, hroom.2, fun hfinite => ?_⟩, hlast fun id hlock => ?_⟩
          · rw [hs.infinite] at hfinite
            cases hfinite
          · rw [hmoved id hlock, hall id hlock, add_assoc]

end Infinite

section Whole

variable {env : Env} {s : Session} {giveaway : List (Int × Int)}

/-- The turn of a player whose gifts are all served. -/
theorem Served.received (hlocks : env.items.LocksListed) (hs : SlotInv s.pl.inv)
    (hgems : s.pl.gems < 2 ^ 31) (hqty : ∀ entry ∈ giveaway, 1 ≤ entry.2 ∧ entry.2 ≤ 200)
    (hserved : Served env giveaway s) :
    Received giveaway s.pl (giveaway.foldl (giveEntry env) s).pl := by
  cases hmode : s.pl.infiniteMode with
  | false =>
      have hmoved := hserved.moved hlocks ⟨hs, hmode, hgems⟩ hqty
      exact ⟨hmoved.items, le_of_eq hmoved.worth.symm,
        fun hquiet id => le_of_eq ((hmoved.locks hquiet).2 id).symm,
        fun _ => ⟨hmoved.worth, hmoved.locks⟩⟩
  | true =>
      obtain ⟨hitems, hgrown⟩ := hserved.grown (Grown.start hs hmode) hqty
      refine ⟨fun id hid => ?_, hgrown.worth, fun _ id => ?_, fun hfinite => ?_⟩
      · rw [contains_eq_total hgrown.slots, contains_eq_total hs]
        exact hitems id hid
      · rw [contains_eq_total hgrown.slots, contains_eq_total hs]
        exact hgrown.counts id
      · rw [hmode] at hfinite
        cases hfinite

/-- And the other way round; in infinite mode conversions and sales can add the locks of
an entry that was left out. -/
theorem Received.served (hlocks : env.items.LocksListed) (hs : SlotInv s.pl.inv)
    (hgems : s.pl.gems < 2 ^ 31) (hnodup : (env.exchangeSetPrice.map Prod.fst).Nodup)
    (hqty : ∀ entry ∈ giveaway, 1 ≤ entry.2 ∧ entry.2 ≤ 200)
    (hothers : s.pl.infiniteMode = true → ∀ entry ∈ giveaway, entry.1 ∉ lockIds)
    (hall : Received giveaway s.pl (giveaway.foldl (giveEntry env) s).pl) :
    Served env giveaway s := by
  cases hmode : s.pl.infiniteMode with
  | false =>
      have hmost := @giveEntries_most env s giveaway hlocks ⟨hs, hmode, hgems⟩ hnodup hqty
      exact (hmost.2 hall.items).2 hall.worth
  | true =>
      have hstart := Grown.start hs hmode
      have hmost := @served_of_items env s giveaway _ _ hstart hqty (hothers hmode)
      have hafter := (@giveEntries_slots env s giveaway hqty hs)
      apply hmost.2
      intro id hid
      rw [← contains_eq_total hafter, ← contains_eq_total hs]
      exact hall.items id hid

/-- The turn of a player. -/
theorem giveToPlayer_all_or_nothing (hlocks : env.items.LocksListed)
    (hs : SlotInv s.pl.inv) (hgems : s.pl.gems < 2 ^ 31)
    (hnodup : (env.exchangeSetPrice.map Prod.fst).Nodup)
    (hqty : ∀ entry ∈ giveaway, 1 ≤ entry.2 ∧ entry.2 ≤ 200) :
    let all := AllOrNothing giveaway s.pl (giveToPlayer env giveaway s).1
      (giveToPlayer env giveaway s).2.pl
    (Skipped env giveaway s.pl ∨ Served env giveaway s → all) ∧
      ((s.pl.infiniteMode = true → ∀ entry ∈ giveaway, entry.1 ∉ lockIds) → all →
        Skipped env giveaway s.pl ∨ Served env giveaway s) := by
  dsimp only
  by_cases hskip : Skipped env giveaway s.pl
  · rw [giveToPlayer_skipped hskip]
    exact ⟨fun _ => allOrNothing_skipped s.pl, fun _ _ => Or.inl hskip⟩
  · rw [giveToPlayer_delivered hskip, allOrNothing_delivered, or_iff_right hskip]
    exact ⟨Served.received hlocks hs hgems hqty,
      fun hothers hall => hall.served hlocks hs hgems hnodup hqty hothers⟩

end Whole

section Turns

variable {env : Env} {now : Int} {giveaway : List (Int × Int)} {server : Server}

/-- What the players were told, and the server, after the turns of so many of them. -/
def turns (env : Env) (now : Int) (giveaway : List (Int × Int)) (server : Server)
    (n : Nat) : List Told × Server :=
  (List.range n).foldl (giveTurn env now giveaway) ([], server)

/-- The session in which the turn of a player begins. -/
def turnOf (env : Env) (now : Int) (giveaway : List (Int × Int)) (server : Server)
    (peer : Nat) (pl : Player) : Session :=
  (turns env now giveaway server peer).2.session pl now

/-- The players before an index have had their turn, the others have not. -/
structure Turned (env : Env) (now : Int) (giveaway : List (Int × Int)) (server : Server)
    (n : Nat) (acc : List Told × Server) : Prop where
  told : acc.1.length = n
  before : ∀ peer pl, peer < n → server.players[peer]? = some pl →
    let turn := giveToPlayer env giveaway (turnOf env now giveaway server peer pl)
    acc.1[peer]? = some turn.1 ∧ acc.2.players[peer]? = some turn.2.pl
  later : ∀ peer, n ≤ peer → acc.2.players[peer]? = server.players[peer]?

/-- One more turn. -/
theorem Turned.giveTurn {n : Nat}
    (hacc : Turned env now giveaway server n (turns env now giveaway server n))
    (hn : n < server.players.length) :
    Turned env now giveaway server (n + 1)
      (giveTurn env now giveaway (turns env now giveaway server n) n) := by
  obtain ⟨pl, hpl⟩ : ∃ pl, server.players[n]? = some pl :=
    ⟨_, List.getElem?_eq_getElem hn⟩
  have hturn : (turns env now giveaway server n).2.players[n]? = some pl :=
    (hacc.later n (le_refl n)).trans hpl
  have hlength : n < (turns env now giveaway server n).2.players.length :=
    (List.getElem?_eq_some_iff.mp hturn).1
  unfold SecretBansos.giveTurn Server.serve
  rw [hturn]
  dsimp only
  constructor
  · simp [hacc.told]
  · intro peer other hpeer hother
    by_cases hsame : peer = n
    · subst hsame
      have hplayer : pl = other := Option.some.inj (hpl.symm.trans hother)
      subst hplayer
      refine ⟨?_, List.getElem?_set_self hlength⟩
      rw [List.getElem?_append_right (le_of_eq hacc.told), hacc.told, Nat.sub_self]
      rfl
    · have hlt : peer < n := by omega
      obtain ⟨htold, hafter⟩ := hacc.before peer other hlt hother
      constructor
      · rw [List.getElem?_append_left (by rw [hacc.told]; exact hlt), htold]
      · rw [List.getElem?_set_ne (Ne.symm hsame), hafter]
  · intro peer hpeer
    rw [List.getElem?_set_ne (by omega)]
    exact hacc.later peer (by omega)

/-- Every player has a turn, and only one. -/
theorem turned_giveToAllPlayers :
    Turned env now giveaway server server.players.length
      (giveToAllPlayers env now giveaway server) := by
  have hturns (n : Nat) (hn : n ≤ server.players.length) :
      Turned env now giveaway server n (turns env now giveaway server n) := by
    induction n with
    | zero => exact ⟨rfl, fun _ _ h => absurd h (by omega), fun _ _ => rfl⟩
    | succ n ih =>
        have hnext := (ih (by omega)).giveTurn (by omega)
        unfold turns at hnext ⊢
        rw [List.range_succ, List.foldl_append]
        exact hnext
  exact hturns _ (le_refl _)

/-- Every connected player gets all of the giveaway or is skipped, exactly when too few
slots are free or every entry is served at its turn; and, where neither conversions nor
sales run, exactly when no stack is filled beyond its cap. -/
theorem giveToAllPlayers_all_or_nothing_iff (hlocks : env.items.LocksListed)
    (hslots : ∀ pl ∈ server.players, SlotInv pl.inv)
    (hgems : ∀ pl ∈ server.players, pl.gems < 2 ^ 31)
    (hnodup : (env.exchangeSetPrice.map Prod.fst).Nodup)
    (hqty : ∀ entry ∈ giveaway, 1 ≤ entry.2 ∧ entry.2 ≤ 200) :
    let result := giveToAllPlayers env now giveaway server
    ∀ (peer : Nat) pl, server.players[peer]? = some pl → ∃ told after,
      result.1[peer]? = some told ∧ result.2.players[peer]? = some after ∧
      (Skipped env giveaway pl ∨
          Served env giveaway (turnOf env now giveaway server peer pl) →
        AllOrNothing giveaway pl told after) ∧
      ((pl.infiniteMode = true → ∀ entry ∈ giveaway, entry.1 ∉ lockIds) →
        AllOrNothing giveaway pl told after → Skipped env giveaway pl ∨
          Served env giveaway (turnOf env now giveaway server peer pl)) ∧
      (Plain pl → (AllOrNothing giveaway pl told after ↔
        Skipped env giveaway pl ∨ Deliverable env giveaway pl)) := by
  dsimp only
  intro peer pl hpl
  obtain ⟨hpeer, -⟩ := List.getElem?_eq_some_iff.mp hpl
  have hmem := List.mem_of_getElem? hpl
  obtain ⟨htold, hafter⟩ := (@turned_giveToAllPlayers env now giveaway
    server).before peer pl hpeer hpl
  have hstart : (turnOf env now giveaway server peer pl).pl = pl := rfl
  generalize turnOf env now giveaway server peer pl = s at htold hafter hstart ⊢
  subst hstart
  have hs := hslots s.pl hmem
  have hturn := giveToPlayer_all_or_nothing hlocks hs (hgems s.pl hmem) hnodup hqty
  exact ⟨_, _, htold, hafter, hturn.1, hturn.2, giveToPlayer_plain_iff hs hqty⟩

/-- Two players with a stack of the same item, the second one next to its
cap. -/
def queue : Server where
  players := [{ inv := [(2, 50), (0, 0)] }, { inv := [(2, 150), (0, 0)] }]

/-- The second player is told of a delivery and got nothing. -/
theorem giveToAllPlayers_overflows :
    ¬ ∀ (env : Env) (now : Int) (giveaway : List (Int × Int))
      (server : Server), env.items.LocksListed →
      (∀ pl ∈ server.players, SlotInv pl.inv) →
      (∀ pl ∈ server.players, pl.gems < 2 ^ 31) →
      (env.exchangeSetPrice.map Prod.fst).Nodup →
      (∀ entry ∈ giveaway, 1 ≤ entry.2 ∧ entry.2 ≤ 200) →
        ∀ (peer : Nat) pl told after, server.players[peer]? = some pl →
          (giveToAllPlayers env now giveaway server).1[peer]? = some told →
          (giveToAllPlayers env now giveaway server).2.players[peer]? =
            some after → AllOrNothing giveaway pl told after := by
  intro hall
  have hsecond := hall { items := ⟨20298, fun _ => {}⟩ } 0 [(2, 100)] queue
    ⟨by decide, by decide⟩ (by decide) (by decide) (by decide) (by decide) 1 _
    .delivered _ rfl rfl rfl
  exact absurd ((allOrNothing_delivered.mp hsecond).items 2 (by decide)) (by decide)

/-- The first player gets all of it. -/
theorem giveToAllPlayers_delivers :
    (∀ pl ∈ queue.players, SlotInv pl.inv) ∧
      ∃ after, (giveToAllPlayers { items := ⟨20298, fun _ => {}⟩ } 0 [(2, 100)]
        queue).2.players[0]? = some after ∧
        AllOrNothing [(2, 100)] { inv := [(2, 50), (0, 0)] } .delivered after := by
  refine ⟨by decide, ?_⟩
  obtain ⟨told, after, htold, hafter, -, -, hall⟩ :=
    @giveToAllPlayers_all_or_nothing_iff { items := ⟨20298, fun _ => {}⟩ } 0
      [(2, 100)] queue ⟨by decide, by decide⟩ (by decide) (by decide) (by decide)
      (by decide) 0 _ rfl
  have htold' : told = .delivered := Option.some.inj (htold.symm.trans rfl)
  subst htold'
  exact ⟨after, hafter, (hall (by decide)).mpr (Or.inr (by decide))⟩

end Turns

end SecretBansos

end NopyServer
