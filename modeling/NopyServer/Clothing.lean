/-
Clothes: `Clothing::Equip` and `Clothing::UnEquip`.  A worn item stays in the
backpack: a clothing slot of the player names an item of `inv`, and `Modify`
empties the slot when the last copy of the item goes.  Three items cycle through
each other when they are put on, by a removal and an addition of the whole stack.
-/
import NopyServer.Locks
import NopyServer.Payments

namespace NopyServer

open Inventory SlotPack

namespace Clothing

section Definitions

/-- `UnEquip`. -/
def unEquip (items : Items) (id : Int) (pl : Player) : Player :=
  let item := items.item id
  let pl := if item.flagmay ≠ 0 then { pl with flagmay := 0 } else pl
  let off := takeOff item id (turnLook id pl)
  removeMod item id off.1 off.2

/-- The garment goes into the slot of its cloth type, which has sixteen bits. -/
def dress (item : Int) (pl : Player) : ClothTypes → Player
  | .ances => { pl with ances := UInt16.ofNat item.toNat }
  | .back => { pl with back := UInt16.ofNat item.toNat }
  | .feet => { pl with feet := UInt16.ofNat item.toNat }
  | .face => { pl with face := UInt16.ofNat item.toNat }
  | .hair => { pl with hair := UInt16.ofNat item.toNat }
  | .hand => { pl with hand := UInt16.ofNat item.toNat }
  | .mask => { pl with mask := UInt16.ofNat item.toNat }
  | .necklace => { pl with necklace := UInt16.ofNat item.toNat }
  | .pants => { pl with pants := UInt16.ofNat item.toNat }
  | .shirt => { pl with shirt := UInt16.ofNat item.toNat }
  | .none => pl

/-- An item is worn in some slot. -/
def wears (pl : Player) (item : Int) : Bool :=
  [pl.ances, pl.back, pl.feet, pl.face, pl.hair, pl.hand, pl.mask, pl.necklace,
    pl.pants, pl.shirt].any fun garment => (garment.toNat : Int) == item

/-- `Epic_Quest::Add` on a counter and `epic_quest_total`. -/
def epicQuestAdd (requirement increaseBy : Int) (state : Int × Int) : Int × Int :=
  if state.1 < requirement then
    if requirement ≤ state.1 + increaseBy then (requirement, state.2 + 1)
    else (state.1 + increaseBy, state.2)
  else state

/-- The epic quest of dressing up as Locke. -/
def dressUp (pl : Player) : Player :=
  if pl.pants = 2474 ∧ pl.shirt = 2472 ∧ pl.face = 2466 ∧ pl.hair = 2470 ∧
      pl.mask = 2468 then
    let counted := epicQuestAdd 1 1 (pl.epicqDressup, pl.epicQuestTotal)
    { pl with epicqDressup := counted.1, epicQuestTotal := counted.2 }
  else pl

/-- `Playmods::HasById`, which puts off the end of the mod. -/
def hasById (id : UInt16) (time now : Int) (pl : Player) : Bool × Player :=
  match pl.playmods.findIdx? fun mod => mod.id == id with
  | none => (false, pl)
  | some i =>
      (true,
        if time ≠ 0 then
          { pl with
            playmods := pl.playmods.modify i fun mod =>
              { mod with time := now + time } }
        else pl)

/-- The items that turn into each other. -/
def forms : List Int := [4746, 4748, 4750]

def nextForm (item : Int) : Int :=
  if item = 4746 then 4748 else if item = 4748 then 4750 else 4746

variable (env : Env)

/-- The whole stack of a cycling item is exchanged for its next form. -/
def cycle (item c : Int) (s : Session) : Int × Session :=
  if item ∈ forms then
    let taken := (modify env s item (c * -1) false).session
    (nextForm item, (modify env taken (nextForm item) |c * -1| false).session)
  else (item, s)

/-- A lawyer's briefs stun the judge and are used up. -/
def stunJudge (item : Int) (s : Session) : Session :=
  if item = 3172 then
    let has := hasById 86 1 s.now s.pl
    let s := { s with pl := has.2 }
    if has.1 then (modify env s 3172 (-1) false).session else s
  else s

/-- `Equip`. -/
def equip (item : Int) (s : Session) : Session :=
  let asked := modify env s item 0 false
  let s := asked.session
  if asked.c_ = 0 then s
  else if item = 9506 ∧ s.pl.tankIDName ≠ "Azzam" then s
  else
    let s := s.mapPlayer dressUp
    if wears s.pl item then s.mapPlayer (unEquip env.items item)
    else
      let cycled := cycle env item asked.c_ s
      stunJudge env cycled.1
        (cycled.2.mapPlayer fun pl =>
          dress cycled.1 pl (env.items.item cycled.1).clothType)

end Definitions

section Slots

variable {items : Items} {pl : Player} {id : Int} {cloth : ClothTypes}
  {garment : UInt16}

/-- What a slot may hold: a garment of its cloth type, at least one of which is
in the backpack. -/
structure Held (items : Items) (inv : List (Int × Int)) (cloth : ClothTypes)
    (garment : UInt16) : Prop where
  cloth : (items.item garment.toNat).clothType = cloth
  clothing : (items.item garment.toNat).blockType = .clothing
  owned : 1 ≤ contains inv garment.toNat

/-- Every slot is empty or holds what it may. -/
def Dressed (items : Items) (pl : Player) : Prop :=
  ∀ cloth garment, worn pl cloth = some garment → garment ≠ 0 →
    Held items pl.inv cloth garment

theorem worn_undress (pl : Player) (cloth other : ClothTypes) :
    worn (undress pl cloth) other =
      if other = cloth then (worn pl cloth).map fun _ => 0 else worn pl other := by
  cases cloth <;> cases other <;> rfl

theorem worn_dress (item : Int) (pl : Player) (cloth other : ClothTypes) :
    worn (dress item pl cloth) other =
      if other = cloth then (worn pl cloth).map fun _ => UInt16.ofNat item.toNat
      else worn pl other := by
  cases cloth <;> cases other <;> rfl

theorem worn_turnLook (id : Int) (pl : Player) (cloth : ClothTypes) :
    worn (turnLook id pl) cloth = worn pl cloth := by
  unfold turnLook
  split_ifs <;> cases cloth <;> rfl

theorem worn_removeMod (item : ItemDB) (id : Int) (stat : Bool) (pl : Player)
    (cloth : ClothTypes) :
    worn (removeMod item id stat pl) cloth = worn pl cloth := by
  unfold removeMod
  split_ifs <;> cases cloth <;> rfl

theorem worn_clearBillboard (id : Int) (pl : Player) (cloth : ClothTypes) :
    worn (clearBillboard id pl) cloth = worn pl cloth := by
  unfold clearBillboard
  split_ifs <;> cases cloth <;> rfl

theorem worn_inv (pl : Player) (inv : List (Int × Int)) (cloth : ClothTypes) :
    worn { pl with inv := inv } cloth = worn pl cloth := by
  cases cloth <;> rfl

/-- What is still worn after something was taken off was worn before, and is not
what was taken off. -/
theorem worn_takeOff {item : ItemDB}
    (hworn : worn (takeOff item id pl).2 cloth = some garment)
    (hgarment : garment ≠ 0) :
    worn pl cloth = some garment ∧
      (item.clothType = cloth → (garment.toNat : Int) ≠ id) := by
  unfold takeOff at hworn
  cases hold : worn pl item.clothType with
  | none =>
      rw [hold] at hworn
      refine ⟨hworn, fun hcloth => ?_⟩
      rw [← hcloth, hold] at hworn
      cases hworn
  | some old =>
      rw [hold] at hworn
      dsimp only at hworn
      split_ifs at hworn with hid
      · rw [worn_undress] at hworn
        split_ifs at hworn with hcloth
        · rw [hold] at hworn
          exact absurd (Option.some.inj hworn).symm hgarment
        · exact ⟨hworn, fun hsame => absurd hsame.symm hcloth⟩
      · refine ⟨hworn, fun hcloth => ?_⟩
        rw [← hcloth, hold] at hworn
        rw [← Option.some.inj hworn]
        exact hid

theorem worn_unEquip
    (hworn : worn (unEquip items id pl) cloth = some garment)
    (hgarment : garment ≠ 0) :
    worn pl cloth = some garment ∧
      ((items.item id).clothType = cloth → (garment.toNat : Int) ≠ id) := by
  unfold unEquip at hworn
  dsimp only at hworn
  rw [worn_removeMod] at hworn
  obtain ⟨hbefore, hother⟩ := worn_takeOff hworn hgarment
  rw [worn_turnLook] at hbefore
  refine ⟨?_, hother⟩
  split at hbefore
  · rw [← hbefore]
    cases cloth <;> rfl
  · exact hbefore

/-- Losing the last copy of a garment takes it off. -/
theorem worn_loseItem
    (hworn : worn (loseItem items id pl) cloth = some garment)
    (hgarment : garment ≠ 0) :
    worn pl cloth = some garment ∧
      ((items.item id).blockType = .clothing →
        (items.item id).clothType = cloth → (garment.toNat : Int) ≠ id) := by
  have hlose : loseItem items id pl =
      if (items.item id).blockType = .clothing then
        unEquip items id (clearBillboard id pl)
      else clearBillboard id pl := rfl
  rw [hlose] at hworn
  split_ifs at hworn with hclothing
  · obtain ⟨hbefore, hother⟩ := worn_unEquip hworn hgarment
    rw [worn_clearBillboard] at hbefore
    exact ⟨hbefore, fun _ => hother⟩
  · rw [worn_clearBillboard] at hworn
    exact ⟨hworn, fun h => absurd h hclothing⟩

end Slots

section Invariant

variable {env : Env} {items : Items} {pl next : Player} {s : Session}
  {i c id item left : Int} {forceReturn : Bool}

theorem contains_pos_of_mem {inv : List (Int × Int)} (hinv : SlotInv inv)
    {slot : Int × Int} (hmem : slot ∈ inv) (hid : slot.1 ≠ 0) :
    1 ≤ contains inv slot.1 := by
  unfold contains
  cases hfind : inv.find? fun other => other.1 == slot.1 with
  | none =>
      have habsent := List.find?_eq_none.mp hfind slot hmem
      exact absurd (beq_self_eq_true slot.1) habsent
  | some found =>
      have hkey : found.1 = slot.1 := by simpa using List.find?_some hfind
      rcases hinv.slot found (List.mem_of_find?_eq_some hfind) with hfree | hstack
      · rw [hfree] at hkey
        exact absurd hkey.symm hid
      · exact hstack.2.1

/-- A change of the slots leaves the clothes alone, with some of the item left,
or loses the last copy. -/
theorem modifySlots_worn
    (hslots : modifySlots items pl i c forceReturn = (some next, left)) :
    (∀ cloth, worn next cloth = worn (loseItem items i pl) cloth) ∨
      ((∀ cloth, worn next cloth = worn pl cloth) ∧
        ∃ n, (i, n) ∈ next.inv) := by
  have hscan := scan_spec i pl.inv
  unfold modifySlots at hslots
  generalize scan i pl.inv 0 none = result at hscan hslots
  cases hscan with
  | found pre post n hpl =>
      dsimp only at hslots
      split_ifs at hslots with hcap hneg hsum hzero
      · cases hslots
      · obtain ⟨hnext, -⟩ := Prod.mk.inj hslots
        rw [← Option.some.inj hnext]
        exact Or.inl (worn_inv _ _)
      · cases hslots
      · obtain ⟨hnext, -⟩ := Prod.mk.inj hslots
        rw [← Option.some.inj hnext]
        exact Or.inr ⟨worn_inv _ _, n + c, by simp [hpl]⟩
      · cases hslots
      · cases hslots
  | free pre post n hpl habsent =>
      dsimp only at hslots
      split_ifs at hslots with hpos
      · obtain ⟨hnext, -⟩ := Prod.mk.inj hslots
        rw [← Option.some.inj hnext]
        exact Or.inr ⟨worn_inv _ _, c, by simp [hpl]⟩
      · cases hslots
  | none habsent hfull => cases hslots

/-- A change of the slots keeps everybody dressed. -/
theorem modifySlots_dressed (hinv : SlotInv pl.inv) (hdressed : Dressed items pl)
    (hi : 0 < i) (hchanged : Changed pl i c next)
    (hslots : modifySlots items pl i c forceReturn = (some next, left)) :
    Dressed items next := by
  intro cloth garment hworn hgarment
  rcases modifySlots_worn hslots with hlost | ⟨hsame, n, hmem⟩
  · rw [hlost] at hworn
    obtain ⟨hbefore, hother⟩ := worn_loseItem hworn hgarment
    obtain ⟨hcloth, hclothing, howned⟩ := hdressed cloth garment hbefore hgarment
    have hne : (garment.toNat : Int) ≠ i := by
      intro heq
      rw [heq] at hcloth hclothing
      exact hother hclothing hcloth heq
    exact ⟨hcloth, hclothing, by rwa [hchanged.given.contains_of_ne hinv (Ne.symm hne)]⟩
  · rw [hsame] at hworn
    obtain ⟨hcloth, hclothing, howned⟩ := hdressed cloth garment hworn hgarment
    refine ⟨hcloth, hclothing, ?_⟩
    by_cases heq : (garment.toNat : Int) = i
    · rw [heq]
      exact contains_pos_of_mem hchanged.slots hmem (Int.ne_of_gt hi)
    · rwa [hchanged.given.contains_of_ne hinv (Ne.symm heq)]

theorem Dressed.congr (hdressed : Dressed items pl) (hinv : next.inv = pl.inv)
    (hworn : ∀ cloth, worn next cloth = worn pl cloth) : Dressed items next := by
  intro cloth garment hnext hgarment
  rw [hworn] at hnext
  rw [hinv]
  exact hdressed cloth garment hnext hgarment

/-- The invariant of clothes. -/
def Wardrobe (items : Items) (pl : Player) : Prop :=
  SlotInv pl.inv ∧ Dressed items pl

/-- `Modify` keeps it whatever the settings. -/
theorem kept_wardrobe (env : Env) :
    Kept env fun s => Wardrobe env.items s.pl where
  slots s i c forceReturn next left hi hc hslots hs := by
    have hspec := @modifySlots_spec env.items s.pl i c forceReturn hs.1 hi hc
    rcases hspec with ⟨next', left', heq, hchanged⟩ | ⟨left', heq, -⟩
    · rw [hslots] at heq
      rw [← Option.some.inj (Prod.mk.inj heq).1] at hchanged
      exact ⟨hchanged.slots,
        modifySlots_dressed hs.1 hs.2 hi hchanged hslots⟩
    · rw [hslots] at heq
      cases heq
  gems s gems hs := ⟨hs.1, hs.2.congr rfl fun cloth => by cases cloth <;> rfl⟩
  dropped _ _ _ hs := hs
  convert _ hmodify _ hs :=
    hmodify.autoConvertWith
      (fun _ _ h => ⟨h.1, h.2.congr rfl fun cloth => by cases cloth <;> rfl⟩) hs
  sell _ hmodify _ hs :=
    hmodify.sellFishWith _
      (fun _ _ h => ⟨h.1, h.2.congr rfl fun cloth => by cases cloth <;> rfl⟩) hs

theorem modify_wardrobe (hs : Wardrobe env.items s.pl) (i c : Int)
    (forceReturn : Bool) :
    Wardrobe env.items (modify env s i c forceReturn).session.pl :=
  ((kept_wardrobe env).modifyN 2).modify s i c forceReturn hs

/-- Two states of a player that differ in nothing that clothes depend on. -/
structure Alike (pl next : Player) : Prop where
  inv : next.inv = pl.inv
  worn : ∀ cloth, worn next cloth = worn pl cloth
  convert : next.autoConvert = pl.autoConvert
  infinite : next.infiniteMode = pl.infiniteMode

theorem Alike.refl (pl : Player) : Alike pl pl := ⟨rfl, fun _ => rfl, rfl, rfl⟩

theorem Alike.wardrobe (halike : Alike pl next) (hs : Wardrobe items pl) :
    Wardrobe items next :=
  ⟨halike.inv ▸ hs.1, hs.2.congr halike.inv halike.worn⟩

theorem dressUp_alike (pl : Player) : Alike pl (dressUp pl) := by
  unfold dressUp
  split
  · exact ⟨rfl, fun cloth => by cases cloth <;> rfl, rfl, rfl⟩
  · exact Alike.refl pl

theorem hasById_alike (id : UInt16) (time now : Int) (pl : Player) :
    Alike pl (hasById id time now pl).2 := by
  unfold hasById
  split
  · exact Alike.refl pl
  · dsimp only
    split
    · exact ⟨rfl, fun cloth => by cases cloth <;> rfl, rfl, rfl⟩
    · exact Alike.refl pl

theorem unEquip_frame (items : Items) (id : Int) (pl : Player) :
    (unEquip items id pl).core = pl.core ∧ (unEquip items id pl).inv = pl.inv := by
  unfold unEquip
  dsimp only
  obtain ⟨hmod, hmodInv⟩ := removeMod_frame (items.item id) id _ _
  obtain ⟨hoff, hoffInv⟩ := takeOff_frame (items.item id) id _
  obtain ⟨hlook, hlookInv⟩ := turnLook_frame id _
  rw [hmod, hoff, hlook, hmodInv, hoffInv, hlookInv]
  split <;> exact ⟨rfl, rfl⟩

theorem unEquip_wardrobe (hs : Wardrobe items pl) (id : Int) :
    Wardrobe items (unEquip items id pl) := by
  obtain ⟨-, hinv⟩ := unEquip_frame items id pl
  refine ⟨hinv ▸ hs.1, fun cloth garment hworn hgarment => ?_⟩
  obtain ⟨hbefore, -⟩ := worn_unEquip hworn hgarment
  rw [hinv]
  exact hs.2 cloth garment hbefore hgarment

/-- What `Equip` relies on: the table lists the items its code names, has at most
as many items as sixteen bits can name, and the items that cycle are clothes. -/
structure Garments (items : Items) : Prop where
  listed : 4750 ≤ items.size
  bits : items.size < 65536
  cycling : ∀ id ∈ forms, (items.item id).blockType = .clothing

/-- What the callers of `Equip` check: an item with a cloth type is clothing. -/
def Wearable (items : Items) (item : Int) : Prop :=
  (items.item item).clothType ≠ .none → (items.item item).blockType = .clothing

theorem dress_wardrobe (hs : Wardrobe items pl) (hpos : 0 < item)
    (hbits : item < 65536) (hwearable : Wearable items item)
    (howned : 1 ≤ contains pl.inv item) :
    Wardrobe items (dress item pl (items.item item).clothType) := by
  have hinv : (dress item pl (items.item item).clothType).inv = pl.inv := by
    cases (items.item item).clothType <;> rfl
  have hnat : ((UInt16.ofNat item.toNat).toNat : Int) = item := by
    have hsize : UInt16.size = 65536 := rfl
    rw [UInt16.toNat_ofNat_of_lt' (by omega)]
    omega
  refine ⟨hinv ▸ hs.1, fun cloth garment hworn hgarment => ?_⟩
  rw [hinv]
  rw [worn_dress] at hworn
  split_ifs at hworn with hcloth
  · obtain ⟨old, hold, rfl⟩ := Option.map_eq_some_iff.mp hworn
    refine ⟨?_, ?_, ?_⟩
    · rw [hnat]
      exact hcloth.symm
    · rw [hnat]
      refine hwearable fun hnone => ?_
      rw [hnone] at hold
      cases hold
    · rw [hnat]
      exact howned
  · exact hs.2 cloth garment hworn hgarment

theorem stunJudge_wardrobe (hs : Wardrobe env.items s.pl) (item : Int) :
    Wardrobe env.items (stunJudge env item s).pl := by
  have hmod := (hasById_alike 86 1 s.now s.pl).wardrobe hs
  unfold stunJudge
  generalize hasById 86 1 s.now s.pl = has at hmod ⊢
  split
  · dsimp only
    split
    · exact @modify_wardrobe env { s with pl := has.2 } hmod 3172 (-1) false
    · exact hmod
  · exact hs

theorem Garments.accepts (hgarments : Garments env.items) (hid : id ∈ forms) :
    Accepts env id := by
  have hlisted := hgarments.listed
  unfold Accepts
  rcases List.mem_cons.mp hid with rfl | hid
  · omega
  · rcases List.mem_cons.mp hid with rfl | hid
    · omega
    · rw [List.mem_singleton.mp hid]
      omega

theorem Garments.not_fish (hgarments : Garments items) (hid : id ∈ forms) :
    items.isFish id = false := by
  rw [Items.isFish, hgarments.cycling id hid]
  rfl

theorem nextForm_mem (item : Int) : nextForm item ∈ forms := by
  unfold nextForm
  split_ifs <;> decide

theorem nextForm_ne (hitem : item ∈ forms) : nextForm item ≠ item := by
  rcases List.mem_cons.mp hitem with rfl | hitem
  · decide
  · rcases List.mem_cons.mp hitem with rfl | hitem
    · decide
    · rw [List.mem_singleton.mp hitem]
      decide

/-- After an addition the item is in the backpack, when it was before or a slot
was free. -/
theorem modify_owned (hs : SlotInv s.pl.inv) (haccepts : Accepts env i)
    (hconvert : s.pl.autoConvert = false) (hfish : env.items.isFish i = false)
    (hc : 0 < c) (hlimit : c ≤ 200)
    (hroom : 0 < contains s.pl.inv i ∨ 0 < getSlots s.pl.inv) :
    1 ≤ contains (modify env s i c false).session.pl.inv i := by
  have hbounds := hs.wellFormed.total_bounds (by decide)
    (Int.ne_of_gt haccepts.1)
  rw [← contains_eq_total hs] at hbounds
  rcases modify_plain (c := c) false hs haccepts (Or.inl hconvert)
      (Or.inr (Or.inr (Or.inr hfish))) (by omega) with
    ⟨next, left, hmodify, hchanged⟩ | ⟨left, hmodify, hnone⟩
  · have hamount := hchanged.given.amount i
    rw [if_pos rfl, ← contains_eq_total hs,
      ← contains_eq_total hchanged.slots] at hamount
    rw [hmodify]
    change 1 ≤ contains next.inv i
    omega
  · rw [hmodify]
    change 1 ≤ contains s.pl.inv i
    rw [contains_eq_total hs] at hbounds hroom ⊢
    rw [Pack.change_give_eq_none_iff hc hlimit hbounds.1] at hnone
    rcases hnone with hfull | ⟨hzero, hnoRoom⟩
    · change 200 < total i s.pl.inv + c at hfull
      omega
    · change total i s.pl.inv = 0 at hzero
      change getSlots s.pl.inv = 0 at hnoRoom
      omega

/-- A stack that is taken whole leaves a free slot. -/
theorem frees_slot (hchanged : Changed pl i c next) (hc : c < 0)
    (hall : total i pl.inv + c = 0) : 0 < getSlots next.inv := by
  have hroom := Pack.change_exhaust_room hchanged.view hall hc
  change getSlots next.inv = getSlots pl.inv + 1 at hroom
  omega

/-- A cycling item is exchanged in infinite mode only where there is room for the
next form. -/
def Exchangeable (item : Int) (pl : Player) : Prop :=
  item ∈ forms → wears pl item = false → pl.infiniteMode = true →
    0 < contains pl.inv (nextForm item) ∨ 0 < getSlots pl.inv

/-- After the exchange the next form is in the backpack. -/
theorem cycle_owned (hgarments : Garments env.items) (hs : SlotInv s.pl.inv)
    (hconvert : s.pl.autoConvert = false) (hexchange : Exchangeable item s.pl)
    (hworn : wears s.pl item = false) (hc : c = contains s.pl.inv item)
    (hpos : 0 < c) :
    1 ≤ contains (cycle env item c s).2.pl.inv (cycle env item c s).1 := by
  unfold cycle
  by_cases hitem : item ∈ forms
  · rw [if_pos hitem]
    dsimp only
    have haccepts := hgarments.accepts hitem
    have hnextAccepts := hgarments.accepts (nextForm_mem item)
    have hfish := hgarments.not_fish (nextForm_mem item)
    have hbounds := hs.wellFormed.total_bounds (by decide)
      (Int.ne_of_gt haccepts.1)
    rw [contains_eq_total hs] at hc
    have habs : |c * -1| = c := by
      rw [abs_of_neg (by omega)]
      omega
    rw [habs]
    cases hinfinite : s.pl.infiniteMode with
    | true =>
        rw [modify_infinite false hinfinite (by omega)]
        exact modify_owned hs hnextAccepts hconvert hfish hpos (by omega)
          (hexchange hitem hworn hinfinite)
    | false =>
        obtain ⟨next, left, hmodify, hchanged⟩ := modify_changes false hs
          ⟨Or.inl hconvert, Or.inl (by omega), hinfinite⟩ haccepts
          (c := c * -1) (by omega) (by rw [contains_eq_total hs]; omega)
        have hnextConvert := Player.core_congr hchanged.core Player.autoConvert
          fun _ => rfl
        rw [hmodify]
        exact modify_owned (s := { s with pl := next }) hchanged.slots
          hnextAccepts (hnextConvert.trans hconvert) hfish hpos (by omega)
          (Or.inr (frees_slot hchanged (by omega) (by omega)))
  · rw [if_neg hitem]
    dsimp only
    omega

theorem modify_autoConvert (env : Env) (s : Session) (i c : Int)
    (forceReturn : Bool) :
    (modify env s i c forceReturn).session.pl.autoConvert = s.pl.autoConvert :=
  ((kept_member env Player.autoConvert s.pl.autoConvert (fun _ => rfl)
    (fun _ _ => rfl) (fun _ _ => rfl) (fun _ _ => rfl)).modifyN 2).modify s i c
    forceReturn rfl

theorem cycle_wardrobe (hs : Wardrobe env.items s.pl) (item c : Int) :
    Wardrobe env.items (cycle env item c s).2.pl := by
  unfold cycle
  split
  · exact modify_wardrobe (modify_wardrobe hs _ _ _) _ _ _
  · exact hs

theorem cycle_autoConvert (item c : Int) (s : Session) :
    (cycle env item c s).2.pl.autoConvert = s.pl.autoConvert := by
  unfold cycle
  split
  · rw [modify_autoConvert, modify_autoConvert]
  · rfl

/-- The item that is put on in the end. -/
theorem cycle_item (hgarments : Garments env.items) (haccepts : Accepts env item)
    (hwearable : Wearable env.items item) :
    Accepts env (cycle env item c s).1 ∧
      Wearable env.items (cycle env item c s).1 := by
  unfold cycle
  split
  · exact ⟨hgarments.accepts (nextForm_mem item),
      fun _ => hgarments.cycling _ (nextForm_mem item)⟩
  · exact ⟨haccepts, hwearable⟩

theorem wears_dressUp (pl : Player) (item : Int) :
    wears (dressUp pl) item = wears pl item := by
  unfold dressUp
  split <;> rfl

/-- `Equip` past its first returns, for an item that is not worn. -/
def putOn (env : Env) (item c : Int) (s : Session) : Session :=
  let cycled := cycle env item c s
  stunJudge env cycled.1
    (cycled.2.mapPlayer fun pl =>
      dress cycled.1 pl (env.items.item cycled.1).clothType)

/-- What `Equip` does: nothing, taking off or putting on. -/
theorem equip_cases (hs : SlotInv s.pl.inv) (item : Int) :
    ((Accepts env item → 0 < contains s.pl.inv item → item = 9506) ∧
        equip env item s = s) ∨
      (wears s.pl item = true ∧
        equip env item s =
          (s.mapPlayer dressUp).mapPlayer (unEquip env.items item)) ∨
      (wears s.pl item = false ∧ Accepts env item ∧
        0 < contains s.pl.inv item ∧
        equip env item s = putOn env item (contains s.pl.inv item)
          (s.mapPlayer dressUp)) := by
  obtain ⟨n, hasked, hn⟩ := @modify_asks env s hs item
  unfold equip
  rw [hasked]
  dsimp only
  by_cases hzero : n = 0
  · refine Or.inl ⟨fun haccepts hpos => ?_, if_pos hzero⟩
    rw [modify_query hs haccepts, Modified.mk.injEq] at hasked
    omega
  · obtain ⟨haccepts, rfl⟩ := hn hzero
    have hbounds := hs.wellFormed.total_bounds (by decide)
      (Int.ne_of_gt haccepts.1)
    rw [← contains_eq_total hs] at hbounds
    rw [if_neg hzero]
    by_cases hforbidden : item = 9506 ∧ s.pl.tankIDName ≠ "Azzam"
    · exact Or.inl ⟨fun _ _ => hforbidden.1, if_pos hforbidden⟩
    · rw [if_neg hforbidden]
      have hsame : wears (s.mapPlayer dressUp).pl item = wears s.pl item :=
        wears_dressUp s.pl item
      rw [hsame]
      cases hworn : wears s.pl item with
      | true => exact Or.inr (Or.inl ⟨rfl, rfl⟩)
      | false => exact Or.inr (Or.inr ⟨rfl, haccepts, by omega, rfl⟩)

theorem dress_autoConvert (item : Int) (pl : Player) (cloth : ClothTypes) :
    (dress item pl cloth).autoConvert = pl.autoConvert := by
  cases cloth <;> rfl

theorem stunJudge_autoConvert (item : Int) (s : Session) :
    (stunJudge env item s).pl.autoConvert = s.pl.autoConvert := by
  have hmod := (hasById_alike 86 1 s.now s.pl).convert
  unfold stunJudge
  generalize hasById 86 1 s.now s.pl = has at hmod ⊢
  split
  · dsimp only
    split
    · rw [modify_autoConvert]
      exact hmod
    · exact hmod
  · rfl

/-- The invariant of clothes with automatic conversion off. -/
def Sound (items : Items) (pl : Player) : Prop :=
  Wardrobe items pl ∧ pl.autoConvert = false

theorem putOn_sound (hgarments : Garments env.items)
    (hwearable : Wearable env.items item) (haccepts : Accepts env item)
    (hexchange : Exchangeable item s.pl) (hworn : wears s.pl item = false)
    (hpos : 0 < contains s.pl.inv item) (hs : Sound env.items s.pl) :
    Sound env.items (putOn env item (contains s.pl.inv item) s).pl := by
  obtain ⟨hwardrobe, hconvert⟩ := hs
  obtain ⟨hcycledAccepts, hcycledWearable⟩ := @cycle_item env s
    (contains s.pl.inv item) item hgarments haccepts hwearable
  have howned := cycle_owned hgarments hwardrobe.1 hconvert hexchange hworn rfl hpos
  have hcycled := cycle_wardrobe hwardrobe item (contains s.pl.inv item)
  have hcycledConvert := @cycle_autoConvert env item (contains s.pl.inv item) s
  have hbits := hgarments.bits
  have hle := hcycledAccepts.2.1
  unfold putOn
  dsimp only
  constructor
  · refine stunJudge_wardrobe ?_ _
    exact dress_wardrobe hcycled hcycledAccepts.1 (by omega) hcycledWearable howned
  · rw [stunJudge_autoConvert]
    exact (dress_autoConvert _ _ _).trans (hcycledConvert.trans hconvert)

/-- `Equip` keeps it. -/
theorem equip_sound (hgarments : Garments env.items)
    (hwearable : Wearable env.items item) (hexchange : Exchangeable item s.pl)
    (hs : Sound env.items s.pl) : Sound env.items (equip env item s).pl := by
  have halike := dressUp_alike s.pl
  have hdressUp : Sound env.items (s.mapPlayer dressUp).pl :=
    ⟨halike.wardrobe hs.1, halike.convert.trans hs.2⟩
  rcases @equip_cases env s hs.1.1 item with
    ⟨-, hsame⟩ | ⟨-, hoff⟩ | ⟨hworn, haccepts, hpos, hon⟩
  · rw [hsame]
    exact hs
  · rw [hoff]
    refine ⟨unEquip_wardrobe hdressUp.1 item, ?_⟩
    exact (Player.core_congr (unEquip_frame env.items item _).1
      Player.autoConvert fun _ => rfl).trans hdressUp.2
  · rw [hon, ← halike.inv]
    refine putOn_sound hgarments hwearable haccepts ?_ ?_ ?_ hdressUp
    · intro hitem _ hinfinite
      have hroom := hexchange hitem hworn (halike.infinite ▸ hinfinite)
      rwa [← halike.inv] at hroom
    · exact (wears_dressUp s.pl item).trans hworn
    · rw [← halike.inv] at hpos
      exact hpos

end Invariant

section Totals

variable {env : Env} {s : Session} {c id item : Int}

/-- How many of an item are owned, an item and its forms counted as one. -/
def owned (id : Int) (inv : List (Int × Int)) : Int :=
  if id ∈ forms then total 4746 inv + total 4748 inv + total 4750 inv
  else total id inv

/-- The next form of a cycling item has room for the whole stack. -/
def Fits (item : Int) (pl : Player) : Prop :=
  item ∈ forms → wears pl item = false →
    contains pl.inv (nextForm item) + contains pl.inv item ≤ 200

/-- Putting on the item uses one of it up. -/
def Stuns (item : Int) (pl : Player) : Prop :=
  item = 3172 ∧ 0 < contains pl.inv 3172 ∧ wears pl 3172 = false ∧
    pl.playmods.any (fun mod => mod.id == 86) = true

instance (item : Int) (pl : Player) : Decidable (Stuns item pl) :=
  inferInstanceAs (Decidable (_ ∧ _))

/-- Moving a stack to another form changes nothing that is owned. -/
theorem owned_exchange {inv next last : List (Int × Int)} (hitem : item ∈ forms)
    (htaken : ∀ id, total id next = total id inv + if item = id then -c else 0)
    (hgiven : ∀ id, total id last =
      total id next + if nextForm item = id then c else 0) (id : Int) :
    owned id last = owned id inv := by
  unfold owned
  split
  · rw [hgiven, hgiven, hgiven, htaken, htaken, htaken]
    rcases List.mem_cons.mp hitem with rfl | hitem
    · simp [nextForm]
      omega
    · rcases List.mem_cons.mp hitem with rfl | hitem
      · simp [nextForm]
        omega
      · rw [List.mem_singleton.mp hitem]
        simp [nextForm]
        omega
  next hid =>
    have hne : item ≠ id := fun heq => hid (heq ▸ hitem)
    have hnextNe : nextForm item ≠ id := fun heq => hid (heq ▸ nextForm_mem item)
    rw [hgiven, htaken, if_neg hne, if_neg hnextNe]
    omega

/-- Cycling changes nothing that is owned. -/
theorem cycle_owns (hgarments : Garments env.items) (hs : SlotInv s.pl.inv)
    (hconvert : s.pl.autoConvert = false) (hfinite : s.pl.infiniteMode = false)
    (hfits : Fits item s.pl) (hworn : wears s.pl item = false)
    (hc : c = contains s.pl.inv item) (hpos : 0 < c) :
    SlotInv (cycle env item c s).2.pl.inv ∧
      (cycle env item c s).2.pl.core = s.pl.core ∧
      (∀ id, owned id (cycle env item c s).2.pl.inv = owned id s.pl.inv) ∧
      (item ∉ forms → cycle env item c s = (item, s)) := by
  unfold cycle
  by_cases hitem : item ∈ forms
  · rw [if_pos hitem]
    dsimp only
    have haccepts := hgarments.accepts hitem
    have hnextAccepts := hgarments.accepts (nextForm_mem item)
    have hfish := hgarments.not_fish (nextForm_mem item)
    have habs : |c * -1| = c := by
      rw [abs_of_neg (by omega)]
      omega
    have hroom := hfits hitem hworn
    obtain ⟨next, left, hmodify, hchanged⟩ := modify_changes false hs
      ⟨Or.inl hconvert, Or.inl (by omega), hfinite⟩ haccepts
      (c := c * -1) (by omega) (by omega)
    have hnextConvert := Player.core_congr hchanged.core Player.autoConvert
      fun _ => rfl
    have hnextFinite := Player.core_congr hchanged.core Player.infiniteMode
      fun _ => rfl
    have hkept := hchanged.given.contains_of_ne hs (nextForm_ne hitem).symm
    have hall : total item s.pl.inv + c * -1 = 0 := by
      rw [← contains_eq_total hs]
      omega
    obtain ⟨last, left', hmodify', hgiven⟩ := modify_gives
      (s := { s with pl := next }) (c := c) false hchanged.slots
      ⟨Or.inl (hnextConvert.trans hconvert), Or.inr (Or.inr (Or.inr hfish)),
        hnextFinite.trans hfinite⟩ hnextAccepts hpos
      (by rw [hkept]; omega) (frees_slot hchanged (by omega) hall)
    rw [habs, hmodify]
    dsimp only
    rw [hmodify']
    refine ⟨hgiven.slots, hgiven.core.trans hchanged.core,
      owned_exchange hitem ?_ hgiven.amount, fun hnot => absurd hitem hnot⟩
    intro id
    rw [hchanged.given.amount id, mul_neg_one]
  · rw [if_neg hitem]
    exact ⟨hs, rfl, fun _ => rfl, fun _ => rfl⟩

theorem hasById_fst (id : UInt16) (time now : Int) (pl : Player) :
    (hasById id time now pl).1 = pl.playmods.any fun mod => mod.id == id := by
  unfold hasById
  split
  next hnone =>
    rw [List.findIdx?_eq_none_iff] at hnone
    exact (List.any_eq_false.mpr fun mod hmod => by simp [hnone mod hmod]).symm
  next i hfound =>
    obtain ⟨hlt, hmod, -⟩ := List.findIdx?_eq_some_iff_getElem.mp hfound
    exact (List.any_eq_true.mpr ⟨_, List.getElem_mem hlt, hmod⟩).symm

theorem dress_alike (item : Int) (pl : Player) (cloth : ClothTypes) :
    (dress item pl cloth).inv = pl.inv ∧
      (dress item pl cloth).infiniteMode = pl.infiniteMode ∧
      (dress item pl cloth).playmods = pl.playmods := by
  cases cloth <;> exact ⟨rfl, rfl, rfl⟩

/-- Only briefs that stun the judge are used up. -/
theorem stunJudge_owns (hgarments : Garments env.items) (hs : SlotInv s.pl.inv)
    (hconvert : s.pl.autoConvert = false) (hfinite : s.pl.infiniteMode = false)
    (hheld : item = 3172 → 0 < contains s.pl.inv 3172) (id : Int) :
    owned id (stunJudge env item s).pl.inv = owned id s.pl.inv -
      if item = 3172 ∧ s.pl.playmods.any (fun mod => mod.id == 86) = true ∧
        id = 3172 then 1 else 0 := by
  have halike := hasById_alike 86 1 s.now s.pl
  have hfst := hasById_fst 86 1 s.now s.pl
  unfold stunJudge
  generalize hasById 86 1 s.now s.pl = has at halike hfst ⊢
  by_cases hitem : item = 3172
  · rw [if_pos hitem]
    dsimp only
    cases hmod : has.1 with
    | true =>
        have haccepts : Accepts env 3172 := by
          have hlisted := hgarments.listed
          unfold Accepts
          omega
        have hpos := hheld hitem
        rw [← halike.inv] at hs hpos
        obtain ⟨next, left, hmodify, hgiven⟩ := modify_takes
          (s := { s with pl := has.2 }) (c := -1) false hs
          ⟨Or.inl (halike.convert.trans hconvert), Or.inl (by decide),
            halike.infinite.trans hfinite⟩ haccepts (by decide)
          (Int.le_sub_one_of_lt hpos)
        rw [if_pos rfl, hmodify, ← hfst, hmod, ← halike.inv]
        dsimp only
        unfold owned
        by_cases hid : id ∈ forms
        · have hne : id ≠ 3172 := by
            rintro rfl
            exact absurd hid (by decide)
          simp [hid, hne, hgiven.amount]
        · by_cases hsame : id = 3172
          · subst hsame
            rw [if_neg hid, if_neg hid, hgiven.amount, if_pos rfl,
              if_pos ⟨hitem, rfl, rfl⟩]
            rfl
          · simp [hid, hsame, Ne.symm hsame, hgiven.amount]
    | false =>
        rw [← hfst, hmod]
        simp [halike.inv]
  · simp [hitem]

theorem putOn_owns (hgarments : Garments env.items) (hs : SlotInv s.pl.inv)
    (hconvert : s.pl.autoConvert = false) (hfinite : s.pl.infiniteMode = false)
    (hfits : Fits item s.pl) (hworn : wears s.pl item = false)
    (hpos : 0 < contains s.pl.inv item) (id : Int) :
    owned id (putOn env item (contains s.pl.inv item) s).pl.inv =
      owned id s.pl.inv -
        if item = 3172 ∧ s.pl.playmods.any (fun mod => mod.id == 86) = true ∧
          id = 3172 then 1 else 0 := by
  obtain ⟨hslots, hcore, howns, hother⟩ := cycle_owns hgarments hs hconvert
    hfinite hfits hworn rfl hpos
  have hcycledConvert := Player.core_congr hcore Player.autoConvert fun _ => rfl
  have hcycledFinite := Player.core_congr hcore Player.infiniteMode fun _ => rfl
  have hcycledMods := Player.core_congr hcore Player.playmods fun _ => rfl
  unfold putOn
  dsimp only
  generalize hcycled : cycle env item (contains s.pl.inv item) s = cycled
    at hslots howns hother hcycledConvert hcycledFinite hcycledMods ⊢
  obtain ⟨hinv, hinfinite, hmods⟩ := dress_alike cycled.1 cycled.2.pl
    (env.items.item cycled.1).clothType
  have hsame : cycled.1 = 3172 ↔ item = 3172 := by
    by_cases hitem : item ∈ forms
    · have hnext : cycled.1 = nextForm item := by
        rw [← hcycled, cycle, if_pos hitem]
      have hmem := nextForm_mem item
      rw [← hnext] at hmem
      constructor
      · intro heq
        rw [heq] at hmem
        exact absurd hmem (by decide)
      · intro heq
        rw [heq] at hitem
        exact absurd hitem (by decide)
    · rw [hother hitem]
  rw [stunJudge_owns hgarments]
  · simp only [Session.mapPlayer, hinv, hmods, hcycledMods, howns, hsame]
  · dsimp only [Session.mapPlayer]
    rw [hinv]
    exact hslots
  · exact (dress_autoConvert _ _ _).trans (hcycledConvert.trans hconvert)
  · exact hinfinite.trans (hcycledFinite.trans hfinite)
  · intro hbriefs
    have hitem := hsame.mp hbriefs
    have hnot : item ∉ forms := by
      rw [hitem]
      decide
    dsimp only [Session.mapPlayer]
    rw [hinv, hother hnot, ← hitem]
    exact hpos

/-- `Equip` changes nothing that is owned, briefs that stun the judge apart. -/
theorem equip_owns (hgarments : Garments env.items) (hs : Sound env.items s.pl)
    (hfinite : s.pl.infiniteMode = false) (hfits : Fits item s.pl) (id : Int) :
    owned id (equip env item s).pl.inv = owned id s.pl.inv -
      if Stuns item s.pl ∧ id = 3172 then 1 else 0 := by
  have halike := dressUp_alike s.pl
  rcases @equip_cases env s hs.1.1 item with
    ⟨hidle, hsame⟩ | ⟨hworn, hoff⟩ | ⟨hworn, haccepts, hpos, hon⟩
  · have hstuns : ¬ (Stuns item s.pl ∧ id = 3172) := by
      rintro ⟨⟨rfl, hheld, -⟩, -⟩
      have hlisted := hgarments.listed
      have hwrong := hidle ⟨by decide, by omega, by decide⟩ hheld
      omega
    rw [hsame, if_neg hstuns, sub_zero]
  · have hstuns : ¬ (Stuns item s.pl ∧ id = 3172) := by
      rintro ⟨⟨rfl, -, hnot, -⟩, -⟩
      rw [hworn] at hnot
      cases hnot
    have hinv := (unEquip_frame env.items item (dressUp s.pl)).2
    rw [hoff, if_neg hstuns, sub_zero]
    dsimp only [Session.mapPlayer]
    rw [hinv, halike.inv]
  · have hmods : (dressUp s.pl).playmods = s.pl.playmods := by
      unfold dressUp
      split <;> rfl
    have hdressUp := halike.wardrobe hs.1
    have hdressFits : Fits item (dressUp s.pl) := by
      intro hitem _
      rw [halike.inv]
      exact hfits hitem hworn
    have hdressPos : 0 < contains (dressUp s.pl).inv item := by
      rw [halike.inv]
      exact hpos
    have hput := @putOn_owns env (s.mapPlayer dressUp) item hgarments hdressUp.1
      (halike.convert.trans hs.2) (halike.infinite.trans hfinite) hdressFits
      ((wears_dressUp s.pl item).trans hworn) hdressPos id
    simp only [Session.mapPlayer, halike.inv, hmods] at hput
    have hiff : Stuns item s.pl ∧ id = 3172 ↔ item = 3172 ∧
        s.pl.playmods.any (fun mod => mod.id == 86) = true ∧ id = 3172 := by
      constructor
      · rintro ⟨⟨hitem, -, -, hmod⟩, hid⟩
        exact ⟨hitem, hmod, hid⟩
      · rintro ⟨rfl, hmod, hid⟩
        exact ⟨⟨rfl, hpos, hworn, hmod⟩, hid⟩
    rw [hon, if_congr hiff rfl rfl]
    exact hput

end Totals

section Runs

variable {env : Env} {start s : Session}

/-- The steps of a run: the two functions of `Clothing`, calls of `Modify`, and
anything between two calls that clothes do not depend on. -/
inductive Step (env : Env) : Session → Session → Prop where
  | equip (s : Session) (item : Int) (hwearable : Wearable env.items item)
      (hexchange : Exchangeable item s.pl) : Step env s (equip env item s)
  | unEquip (s : Session) (id : Int) :
      Step env s (s.mapPlayer (unEquip env.items id))
  | modify (s : Session) (i c : Int) (forceReturn : Bool) :
      Step env s (modify env s i c forceReturn).session
  | between (s t : Session) (hinv : t.pl.inv = s.pl.inv)
      (hworn : ∀ cloth, worn t.pl cloth = worn s.pl cloth)
      (hconvert : t.pl.autoConvert = s.pl.autoConvert) : Step env s t

theorem run_sound (hgarments : Garments env.items)
    (hstart : Sound env.items start.pl)
    (hrun : Relation.ReflTransGen (Step env) start s) :
    Sound env.items s.pl := by
  induction hrun with
  | refl => exact hstart
  | tail _ hstep ih =>
      cases hstep with
      | equip item hwearable hexchange =>
          exact equip_sound hgarments hwearable hexchange ih
      | unEquip id =>
          refine ⟨unEquip_wardrobe ih.1 id, ?_⟩
          exact (Player.core_congr (unEquip_frame env.items id _).1
            Player.autoConvert fun _ => rfl).trans ih.2
      | modify i c forceReturn =>
          exact ⟨modify_wardrobe ih.1 i c forceReturn,
            (modify_autoConvert env _ i c forceReturn).trans ih.2⟩
      | between _ hinv hworn hconvert =>
          exact ⟨⟨hinv ▸ ih.1.1, ih.1.2.congr hinv hworn⟩, hconvert.trans ih.2⟩

/-- Over every run with automatic conversion off, every slot that is not empty
holds a garment of its cloth type of which the backpack has at least one; and
outside infinite mode `Equip` changes no number of items owned, an item and its
forms counted as one, when the next form has room, except that briefs that stun
the judge are used up. -/
theorem clothes_along_runs (hgarments : Garments env.items)
    (hslots : SlotInv start.pl.inv) (hdressed : Dressed env.items start.pl)
    (hconvert : start.pl.autoConvert = false)
    (hrun : Relation.ReflTransGen (Step env) start s) :
    Dressed env.items s.pl ∧
      ∀ item, s.pl.infiniteMode = false → Fits item s.pl → ∀ id,
        owned id (equip env item s).pl.inv = owned id s.pl.inv -
          if Stuns item s.pl ∧ id = 3172 then 1 else 0 := by
  have hsound := run_sound hgarments ⟨⟨hslots, hdressed⟩, hconvert⟩ hrun
  refine ⟨hsound.1.2, fun item hfinite hfits id => ?_⟩
  exact equip_owns hgarments hsound hfinite hfits id

/-- A table with the items that `Equip` names. -/
def garmentEnv : Env where
  items := ⟨50000, fun id =>
    if id = 3172 then { blockType := .clothing, clothType := .pants }
    else if id ∈ forms then { blockType := .clothing, clothType := .hair }
    else { clothType := .none }⟩

theorem garmentEnv_garments : Garments garmentEnv.items :=
  ⟨by decide, by decide, by decide⟩

/-- A player with some of an item, on trial or not. -/
def owner (item count : Int) (mods : List PlayMods) : Session where
  pl := { inv := [(item, count), (0, 0)], playmods := mods }

theorem owner_dressed (item count : Int) (mods : List PlayMods) :
    Dressed garmentEnv.items (owner item count mods).pl := by
  intro cloth garment hworn hgarment
  have hzero : garment = 0 := by
    cases cloth <;> cases hworn <;> rfl
  exact absurd hzero hgarment

/-- Briefs that stun the judge are gone. -/
theorem briefs_are_used_up :
    ¬ ∀ (env : Env) (start s : Session), Garments env.items →
      SlotInv start.pl.inv → Dressed env.items start.pl →
      start.pl.autoConvert = false → start.pl.infiniteMode = false →
      Relation.ReflTransGen (Step env) start s →
      Dressed env.items s.pl ∧
        ∀ item, Wearable env.items item → ∀ id,
          owned id (equip env item s).pl.inv = owned id s.pl.inv := by
  intro hall
  have hbriefs := (hall garmentEnv (owner 3172 1 [⟨86, 0⟩]) _ garmentEnv_garments
    (by decide) (owner_dressed _ _ _) rfl rfl .refl).2 3172 (fun _ => rfl) 3172
  exact absurd hbriefs (by decide +kernel)

/-- A stack of three is turned into its next form and worn. -/
theorem three_are_turned :
    (equip garmentEnv 4746 (owner 4746 3 [])).pl.inv = [(4748, 3), (0, 0)] ∧
      (equip garmentEnv 4746 (owner 4746 3 [])).pl.hair = 4748 ∧
      Dressed garmentEnv.items (equip garmentEnv 4746 (owner 4746 3 [])).pl ∧
      ∀ id, owned id (equip garmentEnv 4746 (owner 4746 3 [])).pl.inv =
        owned id (owner 4746 3 []).pl.inv := by
  have hruns := fun s => @clothes_along_runs garmentEnv (owner 4746 3 []) s
    garmentEnv_garments (by decide) (owner_dressed _ _ _) rfl
  refine ⟨by decide +kernel, by decide +kernel, ?_, fun id => ?_⟩
  · refine (hruns _ (.single (.equip _ 4746 (fun _ => rfl) ?_))).1
    intro _ _ hinfinite
    cases hinfinite
  · have howned := (hruns _ .refl).2 4746 rfl (fun _ _ => by decide +kernel) id
    have hstuns : ¬ (Stuns 4746 (owner 4746 3 []).pl ∧ id = 3172) :=
      fun hboth => absurd hboth.1.1 (by decide)
    rw [howned, if_neg hstuns, sub_zero]

end Runs

end Clothing

end NopyServer
