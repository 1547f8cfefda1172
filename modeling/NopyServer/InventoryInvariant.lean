/-
The contract of `Inventory::Modify`.  The slots of a backpack are a `SlotPack`
with cap 200: without its two callbacks a call is exactly `Pack.change` on the
amounts, and with them every run of calls keeps the shape of the slots.
-/
import NopyServer.Inventory

namespace NopyServer

namespace Inventory

open BoundedLoop SlotPack

/-- The shape of a backpack: every slot is free or holds between 1 and 200 of
an item, and no item lies in two slots. -/
structure SlotInv (inv : List (Int × Int)) : Prop where
  slot : ∀ slot ∈ inv,
    slot = (0, 0) ∨ (0 < slot.1 ∧ 1 ≤ slot.2 ∧ slot.2 ≤ 200)
  distinct : inv.Pairwise fun left right =>
    left.1 = right.1 → left.1 = 0

theorem slotInv_iff {inv : List (Int × Int)} :
    SlotInv inv ↔ WellFormed 0 200 inv ∧ ∀ slot ∈ inv, 0 ≤ slot.1 := by
  constructor
  · rintro ⟨hslot, hdistinct⟩
    refine ⟨⟨fun slot hmem => ?_, hdistinct⟩, fun slot hmem => ?_⟩
    · rcases hslot slot hmem with h | h
      · exact Or.inl h
      · exact Or.inr ⟨by omega, h.2⟩
    · rcases hslot slot hmem with rfl | h
      · exact le_refl 0
      · omega
  · rintro ⟨⟨hslot, hdistinct⟩, hnonneg⟩
    refine ⟨fun slot hmem => ?_, hdistinct⟩
    have hid := hnonneg slot hmem
    rcases hslot slot hmem with h | h
    · exact Or.inl h
    · exact Or.inr ⟨by omega, h.2⟩

theorem SlotInv.wellFormed {inv : List (Int × Int)} (hinv : SlotInv inv) :
    WellFormed 0 200 inv := (slotInv_iff.mp hinv).1

instance (inv : List (Int × Int)) : Decidable (SlotInv inv) :=
  decidable_of_iff _ slotInv_iff.symm

/-- `Contains` finds the whole amount of an item. -/
theorem contains_eq_total {inv : List (Int × Int)} (hinv : SlotInv inv)
    (id : Int) : contains inv id = total id inv := by
  unfold contains
  cases hfind : inv.find? fun slot => slot.1 == id with
  | none =>
      have habsent : ∀ slot ∈ inv, slot.1 ≠ id := by
        simpa using List.find?_eq_none.mp hfind
      exact (total_eq_zero_of_not_mem habsent).symm
  | some slot =>
      obtain ⟨key, n⟩ := slot
      have hkey : key = id := by simpa using List.find?_some hfind
      subst hkey
      have hmem := List.mem_of_find?_eq_some hfind
      by_cases hzero : key = 0
      · subst hzero
        have hempty : (0, n) = ((0, 0) : Int × Int) := by
          rcases hinv.slot _ hmem with h | h
          · exact h
          · exact absurd h.1 (lt_irrefl 0)
        rw [hinv.wellFormed.total_empty]
        exact congrArg Prod.snd hempty
      · obtain ⟨pre, post, rfl⟩ := List.append_of_mem hmem
        exact (hinv.wellFormed.total_stack hzero).symm

theorem contains_nonneg {inv : List (Int × Int)} (hinv : SlotInv inv) {id : Int}
    (hid : id ≠ 0) : 0 ≤ contains inv id := by
  rw [contains_eq_total hinv]
  exact (hinv.wellFormed.total_bounds (by decide) hid).1

section Scanning

/-- What the scan of `Modify` says of the slots. -/
inductive ScanSpec (i : Int) (inv : List (Int × Int)) : Scan → Prop where
  | found (pre post : List (Int × Int)) (n : Int)
      (hinv : inv = pre ++ (i, n) :: post) : ScanSpec i inv (.found pre.length n)
  | free (pre post : List (Int × Int)) (n : Int)
      (hinv : inv = pre ++ (0, n) :: post)
      (habsent : ∀ slot ∈ inv, slot.1 ≠ i) : ScanSpec i inv (.free pre.length)
  | none (habsent : ∀ slot ∈ inv, slot.1 ≠ i)
      (hfull : ∀ slot ∈ inv, slot.1 ≠ 0) : ScanSpec i inv .none

/-- What `last_free_` says of the slots already seen. -/
def LastFree (seen : List (Int × Int)) : Option Nat → Prop
  | none => ∀ slot ∈ seen, slot.1 ≠ 0
  | some a => ∃ pre post n, seen = pre ++ (0, n) :: post ∧ pre.length = a

theorem LastFree.snoc {seen : List (Int × Int)} {lastFree : Option Nat}
    (hfree : LastFree seen lastFree) (slot : Int × Int) :
    LastFree (seen ++ [slot])
      (if slot.1 = 0 ∧ lastFree = none then some seen.length else lastFree) := by
  obtain ⟨id, n⟩ := slot
  cases lastFree with
  | none =>
      by_cases hid : id = 0
      · subst hid
        simp only [and_self, ↓reduceIte]
        exact ⟨seen, [], n, rfl, rfl⟩
      · simp only [hid, false_and, ↓reduceIte]
        intro other hother
        rcases List.mem_append.mp hother with h | h
        · exact hfree other h
        · rw [List.mem_singleton.mp h]
          exact hid
  | some a =>
      obtain ⟨pre, post, m, rfl, hlength⟩ := hfree
      simp only [reduceCtorEq, and_false, ↓reduceIte]
      exact ⟨pre, post ++ [(id, n)], m, by simp, hlength⟩

theorem scan_spec_from {i : Int} (rest seen : List (Int × Int))
    {lastFree : Option Nat} (habsent : ∀ slot ∈ seen, slot.1 ≠ i)
    (hfree : LastFree seen lastFree) :
    ScanSpec i (seen ++ rest) (scan i rest seen.length lastFree) := by
  induction rest generalizing seen lastFree with
  | nil =>
      rw [List.append_nil]
      cases lastFree with
      | none => exact .none habsent hfree
      | some a =>
          obtain ⟨pre, post, n, hseen, rfl⟩ := hfree
          exact .free pre post n hseen habsent
  | cons slot rest ih =>
      obtain ⟨id, n⟩ := slot
      by_cases hid : id = i
      · subst hid
        simp only [scan, ↓reduceIte]
        exact .found seen rest n rfl
      · simp only [scan, hid, ↓reduceIte]
        have hnext := ih (seen ++ [(id, n)])
          (fun other hother => by
            rcases List.mem_append.mp hother with h | h
            · exact habsent other h
            · rw [List.mem_singleton.mp h]
              exact hid)
          (hfree.snoc (id, n))
        simpa using hnext

theorem scan_spec (i : Int) (inv : List (Int × Int)) :
    ScanSpec i inv (scan i inv 0 none) :=
  scan_spec_from inv [] (by simp) (by simp [LastFree])

end Scanning

section Frame

theorem undress_frame (pl : Player) (cloth : ClothTypes) :
    (undress pl cloth).core = pl.core ∧
      (undress pl cloth).inv = pl.inv := by
  cases cloth <;> exact ⟨rfl, rfl⟩

theorem takeOff_frame (item : ItemDB) (id : Int) (pl : Player) :
    (takeOff item id pl).2.core = pl.core ∧
      (takeOff item id pl).2.inv = pl.inv := by
  unfold takeOff
  split
  · split
    · exact undress_frame pl item.clothType
    · exact ⟨rfl, rfl⟩
  · exact ⟨rfl, rfl⟩

theorem turnLook_frame (id : Int) (pl : Player) :
    (turnLook id pl).core = pl.core ∧
      (turnLook id pl).inv = pl.inv := by
  unfold turnLook
  split_ifs <;> exact ⟨rfl, rfl⟩

theorem removeMod_frame (item : ItemDB) (id : Int) (stat : Bool)
    (pl : Player) :
    (removeMod item id stat pl).core = pl.core ∧
      (removeMod item id stat pl).inv = pl.inv := by
  unfold removeMod
  split_ifs <;> exact ⟨rfl, rfl⟩

theorem clearBillboard_frame (id : Int) (pl : Player) :
    (clearBillboard id pl).core = pl.core ∧
      (clearBillboard id pl).inv = pl.inv := by
  unfold clearBillboard
  split_ifs <;> exact ⟨rfl, rfl⟩

theorem loseItem_frame (items : Items) (id : Int) (pl : Player) :
    (loseItem items id pl).core = pl.core ∧
      (loseItem items id pl).inv = pl.inv := by
  have hbill := clearBillboard_frame id pl
  unfold loseItem
  dsimp only
  split
  · obtain ⟨hmod, hmodInv⟩ := removeMod_frame (items.item id) id _ _
    obtain ⟨hoff, hoffInv⟩ := takeOff_frame (items.item id) id _
    obtain ⟨hlook, hlookInv⟩ := turnLook_frame id _
    rw [hmod, hoff, hlook, hmodInv, hoffInv, hlookInv]
    split <;> exact hbill
  · exact hbill

end Frame


section Slots

variable {pre post : List (Int × Int)}

theorem SlotInv.replace {old new : Int × Int}
    (hinv : SlotInv (pre ++ old :: post))
    (hnew : new = (0, 0) ∨ (0 < new.1 ∧ 1 ≤ new.2 ∧ new.2 ≤ 200))
    (hfresh : new.1 ≠ 0 → ∀ slot ∈ pre ++ post, slot.1 ≠ new.1) :
    SlotInv (pre ++ new :: post) := by
  obtain ⟨hwf, hnonneg⟩ := slotInv_iff.mp hinv
  refine slotInv_iff.mpr ⟨hwf.replace ?_ hfresh, ?_⟩
  · rcases hnew with h | h
    · exact Or.inl h
    · exact Or.inr ⟨by omega, h.2⟩
  · intro slot hslot
    rcases List.mem_append.mp hslot with h | h
    · exact hnonneg slot (List.mem_append_left _ h)
    · rcases List.mem_cons.mp h with rfl | h
      · rcases hnew with h | h
        · rw [h]
        · omega
      · exact hnonneg slot
          (List.mem_append_right _ (List.mem_cons_of_mem old h))

theorem set_length_append (old new : Int × Int) :
    (pre ++ old :: post).set pre.length new = pre ++ new :: post := by
  simp

/-- What a call of `Modify` that changes the slots leaves behind. -/
structure Changed (pl : Player) (i c : Int) (next : Player) : Prop where
  slots : SlotInv next.inv
  length : next.inv.length = pl.inv.length
  core : next.core = pl.core
  view : (view 0 pl.inv).change 200 i c = some (view 0 next.inv)

variable {items : Items} {pl : Player} {i c n : Int}

/-- An amount that does not fit the stack of the item changes nothing. -/
theorem change_stack_eq_none (hinv : SlotInv (pre ++ (i, n) :: post))
    (hi : 0 < i) (hbad : c = 0 ∨ n + c < 0 ∨ 200 < n + c) :
    (view 0 (pre ++ (i, n) :: post)).change 200 i c = none := by
  have hne : i ≠ 0 := by omega
  have hstack := hinv.wellFormed.total_stack hne
  have hbounds := hinv.wellFormed.stack_bounds hne
  have hnone : ¬ n = 0 := by omega
  simp only [Pack.change, view_amount, hstack, hnone, hbad, ↓reduceIte]

/-- Without a stack and without a new one nothing changes. -/
theorem change_absent_eq_none {inv : List (Int × Int)}
    (habsent : ∀ slot ∈ inv, slot.1 ≠ i) (hbad : c ≤ 0 ∨ room 0 inv = 0) :
    (view 0 inv).change 200 i c = none := by
  have hzero := total_eq_zero_of_not_mem habsent
  have hnot : ¬ (0 < c ∧ c ≤ 200 ∧ 0 < room 0 inv) := by omega
  simp only [Pack.change, view_amount, view_room, hzero, ↓reduceIte, hnot]

theorem changed_stack (hpl : pl.inv = pre ++ (i, n) :: post)
    (hinv : SlotInv pl.inv) (hi : 0 < i) (hc : c ≠ 0) (hpos : 0 < n + c)
    (hcap : n + c ≤ 200) :
    Changed pl i c { pl with inv := pl.inv.set pre.length (i, n + c) } := by
  rw [hpl] at hinv
  have hne : i ≠ 0 := by omega
  have hother := hinv.wellFormed.not_mem_of_stack hne
  refine ⟨?_, by simp, rfl, ?_⟩
  · rw [hpl, set_length_append]
    exact hinv.replace (Or.inr ⟨hi, by omega, hcap⟩) fun _ => hother
  · rw [hpl, set_length_append]
    exact view_restack hinv.wellFormed hne hc hpos hcap

theorem changed_unstack (hpl : pl.inv = pre ++ (i, n) :: post)
    (hinv : SlotInv pl.inv) (hi : 0 < i) (hsum : n + c = 0) {lost : Player}
    (hlost : lost.core = pl.core ∧ lost.inv = pl.inv) :
    Changed pl i c { lost with inv := lost.inv.set pre.length (0, 0) } := by
  rw [hpl] at hinv
  have hne : i ≠ 0 := by omega
  refine ⟨?_, by simp [hlost.2], hlost.1, ?_⟩
  · rw [hlost.2, hpl, set_length_append]
    exact hinv.replace (Or.inl rfl) fun h => absurd rfl h
  · rw [hlost.2, hpl, set_length_append]
    exact view_unstack hinv.wellFormed hne hsum

theorem changed_free (hpl : pl.inv = pre ++ (0, n) :: post)
    (hinv : SlotInv pl.inv) (hi : 0 < i)
    (habsent : ∀ slot ∈ pl.inv, slot.1 ≠ i) (hpos : 0 < c) (hcap : c ≤ 200) :
    Changed pl i c { pl with inv := pl.inv.set pre.length (i, c) } := by
  rw [hpl] at hinv habsent
  have hempty : n = 0 := by
    rcases hinv.slot (0, n) (by simp) with h | h
    · exact congrArg Prod.snd h
    · exact absurd h.1 (lt_irrefl 0)
  subst hempty
  have hne : i ≠ 0 := by omega
  refine ⟨?_, by simp, rfl, ?_⟩
  · rw [hpl, set_length_append]
    refine hinv.replace (Or.inr ⟨hi, by omega, hcap⟩) ?_
    intro _ slot hslot
    refine habsent slot ?_
    simp only [List.mem_append, List.mem_cons] at hslot ⊢
    tauto
  · rw [hpl, set_length_append]
    exact view_stack hne habsent hpos hcap

/-- Up to `s_`, `Modify` is `Pack.change` on the amounts. -/
theorem modifySlots_spec (forceReturn : Bool) (hinv : SlotInv pl.inv)
    (hi : 0 < i) (hc : c ≤ 200) :
    (∃ next left, modifySlots items pl i c forceReturn = (some next, left) ∧
      Changed pl i c next) ∨
    (∃ left, modifySlots items pl i c forceReturn = (none, left) ∧
      (view 0 pl.inv).change 200 i c = none) := by
  have hscan := scan_spec i pl.inv
  unfold modifySlots
  generalize scan i pl.inv 0 none = result at hscan
  cases hscan with
  | found pre post n hpl =>
      have hstack := hpl ▸ hinv
      dsimp only
      split_ifs with hcap hneg hsum hzero
      · refine Or.inr ⟨c, rfl, ?_⟩
        rw [hpl]
        exact change_stack_eq_none hstack hi (Or.inr (Or.inl hneg.2))
      · exact Or.inl ⟨_, c, rfl, changed_unstack hpl hinv hi hsum
          (loseItem_frame items i pl)⟩
      · refine Or.inr ⟨n, rfl, ?_⟩
        rw [hpl]
        exact change_stack_eq_none hstack hi (Or.inl hzero)
      · have hbounds := hstack.wellFormed.stack_bounds (by omega)
        exact Or.inl ⟨_, n + c, rfl,
          changed_stack hpl hinv hi hzero (by omega) hcap⟩
      · refine Or.inr ⟨n, rfl, ?_⟩
        rw [hpl]
        exact change_stack_eq_none hstack hi (Or.inr (Or.inr (by omega)))
      · refine Or.inr ⟨c, rfl, ?_⟩
        rw [hpl]
        exact change_stack_eq_none hstack hi (Or.inr (Or.inr (by omega)))
  | free pre post n hpl habsent =>
      dsimp only
      split_ifs with hpos
      · exact Or.inl ⟨_, c, rfl, changed_free hpl hinv hi habsent hpos hc⟩
      · exact Or.inr ⟨c, rfl,
          change_absent_eq_none habsent (Or.inl (by omega))⟩
  | none habsent hfull =>
      have hroom : room 0 pl.inv = 0 := by
        by_contra hne
        have hmem := room_pos_iff.mp (Nat.pos_of_ne_zero hne)
        exact hfull (0, 0) hmem rfl
      exact Or.inr ⟨c, rfl, change_absent_eq_none habsent (Or.inr hroom)⟩

end Slots

section Calls

variable {env : Env} {s : Session} {i c : Int}

/-- The ids `Modify` accepts. -/
def Accepts (env : Env) (i : Int) : Prop :=
  0 < i ∧ i ≤ env.items.size ∧ i ≠ 112

instance (env : Env) (i : Int) : Decidable (Accepts env i) :=
  inferInstanceAs (Decidable (_ ∧ _ ∧ _))

/-- Neither callback of a call of `Modify` does anything. -/
structure Quiet (env : Env) (pl : Player) (i c : Int) : Prop where
  convert : pl.autoConvert = false ∨ pl.autoConvertProcessing = true
  sell : c ≤ 0 ∨ pl.autosellfish = false ∨ pl.autosellfishProcessing = true ∨
    env.items.isFish i = false
  finite : pl.infiniteMode = false

theorem autoConvertWith_quiet {modify : Session → Int → Int → Bool → Modified}
    (hquiet : s.pl.autoConvert = false ∨ s.pl.autoConvertProcessing = true) :
    autoConvertWith modify s = s := by
  unfold autoConvertWith
  rcases hquiet with h | h
  · rw [if_pos h]
  · rw [if_pos h, ite_self]

/-- The conditions on the callbacks read members that losing an item keeps. -/
theorem callbacks_core {pl next : Player} (hcore : next.core = pl.core)
    (hconvert : pl.autoConvert = false ∨ pl.autoConvertProcessing = true)
    (hsell : c ≤ 0 ∨ pl.autosellfish = false ∨
      pl.autosellfishProcessing = true ∨ env.items.isFish i = false) :
    (next.autoConvert = false ∨ next.autoConvertProcessing = true) ∧
      (c ≤ 0 ∨ next.autosellfish = false ∨
        next.autosellfishProcessing = true ∨ env.items.isFish i = false) := by
  have hauto : next.autoConvert = pl.autoConvert :=
    Player.core_congr hcore Player.autoConvert fun _ => rfl
  have hprocessing : next.autoConvertProcessing = pl.autoConvertProcessing :=
    Player.core_congr hcore Player.autoConvertProcessing fun _ => rfl
  have hfish : next.autosellfish = pl.autosellfish :=
    Player.core_congr hcore Player.autosellfish fun _ => rfl
  have hselling : next.autosellfishProcessing = pl.autosellfishProcessing :=
    Player.core_congr hcore Player.autosellfishProcessing fun _ => rfl
  rw [hauto, hprocessing, hfish, hselling]
  exact ⟨hconvert, hsell⟩

/-- The guard of `Modify`, for an accepted id. -/
theorem guard_iff (haccepts : Accepts env i) :
    (200 < c ∨ env.items.size < i ∨ i ≤ 0 ∨ i = 112 ∨ s.pl.inv = []) ↔
      200 < c ∨ s.pl.inv = [] := by
  obtain ⟨hpos, hsize, hgem⟩ := haccepts
  have h₁ : ¬ (env.items.size : Int) < i := by omega
  have h₂ : ¬ i ≤ 0 := by omega
  simp [h₁, h₂, hgem]

theorem change_eq_none_of_guard (hinv : SlotInv s.pl.inv) (hi : 0 < i)
    (hguard : 200 < c ∨ s.pl.inv = []) :
    (view 0 s.pl.inv).change 200 i c = none := by
  have hbounds := hinv.wellFormed.total_bounds (by decide) (Int.ne_of_gt hi)
  rcases hguard with h | h
  · exact Pack.change_eq_none_of_cap_lt h hbounds.1
  · rw [h]
    exact change_absent_eq_none (by simp) (Or.inr rfl)

/-- A call of `Modify` on an accepted id is `Pack.change` when neither callback
does anything and infinite mode does not stop it. -/
theorem modify_plain (forceReturn : Bool) (hinv : SlotInv s.pl.inv)
    (haccepts : Accepts env i)
    (hconvert : s.pl.autoConvert = false ∨ s.pl.autoConvertProcessing = true)
    (hsell : c ≤ 0 ∨ s.pl.autosellfish = false ∨
      s.pl.autosellfishProcessing = true ∨ env.items.isFish i = false)
    (hfinite : ¬ (s.pl.infiniteMode = true ∧ c < 0)) :
    (∃ next left, modify env s i c forceReturn =
        ⟨0, left, { s with pl := next }⟩ ∧ Changed s.pl i c next) ∨
    (∃ left, modify env s i c forceReturn = ⟨-1, left, s⟩ ∧
      (view 0 s.pl.inv).change 200 i c = none) := by
  have hguard := @guard_iff env s i c haccepts
  change (∃ next left, modifyWith env _ _ s i c forceReturn = _ ∧ _) ∨
    (∃ left, modifyWith env _ _ s i c forceReturn = _ ∧ _)
  unfold modifyWith
  by_cases hstop : 200 < c ∨ s.pl.inv = []
  · rw [if_pos (hguard.mpr hstop)]
    exact Or.inr ⟨c, rfl, change_eq_none_of_guard hinv haccepts.1 hstop⟩
  · rw [if_neg fun h => hstop (hguard.mp h), if_neg hfinite]
    have hspec := @modifySlots_spec env.items s.pl i c forceReturn hinv
      haccepts.1 (by omega)
    rcases hspec with ⟨next, left, hslots, hchanged⟩ | ⟨left, hslots, hnone⟩
    · obtain ⟨hnextConvert, hnextSell⟩ := callbacks_core hchanged.core hconvert hsell
      have hstill : ¬ (0 < c ∧ next.autosellfish = true ∧
          next.autosellfishProcessing = false ∧ 0 < i ∧
          i < env.items.size ∧ env.items.isFish i = true) := by
        rintro ⟨hpos, hon, hidle, -, -, hfish⟩
        rcases hnextSell with h | h | h | h
        · omega
        · simp [h] at hon
        · simp [h] at hidle
        · simp [h] at hfish
      rw [hslots]
      dsimp only
      rw [autoConvertWith_quiet hnextConvert, if_neg hstill]
      exact Or.inl ⟨next, left, rfl, hchanged⟩
    · rw [hslots]
      exact Or.inr ⟨left, rfl, hnone⟩

/-- A quiet call of `Modify` on an accepted id is `Pack.change`. -/
theorem modify_quiet (forceReturn : Bool) (hinv : SlotInv s.pl.inv)
    (haccepts : Accepts env i) (hquiet : Quiet env s.pl i c) :
    (∃ next left, modify env s i c forceReturn =
        ⟨0, left, { s with pl := next }⟩ ∧ Changed s.pl i c next) ∨
    (∃ left, modify env s i c forceReturn = ⟨-1, left, s⟩ ∧
      (view 0 s.pl.inv).change 200 i c = none) :=
  modify_plain forceReturn hinv haccepts hquiet.convert hquiet.sell
    (by simp [hquiet.finite])

/-- In infinite mode nothing is taken. -/
theorem modify_infinite (forceReturn : Bool) (hinfinite : s.pl.infiniteMode = true)
    (hc : c < 0) : (modify env s i c forceReturn).session = s := by
  change (modifyWith env _ _ s i c forceReturn).session = s
  unfold modifyWith
  split
  · rfl
  · rw [if_pos ⟨hinfinite, hc⟩]

/-- Taking what is there always works. -/
theorem modify_changes (forceReturn : Bool) (hinv : SlotInv s.pl.inv)
    (hquiet : Quiet env s.pl i c) (haccepts : Accepts env i) (hc : c < 0)
    (henough : 0 ≤ contains s.pl.inv i + c) :
    ∃ next left, modify env s i c forceReturn =
        ⟨0, left, { s with pl := next }⟩ ∧ Changed s.pl i c next := by
  have hbounds := hinv.wellFormed.total_bounds (by decide)
    (Int.ne_of_gt haccepts.1)
  rw [contains_eq_total hinv] at henough
  rcases modify_quiet forceReturn hinv haccepts hquiet with
    ⟨next, left, hmodify, hchanged⟩ | ⟨left, -, hnone⟩
  · exact ⟨next, left, hmodify, hchanged⟩
  · obtain ⟨pack, hpack⟩ : ∃ pack, (view 0 s.pl.inv).change 200 i c =
        some pack := Pack.change_take hc henough hbounds.2
    rw [hpack] at hnone
    cases hnone

/-- A call that takes no more than there is. -/
theorem modify_take (forceReturn : Bool) (hinv : SlotInv s.pl.inv)
    (haccepts : Accepts env i) (hconvert : s.pl.autoConvert = false)
    (hfinite : s.pl.infiniteMode = false) (hc : 0 < c) (henough : c ≤ total i s.pl.inv) :
    ∃ next left, modify env s i (-c) forceReturn = ⟨0, left, { s with pl := next }⟩ ∧
      Changed s.pl i (-c) next := by
  have hquiet : Quiet env s.pl i (-c) := ⟨Or.inl hconvert, Or.inl (by omega), hfinite⟩
  refine modify_changes forceReturn hinv hquiet haccepts (by omega) ?_
  rw [contains_eq_total hinv]
  omega

end Calls

end Inventory

end NopyServer
