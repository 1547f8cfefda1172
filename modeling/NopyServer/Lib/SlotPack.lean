/-
Packs of stacked items.  A pack is a list of slots, each empty or holding one
stack of at most `cap` units of a key, no key in two slots.  What such a pack
is for does not depend on where the stacks lie: `Pack` keeps the amount of each
key and the number of empty slots, and `Pack.change` is the one operation on
it.  The lemmas below say that rewriting one slot of a well-formed list is
`Pack.change` on its view.
-/
import Mathlib.Algebra.BigOperators.Group.List.Basic
import Mathlib.Algebra.Order.BigOperators.Group.List
import Mathlib.Data.List.Nodup
import Mathlib.Algebra.Order.Group.Int
import Mathlib.Data.List.Pairwise
import Mathlib.Logic.Function.Basic
import Mathlib.Tactic.Common
import Mathlib.Tactic.Linarith

namespace SlotPack

universe u

variable {K : Type u}

/-- Every slot is empty or holds one to `cap` units, and no key lies in two
slots. -/
structure WellFormed (empty : K) (cap : Int) (slots : List (K × Int)) : Prop where
  slot : ∀ slot ∈ slots,
    slot = (empty, 0) ∨ (slot.1 ≠ empty ∧ 1 ≤ slot.2 ∧ slot.2 ≤ cap)
  distinct : slots.Pairwise fun left right =>
    left.1 = right.1 → left.1 = empty

namespace WellFormed

variable {empty key : K} {cap : Int} {pre post : List (K × Int)}

/-- The key of a stack lies in no other slot. -/
theorem not_mem_of_stack {n : Int}
    (hwf : WellFormed empty cap (pre ++ (key, n) :: post))
    (hkey : key ≠ empty) :
    ∀ slot ∈ pre ++ post, slot.1 ≠ key := by
  have hpairs := hwf.distinct
  rw [List.pairwise_append, List.pairwise_cons] at hpairs
  obtain ⟨-, ⟨hpost, -⟩, hpre⟩ := hpairs
  intro slot hslot heq
  rcases List.mem_append.mp hslot with hmem | hmem
  · exact hkey (heq ▸ hpre slot hmem (key, n) List.mem_cons_self heq)
  · exact hkey (hpost slot hmem heq.symm)

theorem stack_bounds {n : Int}
    (hwf : WellFormed empty cap (pre ++ (key, n) :: post))
    (hkey : key ≠ empty) : 1 ≤ n ∧ n ≤ cap := by
  rcases hwf.slot (key, n) (by simp) with h | h
  · exact absurd (Prod.ext_iff.mp h).1 hkey
  · exact h.2

/-- A slot may be rewritten to an empty slot or to a stack whose key lies in
no other slot. -/
theorem replace {old new : K × Int}
    (hwf : WellFormed empty cap (pre ++ old :: post))
    (hnew : new = (empty, 0) ∨ (new.1 ≠ empty ∧ 1 ≤ new.2 ∧ new.2 ≤ cap))
    (hfresh : new.1 ≠ empty → ∀ slot ∈ pre ++ post, slot.1 ≠ new.1) :
    WellFormed empty cap (pre ++ new :: post) := by
  refine ⟨?_, ?_⟩
  · intro slot hslot
    simp only [List.mem_append, List.mem_cons] at hslot
    rcases hslot with hpre | rfl | hpost
    · exact hwf.slot slot (by simp [hpre])
    · exact hnew
    · exact hwf.slot slot (by simp [hpost])
  · have hpairs := hwf.distinct
    rw [List.pairwise_append, List.pairwise_cons] at hpairs ⊢
    obtain ⟨hpre, ⟨-, hpost⟩, hcross⟩ := hpairs
    refine ⟨hpre, ⟨?_, hpost⟩, ?_⟩
    · intro slot hslot heq
      by_contra hne
      exact hfresh hne slot (by simp [hslot]) heq.symm
    · intro slot hslot other hother heq
      rcases List.mem_cons.mp hother with rfl | hother
      · by_contra hne
        exact hfresh (heq ▸ hne) slot (by simp [hslot]) heq
      · exact hcross slot hslot other (List.mem_cons_of_mem old hother) heq

end WellFormed

variable [DecidableEq K]

/-- How many units of `key` the slots hold together. -/
def total (key : K) (slots : List (K × Int)) : Int :=
  (slots.map fun slot => if slot.1 = key then slot.2 else 0).sum

@[simp]
theorem total_nil (key : K) : total key [] = 0 := rfl

@[simp]
theorem total_cons (key : K) (slot : K × Int) (slots : List (K × Int)) :
    total key (slot :: slots) =
      (if slot.1 = key then slot.2 else 0) + total key slots := by
  simp [total]

@[simp]
theorem total_append (key : K) (left right : List (K × Int)) :
    total key (left ++ right) = total key left + total key right := by
  simp [total]

theorem total_eq_zero_of_not_mem {key : K} {slots : List (K × Int)}
    (habsent : ∀ slot ∈ slots, slot.1 ≠ key) : total key slots = 0 := by
  induction slots with
  | nil => rfl
  | cons slot slots ih =>
      rw [total_cons, if_neg (habsent slot List.mem_cons_self), zero_add]
      exact ih fun other hother =>
        habsent other (List.mem_cons_of_mem slot hother)

/-- How many slots are empty. -/
def room (empty : K) (slots : List (K × Int)) : Nat :=
  slots.countP fun slot => slot = (empty, 0)

@[simp]
theorem room_nil (empty : K) : room empty [] = 0 := rfl

@[simp]
theorem room_cons (empty : K) (slot : K × Int) (slots : List (K × Int)) :
    room empty (slot :: slots) =
      room empty slots + if slot = (empty, 0) then 1 else 0 := by
  simp [room, List.countP_cons]

@[simp]
theorem room_append (empty : K) (left right : List (K × Int)) :
    room empty (left ++ right) = room empty left + room empty right := by
  simp [room]

theorem room_pos_iff {empty : K} {slots : List (K × Int)} :
    0 < room empty slots ↔ (empty, 0) ∈ slots := by
  simp [room, List.countP_pos_iff]

instance (empty : K) (cap : Int) (slots : List (K × Int)) :
    Decidable (WellFormed empty cap slots) :=
  decidable_of_iff
    ((∀ slot ∈ slots,
      slot = (empty, 0) ∨ (slot.1 ≠ empty ∧ 1 ≤ slot.2 ∧ slot.2 ≤ cap)) ∧
      slots.Pairwise fun left right => left.1 = right.1 → left.1 = empty)
    ⟨fun h => ⟨h.1, h.2⟩, fun h => ⟨h.slot, h.distinct⟩⟩

namespace WellFormed

variable {empty key : K} {cap : Int} {pre post : List (K × Int)}

/-- A stack holds everything the pack has of its key. -/
theorem total_stack {n : Int}
    (hwf : WellFormed empty cap (pre ++ (key, n) :: post))
    (hkey : key ≠ empty) : total key (pre ++ (key, n) :: post) = n := by
  have hother := hwf.not_mem_of_stack hkey
  have hpre : total key pre = 0 := total_eq_zero_of_not_mem fun slot hslot =>
    hother slot (List.mem_append_left post hslot)
  have hpost : total key post = 0 := total_eq_zero_of_not_mem fun slot hslot =>
    hother slot (List.mem_append_right pre hslot)
  simp [hpre, hpost]

variable {slots : List (K × Int)}

theorem total_bounds (hwf : WellFormed empty cap slots) (hcap : 0 ≤ cap)
    (hkey : key ≠ empty) : 0 ≤ total key slots ∧ total key slots ≤ cap := by
  by_cases habsent : ∀ slot ∈ slots, slot.1 ≠ key
  · rw [total_eq_zero_of_not_mem habsent]
    exact ⟨le_refl 0, hcap⟩
  · push Not at habsent
    obtain ⟨⟨k, n⟩, hmem, rfl⟩ := habsent
    obtain ⟨pre, post, rfl⟩ := List.append_of_mem hmem
    have hbounds := hwf.stack_bounds hkey
    rw [hwf.total_stack hkey]
    omega

theorem total_empty (hwf : WellFormed empty cap slots) :
    total empty slots = 0 := by
  induction slots with
  | nil => rfl
  | cons slot slots ih =>
      have htail : WellFormed empty cap slots :=
        ⟨fun other hother => hwf.slot other (List.mem_cons_of_mem slot hother),
          (List.pairwise_cons.mp hwf.distinct).2⟩
      rw [total_cons, ih htail]
      rcases hwf.slot slot List.mem_cons_self with h | h
      · simp [h]
      · simp [h.1]

end WellFormed

/-- What a pack is for: how much of each key it holds and how many slots are
still empty. -/
@[ext]
structure Pack (K : Type u) where
  amount : K → Int
  room : Nat

namespace Pack

/-- Change the amount of `key` by `c`.  A new stack takes an empty slot, an
exhausted one gives its slot back, and nothing happens when the stack would
leave `0 .. cap` or `c` is zero. -/
def change (cap : Int) (pack : Pack K) (key : K) (c : Int) : Option (Pack K) :=
  if pack.amount key = 0 then
    if 0 < c ∧ c ≤ cap ∧ 0 < pack.room then
      some ⟨Function.update pack.amount key c, pack.room - 1⟩
    else none
  else if c = 0 ∨ pack.amount key + c < 0 ∨ cap < pack.amount key + c then
    none
  else if pack.amount key + c = 0 then
    some ⟨Function.update pack.amount key 0, pack.room + 1⟩
  else some ⟨Function.update pack.amount key (pack.amount key + c), pack.room⟩

variable {cap c : Int} {pack next : Pack K} {key : K}

/-- A change that happens adds exactly `c` to its key and leaves every other
key alone. -/
theorem change_amount (h : pack.change cap key c = some next) :
    next.amount = Function.update pack.amount key (pack.amount key + c) := by
  unfold change at h
  split at h
  · next hzero =>
      split at h
      · cases h
        simp [hzero]
      · cases h
  · split at h
    · cases h
    · split at h
      · next hsum =>
          cases h
          simp [hsum]
      · cases h
        rfl

theorem change_amount_self (h : pack.change cap key c = some next) :
    next.amount key = pack.amount key + c := by
  simp [change_amount h]

theorem change_amount_of_ne (h : pack.change cap key c = some next) {other : K}
    (hne : other ≠ key) : next.amount other = pack.amount other := by
  simp [change_amount h, hne]

/-- Taking from a stack that is large enough always happens. -/
theorem change_take (hc : c < 0) (hle : 0 ≤ pack.amount key + c)
    (hcap : pack.amount key ≤ cap) :
    ∃ next, pack.change cap key c = some next := by
  unfold change
  rw [if_neg (by omega), if_neg (by omega)]
  split
  · exact ⟨_, rfl⟩
  · exact ⟨_, rfl⟩

/-- The pack without `c` of a key: a stack that is taken whole leaves its
slot. -/
def less (pack : Pack K) (key : K) (c : Int) : Pack K :=
  ⟨fun other => pack.amount other - if key = other then c else 0,
    if pack.amount key = c then pack.room + 1 else pack.room⟩

/-- The pack with `c` more of a key: a new stack takes a slot. -/
def plus (pack : Pack K) (key : K) (c : Int) : Pack K :=
  ⟨fun other => pack.amount other + if key = other then c else 0,
    if pack.amount key = 0 then pack.room - 1 else pack.room⟩

/-- There is room for `c` more of a key. -/
def Fits (cap : Int) (pack : Pack K) (key : K) (c : Int) : Prop :=
  pack.amount key + c ≤ cap ∧ (0 < pack.amount key ∨ 0 < pack.room)

instance (cap : Int) (pack : Pack K) (key : K) (c : Int) :
    Decidable (pack.Fits cap key c) :=
  inferInstanceAs (Decidable (_ ∧ _))

theorem update_add (amount : K → Int) (key : K) (c : Int) :
    Function.update amount key (amount key + c) =
      fun other => amount other + if key = other then c else 0 := by
  funext other
  by_cases hkey : key = other
  · subst hkey
    simp
  · simp [hkey, Ne.symm hkey]

/-- Taking no more than there is always happens. -/
theorem change_less (hpos : 0 < c) (hle : c ≤ pack.amount key)
    (hcap : pack.amount key ≤ cap) :
    pack.change cap key (-c) = some (pack.less key c) := by
  have hamount : Function.update pack.amount key (pack.amount key + -c) =
      (pack.less key c).amount := by
    rw [update_add]
    funext other
    simp only [less]
    split_ifs <;> omega
  unfold change
  rw [if_neg (by omega), if_neg (by omega)]
  split_ifs with hsum
  · have hall : pack.amount key = c := by omega
    rw [← hsum, hamount]
    simp [less, hall]
  · have hpart : ¬ pack.amount key = c := by omega
    rw [hamount]
    simp [less, hpart]

/-- Giving happens exactly when there is room. -/
theorem change_plus (hpos : 0 < c) (hamount : 0 ≤ pack.amount key)
    (hfits : pack.Fits cap key c) :
    pack.change cap key c = some (pack.plus key c) := by
  obtain ⟨hcap, hroom⟩ := hfits
  unfold change
  split_ifs with hzero hgive hbad hsum
  · have hupdate := update_add pack.amount key c
    rw [hzero, zero_add] at hupdate
    rw [hupdate]
    simp [plus, hzero]
  · omega
  · omega
  · omega
  · rw [update_add]
    simp [plus, hzero]

theorem fits_iff (hpos : 0 < c) (hamount : 0 ≤ pack.amount key) :
    pack.Fits cap key c ↔ pack.change cap key c ≠ none := by
  constructor
  · intro hfits
    simp [change_plus hpos hamount hfits]
  · intro hsome
    unfold change at hsome
    unfold Fits
    split_ifs at hsome with hzero hgive hbad hsum
    · omega
    · exact absurd rfl hsome
    · exact absurd rfl hsome
    · omega
    · omega

/-- A change upwards is `plus`. -/
theorem eq_plus_of_change (hpos : 0 < c) (hamount : 0 ≤ pack.amount key)
    (h : pack.change cap key c = some next) : next = pack.plus key c := by
  have hsome : pack.change cap key c ≠ none := by simp [h]
  have hfits := (fits_iff hpos hamount).mpr hsome
  rw [change_plus hpos hamount hfits] at h
  exact (Option.some.inj h).symm

section Gifts

variable {valid : K → Bool} {gifts : List (K × Int)}

/-- Give what is valid and fits, one gift after the other. -/
def giveAll (cap : Int) (valid : K → Bool) (gifts : List (K × Int))
    (pack : Pack K) : Pack K :=
  gifts.foldl (fun pack gift =>
    if valid gift.1 = true ∧ pack.Fits cap gift.1 gift.2 then
      pack.plus gift.1 gift.2
    else pack) pack

theorem giveAll_concat (gifts : List (K × Int)) (gift : K × Int) :
    pack.giveAll cap valid (gifts ++ [gift]) =
      if valid gift.1 = true ∧
          (pack.giveAll cap valid gifts).Fits cap gift.1 gift.2 then
        (pack.giveAll cap valid gifts).plus gift.1 gift.2
      else pack.giveAll cap valid gifts := by
  unfold giveAll
  rw [List.foldl_append]
  rfl

/-- The slots that gifts need at most: one for each gift without a stack. -/
def needed (valid : K → Bool) (gifts : List (K × Int)) (pack : Pack K) : Nat :=
  gifts.countP fun gift => valid gift.1 && decide (pack.amount gift.1 ≤ 0)

theorem plus_amount_nonneg (hnonneg : ∀ key, 0 ≤ pack.amount key)
    (hpos : 0 < c) (other : K) : 0 ≤ (pack.plus key c).amount other := by
  have hother := hnonneg other
  simp only [plus]
  split_ifs <;> omega

/-- A gift never makes later gifts need more slots. -/
theorem needed_plus_le (hpos : 0 < c) :
    needed valid gifts (pack.plus key c) ≤ needed valid gifts pack := by
  apply List.countP_mono_left
  intro gift _ hgift
  obtain ⟨hvalid, hnone⟩ := Bool.and_eq_true_iff.mp hgift
  have hle : (pack.plus key c).amount gift.1 ≤ 0 := of_decide_eq_true hnone
  have hbefore : pack.amount gift.1 ≤ 0 := by
    simp only [plus] at hle
    split_ifs at hle <;> omega
  simp [hvalid, hbefore]

/-- Valid gifts for which there are slots, and that stay within the cap, are
all given. -/
theorem giveAll_amount (hvalid : ∀ gift ∈ gifts, valid gift.1 = true)
    (hpos : ∀ gift ∈ gifts, 0 < gift.2)
    (hnonneg : ∀ key, 0 ≤ pack.amount key)
    (hcap : ∀ gift ∈ gifts,
      pack.amount gift.1 + total gift.1 gifts ≤ cap)
    (hroom : needed valid gifts pack ≤ pack.room) (key : K) :
    (pack.giveAll cap valid gifts).amount key =
      pack.amount key + total key gifts := by
  induction gifts generalizing pack with
  | nil => simp [giveAll]
  | cons gift gifts ih =>
      have hfirst := hvalid gift List.mem_cons_self
      have hgift := hpos gift List.mem_cons_self
      have hrest : 0 ≤ total gift.1 gifts := by
        unfold total
        apply List.sum_nonneg
        intro n hn
        obtain ⟨other, hother, rfl⟩ := List.mem_map.mp hn
        have hle := hpos other (List.mem_cons_of_mem gift hother)
        split_ifs <;> omega
      have hlimit := hcap gift List.mem_cons_self
      rw [total_cons, if_pos rfl] at hlimit
      have hslot : needed valid (gift :: gifts) pack =
          needed valid gifts pack +
            if pack.amount gift.1 ≤ 0 then 1 else 0 := by
        unfold needed
        rw [List.countP_cons, hfirst]
        simp
      rw [hslot] at hroom
      have hamount := hnonneg gift.1
      have hfits : pack.Fits cap gift.1 gift.2 := by
        constructor
        · omega
        · split_ifs at hroom <;> omega
      have hstep : pack.giveAll cap valid (gift :: gifts) =
          (pack.plus gift.1 gift.2).giveAll cap valid gifts := by
        unfold giveAll
        rw [List.foldl_cons, if_pos ⟨hfirst, hfits⟩]
      have hlater := @needed_plus_le K _ gift.2 pack gift.1 valid gifts hgift
      rw [hstep, ih (fun other hother =>
        hvalid other (List.mem_cons_of_mem gift hother))
        (fun other hother => hpos other (List.mem_cons_of_mem gift hother))
        (plus_amount_nonneg hnonneg hgift) ?_ ?_]
      · simp only [plus, total_cons]
        omega
      · intro other hother
        have hboth := hcap other (List.mem_cons_of_mem gift hother)
        rw [total_cons] at hboth
        simp only [plus]
        omega
      · have hleft : (pack.plus gift.1 gift.2).room =
            if pack.amount gift.1 = 0 then pack.room - 1 else pack.room := rfl
        rw [hleft]
        split_ifs at hroom ⊢ <;> omega

/-- What is not given, or not valid, stays as it is. -/
theorem giveAll_amount_of_ne {key : K}
    (hne : ∀ gift ∈ gifts, valid gift.1 = true → gift.1 ≠ key) :
    (pack.giveAll cap valid gifts).amount key = pack.amount key := by
  unfold giveAll
  induction gifts generalizing pack with
  | nil => rfl
  | cons gift gifts ih =>
      rw [List.foldl_cons, ih fun other hother =>
        hne other (List.mem_cons_of_mem gift hother)]
      split_ifs with hgift
      · simp [plus, hne gift List.mem_cons_self hgift.1]
      · rfl

/-- Room for gifts of distinct keys: no stack grows beyond the cap, and there
is an empty slot for each key without a stack. -/
def FitsAll (cap : Int) (gifts : List (K × Int)) (pack : Pack K) : Prop :=
  (∀ gift ∈ gifts, pack.amount gift.1 + gift.2 ≤ cap) ∧
    gifts.countP (fun gift => decide (pack.amount gift.1 = 0)) ≤ pack.room

omit [DecidableEq K] in
/-- The order of the gifts does not matter. -/
theorem FitsAll.perm {order : List (K × Int)} (horder : order.Perm gifts) :
    pack.FitsAll cap order ↔ pack.FitsAll cap gifts := by
  unfold FitsAll
  rw [horder.countP_eq]
  constructor
  · rintro ⟨hcap, hroom⟩
    exact ⟨fun gift hgift => hcap gift (horder.mem_iff.mpr hgift), hroom⟩
  · rintro ⟨hcap, hroom⟩
    exact ⟨fun gift hgift => hcap gift (horder.mem_iff.mp hgift), hroom⟩

/-- The gifts fit when the first one does and the others still do after it. -/
theorem fitsAll_cons {gift : K × Int}
    (hamount : 0 ≤ pack.amount gift.1)
    (hother : ∀ other ∈ gifts, other.1 ≠ gift.1) :
    pack.FitsAll cap (gift :: gifts) ↔
      pack.Fits cap gift.1 gift.2 ∧
        (pack.plus gift.1 gift.2).FitsAll cap gifts := by
  have hkept : ∀ other ∈ gifts,
      (pack.plus gift.1 gift.2).amount other.1 = pack.amount other.1 := by
    intro other hmem
    simp [plus, (hother other hmem).symm]
  have hcount : gifts.countP (fun other =>
        decide ((pack.plus gift.1 gift.2).amount other.1 = 0)) =
      gifts.countP fun other => decide (pack.amount other.1 = 0) := by
    apply List.countP_congr
    intro other hmem
    rw [hkept other hmem]
  have hrest : (∀ other ∈ gifts,
        (pack.plus gift.1 gift.2).amount other.1 + other.2 ≤ cap) ↔
      ∀ other ∈ gifts, pack.amount other.1 + other.2 ≤ cap := by
    constructor
    · intro hcap other hmem
      have hle := hcap other hmem
      rwa [hkept other hmem] at hle
    · intro hcap other hmem
      rw [hkept other hmem]
      exact hcap other hmem
  unfold FitsAll Fits
  rw [hrest, hcount, List.forall_mem_cons, List.countP_cons]
  have hroom : (pack.plus gift.1 gift.2).room =
      if pack.amount gift.1 = 0 then pack.room - 1 else pack.room := rfl
  rw [hroom]
  by_cases hzero : pack.amount gift.1 = 0
  · rw [if_pos hzero, if_pos (decide_eq_true hzero)]
    constructor
    · rintro ⟨⟨hfirst, hcap⟩, hneeded⟩
      exact ⟨⟨hfirst, Or.inr (by omega)⟩, hcap, by omega⟩
    · rintro ⟨⟨hfirst, hslot⟩, hcap, hneeded⟩
      exact ⟨⟨hfirst, hcap⟩, by omega⟩
  · rw [if_neg hzero, if_neg (by simpa using hzero)]
    constructor
    · rintro ⟨⟨hfirst, hcap⟩, hneeded⟩
      exact ⟨⟨hfirst, Or.inl (by omega)⟩, hcap, hneeded⟩
    · rintro ⟨⟨hfirst, hslot⟩, hcap, hneeded⟩
      exact ⟨⟨hfirst, hcap⟩, hneeded⟩

end Gifts

/-- A changed amount stays within its bounds. -/
theorem change_range (h : pack.change cap key c = some next) :
    (c < 0 → 0 ≤ next.amount key) ∧ next.amount key ≤ cap := by
  rw [change_amount_self h]
  unfold change at h
  split_ifs at h <;> omega

/-- No amount becomes negative. -/
theorem change_nonneg (h : pack.change cap key c = some next)
    (hnonneg : ∀ other, 0 ≤ pack.amount other) (other : K) :
    0 ≤ next.amount other := by
  by_cases hother : other = key
  · subst hother
    have hamount := hnonneg other
    have hrange := (change_range h).1
    have hself := change_amount_self h
    omega
  · rw [change_amount_of_ne h hother]
    exact hnonneg other

section Slots

variable {keys : List K}

/-- The slots that are free or hold one of some keys. -/
def slotsOf (keys : List K) (pack : Pack K) : Nat :=
  pack.room + keys.countP fun key => decide (pack.amount key ≠ 0)

omit [DecidableEq K] in
theorem slotsOf_split (pre post : List K) (key : K) :
    pack.slotsOf (pre ++ key :: post) =
      (pre ++ post).countP (fun key => decide (pack.amount key ≠ 0)) +
        (pack.room + if pack.amount key = 0 then 0 else 1) := by
  unfold slotsOf
  rw [List.countP_append, List.countP_append, List.countP_cons]
  by_cases hzero : pack.amount key = 0
  · simp [hzero]
    omega
  · simp [hzero]
    omega

theorem change_slot (h : pack.change cap key c = some next) :
    (next.room + if next.amount key = 0 then 0 else 1) =
      pack.room + if pack.amount key = 0 then 0 else 1 := by
  have hnew := change_amount_self h
  unfold change at h
  split_ifs at h with hzero hgive hbad hsum
  · obtain ⟨hpos, -, hroom⟩ := hgive
    cases h
    rw [if_pos hzero, if_neg (by omega)]
    dsimp only
    omega
  · cases h
    rw [if_neg hzero, if_pos (by omega)]
  · cases h
    rw [if_neg hzero, if_neg (by omega)]

/-- A change of one of the keys trades a stack against a free slot, or
neither. -/
theorem change_slotsOf (h : pack.change cap key c = some next)
    (hkey : key ∈ keys) (hnodup : keys.Nodup) :
    next.slotsOf keys = pack.slotsOf keys := by
  obtain ⟨pre, post, rfl⟩ := List.append_of_mem hkey
  have habsent : key ∉ pre ++ post := (List.nodup_middle.mp hnodup).notMem
  have hcount : (pre ++ post).countP (fun key => decide (next.amount key ≠ 0)) =
      (pre ++ post).countP fun key => decide (pack.amount key ≠ 0) := by
    apply List.countP_congr
    intro other hother
    have hne : other ≠ key := fun heq => habsent (heq ▸ hother)
    rw [change_amount_of_ne h hne]
  rw [slotsOf_split, slotsOf_split, hcount, change_slot h]

variable {valid : K → Bool} {gifts : List (K × Int)}

theorem giveAll_slotsOf (hpos : ∀ gift ∈ gifts, 0 < gift.2)
    (hnonneg : ∀ other, 0 ≤ pack.amount other)
    (hkeys : ∀ gift ∈ gifts, gift.1 ∈ keys) (hnodup : keys.Nodup) :
    (pack.giveAll cap valid gifts).slotsOf keys = pack.slotsOf keys := by
  unfold giveAll
  induction gifts generalizing pack with
  | nil => rfl
  | cons gift gifts ih =>
      have hgift := hpos gift List.mem_cons_self
      have hlater := fun other hother =>
        hpos other (List.mem_cons_of_mem gift hother)
      have hrest := fun other hother =>
        hkeys other (List.mem_cons_of_mem gift hother)
      rw [List.foldl_cons]
      by_cases hgiven : valid gift.1 = true ∧ pack.Fits cap gift.1 gift.2
      · have hchange := change_plus hgift (hnonneg gift.1) hgiven.2
        rw [if_pos hgiven, ih hlater (plus_amount_nonneg hnonneg hgift) hrest]
        exact change_slotsOf hchange (hkeys gift List.mem_cons_self) hnodup
      · rw [if_neg hgiven]
        exact ih hlater hnonneg hrest

/-- Nothing is given twice. -/
theorem giveAll_amount_le (hpos : ∀ gift ∈ gifts, 0 < gift.2) (key : K) :
    (pack.giveAll cap valid gifts).amount key ≤
      pack.amount key + total key gifts := by
  unfold giveAll
  induction gifts generalizing pack with
  | nil => simp
  | cons gift gifts ih =>
      have hgift := hpos gift List.mem_cons_self
      rw [List.foldl_cons, total_cons]
      apply le_trans (ih fun other hother =>
        hpos other (List.mem_cons_of_mem gift hother))
      split_ifs with hgiven hkey
      · simp only [plus, if_pos hkey]
        omega
      · simp only [plus, if_neg hkey]
        omega
      · omega
      · omega

end Slots

/-- A stack from which something was taken can be given it back. -/
theorem change_give_back (h : pack.change cap key c = some next) (hc : c < 0)
    (hcap : pack.amount key ≤ cap) :
    next.change cap key (-c) = some pack := by
  unfold change at h
  rw [if_neg] at h
  · split at h
    · cases h
    · next hrange =>
        split at h
        · next hsum =>
            cases h
            have hback : -c = pack.amount key := by omega
            unfold change
            simp only [Function.update_self, ↓reduceIte]
            rw [if_pos ⟨by omega, by omega, by omega⟩]
            simp [hback]
        · next hsum =>
            cases h
            unfold change
            simp only [Function.update_self]
            rw [if_neg hsum, if_neg (by omega), if_neg (by omega)]
            simp
  · intro hzero
    rw [if_pos hzero, if_neg (by omega)] at h
    cases h

/-- Giving fails exactly on a stack that has no room for it or, when there is
no stack yet, for want of an empty slot. -/
theorem change_give_eq_none_iff (hpos : 0 < c) (hcap : c ≤ cap)
    (hamount : 0 ≤ pack.amount key) :
    pack.change cap key c = none ↔
      cap < pack.amount key + c ∨ (pack.amount key = 0 ∧ pack.room = 0) := by
  unfold change
  by_cases hzero : pack.amount key = 0
  · rw [if_pos hzero]
    by_cases hroom : 0 < pack.room
    · rw [if_pos ⟨hpos, hcap, hroom⟩]
      simp only [reduceCtorEq, false_iff]
      omega
    · rw [if_neg (by omega)]
      simp only [true_iff]
      omega
  · rw [if_neg hzero]
    by_cases hfull : cap < pack.amount key + c
    · rw [if_pos (by omega)]
      simp [hfull]
    · rw [if_neg (by omega), if_neg (by omega)]
      simp only [reduceCtorEq, false_iff]
      omega

/-- No slot takes more than the cap. -/
theorem change_eq_none_of_cap_lt (hc : cap < c) (hamount : 0 ≤ pack.amount key) :
    pack.change cap key c = none := by
  unfold change
  by_cases hzero : pack.amount key = 0
  · rw [if_pos hzero, if_neg (by omega)]
  · rw [if_neg hzero, if_pos (by omega)]

/-- Room is only ever lost to a new stack. -/
theorem change_take_room (h : pack.change cap key c = some next) (hc : c < 0) :
    pack.room ≤ next.room := by
  unfold change at h
  split at h
  · rw [if_neg (by omega)] at h
    cases h
  · split at h
    · cases h
    · split at h <;> cases h <;> simp

/-- A stack that is taken whole gives its slot back. -/
theorem change_exhaust_room (h : pack.change cap key c = some next)
    (hall : pack.amount key + c = 0) (hc : c < 0) :
    next.room = pack.room + 1 := by
  unfold change at h
  rw [if_neg (by omega)] at h
  split at h
  · cases h
  · cases h
    rfl

end Pack

/-- The view of a slot list as a pack. -/
def view (empty : K) (slots : List (K × Int)) : Pack K :=
  ⟨fun key => total key slots, room empty slots⟩

@[simp]
theorem view_amount (empty key : K) (slots : List (K × Int)) :
    (view empty slots).amount key = total key slots := rfl

@[simp]
theorem view_room (empty : K) (slots : List (K × Int)) :
    (view empty slots).room = room empty slots := rfl

section Rewrites

variable {empty key : K} {cap : Int} {pre post : List (K × Int)}

/-- Rewriting one slot moves the amounts by the difference of the two slots. -/
theorem total_replace (pre post : List (K × Int)) (other : K)
    (old new : K × Int) :
    total other (pre ++ new :: post) = total other (pre ++ old :: post) +
      ((if new.1 = other then new.2 else 0) -
        (if old.1 = other then old.2 else 0)) := by
  simp only [total_append, total_cons]
  omega

/-- Growing or shrinking a stack within its bounds is a change of the pack. -/
theorem view_restack {n c : Int}
    (hwf : WellFormed empty cap (pre ++ (key, n) :: post))
    (hkey : key ≠ empty) (hc : c ≠ 0) (hpos : 0 < n + c) (hcap : n + c ≤ cap) :
    (view empty (pre ++ (key, n) :: post)).change cap key c =
      some (view empty (pre ++ (key, n + c) :: post)) := by
  have hstack := hwf.total_stack hkey
  have hbounds := hwf.stack_bounds hkey
  unfold Pack.change
  simp only [view_amount, hstack]
  rw [if_neg (by omega), if_neg (by omega), if_neg (by omega)]
  congr 1
  refine Pack.ext ?_ ?_
  · funext other
    by_cases hother : other = key
    · subst hother
      have hnew := total_replace pre post other (other, n) (other, n + c)
      simp only [↓reduceIte] at hnew
      simp only [Function.update_self, view_amount]
      omega
    · have hne : key ≠ other := fun h => hother h.symm
      simp [hother, hne]
  · simp [hkey]

/-- Emptying a stack is a change of the pack. -/
theorem view_unstack {n c : Int}
    (hwf : WellFormed empty cap (pre ++ (key, n) :: post))
    (hkey : key ≠ empty) (hsum : n + c = 0) :
    (view empty (pre ++ (key, n) :: post)).change cap key c =
      some (view empty (pre ++ (empty, 0) :: post)) := by
  have hstack := hwf.total_stack hkey
  have hbounds := hwf.stack_bounds hkey
  unfold Pack.change
  simp only [view_amount, hstack]
  rw [if_neg (by omega), if_neg (by omega), if_pos hsum]
  congr 1
  refine Pack.ext ?_ ?_
  · funext other
    have hnew := total_replace pre post other (key, n) (empty, 0)
    by_cases hother : other = key
    · subst hother
      simp only [↓reduceIte, ite_self] at hnew
      simp only [Function.update_self, view_amount]
      omega
    · have hne : key ≠ other := fun h => hother h.symm
      simp only [hne, ↓reduceIte, ite_self] at hnew
      simp only [Function.update_of_ne hother, view_amount]
      omega
  · simp [hkey]
    omega

/-- Filling an empty slot with a new stack is a change of the pack. -/
theorem view_stack {c : Int}
    (hkey : key ≠ empty) (habsent : ∀ slot ∈ pre ++ (empty, 0) :: post,
      slot.1 ≠ key) (hpos : 0 < c) (hcap : c ≤ cap) :
    (view empty (pre ++ (empty, 0) :: post)).change cap key c =
      some (view empty (pre ++ (key, c) :: post)) := by
  have hzero : (view empty (pre ++ (empty, 0) :: post)).amount key = 0 :=
    total_eq_zero_of_not_mem habsent
  have hroom : 0 < (view empty (pre ++ (empty, 0) :: post)).room :=
    room_pos_iff.mpr (by simp)
  unfold Pack.change
  rw [if_pos hzero, if_pos ⟨hpos, hcap, hroom⟩]
  congr 1
  refine Pack.ext ?_ ?_
  · funext other
    have hnew := total_replace pre post other (empty, 0) (key, c)
    by_cases hother : other = key
    · subst hother
      simp only [↓reduceIte, ite_self] at hnew
      simp only [Function.update_self, view_amount] at hzero ⊢
      omega
    · have hne : key ≠ other := fun h => hother h.symm
      simp only [hne, ↓reduceIte, ite_self] at hnew
      simp only [Function.update_of_ne hother, view_amount]
      omega
  · simp [hkey]

end Rewrites

end SlotPack
