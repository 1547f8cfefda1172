/-
Items on display shelves and mannequins are neither lost nor multiplied, as long
as the old item of a slot is given back only where the new one can be taken.  A
rack is a list of slots; the amount of an item in the backpack and in the rack is
followed through each call of `Modify` and each change of a slot, word by word.
-/
import Mathlib.Tactic.IntervalCases
import NopyServer.DisplayDialogs
import NopyServer.FishSale
import NopyServer.MachineLedger

namespace NopyServer

namespace Displays

open Inventory SlotPack BoundedLoop

section Rack

variable {id : Int} {k : Nat} {item : UInt16}

/-- How many slots of a rack hold an item. -/
def stored (slots : List UInt16) (id : Int) : Int :=
  slots.countP fun slot => (slot.toNat : Int) = id

theorem stored_set {slots : List UInt16} {old : UInt16} (hold : slots[k]? = some old)
    (item : UInt16) (id : Int) :
    stored (slots.set k item) id =
      stored slots id - (if (old.toNat : Int) = id then 1 else 0) +
        if (item.toNat : Int) = id then 1 else 0 := by
  obtain ⟨hk, rfl⟩ := List.getElem?_eq_some_iff.mp hold
  have hpos : (if (slots[k].toNat : Int) = id then 1 else 0) ≤
      slots.countP fun slot => (slot.toNat : Int) = id := by
    split_ifs with heq
    · exact List.countP_pos_iff.mpr ⟨slots[k], List.getElem_mem hk, by simpa using heq⟩
    · exact Nat.zero_le _
  unfold stored
  rw [List.countP_set hk]
  simp only [decide_eq_true_eq]
  split_ifs at hpos ⊢ <;> omega

/-- The four shelves. -/
def shelves (block : WorldBlock) : List UInt16 :=
  [block.shelf1, block.shelf2, block.shelf3, block.shelf4]

theorem shelves_get (hk : k < 4) (block : WorldBlock) :
    (shelves block)[k]? = some (shelf block k) := by
  interval_cases k <;> rfl

theorem shelves_setShelf (hk : k < 4) (item : UInt16) (block : WorldBlock) :
    shelves (setShelf k item block) = (shelves block).set k item := by
  interval_cases k <;> rfl

theorem shelfNumber_lt {word : String} (hword : shelfNumber word = some k) : k < 4 := by
  unfold shelfNumber at hword
  split_ifs at hword <;> cases hword <;> decide

theorem garments_get {t : Int} (hlow : 0 ≤ t) (hhigh : t ≤ 8) (mannequin : Mannequin) :
    (garments mannequin)[t.toNat]? = some (garment mannequin t) := by
  interval_cases t <;> rfl

theorem garments_dress {t : Int} (hlow : 0 ≤ t) (hhigh : t ≤ 8) (item : UInt16)
    (mannequin : Mannequin) :
    garments (dress mannequin t item) = (garments mannequin).set t.toNat item := by
  interval_cases t <;> rfl

end Rack

section Counting

variable {env : Env} {rack : WorldBlock → List UInt16} {w b : Nat} {s t u : Session}
  {P : WorldBlock → Prop} {block : WorldBlock} {mode : Bool} {id c : Int} {next : Player}

/-- How many of an item the player and the rack of a block hold. -/
def held (rack : WorldBlock → List UInt16) (w b : Nat) (id : Int) (s : Session) : Int :=
  total id s.pl.inv + (s.block? w b).elim 0 fun block => stored (rack block) id

/-- A player without automatic conversion, before a block. -/
structure Attends (w b : Nat) (mode : Bool) (block : WorldBlock) (s : Session) : Prop where
  slots : SlotInv s.pl.inv
  convert : s.pl.autoConvert = false
  mode : s.pl.infiniteMode = mode
  found : s.block? w b = some block

theorem Attends.held (hs : Attends w b mode block s) (id : Int) :
    held rack w b id s = total id s.pl.inv + stored (rack block) id := by
  unfold Displays.held
  rw [hs.found]
  rfl

theorem Attends.changed (hs : Attends w b mode block s)
    (hchanged : Changed s.pl id c next) :
    Attends w b mode block { s with pl := next } where
  slots := hchanged.slots
  convert := (Player.core_congr hchanged.core Player.autoConvert
    fun _ => rfl).trans hs.convert
  mode := (Player.core_congr hchanged.core Player.infiniteMode
    fun _ => rfl).trans hs.mode
  found := hs.found

theorem Attends.mapBlock (hs : Attends w b mode block s) (f : WorldBlock → WorldBlock) :
    Attends w b mode (f block) (s.mapBlock w b f) where
  slots := hs.slots
  convert := hs.convert
  mode := hs.mode
  found := Session.block?_mapBlock hs.found f

theorem total_changed (hchanged : Changed s.pl id c next) (other : Int) :
    total other next.inv = total other s.pl.inv + if id = other then c else 0 := by
  by_cases hid : id = other
  · subst hid
    rw [if_pos rfl]
    exact Pack.change_amount_self hchanged.view
  · rw [if_neg hid, add_zero]
    exact Pack.change_amount_of_ne hchanged.view (Ne.symm hid)

/-- `Modify` gives the player one of an item. -/
def Gives (env : Env) (pl : Player) (id : Int) : Prop :=
  Accepts env id ∧ (view 0 pl.inv).Fits 200 id 1

/-- `Modify` reports that it took one of an item. -/
def Parts (env : Env) (pl : Player) (id : Int) : Prop :=
  Accepts env id ∧ if pl.infiniteMode = true then pl.inv ≠ [] else 0 < total id pl.inv

theorem modify_give (hs : Attends w b mode block s) (hfish : env.items.isFish id = false) :
    (Gives env s.pl id ∧ ∃ next left, Changed s.pl id 1 next ∧
      modify env s id 1 false = ⟨0, left, { s with pl := next }⟩) ∨
    (¬ Gives env s.pl id ∧ (modify env s id 1 false).ret ≠ 0 ∧
      (modify env s id 1 false).session = s) := by
  by_cases hgives : Gives env s.pl id
  · left
    obtain ⟨haccepts, hfits⟩ := hgives
    have hnonneg := (hs.slots.wellFormed.total_bounds (by decide)
      (Int.ne_of_gt haccepts.1)).1
    rcases @modify_plain env s id 1 false hs.slots haccepts (Or.inl hs.convert)
      (Or.inr (Or.inr (Or.inr hfish))) (by omega) with
      ⟨next, left, hcall, hchanged⟩ | ⟨left, -, hnone⟩
    · exact ⟨⟨haccepts, hfits⟩, next, left, hchanged, hcall⟩
    · exact absurd hnone ((Pack.fits_iff (by omega) hnonneg).mp hfits)
  · exact Or.inr ⟨hgives, modify_of_not_fits hs.slots (by omega) false hgives⟩

theorem modify_part (hs : Attends w b mode block s) (id : Int) :
    (Parts env s.pl id ∧ (modify env s id (-1) false).ret = 0 ∧
      if mode = true then (modify env s id (-1) false).session = s
      else ∃ next, Changed s.pl id (-1) next ∧
        (modify env s id (-1) false).session = { s with pl := next }) ∨
    (¬ Parts env s.pl id ∧ (modify env s id (-1) false).ret ≠ 0 ∧
      (modify env s id (-1) false).session = s) := by
  have hmode := hs.mode
  by_cases haccepts : Accepts env id
  · cases mode with
    | true =>
        simp only [Parts, haccepts, hmode, true_and, ↓reduceIte, ne_eq]
        rw [modify_infinite false hmode (by decide), modify_ret_eq_zero_iff]
        have htakes : Takes env s.pl id (-1) ↔ ¬ s.pl.inv = [] := by
          unfold Takes
          unfold Accepts at haccepts
          simp only [hmode, true_and]
          constructor
          · intro h hnil
            exact h.1 (by simp [hnil])
          · intro hinv
            refine ⟨?_, Or.inl (by decide)⟩
            simp only [hinv, or_false]
            omega
        rw [htakes]
        by_cases hinv : s.pl.inv = []
        · exact Or.inr ⟨not_not_intro hinv, not_not_intro hinv, rfl⟩
        · exact Or.inl ⟨hinv, hinv, rfl⟩
    | false =>
        simp only [Parts, haccepts, hmode, true_and, Bool.false_eq_true, ↓reduceIte]
        have hrange := hs.slots.wellFormed.total_bounds (by decide)
          (Int.ne_of_gt haccepts.1)
        rcases @modify_plain env s id (-1) false hs.slots haccepts (Or.inl hs.convert)
          (Or.inl (by decide)) (by simp [hmode]) with
          ⟨next, left, hcall, hchanged⟩ | ⟨left, hcall, hnone⟩
        · left
          rw [hcall]
          have hamount := total_changed hchanged id
          have hnext := hchanged.slots.wellFormed.total_bounds (by decide)
            (Int.ne_of_gt haccepts.1)
          rw [if_pos rfl] at hamount
          exact ⟨by omega, rfl, next, hchanged, rfl⟩
        · right
          rw [hcall]
          refine ⟨fun hpos => ?_, by simp, rfl⟩
          have htaken : (view 0 s.pl.inv).change 200 id (-1) =
              some ((view 0 s.pl.inv).less id 1) :=
            Pack.change_less (by omega) hpos hrange.2
          rw [hnone] at htaken
          cases htaken
  · right
    rw [modify_not_accepted haccepts]
    exact ⟨fun hparts => haccepts hparts.1, by simp, rfl⟩

end Counting

section ShelfRuns

variable {env : Env} {rack : WorldBlock → List UInt16} {w b k : Nat} {s t u : Session}
  {block : WorldBlock} {mode : Bool} {p q : Prop}

/-- No item is lost, and some item is multiplied exactly where `more` holds. -/
structure Grows (rack : WorldBlock → List UInt16) (w b : Nat) (more : Prop)
    (s t : Session) : Prop where
  le : ∀ id, id ≠ 0 → held rack w b id s ≤ held rack w b id t
  even : (∀ id, id ≠ 0 → held rack w b id t = held rack w b id s) ↔ ¬ more

theorem Grows.of_even (heven : ∀ id, id ≠ 0 → held rack w b id t = held rack w b id s)
    (hnone : ¬ p) : Grows rack w b p s t :=
  ⟨fun id hid => (heven id hid).ge, iff_of_true heven hnone⟩

theorem Grows.trans (hst : Grows rack w b p s t) (htu : Grows rack w b q t u) :
    Grows rack w b (p ∨ q) s u where
  le id hid := (hst.le id hid).trans (htu.le id hid)
  even := by
    rw [not_or, ← hst.even, ← htu.even]
    constructor
    · intro heven
      constructor
      · intro id hid
        exact le_antisymm ((htu.le id hid).trans (heven id hid).le) (hst.le id hid)
      · intro id hid
        exact le_antisymm ((heven id hid).le.trans (hst.le id hid)) (htu.le id hid)
    · rintro ⟨hfirst, hsecond⟩ id hid
      exact (hsecond id hid).trans (hfirst id hid)

theorem Grows.congr (hst : Grows rack w b p s t) (hpq : p ↔ q) : Grows rack w b q s t :=
  ⟨hst.le, hst.even.trans (not_congr hpq)⟩

/-- None of the items is a fish. -/
def Fishless (env : Env) (slots : List UInt16) : Prop :=
  ∀ slot ∈ slots, slot ≠ 0 → env.items.isFish slot.toNat = false

instance (env : Env) (slots : List UInt16) : Decidable (Fishless env slots) :=
  inferInstanceAs (Decidable (∀ slot ∈ slots, _))

theorem Fishless.set {slots : List UInt16} (hslots : Fishless env slots) {item : UInt16}
    (hitem : item ≠ 0 → env.items.isFish item.toNat = false) :
    Fishless env (slots.set k item) := by
  intro slot hslot
  rcases List.mem_or_eq_of_mem_set hslot with hmem | rfl
  · exact hslots slot hmem
  · exact hitem

/-- The player in front of a block with a rack of items that can be given back. -/
structure Serves (env : Env) (rack : WorldBlock → List UInt16) (w b : Nat) (mode : Bool)
    (block : WorldBlock) (s : Session) : Prop extends Attends w b mode block s where
  fishless : Fishless env (rack block)

/-- A shelf is empty, or its item can be given back. -/
def Empties (env : Env) (pl : Player) (item : UInt16) : Prop :=
  item = 0 ∨ Gives env pl item.toNat

theorem held_setShelf (hs : Attends w b mode block s) (hk : k < 4) (item : UInt16)
    (id : Int) :
    held shelves w b id (s.mapBlock w b (setShelf k item)) =
      held shelves w b id s - (if ((shelf block k).toNat : Int) = id then 1 else 0) +
        if (item.toNat : Int) = id then 1 else 0 := by
  rw [(hs.mapBlock _).held, hs.held, shelves_setShelf hk, stored_set (shelves_get hk block)]
  have hpl : (s.mapBlock w b (setShelf k item)).pl = s.pl := rfl
  rw [hpl]
  omega

theorem uint16_zero_iff (item : UInt16) : (item.toNat : Int) = 0 ↔ item = 0 := by
  constructor
  · intro h
    exact UInt16.toNat.inj (Int.ofNat.inj h)
  · rintro rfl
    rfl

theorem uint16_ofInt {n : Int} (hlow : 0 ≤ n) (hhigh : n < 65536) :
    ((UInt16.ofInt n).toNat : Int) = n := by
  have hmod : n % 2 ^ 16 = n := Int.emod_eq_of_lt hlow hhigh
  unfold UInt16.ofInt
  rw [hmod, UInt16.toNat_ofNat_of_lt' (by change n.toNat < 65536; omega)]
  exact Int.toNat_of_nonneg hlow

/-- Emptying a shelf moves its item into the backpack. -/
theorem pickUp_spec (hs : Serves env shelves w b mode block s)
    (hk : k < 4) :
    ∃ changed, Serves env shelves w b mode changed (pickUp env w b k s).1 ∧
      (∀ id, id ≠ 0 → held shelves w b id (pickUp env w b k s).1 =
        held shelves w b id s) ∧
      ((pickUp env w b k s).2 = true ↔ Empties env s.pl (shelf block k)) ∧
      ((pickUp env w b k s).2 = true → shelf changed k = 0) ∧
      ((pickUp env w b k s).1.pl.inv = [] ↔ s.pl.inv = []) := by
  unfold pickUp
  rw [hs.found]
  dsimp only
  by_cases hempty : shelf block k = 0
  · rw [if_pos hempty]
    exact ⟨block, hs, fun _ _ => rfl, iff_of_true rfl (Or.inl hempty), fun _ => hempty,
      Iff.rfl⟩
  rw [if_neg hempty]
  have hmem : shelf block k ∈ shelves block := List.mem_of_getElem? (shelves_get hk block)
  rcases modify_give hs.toAttends (hs.fishless _ hmem hempty) with
    ⟨hgives, next, left, hchanged, hcall⟩ | ⟨hgives, hret, hsame⟩
  · rw [hcall, if_pos rfl]
    have hnext := hs.toAttends.changed hchanged
    refine ⟨setShelf k 0 block, ⟨hnext.mapBlock _, ?_⟩, ?_,
      iff_of_true rfl (Or.inr hgives), fun _ => by interval_cases k <;> rfl, ?_⟩
    · rw [shelves_setShelf hk]
      exact hs.fishless.set fun hne => absurd rfl hne
    · intro id hid
      rw [held_setShelf hnext hk, hnext.held, hs.held, total_changed hchanged]
      have hnone : ¬ (((0 : UInt16).toNat : Int) = id) := fun h => hid h.symm
      rw [if_neg hnone]
      omega
    · rw [← List.length_eq_zero_iff, ← List.length_eq_zero_iff]
      exact iff_of_eq (congrArg (· = 0) hchanged.length)
  · rw [if_neg hret, hsame]
    refine ⟨block, hs, fun _ _ => rfl, ?_, fun h => absurd h Bool.false_ne_true, Iff.rfl⟩
    exact iff_of_false Bool.false_ne_true (not_or_intro hempty hgives)

theorem removeShelves_spec (ks : List Nat)
    (hks : ∀ k ∈ ks, k < 4) (hs : Serves env shelves w b mode block s) :
    ∃ changed, Serves env shelves w b mode changed (removeShelves env w b ks s) ∧
      ∀ id, id ≠ 0 → held shelves w b id (removeShelves env w b ks s) =
        held shelves w b id s := by
  induction ks generalizing s block with
  | nil => exact ⟨block, hs, fun _ _ => rfl⟩
  | cons k ks ih =>
      obtain ⟨changed, hchanged, heven, -, -, -⟩ :=
        pickUp_spec hs (hks k List.mem_cons_self)
      unfold removeShelves
      dsimp only
      split
      · obtain ⟨last, hlast, hrest⟩ :=
          ih (fun k hk => hks k (List.mem_cons_of_mem _ hk)) hchanged
        exact ⟨last, hlast, fun id hid => (hrest id hid).trans (heven id hid)⟩
      · exact ⟨changed, hchanged, heven⟩

/-- A `replace` that puts an item on a shelf and takes none: in infinite mode,
with an item that passes the tests, for a shelf that can be emptied. -/
def MultipliesAt (env : Env) (pl : Player) (block : WorldBlock) (k : Nat)
    (next : String) : Prop :=
  pl.infiniteMode = true ∧ pl.inv ≠ [] ∧ isDigit (firstChar next) = true ∧
    0 < atoi next ∧ atoi next < env.items.size ∧ atoi next ≠ 112 ∧
    displayable env (atoi next) = true ∧ Empties env pl (shelf block k)

theorem displayable_not_fish {itemId : Int} (hitem : displayable env itemId = true) :
    env.items.isFish itemId = false := by
  unfold displayable at hitem
  have hkind := (Bool.and_eq_true_iff.mp hitem).2
  exact beq_eq_false_iff_ne.mpr (bne_iff_ne.mp hkind)

/-- Putting an item on an empty shelf. -/
theorem placeShelf_spec (hs : Serves env shelves w b mode block s) (hk : k < 4)
    (hempty : shelf block k = 0) {itemId : Int} (hpos : 0 < itemId)
    (hsize : itemId < env.items.size) (hsmall : env.items.size ≤ 65536)
    (hfish : env.items.isFish itemId = false) :
    let taken := modify env s itemId (-1) false
    let placed := if taken.ret = 0 then
        taken.session.mapBlock w b (setShelf k (UInt16.ofInt itemId))
      else taken.session
    ∃ changed, Serves env shelves w b mode changed placed ∧
      Grows shelves w b (mode = true ∧ Parts env s.pl itemId) s placed := by
  intro taken placed
  have hitem := uint16_ofInt (le_of_lt hpos) (by omega : itemId < 65536)
  have hfishless : Fishless env (shelves (setShelf k (UInt16.ofInt itemId) block)) := by
    rw [shelves_setShelf hk]
    apply hs.fishless.set
    intro _
    rw [hitem]
    exact hfish
  have hrack : ∀ t : Session, Attends w b mode block t → ∀ id, id ≠ 0 →
      held shelves w b id (t.mapBlock w b (setShelf k (UInt16.ofInt itemId))) =
        held shelves w b id t + if itemId = id then 1 else 0 := by
    intro t ht id hid
    have hnone : ¬ (((shelf block k).toNat : Int) = id) := by
      rw [hempty]
      exact fun h => hid h.symm
    rw [held_setShelf ht hk, if_neg hnone, hitem]
    omega
  rcases modify_part hs.toAttends itemId with ⟨hparts, hret, hsession⟩ | ⟨hparts, hret, hsame⟩
  · have hplaced : placed = (modify env s itemId (-1) false).session.mapBlock w b
        (setShelf k (UInt16.ofInt itemId)) := if_pos hret
    rw [hplaced]
    cases hmode : mode with
    | true =>
        subst hmode
        rw [if_pos rfl] at hsession
        rw [hsession]
        refine ⟨_, ⟨hs.toAttends.mapBlock _, hfishless⟩, fun id hid => ?_, ?_⟩
        · rw [hrack s hs.toAttends id hid]
          split_ifs <;> omega
        · refine iff_of_false (fun heven => ?_) (not_not_intro ⟨rfl, hparts⟩)
          have hmore := hrack s hs.toAttends itemId (by omega)
          rw [heven itemId (by omega), if_pos rfl] at hmore
          omega
    | false =>
        subst hmode
        rw [if_neg Bool.false_ne_true] at hsession
        obtain ⟨next, hchanged, hsession⟩ := hsession
        have hnext := hs.toAttends.changed hchanged
        rw [hsession]
        refine ⟨_, ⟨hnext.mapBlock _, hfishless⟩, .of_even (fun id hid => ?_) ?_⟩
        · rw [hrack _ hnext id hid, hnext.held, hs.held, total_changed hchanged]
          split_ifs <;> omega
        · rintro ⟨hmode, -⟩
          cases hmode
  · have hplaced : placed = s := (if_neg hret).trans hsame
    rw [hplaced]
    exact ⟨block, hs, .of_even (fun _ _ => rfl) fun hmore => hparts hmore.2⟩

theorem replaceShelf_spec (hs : Serves env shelves w b mode block s) (hk : k < 4)
    (hsmall : env.items.size ≤ 65536) (next : String) :
    ∃ changed, Serves env shelves w b mode changed (replaceShelf env w b k next s).state ∧
      Grows shelves w b (MultipliesAt env s.pl block k next) s
        (replaceShelf env w b k next s).state := by
  have hstays : ¬ MultipliesAt env s.pl block k next → ∃ changed,
      Serves env shelves w b mode changed s ∧
        Grows shelves w b (MultipliesAt env s.pl block k next) s s := fun hnot =>
    ⟨block, hs, .of_even (fun _ _ => rfl) hnot⟩
  unfold replaceShelf
  dsimp only
  by_cases hdigit : isDigit (firstChar next) = false
  · rw [if_pos hdigit]
    apply hstays
    rintro ⟨-, -, hyes, -⟩
    rw [hdigit] at hyes
    cases hyes
  rw [if_neg hdigit]
  by_cases hrange : atoi next ≤ 0 ∨ (env.items.size : Int) ≤ atoi next
  · rw [if_pos hrange]
    apply hstays
    rintro ⟨-, -, -, hlow, hhigh, -⟩
    omega
  rw [if_neg hrange]
  by_cases hitem : displayable env (atoi next) = false
  · rw [if_pos hitem]
    apply hstays
    rintro ⟨-, -, -, -, -, -, hyes, -⟩
    rw [hitem] at hyes
    cases hyes
  rw [if_neg hitem]
  obtain ⟨changed, hchanged, heven, hempties, hzero, hinv⟩ := pickUp_spec hs hk
  by_cases hstuck : (pickUp env w b k s).2 = false
  · rw [if_pos hstuck]
    refine ⟨changed, hchanged, .of_even heven ?_⟩
    rintro ⟨-, -, -, -, -, -, -, hempty⟩
    rw [hempties.mpr hempty] at hstuck
    cases hstuck
  rw [if_neg hstuck]
  rw [Bool.not_eq_false] at hdigit hitem hstuck
  obtain ⟨hpos, hsize⟩ := not_or.mp hrange
  obtain ⟨last, hlast, hgrows⟩ := placeShelf_spec hchanged hk (hzero hstuck)
    (Int.not_le.mp hpos) (Int.not_le.mp hsize) hsmall (displayable_not_fish hitem)
  rw [apply_ite Next.state]
  refine ⟨last, hlast, ((Grows.of_even heven not_false).trans hgrows).congr ?_⟩
  -- the shelf could be emptied, so only infinite mode decides
  have hmode := hchanged.mode
  unfold Parts MultipliesAt Accepts
  rw [hs.mode, hmode]
  constructor
  · rintro (h | ⟨hinfinite, ⟨-, -, hgem⟩, hparts⟩)
    · exact h.elim
    · rw [if_pos hinfinite] at hparts
      exact ⟨hinfinite, fun hnil => hparts (hinv.mpr hnil), hdigit, by omega, by omega,
        hgem, hitem, hempties.mp hstuck⟩
  · rintro ⟨hinfinite, hparts, -, -, -, hgem, -, -⟩
    right
    rw [if_pos hinfinite]
    exact ⟨hinfinite, ⟨by omega, by omega, hgem⟩, fun hnil => hparts (hinv.mp hnil)⟩

/-- One word of the message multiplies an item. -/
def Multiplies (env : Env) (w b : Nat) (word : String) (rest : List String)
    (s : Session) : Prop :=
  ∃ k next block, shelfNumber word = some k ∧ rest.head? = some next ∧
    s.block? w b = some block ∧ MultipliesAt env s.pl block k next

theorem shelfWord_spec (hs : Serves env shelves w b mode block s)
    (hsmall : env.items.size ≤ 65536) {word : String} {rest : List String}
    {step : Next Session} (hstep : shelfWord env w b word rest s = some step) :
    ∃ changed, Serves env shelves w b mode changed step.state ∧
      Grows shelves w b (Multiplies env w b word rest s) s step.state := by
  unfold shelfWord at hstep
  cases hword : shelfNumber word with
  | some k =>
      rw [hword] at hstep
      obtain ⟨next, hnext, rfl⟩ := Option.map_eq_some_iff.mp hstep
      obtain ⟨changed, hchanged, hgrows⟩ :=
        replaceShelf_spec hs (shelfNumber_lt hword) hsmall next
      refine ⟨changed, hchanged, hgrows.congr ?_⟩
      constructor
      · intro hmore
        exact ⟨k, next, block, hword, hnext, hs.found, hmore⟩
      · rintro ⟨k', next', block', hk, hhead, hfound, hmore⟩
        rw [hword] at hk
        rw [hnext] at hhead
        rw [hs.found] at hfound
        cases hk
        cases hhead
        cases hfound
        exact hmore
  | none =>
      rw [hword] at hstep
      have hnone : ¬ Multiplies env w b word rest s := by
        rintro ⟨k, next, block', hk, -⟩
        rw [hword] at hk
        cases hk
      cases Option.some.inj hstep
      split_ifs
      · obtain ⟨changed, hchanged, heven⟩ := removeShelves_spec [0, 1, 2, 3] (by decide) hs
        exact ⟨changed, hchanged, .of_even heven hnone⟩
      · exact ⟨block, hs, .of_even (fun _ _ => rfl) hnone⟩

/-- The words of a message, read one after the other, never multiply an item. -/
def ShelfSound (env : Env) (w b : Nat) : List String → Session → Prop
  | [], _ => True
  | word :: rest, s =>
      ¬ Multiplies env w b word rest s ∧
        match shelfWord env w b word rest s with
        | some (.again t) => ShelfSound env w b rest t
        | _ => True

/-- A whole message keeps the items exactly when none of its words multiplies
one. -/
theorem shelfWords_spec (hsmall : env.items.size ≤ 65536) (words : List String)
    (hs : Serves env shelves w b mode block s)
    (hrun : shelfWords env w b words s = some t) :
    ∃ changed, Serves env shelves w b mode changed t ∧
      Grows shelves w b (¬ ShelfSound env w b words s) s t := by
  induction words generalizing s block with
  | nil =>
      cases hrun
      exact ⟨block, hs, .of_even (fun _ _ => rfl) (not_not_intro trivial)⟩
  | cons word rest ih =>
      unfold shelfWords at hrun
      unfold ShelfSound
      cases hstep : shelfWord env w b word rest s with
      | none =>
          rw [hstep] at hrun
          cases hrun
      | some step =>
          obtain ⟨changed, hchanged, hgrows⟩ := shelfWord_spec hs hsmall hstep
          rw [hstep] at hrun
          cases step with
          | stop u =>
              cases hrun
              exact ⟨changed, hchanged, hgrows.congr (by simp)⟩
          | again u =>
              obtain ⟨last, hlast, hrest⟩ := ih hchanged hrun
              refine ⟨last, hlast, (hgrows.trans hrest).congr ?_⟩
              simp only [not_and_or, not_not]
              exact Iff.rfl

end ShelfRuns

section MannequinRuns

variable {env : Env} {w b : Nat} {s t : Session} {block : WorldBlock} {mode : Bool}
  {clothingType tile : Int} {mannequin : Mannequin} {item : UInt16}

/-- The garments on the mannequin of a block. -/
def outfit (block : WorldBlock) : List UInt16 := garments block.mannequin

theorem garment_other (hother : ¬ (0 ≤ clothingType ∧ clothingType ≤ 8)) :
    garment mannequin clothingType = 0 := by
  unfold garment
  split
  all_goals first | rfl | omega

theorem dress_other (hother : ¬ (0 ≤ clothingType ∧ clothingType ≤ 8)) :
    dress mannequin clothingType item = mannequin := by
  unfold dress
  split
  all_goals first | rfl | omega

theorem mem_garments (hitem : item ∈ garments mannequin) :
    ∃ clothingType, 0 ≤ clothingType ∧ clothingType ≤ 8 ∧
      garment mannequin clothingType = item := by
  obtain ⟨k, hk, hget⟩ := List.getElem_of_mem hitem
  have hlength : k < 9 := hk
  have hfound := List.getElem?_eq_some_iff.mpr ⟨hk, hget⟩
  have hslot := @garments_get k (by omega) (by omega) mannequin
  rw [Int.toNat_natCast, hfound] at hslot
  exact ⟨k, by omega, by omega, (Option.some.inj hslot).symm⟩

theorem held_setGarment (hs : Attends w b mode block s) (hlow : 0 ≤ clothingType)
    (hhigh : clothingType ≤ 8) (item : UInt16) (id : Int) :
    held outfit w b id (s.mapBlock w b (setGarment clothingType item)) =
      held outfit w b id s -
        (if ((garment block.mannequin clothingType).toNat : Int) = id then 1 else 0) +
        if (item.toNat : Int) = id then 1 else 0 := by
  have hrack : outfit (setGarment clothingType item block) =
      (outfit block).set clothingType.toNat item :=
    garments_dress hlow hhigh item block.mannequin
  have hget : (outfit block)[clothingType.toNat]? =
      some (garment block.mannequin clothingType) :=
    garments_get hlow hhigh block.mannequin
  rw [(hs.mapBlock _).held, hs.held, hrack, stored_set hget]
  have hpl : (s.mapBlock w b (setGarment clothingType item)).pl = s.pl := rfl
  rw [hpl]
  omega

theorem garment_dress {other : Int} :
    garment (dress mannequin clothingType item) other =
      if other = clothingType ∧ 0 ≤ other ∧ other ≤ 8 then item
      else garment mannequin other := by
  by_cases hrange : 0 ≤ clothingType ∧ clothingType ≤ 8
  · obtain ⟨hlow, hhigh⟩ := hrange
    by_cases hother : 0 ≤ other ∧ other ≤ 8
    · obtain ⟨hlow', hhigh'⟩ := hother
      interval_cases clothingType <;> interval_cases other <;> rfl
    · rw [garment_other hother, garment_other hother, if_neg fun h => hother h.2]
  · rw [dress_other hrange]
    split_ifs with h
    · obtain ⟨rfl, hother⟩ := h
      exact absurd hother hrange
    · rfl

/-- A garment lies in the slot of its clothing type. -/
def Dressed (env : Env) (mannequin : Mannequin) : Prop :=
  ∀ clothingType, garment mannequin clothingType ≠ 0 →
    (env.items.item (garment mannequin clothingType).toNat).clothingType = clothingType

theorem Dressed.dress (hdressed : Dressed env mannequin)
    (hitem : item ≠ 0 → (env.items.item item.toNat).clothingType = clothingType) :
    Dressed env (dress mannequin clothingType item) := by
  intro other hother
  rw [garment_dress] at hother ⊢
  split_ifs at hother ⊢ with hsame
  · rw [hsame.1]
    exact hitem hother
  · exact hdressed other hother

/-- The player in front of a mannequin that is dressed as the handlers leave
it. -/
structure Fits (env : Env) (w b : Nat) (mode : Bool) (block : WorldBlock)
    (s : Session) : Prop extends Serves env outfit w b mode block s where
  dressed : Dressed env block.mannequin

theorem Fits.setGarment (hs : Fits env w b mode block s)
    (ht : Attends w b mode block t)
    (hfish : item ≠ 0 → env.items.isFish item.toNat = false)
    (hitem : item ≠ 0 → (env.items.item item.toNat).clothingType = clothingType) :
    Fits env w b mode (setGarment clothingType item block)
      (t.mapBlock w b (setGarment clothingType item)) where
  toAttends := ht.mapBlock _
  fishless := by
    by_cases hrange : 0 ≤ clothingType ∧ clothingType ≤ 8
    · have hrack : outfit (Displays.setGarment clothingType item block) =
          (outfit block).set clothingType.toNat item :=
        garments_dress hrange.1 hrange.2 item block.mannequin
      rw [hrack]
      exact hs.fishless.set hfish
    · have hrack : outfit (Displays.setGarment clothingType item block) = outfit block :=
        congrArg garments (dress_other hrange)
      rw [hrack]
      exact hs.fishless
  dressed := hs.dressed.dress hitem

theorem garment_mem (hitem : garment mannequin clothingType ≠ 0) :
    0 ≤ clothingType ∧ clothingType ≤ 8 ∧
      garment mannequin clothingType ∈ garments mannequin := by
  have hrange : 0 ≤ clothingType ∧ clothingType ≤ 8 := by
    by_contra hother
    exact hitem (garment_other hother)
  exact ⟨hrange.1, hrange.2,
    List.mem_of_getElem? (garments_get hrange.1 hrange.2 mannequin)⟩

/-- Putting a garment on keeps the items: nothing is put on or given back, or the
new garment is there to be taken, and in infinite mode nothing can be taken. -/
def PutSafe (env : Env) (pl : Player) (block : WorldBlock) (tile : Int) : Prop :=
  let clothingType := (env.items.item tile).clothingType
  let current := garment block.mannequin clothingType
  clothingType = 9 ∨ (current.toNat : Int) = tile ∨
    (current ≠ 0 ∧ ¬ Gives env pl current.toNat) ∨
    if 0 ≤ clothingType ∧ clothingType ≤ 8 then
      if pl.infiniteMode = true then current = 0 ∧ ¬ Parts env pl tile
      else current = 0 ∨ Parts env pl tile
    else pl.infiniteMode = true ∨ ¬ Parts env pl tile

theorem parts_changed {next : Player} {id other : Int} (hchanged : Changed s.pl id 1 next)
    (hgives : Gives env s.pl id) (hne : id ≠ other) :
    Parts env next other ↔ Parts env s.pl other := by
  have hmode : next.infiniteMode = s.pl.infiniteMode :=
    Player.core_congr hchanged.core Player.infiniteMode fun _ => rfl
  have hamount := total_changed hchanged other
  rw [if_neg hne, add_zero] at hamount
  have hinv : s.pl.inv ≠ [] := by
    intro hnil
    obtain ⟨-, -, hroom⟩ := hgives
    rw [hnil] at hroom
    rcases hroom with h | h
    · exact lt_irrefl _ h
    · exact lt_irrefl _ h
  have hnext : next.inv ≠ [] := by
    intro hnil
    have hlength := hchanged.length
    rw [hnil] at hlength
    exact hinv (List.length_eq_zero_iff.mp hlength.symm)
  unfold Parts
  rw [hmode, hamount]
  simp only [ne_eq, hinv, hnext]

/-- The amounts after one of an item is taken. -/
theorem taken_held {u v : Session} (hs : Attends w b mode block u)
    (hsession : if mode = true then v = u
      else ∃ next, Changed u.pl tile (-1) next ∧ v = { u with pl := next }) :
    ∃ last, v = last ∧ Attends w b mode block last ∧ ∀ id, held outfit w b id last =
      held outfit w b id u - if mode = false ∧ tile = id then 1 else 0 := by
  cases hmode : mode with
  | true =>
      subst hmode
      rw [if_pos rfl] at hsession
      exact ⟨u, hsession, hs, fun id => by simp⟩
  | false =>
      subst hmode
      rw [if_neg Bool.false_ne_true] at hsession
      obtain ⟨next, hchanged, hsession⟩ := hsession
      have hnext := hs.changed hchanged
      refine ⟨_, hsession, hnext, fun id => ?_⟩
      rw [hnext.held, hs.held, total_changed hchanged]
      simp only [true_and]
      split_ifs <;> omega

/-- Taking the new garment and putting it on, where the slot is given up. -/
theorem wear_spec {u : Session} (hs : Attends w b mode block u) {old : Int}
    (hpos : 0 < tile) (hsmall : tile < 65536)
    (hold : (garment block.mannequin clothingType).toNat = old)
    (hbefore : ∀ id, id ≠ 0 → held outfit w b id u =
      held outfit w b id s + if old = id then 1 else 0) :
    let taken := modify env u tile (-1) false
    let worn := if taken.ret = 0 then
        taken.session.mapBlock w b (setGarment clothingType (UInt16.ofInt tile))
      else taken.session
    (∀ id, id ≠ 0 → held outfit w b id worn = held outfit w b id s) ↔
      if 0 ≤ clothingType ∧ clothingType ≤ 8 then
        if mode = true then old = 0 ∧ ¬ Parts env u.pl tile
        else old = 0 ∨ Parts env u.pl tile
      else mode = true ∨ ¬ Parts env u.pl tile := by
  intro taken worn
  have hitem := uint16_ofInt (le_of_lt hpos) hsmall
  have htile : tile ≠ 0 := Int.ne_of_gt hpos
  rcases modify_part hs tile with ⟨hparts, hret, hsession⟩ | ⟨hparts, hret, hsame⟩
  · have hworn : worn = (modify env u tile (-1) false).session.mapBlock w b
        (setGarment clothingType (UInt16.ofInt tile)) := if_pos hret
    obtain ⟨v, hv, hattends, hheld⟩ := taken_held hs hsession
    rw [hworn, hv]
    by_cases hrange : 0 ≤ clothingType ∧ clothingType ≤ 8
    · have hput : ∀ id, id ≠ 0 → held outfit w b id (v.mapBlock w b
          (setGarment clothingType (UInt16.ofInt tile))) =
            held outfit w b id s + if mode = true ∧ tile = id then 1 else 0 := by
        intro id hid
        rw [held_setGarment hattends hrange.1 hrange.2, hheld, hbefore id hid, hold, hitem]
        cases mode with
        | false =>
            simp only [true_and, Bool.false_eq_true, false_and, ↓reduceIte]
            omega
        | true => simp
      rw [if_pos hrange]
      cases mode with
      | true =>
          rw [if_pos rfl]
          refine iff_of_false (fun heven => ?_) fun h => h.2 hparts
          have hmore := hput tile htile
          rw [heven tile htile, if_pos ⟨rfl, rfl⟩] at hmore
          omega
      | false =>
          rw [if_neg Bool.false_ne_true]
          refine iff_of_true (fun id hid => ?_) (Or.inr hparts)
          rw [hput id hid, if_neg (by simp), add_zero]
    · have hnone : old = 0 := by
        rw [← hold, garment_other hrange]
        rfl
      have hput : ∀ id, id ≠ 0 → held outfit w b id (v.mapBlock w b
          (setGarment clothingType (UInt16.ofInt tile))) =
            held outfit w b id s - if mode = false ∧ tile = id then 1 else 0 := by
        intro id hid
        have hrack : outfit (setGarment clothingType (UInt16.ofInt tile) block) =
            outfit block := congrArg garments (dress_other hrange)
        have hpl : (v.mapBlock w b (setGarment clothingType (UInt16.ofInt tile))).pl =
            v.pl := rfl
        rw [(hattends.mapBlock _).held, hrack, hpl, ← hattends.held, hheld, hbefore id hid,
          if_neg (by omega : ¬ old = id)]
        omega
      rw [if_neg hrange]
      cases mode with
      | true =>
          refine iff_of_true (fun id hid => ?_) (Or.inl rfl)
          rw [hput id hid, if_neg (by simp), sub_zero]
      | false =>
          refine iff_of_false (fun heven => ?_) fun h => ?_
          · have hless := hput tile htile
            rw [heven tile htile, if_pos ⟨rfl, rfl⟩] at hless
            omega
          · rcases h with h | h
            · cases h
            · exact h hparts
  · have hworn : worn = u := (if_neg hret).trans hsame
    rw [hworn]
    have heven : (∀ id, id ≠ 0 → held outfit w b id u = held outfit w b id s) ↔
        old = 0 := by
      constructor
      · intro heven
        by_contra hne
        have hmore := hbefore old hne
        rw [heven old hne, if_pos rfl] at hmore
        omega
      · intro hnone id hid
        rw [hbefore id hid, if_neg (by omega), add_zero]
    rw [heven]
    by_cases hrange : 0 ≤ clothingType ∧ clothingType ≤ 8
    · rw [if_pos hrange]
      cases mode <;> simp [hparts]
    · rw [if_neg hrange]
      refine iff_of_true ?_ (Or.inr hparts)
      rw [← hold, garment_other hrange]
      rfl

/-- A message of fourteen words keeps the items exactly when it is safe. -/
theorem putGarment_even_iff (hs : Fits env w b mode block s) (hpos : 0 < tile)
    (hsmall : tile < 65536) :
    (∀ id, id ≠ 0 → held outfit w b id (putGarment env w b tile s) =
      held outfit w b id s) ↔ PutSafe env s.pl block tile := by
  unfold putGarment PutSafe
  rw [hs.found, hs.mode]
  dsimp only
  generalize hkind : (env.items.item tile).clothingType = clothingType
  generalize hcurrent : garment block.mannequin clothingType = current
  by_cases hskip : clothingType = 9 ∨ (current.toNat : Int) = tile
  · rw [if_pos hskip]
    refine iff_of_true (fun _ _ => rfl) ?_
    rcases hskip with h | h
    · exact Or.inl h
    · exact Or.inr (Or.inl h)
  rw [if_neg hskip]
  obtain ⟨hkind9, hother⟩ := not_or.mp hskip
  simp only [hkind9, hother, false_or]
  by_cases hzero : current = 0
  · have hnot : ¬ (current ≠ 0 ∧ (modify env s current.toNat 1 false).ret ≠ 0) :=
      fun h => h.1 hzero
    have hwear := @wear_spec env w b s block mode clothingType tile s hs.toAttends 0 hpos
      hsmall (hcurrent ▸ (uint16_zero_iff current).mpr hzero) fun id hid => by
        rw [if_neg (Ne.symm hid), add_zero]
    simp only [hzero, ne_eq, not_true_eq_false, ↓reduceIte, false_and, false_or,
      true_and, true_or] at hwear ⊢
    exact hwear
  · obtain ⟨hlow, hhigh, hmem⟩ := garment_mem (hcurrent.symm ▸ hzero)
    have hrange : 0 ≤ clothingType ∧ clothingType ≤ 8 := ⟨hlow, hhigh⟩
    rw [hcurrent] at hmem
    have hcount : (current.toNat : Int) ≠ 0 := (uint16_zero_iff current).not.mpr hzero
    rcases modify_give hs.toAttends (hs.fishless current hmem hzero) with
      ⟨hgives, next, left, hchanged, hcall⟩ | ⟨hgives, hret, hsame⟩
    · have hnext := hs.toAttends.changed hchanged
      have hwear := @wear_spec env w b s block mode clothingType tile _ hnext
        current.toNat hpos hsmall (by rw [hcurrent]) fun id hid => by
          rw [hnext.held, hs.held, total_changed hchanged]
          omega
      have hparts := parts_changed hchanged hgives hother
      simp only [hcall, hzero, hrange, hgives, hcount, hparts, ne_eq, not_true_eq_false,
        not_false_eq_true, and_false, and_self, ↓reduceIte, false_or, false_and]
        at hwear ⊢
      exact hwear
    · rw [if_pos ⟨hzero, hret⟩, hsame]
      exact iff_of_true (fun _ _ => rfl) (Or.inl ⟨hzero, hgives⟩)

/-- A mannequin stays dressed as the handlers leave it. -/
theorem putGarment_fits (hs : Fits env w b mode block s) (hpos : 0 < tile)
    (hsmall : tile < 65536) (hkind : (env.items.item tile).blockType = .clothing) :
    ∃ changed, Fits env w b mode changed (putGarment env w b tile s) := by
  have hitem := uint16_ofInt (le_of_lt hpos) hsmall
  have hfish : env.items.isFish tile = false := by
    unfold Items.isFish
    rw [hkind]
    rfl
  have hwear : ∀ u, Attends w b mode block u → ∃ changed, Fits env w b mode changed
      (if (modify env u tile (-1) false).ret = 0 then
        (modify env u tile (-1) false).session.mapBlock w b
          (setGarment (env.items.item tile).clothingType (UInt16.ofInt tile))
      else (modify env u tile (-1) false).session) := by
    intro u hu
    rcases modify_part hu tile with ⟨-, hret, hsession⟩ | ⟨-, hret, hsame⟩
    · obtain ⟨v, hv, hattends, -⟩ := taken_held hu hsession
      rw [if_pos hret, hv]
      exact ⟨_, hs.setGarment hattends (fun _ => hitem.symm ▸ hfish)
        fun _ => by rw [hitem]⟩
    · rw [if_neg hret, hsame]
      exact ⟨block, ⟨hu, hs.fishless⟩, hs.dressed⟩
  unfold putGarment
  rw [hs.found]
  dsimp only
  split
  · exact ⟨block, hs⟩
  by_cases hzero : garment block.mannequin (env.items.item tile).clothingType = 0
  · simp only [hzero, ne_eq, not_true_eq_false, ↓reduceIte, false_and]
    exact hwear s hs.toAttends
  · obtain ⟨-, -, hmem⟩ := garment_mem hzero
    rcases modify_give hs.toAttends (hs.fishless _ hmem hzero) with
      ⟨-, next, left, hchanged, hcall⟩ | ⟨-, hret, hsame⟩
    · simp only [hcall, hzero, ne_eq, not_true_eq_false, and_false, ↓reduceIte,
        not_false_eq_true]
      exact hwear _ (hs.toAttends.changed hchanged)
    · rw [if_pos ⟨hzero, hret⟩, hsame]
      exact ⟨block, hs⟩

/-- Taking a garment off. -/
theorem removeGarment_spec (hs : Fits env w b mode block s) {itemRemove : Int}
    (hpos : 0 < itemRemove) :
    ∃ changed, Fits env w b mode changed (removeGarment env w b itemRemove s).state ∧
      ∀ id, id ≠ 0 → held outfit w b id (removeGarment env w b itemRemove s).state =
        held outfit w b id s := by
  unfold removeGarment
  rw [hs.found]
  dsimp only
  split_ifs with habsent hret
  · exact ⟨block, hs, fun _ _ => rfl⟩
  all_goals
    rw [Next.state_again]
    push Not at habsent
    obtain ⟨item, hitem, hid⟩ := habsent
    have hne : item ≠ 0 := fun h => by
      rw [← hid, (uint16_zero_iff item).mpr h] at hpos
      exact lt_irrefl 0 hpos
    subst hid
    have hgive := modify_give hs.toAttends (hs.fishless item hitem hne)
  · rcases hgive with ⟨-, next, left, hchanged, hcall⟩ | ⟨-, hfail, -⟩
    · obtain ⟨clothingType, hlow, hhigh, hslot⟩ := mem_garments hitem
      have hkind := hs.dressed clothingType (hslot.symm ▸ hne)
      rw [hslot] at hkind
      have hnext := hs.toAttends.changed hchanged
      rw [hcall, hkind]
      refine ⟨_, hs.setGarment hnext (fun h => absurd rfl h) fun h => absurd rfl h, ?_⟩
      intro id hid
      have hnone : ¬ (((0 : UInt16).toNat : Int) = id) := fun h => hid h.symm
      rw [held_setGarment hnext hlow hhigh, hslot, if_neg hnone, hnext.held, hs.held,
        total_changed hchanged]
      omega
    · exact absurd hret hfail
  · rcases hgive with ⟨-, next, left, -, hcall⟩ | ⟨-, -, hsame⟩
    · rw [hcall] at hret
      exact absurd rfl hret
    · rw [hsame]
      exact ⟨block, hs, fun _ _ => rfl⟩

theorem mannequinWord_spec (hs : Fits env w b mode block s) {word : String}
    {rest : List String} {clearAll : Bool} {step : Next (Session × Bool)}
    (hstep : mannequinWord env w b word rest clearAll s = some step) :
    ∃ changed, Fits env w b mode changed step.state.1 ∧
      ∀ id, id ≠ 0 → held outfit w b id step.state.1 = held outfit w b id s := by
  have hstays : ∃ changed, Fits env w b mode changed s ∧
      ∀ id, id ≠ 0 → held outfit w b id s = held outfit w b id s :=
    ⟨block, hs, fun _ _ => rfl⟩
  unfold mannequinWord at hstep
  cases hword : checkbox word with
  | some target =>
      rw [hword] at hstep
      dsimp only at hstep
      split_ifs at hstep with hdigit hrange
      · cases hstep
        exact hstays
      · cases hstep
        exact hstays
      · obtain ⟨next, -, rfl⟩ := Option.map_eq_some_iff.mp hstep
        split_ifs with hchecked
        · have hspec := removeGarment_spec hs (Int.not_le.mp (not_or.mp hrange).1)
          revert hspec
          cases removeGarment env w b (atoi target) s with
          | stop t => exact fun hspec => hspec
          | again t => exact fun hspec => hspec
        · exact hstays
  | none =>
      rw [hword] at hstep
      dsimp only at hstep
      split_ifs at hstep
      · obtain ⟨next, -, rfl⟩ := Option.map_eq_some_iff.mp hstep
        exact hstays
      · obtain ⟨txt, -, rfl⟩ := Option.map_eq_some_iff.mp hstep
        split_ifs
        · exact hstays
        · have hmapped := hs.toAttends.mapBlock fun block => { block with txt := txt }
          refine ⟨_, ⟨⟨hmapped, hs.fishless⟩, hs.dressed⟩, fun id _ => ?_⟩
          dsimp only [Next.state_again]
          rw [hmapped.held, hs.held]
          rfl
      · cases hstep
        exact hstays

/-- Any other message keeps the items. -/
theorem mannequinWords_even (words : List String) {clearAll : Bool}
    (hs : Fits env w b mode block s)
    (hrun : mannequinWords env w b words clearAll s = some t) :
    ∃ changed, Fits env w b mode changed t ∧
      ∀ id, id ≠ 0 → held outfit w b id t = held outfit w b id s := by
  induction words generalizing s block clearAll with
  | nil =>
      cases hrun
      exact ⟨block, hs, fun _ _ => rfl⟩
  | cons word rest ih =>
      unfold mannequinWords at hrun
      cases hstep : mannequinWord env w b word rest clearAll s with
      | none =>
          rw [hstep] at hrun
          cases hrun
      | some step =>
          obtain ⟨changed, hchanged, heven⟩ := mannequinWord_spec hs hstep
          rw [hstep] at hrun
          cases step with
          | stop state =>
              cases hrun
              exact ⟨changed, hchanged, heven⟩
          | again state =>
              obtain ⟨last, hlast, hrest⟩ := ih hchanged hrun
              exact ⟨last, hlast, fun id hid => (hrest id hid).trans (heven id hid)⟩

end MannequinRuns

section Messages

variable {env : Env} {guilds : List Guild} {w b : Nat} {s t : Session}
  {a : List String} {i : Nat}

/-- The two dialogs. -/
inductive Dialog where
  | dispshelf | mannequinEdit
deriving DecidableEq

/-- The branch of a dialog. -/
def display (env : Env) (guilds : List Guild) (a : List String) (i : Nat) (s : Session) :
    Dialog → Option Session
  | .dispshelf => dispshelf env guilds a i s
  | .mannequinEdit => mannequinEdit env guilds a i s

def rack : Dialog → WorldBlock → List UInt16
  | .dispshelf => shelves
  | .mannequinEdit => outfit

/-- The tile that a message is for. -/
def target (env : Env) (guilds : List Guild) (a : List String) (i : Nat) (s : Session) :
    Dialog → Option (Option (Nat × Nat))
  | .dispshelf => shelfTile env guilds a i s
  | .mannequinEdit =>
      if a.length = 14 then (putTile env guilds a i s).map fun found => found.map Prod.snd
      else editTile env guilds a i s

theorem displayTile_found {bounds : Bool} {kind : BlockTypes} {x y : Int}
    (hfound : displayTile env guilds bounds kind x y s = some (some (w, b))) :
    ∃ block, s.block? w b = some block := by
  unfold displayTile at hfound
  split at hfound
  next w' hw =>
    split at hfound
    next world hworld =>
      split at hfound
      · cases hfound
      · obtain ⟨block, hblock, hrest⟩ := Option.bind_eq_some_iff.mp hfound
        split at hrest
        · cases hrest
        · obtain ⟨access, -, hrest⟩ := Option.bind_eq_some_iff.mp hrest
          split at hrest
          · cases hrest
          · cases hrest
            exact ⟨block, Option.bind_eq_some_iff.mpr ⟨world, hworld, hblock⟩⟩
    next => cases hfound
  next => cases hfound

theorem shelfTile_found (hfound : shelfTile env guilds a i s = some (some (w, b))) :
    ∃ block, s.block? w b = some block := by
  unfold shelfTile at hfound
  split at hfound
  · cases hfound
  obtain ⟨tilex, -, hfound⟩ := Option.bind_eq_some_iff.mp hfound
  split at hfound
  · cases hfound
  obtain ⟨tiley, -, hfound⟩ := Option.bind_eq_some_iff.mp hfound
  split at hfound
  · cases hfound
  exact displayTile_found hfound

theorem editTile_found (hfound : editTile env guilds a i s = some (some (w, b))) :
    ∃ block, s.block? w b = some block := by
  unfold editTile at hfound
  obtain ⟨tilex, -, hfound⟩ := Option.bind_eq_some_iff.mp hfound
  split at hfound
  · cases hfound
  obtain ⟨tiley, -, hfound⟩ := Option.bind_eq_some_iff.mp hfound
  split at hfound
  · cases hfound
  exact displayTile_found hfound

theorem putTile_found {tile : Int}
    (hfound : putTile env guilds a i s = some (some (tile, w, b))) :
    0 < tile ∧ tile < env.items.size ∧ (env.items.item tile).blockType = .clothing ∧
      ∃ block, s.block? w b = some block := by
  unfold putTile at hfound
  obtain ⟨tilex, -, hfound⟩ := Option.bind_eq_some_iff.mp hfound
  split at hfound
  · cases hfound
  obtain ⟨tiley, -, hfound⟩ := Option.bind_eq_some_iff.mp hfound
  split at hfound
  · cases hfound
  obtain ⟨word, -, hfound⟩ := Option.bind_eq_some_iff.mp hfound
  dsimp only at hfound
  split at hfound
  · cases hfound
  split at hfound
  · cases hfound
  next hrange =>
    split at hfound
    · cases hfound
    next hitem =>
      obtain ⟨found, hdisplay, hfound⟩ := Option.bind_eq_some_iff.mp hfound
      split at hfound
      · cases hfound
      next w' b' =>
        cases hfound
        obtain ⟨hpos, hsize⟩ := not_or.mp hrange
        exact ⟨Int.not_le.mp hpos, Int.not_le.mp hsize,
          not_not.mp (not_or.mp hitem).1, displayTile_found hdisplay⟩

/-- Each item is in the backpack and in the rack as often as before. -/
def Conserves (dialog : Dialog) (env : Env) (guilds : List Guild) (a : List String)
    (i : Nat) (s t : Session) : Prop :=
  match target env guilds a i s dialog with
  | some (some (w, b)) =>
      ∀ id, id ≠ 0 → held (rack dialog) w b id t = held (rack dialog) w b id s
  | _ => t = s

/-- What the handlers leave in a rack: no fish, and each garment in its slot. -/
def Stocked (dialog : Dialog) (env : Env) (block : WorldBlock) : Prop :=
  Fishless env (rack dialog block) ∧
    (dialog = .mannequinEdit → Dressed env block.mannequin)

/-- A message to a shelf multiplies no item; a garment is put on a mannequin where
it can be taken. -/
def Careful (dialog : Dialog) (env : Env) (guilds : List Guild) (a : List String)
    (i : Nat) (s : Session) : Prop :=
  match dialog with
  | .dispshelf => ∀ w b, shelfTile env guilds a i s = some (some (w, b)) →
      ShelfSound env w b a s
  | .mannequinEdit => a.length = 14 → ∀ tile w b block,
      putTile env guilds a i s = some (some (tile, w, b)) →
        s.block? w b = some block → PutSafe env s.pl block tile

theorem dispshelf_conserves_iff (hslots : SlotInv s.pl.inv)
    (hconvert : s.pl.autoConvert = false) (hsmall : env.items.size ≤ 65536)
    (hstock : ∀ w b block, shelfTile env guilds a i s = some (some (w, b)) →
      s.block? w b = some block → Fishless env (shelves block))
    (hrun : dispshelf env guilds a i s = some t) :
    Conserves .dispshelf env guilds a i s t ↔ Careful .dispshelf env guilds a i s := by
  obtain ⟨found, htile, hrun⟩ := Option.bind_eq_some_iff.mp hrun
  unfold Conserves Careful target
  rw [htile]
  cases found with
  | none =>
      cases hrun
      exact iff_of_true rfl fun w b h => absurd h (by simp)
  | some tile =>
      obtain ⟨w, b⟩ := tile
      obtain ⟨block, hblock⟩ := shelfTile_found htile
      have hs : Serves env shelves w b s.pl.infiniteMode block s :=
        ⟨⟨hslots, hconvert, rfl, hblock⟩, hstock w b block htile hblock⟩
      obtain ⟨-, -, hgrows⟩ := shelfWords_spec hsmall a hs hrun
      refine hgrows.even.trans (not_not.trans ?_)
      constructor
      · intro hsound w' b' h
        cases h
        exact hsound
      · intro hall
        exact hall w b rfl

theorem mannequinEdit_conserves_iff (hslots : SlotInv s.pl.inv)
    (hconvert : s.pl.autoConvert = false) (hsmall : env.items.size ≤ 65536)
    (hstock : ∀ w b block, target env guilds a i s .mannequinEdit = some (some (w, b)) →
      s.block? w b = some block → Stocked .mannequinEdit env block)
    (hrun : mannequinEdit env guilds a i s = some t) :
    Conserves .mannequinEdit env guilds a i s t ↔
      Careful .mannequinEdit env guilds a i s := by
  have hfits : ∀ {w b block}, target env guilds a i s .mannequinEdit =
      some (some (w, b)) → s.block? w b = some block →
        Fits env w b s.pl.infiniteMode block s := fun htarget hblock =>
    ⟨⟨⟨hslots, hconvert, rfl, hblock⟩, (hstock _ _ _ htarget hblock).1⟩,
      (hstock _ _ _ htarget hblock).2 rfl⟩
  unfold mannequinEdit at hrun
  unfold Conserves Careful
  by_cases hlength : a.length = 14
  · rw [if_pos hlength] at hrun
    obtain ⟨found, htile, hrun⟩ := Option.bind_eq_some_iff.mp hrun
    have htarget : target env guilds a i s .mannequinEdit =
        some (found.map Prod.snd) := by
      unfold target
      rw [if_pos hlength, htile]
      rfl
    rw [htarget]
    simp only [htile, hlength, forall_const]
    cases found with
    | none =>
        cases hrun
        exact iff_of_true rfl fun _ _ _ _ h => absurd h (by simp)
    | some found =>
        obtain ⟨tile, w, b⟩ := found
        obtain ⟨hpos, hsize, -, block, hblock⟩ := putTile_found htile
        cases hrun
        refine (putGarment_even_iff (hfits htarget hblock) hpos (by omega)).trans ?_
        constructor
        · intro hsafe tile' w' b' block' h hblock'
          cases h
          rw [hblock] at hblock'
          cases hblock'
          exact hsafe
        · intro hall
          exact hall tile w b block rfl hblock
  · rw [if_neg hlength] at hrun
    obtain ⟨found, htile, hrun⟩ := Option.bind_eq_some_iff.mp hrun
    have htarget : target env guilds a i s .mannequinEdit = some found :=
      (if_neg hlength).trans htile
    rw [htarget]
    cases found with
    | none =>
        cases hrun
        exact iff_of_true rfl fun h => absurd h hlength
    | some tile =>
        obtain ⟨w, b⟩ := tile
        obtain ⟨block, hblock⟩ := editTile_found htile
        obtain ⟨-, -, heven⟩ := mannequinWords_even a (hfits htarget hblock) hrun
        exact iff_of_true heven fun h => absurd h hlength

/-- The handlers leave a rack stocked. -/
theorem display_stocked (dialog : Dialog) (hslots : SlotInv s.pl.inv)
    (hconvert : s.pl.autoConvert = false) (hsmall : env.items.size ≤ 65536)
    (htarget : target env guilds a i s dialog = some (some (w, b)))
    (hstock : ∀ block, s.block? w b = some block → Stocked dialog env block)
    (hrun : display env guilds a i s dialog = some t) :
    ∃ changed, t.block? w b = some changed ∧ Stocked dialog env changed := by
  cases dialog with
  | dispshelf =>
      obtain ⟨found, htile, hrun⟩ := Option.bind_eq_some_iff.mp hrun
      cases htile.symm.trans htarget
      obtain ⟨block, hblock⟩ := shelfTile_found htarget
      obtain ⟨changed, hchanged, -⟩ := shelfWords_spec hsmall a
        ⟨⟨hslots, hconvert, rfl, hblock⟩, (hstock block hblock).1⟩ hrun
      exact ⟨changed, hchanged.found, hchanged.fishless, fun h => by cases h⟩
  | mannequinEdit =>
      have hkeeps : ∀ {changed}, Fits env w b s.pl.infiniteMode changed t →
          ∃ changed, t.block? w b = some changed ∧ Stocked .mannequinEdit env changed :=
        fun h => ⟨_, h.found, h.fishless, fun _ => h.dressed⟩
      have hfits : ∀ {block}, s.block? w b = some block →
          Fits env w b s.pl.infiniteMode block s := fun hblock =>
        ⟨⟨⟨hslots, hconvert, rfl, hblock⟩, (hstock _ hblock).1⟩, (hstock _ hblock).2 rfl⟩
      have hbranch : mannequinEdit env guilds a i s = some t := hrun
      unfold mannequinEdit at hbranch
      simp only [target] at htarget
      by_cases hlength : a.length = 14
      · rw [if_pos hlength] at hbranch htarget
        obtain ⟨found, htile, hlast⟩ := Option.bind_eq_some_iff.mp hbranch
        rw [htile] at htarget
        cases found with
        | none => cases htarget
        | some found =>
            obtain ⟨tile, w', b'⟩ := found
            cases htarget
            obtain ⟨hpos, hsize, hkind, block, hblock⟩ := putTile_found htile
            obtain ⟨changed, hchanged⟩ :=
              putGarment_fits (hfits hblock) hpos (by omega) hkind
            cases hlast
            exact hkeeps hchanged
      · rw [if_neg hlength] at hbranch htarget
        rw [htarget] at hbranch
        obtain ⟨block, hblock⟩ := editTile_found htarget
        obtain ⟨changed, hchanged, -⟩ := mannequinWords_even a (hfits hblock) hbranch
        exact hkeeps hchanged

/-- A message to a shelf or a mannequin that is stocked as the handlers leave it
keeps each item exactly when it is careful. -/
theorem display_conserves_iff (dialog : Dialog) (hslots : SlotInv s.pl.inv)
    (hconvert : s.pl.autoConvert = false) (hsmall : env.items.size ≤ 65536)
    (hstock : ∀ w b block, target env guilds a i s dialog = some (some (w, b)) →
      s.block? w b = some block → Stocked dialog env block)
    (hrun : display env guilds a i s dialog = some t) :
    Conserves dialog env guilds a i s t ↔ Careful dialog env guilds a i s := by
  cases dialog with
  | dispshelf =>
      exact dispshelf_conserves_iff hslots hconvert hsmall
        (fun w b block htarget hblock => (hstock w b block htarget hblock).1) hrun
  | mannequinEdit => exact mannequinEdit_conserves_iff hslots hconvert hsmall hstock hrun

end Messages

section Example

/-- A table with two hats and a mannequin. -/
def hatShop : Env where
  items := ⟨1000, fun id =>
    if id = 100 ∨ id = 200 then { blockType := .clothing }
    else if id = 500 then { blockType := .mannequin } else {}⟩

/-- The owner of a world with a mannequin that wears a hat. -/
def hatter (inv : List (Int × Int)) : Session where
  pl := { tankIDName := "ann", world := "SHOP", inv := inv }
  worlds := [{
    name := "SHOP", ownerName := "ann", maxX := 100, maxY := 60
    blocks := { fg := 500, mannequin := { cHair := 100 } } :: List.replicate 5999 {} }]

/-- The message that puts the other hat on. -/
def hatMessage : List String :=
  ["action", "dialog_return", "dialog_name", "mannequin_edit", "tilex", "0", "", "tiley",
    "0", "", "mannequin_put", "200", "", ""]

theorem hatShop_fishless (slots : List UInt16) : Fishless hatShop slots := by
  intro slot _ _
  unfold Items.isFish hatShop
  dsimp only
  split_ifs <;> rfl

theorem hatter_stocked {inv : List (Int × Int)}
    (hplace : target hatShop [] hatMessage 3 (hatter inv) .mannequinEdit =
      some (some (0, 0))) (w b : Nat) (block : WorldBlock)
    (htarget : target hatShop [] hatMessage 3 (hatter inv) .mannequinEdit =
      some (some (w, b)))
    (hblock : (hatter inv).block? w b = some block) :
    Stocked .mannequinEdit hatShop block := by
  cases hplace.symm.trans htarget
  cases hblock
  have hbare : Dressed hatShop {} := fun clothingType h =>
    absurd (by unfold garment; split <;> rfl) h
  exact ⟨hatShop_fishless _, fun _ => @Dressed.dress hatShop 0 {} 100 hbare fun _ => rfl⟩

/-- A player without the new hat gets the old one, and the mannequin keeps it. -/
theorem old_garment_is_multiplied :
    ¬ ∀ (dialog : Dialog) (env : Env) (guilds : List Guild) (a : List String) (i : Nat)
      (s t : Session), SlotInv s.pl.inv → s.pl.autoConvert = false →
        env.items.size ≤ 65536 →
        (∀ w b block, target env guilds a i s dialog = some (some (w, b)) →
          s.block? w b = some block → Stocked dialog env block) →
        display env guilds a i s dialog = some t →
          Conserves dialog env guilds a i s t := by
  intro hall
  have heven : ∀ id, id ≠ 0 → held outfit 0 0 id _ = held outfit 0 0 id _ :=
    hall .mannequinEdit hatShop [] hatMessage 3 (hatter [(0, 0)]) _ (by decide) rfl
      (by decide) (hatter_stocked (by decide)) rfl
  exact absurd (heven 100 (by decide)) (by decide)

/-- A player with the new hat changes it for the old one. -/
theorem display_conserves_hats :
    ∃ t, display hatShop [] hatMessage 3 (hatter [(200, 1), (0, 0)]) .mannequinEdit =
        some t ∧
      (Conserves .mannequinEdit hatShop [] hatMessage 3 (hatter [(200, 1), (0, 0)]) t ↔
        Careful .mannequinEdit hatShop [] hatMessage 3 (hatter [(200, 1), (0, 0)])) :=
  ⟨_, rfl, display_conserves_iff .mannequinEdit (by decide) rfl (by decide)
    (hatter_stocked (by decide)) rfl⟩

end Example

end Displays

end NopyServer
