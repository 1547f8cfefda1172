/-
The three locks that serve as money, and what one call of `Modify`, one drop
and one bank booking do to their value and to the counts of all items.
-/
import NopyServer.DropConservation
import NopyServer.InventoryRuns
import NopyServer.Lib.Ledger
import NopyServer.Server

namespace NopyServer

open Inventory SlotPack

/-- World lock, diamond lock, blue gem lock. -/
def moneyIds : List Int := [242, 1796, 7188]

/-- What one lock is worth in world locks. -/
def lockWorth (id : Int) : Int :=
  if id = 242 then 1 else if id = 1796 then 100 else if id = 7188 then 10 ^ 4
  else 0

/-- The worth of the locks among some amounts. -/
def locksOf (amount : Int → Int) : Int :=
  amount 242 + 100 * amount 1796 + 10 ^ 4 * amount 7188

/-- The worth of the locks in a backpack. -/
def invLocks (inv : List (Int × Int)) : Int := locksOf fun id => total id inv

/-- The worth of the locks in a player's bank. -/
def bankLocks (pl : Player) : Int :=
  pl.wlBankAmount + 100 * pl.dlBankAmount + 10 ^ 4 * pl.bglBankAmount

/-- The balance in which a player's bank keeps one kind of lock. -/
def bankOf (id : Int) (pl : Player) : Int :=
  if id = 242 then pl.wlBankAmount else if id = 1796 then pl.dlBankAmount
  else if id = 7188 then pl.bglBankAmount else 0

/-- The bank can take a stack of one kind of lock. -/
def BankRoom (id : Int) (pl : Player) : Prop :=
  -(2 ^ 31) ≤ bankOf id pl ∧ bankOf id pl + 200 < 2 ^ 31

instance (id : Int) (pl : Player) : Decidable (BankRoom id pl) :=
  inferInstanceAs (Decidable (_ ∧ _))

/-- The worth of the locks lying in a list of drops. -/
def dropLocks (entries : List DropEntry) : Int :=
  locksOf fun id => dropTotal id entries

/-- The worth of all locks a player owns. -/
def playerLocks (pl : Player) : Int := invLocks pl.inv + bankLocks pl

theorem locksOf_add (amount : Int → Int) (id c : Int) :
    locksOf (fun other => amount other + if id = other then c else 0) =
      locksOf amount + c * lockWorth id := by
  unfold locksOf lockWorth
  by_cases hwl : id = 242
  · subst hwl
    simp
    omega
  by_cases hdl : id = 1796
  · subst hdl
    simp
    omega
  by_cases hbgl : id = 7188
  · subst hbgl
    simp
    omega
  simp [hwl, hdl, hbgl]

theorem lockWorth_eq_zero {id : Int} (hid : id ∉ moneyIds) :
    lockWorth id = 0 := by
  simp only [moneyIds, List.mem_cons, List.not_mem_nil, or_false,
    not_or] at hid
  simp [lockWorth, hid]

/-- What a call of `Modify` that returns zero leaves of the player. -/
structure Given (pl : Player) (i c : Int) (next : Player) : Prop where
  slots : SlotInv next.inv
  core : next.core = pl.core
  amount : ∀ id, total id next.inv =
    total id pl.inv + if i = id then c else 0

theorem Inventory.Changed.given {pl next : Player} {i c : Int}
    (hchanged : Changed pl i c next) : Given pl i c next where
  slots := hchanged.slots
  core := hchanged.core
  amount id := by
    by_cases hid : i = id
    · subst hid
      simpa using Pack.change_amount_self hchanged.view
    · simpa [hid] using Pack.change_amount_of_ne hchanged.view (Ne.symm hid)

theorem Given.playerLocks {pl next : Player} {i c : Int}
    (hgiven : Given pl i c next) :
    playerLocks next = playerLocks pl + c * lockWorth i := by
  have hwl := Player.core_congr hgiven.core Player.wlBankAmount fun _ => rfl
  have hdl := Player.core_congr hgiven.core Player.dlBankAmount fun _ => rfl
  have hbgl := Player.core_congr hgiven.core Player.bglBankAmount fun _ => rfl
  have hinv : invLocks next.inv = invLocks pl.inv + c * lockWorth i := by
    unfold invLocks
    rw [← locksOf_add]
    exact congrArg locksOf (funext hgiven.amount)
  unfold NopyServer.playerLocks bankLocks
  rw [hinv, hwl, hdl, hbgl]
  omega

theorem Given.bankOf {pl next : Player} {i c : Int} (hgiven : Given pl i c next)
    (id : Int) : bankOf id next = bankOf id pl :=
  Player.core_congr hgiven.core (NopyServer.bankOf id) fun _ => rfl

theorem Given.bankRoom {pl next : Player} {i c id : Int} (hgiven : Given pl i c next)
    (hroom : BankRoom id pl) : BankRoom id next := by
  unfold BankRoom
  rw [hgiven.bankOf]
  exact hroom

theorem Given.contains_of_ne {pl next : Player} {i c id : Int}
    (hpl : SlotInv pl.inv) (hgiven : Given pl i c next) (hne : i ≠ id) :
    contains next.inv id = contains pl.inv id := by
  rw [contains_eq_total hgiven.slots, contains_eq_total hpl, hgiven.amount,
    if_neg hne, add_zero]

/-- A quiet call of `Modify`: the amount moves, or nothing does. -/
theorem modify_moves {env : Env} {s : Session} {i c : Int}
    (forceReturn : Bool) (hs : SlotInv s.pl.inv)
    (hquiet : Quiet env s.pl i c) :
    (∃ next left, modify env s i c forceReturn =
        ⟨0, left, { s with pl := next }⟩ ∧ Given s.pl i c next) ∨
      (∃ left, modify env s i c forceReturn = ⟨-1, left, s⟩) := by
  by_cases haccepts : Accepts env i
  · rcases modify_quiet forceReturn hs haccepts hquiet with
      ⟨next, left, hmodify, hchanged⟩ | ⟨left, hmodify, -⟩
    · exact Or.inl ⟨next, left, hmodify, hchanged.given⟩
    · exact Or.inr ⟨left, hmodify⟩
  · exact Or.inr ⟨c, modify_not_accepted haccepts c forceReturn⟩

theorem modify_takes {env : Env} {s : Session} {i c : Int}
    (forceReturn : Bool) (hs : SlotInv s.pl.inv)
    (hquiet : Quiet env s.pl i c) (haccepts : Accepts env i) (hc : c < 0)
    (henough : 0 ≤ contains s.pl.inv i + c) :
    ∃ next left, modify env s i c forceReturn =
        ⟨0, left, { s with pl := next }⟩ ∧ Given s.pl i c next := by
  obtain ⟨next, left, hmodify, hchanged⟩ :=
    modify_changes forceReturn hs hquiet haccepts hc henough
  exact ⟨next, left, hmodify, hchanged.given⟩

/-- Giving what a stack has room for works while a slot is free. -/
theorem modify_gives {env : Env} {s : Session} {i c : Int}
    (forceReturn : Bool) (hs : SlotInv s.pl.inv)
    (hquiet : Quiet env s.pl i c) (haccepts : Accepts env i) (hc : 0 < c)
    (hroom : contains s.pl.inv i + c ≤ 200) (hslots : 0 < getSlots s.pl.inv) :
    ∃ next left, modify env s i c forceReturn =
        ⟨0, left, { s with pl := next }⟩ ∧ Given s.pl i c next := by
  have hbounds := hs.wellFormed.total_bounds (by decide)
    (Int.ne_of_gt haccepts.1)
  rw [contains_eq_total hs] at hroom
  rcases modify_quiet forceReturn hs haccepts hquiet with
    ⟨next, left, hmodify, hchanged⟩ | ⟨left, -, hnone⟩
  · exact ⟨next, left, hmodify, hchanged.given⟩
  · rw [Pack.change_give_eq_none_iff hc (by omega) hbounds.1] at hnone
    rcases hnone with hfull | ⟨-, hnoRoom⟩
    · exact absurd hroom (Int.not_le.mpr hfull)
    · exact absurd hnoRoom (Nat.ne_of_gt hslots)

end NopyServer
