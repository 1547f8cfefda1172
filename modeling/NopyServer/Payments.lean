/-
Paying in locks: `get_wls`, which takes all locks out of a backpack and gives
the change back.  With the callbacks of `Modify` off it takes exactly the
amount asked for, as long as the player has it and the bank has room for what
the backpack does not take.
-/
import NopyServer.MachineLedger

namespace NopyServer

open Inventory SlotPack

section Definitions

variable (env : Env)

/-- The query of `Modify` with amount zero, and the erasing that may follow. -/
def countLock (erase : Bool) (id : Int) (s : Session) : Int × Session :=
  let asked := modify env s id 0 false
  if erase then
    (asked.c_, (modify env asked.session id (-1 * asked.c_) false).session)
  else (asked.c_, asked.session)

/-- One denomination of a payment out of `total`: as many locks as `total`
pays for, at most two hundred, into the backpack or else into the bank.  The
first component is what was paid. -/
def payLock (id unit : Int) (bank : Int → Player → Player) (total : Int)
    (s : Session) : Int × Session :=
  if unit ≤ total then
    let c := if 200 * unit < total then 200 else total / unit
    let given := modify env s id c false
    (c * unit,
      if given.ret = 0 then given.session
      else given.session.mapPlayer (bank given.c_))
  else (0, s)

def bankBgl (c : Int) (pl : Player) : Player :=
  { pl with bglBankAmount := int32 (pl.bglBankAmount + c) }

def bankDl (c : Int) (pl : Player) : Player :=
  { pl with dlBankAmount := int32 (pl.dlBankAmount + c) }

def bankWl (c : Int) (pl : Player) : Player :=
  { pl with wlBankAmount := int32 (pl.wlBankAmount + c) }

/-- The change that `get_wls` gives back. -/
def payBack (total : Int) (s : Session) : Session :=
  let bgl := payLock env 7188 10000 bankBgl total s
  let dl := payLock env 1796 100 bankDl (total - bgl.1) bgl.2
  (payLock env 242 1 bankWl (total - bgl.1 - dl.1) dl.2).2

/-- `get_wls`. -/
def getWls (bgl erase : Bool) (amount : Int) (s : Session) : Int × Session :=
  let wls := countLock env erase 242 s
  let dls := countLock env erase 1796 wls.2
  let bgls := if bgl then countLock env erase 7188 dls.2 else (0, dls.2)
  let myWls := wls.1 + dls.1 * 100 + bgls.1 * 10000
  (myWls,
    if erase ∧ amount ≠ 0 then payBack env (myWls - amount) bgls.2
    else bgls.2)

end Definitions

section Queries

variable {env : Env} {s : Session}

theorem modifySlots_query {items : Items} {pl : Player} {i : Int}
    (hinv : SlotInv pl.inv) (hi : 0 < i) (forceReturn : Bool) :
    modifySlots items pl i 0 forceReturn = (none, contains pl.inv i) := by
  have hscan := scan_spec i pl.inv
  unfold modifySlots
  generalize scan i pl.inv 0 none = result at hscan
  cases hscan with
  | found pre post n hpl =>
      have hne : i ≠ 0 := Int.ne_of_gt hi
      have hstack := hpl ▸ hinv
      have hbounds := hstack.wellFormed.stack_bounds hne
      have hcount : contains pl.inv i = n := by
        rw [contains_eq_total hinv, hpl]
        exact hstack.wellFormed.total_stack hne
      dsimp only
      rw [if_pos (by omega), if_neg (by omega), if_neg (by omega), if_pos rfl,
        hcount]
  | free pre post n hpl habsent =>
      rw [contains_eq_total hinv, total_eq_zero_of_not_mem habsent]
      rfl
  | none habsent hfull =>
      rw [contains_eq_total hinv, total_eq_zero_of_not_mem habsent]

/-- A call of `Modify` with amount zero only asks for the count. -/
theorem modify_query (hs : SlotInv s.pl.inv) {i : Int}
    (haccepts : Accepts env i) (forceReturn : Bool) :
    modify env s i 0 forceReturn =
      ⟨-1, contains s.pl.inv i, s⟩ := by
  have hguard := @guard_iff env s i 0 haccepts
  change modifyWith env _ _ s i 0 forceReturn = _
  unfold modifyWith
  by_cases hempty : s.pl.inv = []
  · rw [if_pos (hguard.mpr (Or.inr hempty)), hempty]
    rfl
  · have hopen : ¬ ((200 : Int) < 0 ∨ s.pl.inv = []) := by simp [hempty]
    rw [if_neg fun h => hopen (hguard.mp h), if_neg (by simp),
      modifySlots_query hs haccepts.1]

/-- A call with amount zero on any id; an answer other than zero is the count of
an item that `Modify` accepts. -/
theorem modify_asks (hs : SlotInv s.pl.inv) (i : Int) :
    ∃ n, modify env s i 0 false = ⟨-1, n, s⟩ ∧
      (n ≠ 0 → Accepts env i ∧ n = contains s.pl.inv i) := by
  by_cases haccepts : Accepts env i
  · exact ⟨contains s.pl.inv i, modify_query hs haccepts false,
      fun _ => ⟨haccepts, rfl⟩⟩
  · exact ⟨0, modify_not_accepted haccepts 0 false, fun hne => absurd rfl hne⟩

/-- A call that fails on an amount leaves the amount in `c_`. -/
theorem modifySlots_left {items : Items} {pl : Player} {i c left : Int}
    (hc : c ≠ 0) (h : modifySlots items pl i c false = (none, left)) :
    left = c := by
  unfold modifySlots at h
  split at h
  · split_ifs at h <;> cases h <;> first | rfl | contradiction
  · split_ifs at h <;> cases h
    rfl
  · cases h
    rfl

theorem modify_left {i c : Int} (hc : c ≠ 0)
    (hfail : (modify env s i c false).ret ≠ 0) :
    (modify env s i c false).c_ = c := by
  change (modifyWith env _ _ s i c false).ret ≠ 0 at hfail
  change (modifyWith env _ _ s i c false).c_ = c
  unfold modifyWith at hfail ⊢
  split_ifs at hfail ⊢ with hguard hinfinite
  · rfl
  · exact absurd rfl hfail
  · cases hslots : modifySlots env.items s.pl i c false with
    | mk next left =>
        cases next with
        | none =>
            simp only
            exact modifySlots_left hc hslots
        | some next =>
            rw [hslots] at hfail
            dsimp only at hfail
            split at hfail <;> exact absurd rfl hfail

end Queries

section Exactness

variable {env : Env} {s : Session}

/-- A change of the player that pays locks in or out and touches nothing
else. -/
structure Paid (pl : Player) (value : Int) (next : Player) : Prop where
  calm : Calm next
  locks : playerLocks next = playerLocks pl + value
  others : ∀ id, id ∉ moneyIds → total id next.inv = total id pl.inv

theorem Paid.trans {pl next last : Player} {value more : Int}
    (hfirst : Paid pl value next) (hsecond : Paid next more last) :
    Paid pl (value + more) last where
  calm := hsecond.calm
  locks := by rw [hsecond.locks, hfirst.locks, add_assoc]
  others id hid := (hsecond.others id hid).trans (hfirst.others id hid)

theorem Given.paid {pl next : Player} {i c : Int} (hcalm : Calm pl)
    (hmoney : i ∈ moneyIds) (hgiven : Given pl i c next) :
    Paid pl (c * lockWorth i) next where
  calm := hcalm.of_given hgiven
  locks := hgiven.playerLocks
  others id hid := by
    have hne : i ≠ id := fun heq => hid (heq ▸ hmoney)
    rw [hgiven.amount, if_neg hne, add_zero]

/-- A bank that books `unit` for each lock of one kind. -/
structure Books (bank : Int → Player → Player) (id unit : Int) : Prop where
  core : ∀ c pl, Calm pl → Calm (bank c pl)
  inv : ∀ c pl, (bank c pl).inv = pl.inv
  value : ∀ c pl, int32 (bankOf id pl + c) = bankOf id pl + c →
    bankLocks (bank c pl) = bankLocks pl + c * unit
  others : ∀ c pl other, other ≠ id → bankOf other (bank c pl) = bankOf other pl

theorem books_bgl : Books bankBgl 7188 10000 where
  core _ _ h := ⟨h.slots, h.convert, h.finite⟩
  inv _ _ := rfl
  value c pl hint := by
    have hbank : bankOf 7188 pl = pl.bglBankAmount := rfl
    rw [hbank] at hint
    simp only [bankLocks, bankBgl, hint]
    omega
  others c pl other hne := by
    unfold bankOf
    rw [if_neg hne, if_neg hne]
    rfl

theorem books_dl : Books bankDl 1796 100 where
  core _ _ h := ⟨h.slots, h.convert, h.finite⟩
  inv _ _ := rfl
  value c pl hint := by
    have hbank : bankOf 1796 pl = pl.dlBankAmount := rfl
    rw [hbank] at hint
    simp only [bankLocks, bankDl, hint]
    omega
  others c pl other hne := by
    unfold bankOf
    rw [if_neg hne, if_neg hne]
    rfl

theorem books_wl : Books bankWl 242 1 where
  core _ _ h := ⟨h.slots, h.convert, h.finite⟩
  inv _ _ := rfl
  value c pl hint := by
    have hbank : bankOf 242 pl = pl.wlBankAmount := rfl
    rw [hbank] at hint
    simp only [bankLocks, bankWl, hint]
    omega
  others c pl other hne := by
    unfold bankOf
    rw [if_neg hne, if_neg hne]
    rfl

/-- A stack is booked as it is where the bank has room. -/
theorem Books.value_stack {bank : Int → Player → Player} {id unit c : Int}
    (hbank : Books bank id unit) {pl : Player} (hroom : BankRoom id pl) (hpos : 0 ≤ c)
    (hcap : c ≤ 200) : bankLocks (bank c pl) = bankLocks pl + c * unit := by
  obtain ⟨hlow, hhigh⟩ := hroom
  exact hbank.value c pl (int32_of_range (by omega) (by omega))

theorem Books.bankRoom {bank : Int → Player → Player} {id unit : Int}
    (hbank : Books bank id unit) {pl : Player} (c : Int) {other : Int} (hne : other ≠ id)
    (hroom : BankRoom other pl) : BankRoom other (bank c pl) := by
  unfold BankRoom
  rw [hbank.others c pl other hne]
  exact hroom

theorem Books.paid {bank : Int → Player → Player} {id unit c : Int}
    (hbank : Books bank id unit) {pl : Player} (hcalm : Calm pl)
    (hroom : BankRoom id pl) (hpos : 0 ≤ c) (hcap : c ≤ 200) :
    Paid pl (c * unit) (bank c pl) where
  calm := hbank.core c pl hcalm
  locks := by
    simp only [playerLocks, hbank.inv, hbank.value_stack hroom hpos hcap]
    omega
  others id _ := by rw [hbank.inv]

/-- What `payLock` pays out of an amount. -/
def payAmount (unit total : Int) : Int :=
  if unit ≤ total then
    (if 200 * unit < total then 200 else total / unit) * unit
  else 0

/-- `payLock` pays what it says, into the backpack or into the bank. -/
theorem payLock_paid (hlocks : env.items.LocksListed) {id unit : Int}
    (hmoney : id ∈ moneyIds) (hworth : lockWorth id = unit)
    (hunit : 0 < unit) {bank : Int → Player → Player}
    (hbank : Books bank id unit) (hcalm : Calm s.pl) (hroom : BankRoom id s.pl)
    (total : Int) :
    ∃ next, payLock env id unit bank total s =
        (payAmount unit total, { s with pl := next }) ∧
      Paid s.pl (payAmount unit total) next ∧
      ∀ other ≠ id, BankRoom other s.pl → BankRoom other next := by
  unfold payLock payAmount
  split
  · next henough =>
      have hc : 0 < (if 200 * unit < total then 200 else total / unit) ∧
          (if 200 * unit < total then 200 else total / unit) ≤ 200 := by
        split
        · decide
        · next hfew =>
            have hone : 1 ≤ total / unit :=
              (Int.le_ediv_iff_mul_le hunit).mpr (by omega)
            have hmost : total / unit < 201 :=
              (Int.ediv_lt_iff_lt_mul hunit).mpr (by omega)
            omega
      dsimp only
      generalize (if 200 * unit < total then 200 else total / unit) = c at hc ⊢
      rcases modify_moves false hcalm.slots
        (hcalm.quiet (money_not_fish hlocks hmoney) c) with
        ⟨next, left, hgive, hgiven⟩ | ⟨left, hgive⟩
      · refine ⟨next, ?_, hworth ▸ hgiven.paid hcalm hmoney,
          fun _ _ => hgiven.bankRoom⟩
        rw [hgive]
        rfl
      · have hleft := @modify_left env s id c (by omega) (by
          rw [hgive]
          exact Int.neg_ne_zero.mpr one_ne_zero)
        rw [hgive] at hleft ⊢
        obtain rfl : left = c := hleft
        exact ⟨bank left s.pl, rfl,
          hbank.paid hcalm hroom (Int.le_of_lt hc.1) hc.2,
          fun _ hne => hbank.bankRoom left hne⟩
  · exact ⟨s.pl, rfl, ⟨hcalm, by omega, fun _ _ => rfl⟩, fun _ _ hroom => hroom⟩

/-- What three denominations pay is the whole amount, as far as two hundred of
each reach. -/
theorem payAmount_sum {total : Int} (hnonneg : 0 ≤ total)
    (hcap : total ≤ 2020200) :
    let bgl := payAmount 10000 total
    let dl := payAmount 100 (total - bgl)
    bgl + dl + payAmount 1 (total - bgl - dl) = total := by
  simp only [payAmount]
  split_ifs <;> omega

theorem payAmount_bounds {unit total : Int} (hunit : 0 < unit)
    (htotal : 0 ≤ total) :
    0 ≤ payAmount unit total ∧ payAmount unit total ≤ total := by
  unfold payAmount
  split
  · have hdiv := Int.ediv_mul_le total (Int.ne_of_gt hunit)
    have hnonneg := Int.ediv_nonneg htotal (Int.le_of_lt hunit)
    have hproduct := Int.mul_nonneg hnonneg (Int.le_of_lt hunit)
    split <;> omega
  · omega

/-- The change is given back completely. -/
theorem payBack_paid (hlocks : env.items.LocksListed) (hcalm : Calm s.pl)
    (hrooms : ∀ id ∈ moneyIds, BankRoom id s.pl) {total : Int} (hnonneg : 0 ≤ total)
    (hcap : total ≤ 2020200) :
    ∃ next, payBack env total s = { s with pl := next } ∧
      Paid s.pl total next := by
  have hsum := payAmount_sum hnonneg hcap
  dsimp only at hsum
  unfold payBack
  obtain ⟨first, hbgl, hpaid₁, hrooms₁⟩ := @payLock_paid env s hlocks 7188 10000
    (by decide) rfl (by decide) _ books_bgl hcalm (hrooms 7188 (by decide)) total
  rw [hbgl]
  obtain ⟨second, hdl, hpaid₂, hrooms₂⟩ := @payLock_paid env { s with pl := first }
    hlocks 1796 100 (by decide) rfl (by decide) _ books_dl hpaid₁.calm
    (hrooms₁ 1796 (by decide) (hrooms 1796 (by decide)))
    (total - payAmount 10000 total)
  dsimp only at hdl hrooms₂ ⊢
  rw [hdl]
  obtain ⟨third, hwl, hpaid₃, -⟩ := @payLock_paid env { s with pl := second }
    hlocks 242 1 (by decide) rfl (by decide) _ books_wl hpaid₂.calm
    (hrooms₂ 242 (by decide) (hrooms₁ 242 (by decide) (hrooms 242 (by decide))))
    (total - payAmount 10000 total -
      payAmount 100 (total - payAmount 10000 total))
  dsimp only at hwl ⊢
  rw [hwl]
  refine ⟨third, rfl, ?_⟩
  have hpaid := (hpaid₁.trans hpaid₂).trans hpaid₃
  rwa [hsum] at hpaid

/-- Asking for a lock, and taking all of it where that is wanted. -/
theorem countLock_given (hlocks : env.items.LocksListed) {id : Int}
    (hmoney : id ∈ moneyIds) (hcalm : Calm s.pl) :
    countLock env false id s = (total id s.pl.inv, s) ∧
      ∃ next, countLock env true id s =
          (total id s.pl.inv, { s with pl := next }) ∧
        Given s.pl id (-total id s.pl.inv) next := by
  have haccepts := money_accepts hlocks hmoney
  have hbounds := hcalm.slots.wellFormed.total_bounds (by decide)
    (Int.ne_of_gt haccepts.1)
  unfold countLock
  rw [modify_query hcalm.slots haccepts, contains_eq_total hcalm.slots]
  refine ⟨rfl, ?_⟩
  dsimp only
  rw [if_pos rfl, Int.neg_one_mul]
  by_cases hzero : total id s.pl.inv = 0
  · refine ⟨s.pl, ?_, hcalm.slots, rfl, fun other => ?_⟩
    · rw [hzero, Int.neg_zero, modify_query hcalm.slots haccepts]
    · simp [hzero]
  · obtain ⟨next, left, htake, hgiven⟩ := modify_takes false hcalm.slots
      (hcalm.quiet (money_not_fish hlocks hmoney) (-total id s.pl.inv))
      haccepts (by omega) (by rw [contains_eq_total hcalm.slots]; omega)
    refine ⟨next, ?_, hgiven⟩
    rw [htake]

/-- `get_wls` without erasing only counts. -/
theorem getWls_counts (hlocks : env.items.LocksListed) (hcalm : Calm s.pl)
    (amount : Int) :
    getWls env true false amount s = (invLocks s.pl.inv, s) := by
  have hwl := (@countLock_given env s hlocks 242 (by decide) hcalm).1
  have hdl := (@countLock_given env s hlocks 1796 (by decide) hcalm).1
  have hbgl := (@countLock_given env s hlocks 7188 (by decide) hcalm).1
  unfold getWls
  rw [hwl]
  dsimp only
  rw [hdl]
  dsimp only
  rw [if_pos rfl, hbgl, if_neg (by simp)]
  refine Prod.ext ?_ rfl
  simp only [invLocks, locksOf]
  omega

/-- A backpack holds at most two hundred of each lock. -/
theorem invLocks_le (hlocks : env.items.LocksListed) {pl : Player}
    (hcalm : Calm pl) : invLocks pl.inv ≤ 2020200 := by
  have hbounds : ∀ id ∈ moneyIds, total id pl.inv ≤ 200 := fun id hid =>
    (hcalm.slots.wellFormed.total_bounds (by decide)
      (Int.ne_of_gt (money_accepts hlocks hid).1)).2
  have hcapWl := hbounds 242 (by decide)
  have hcapDl := hbounds 1796 (by decide)
  have hcapBgl := hbounds 7188 (by decide)
  simp only [invLocks, locksOf]
  omega

/-- `get_wls` takes exactly the amount it is asked for. -/
theorem getWls_takes (hlocks : env.items.LocksListed) (hcalm : Calm s.pl)
    (hrooms : ∀ id ∈ moneyIds, BankRoom id s.pl) {amount : Int} (hpos : 0 < amount)
    (henough : amount ≤ invLocks s.pl.inv) :
    ∃ next, (getWls env true true amount s).2 = { s with pl := next } ∧
      Paid s.pl (-amount) next := by
  obtain ⟨first, hwl, hgiven₁⟩ :=
    (@countLock_given env s hlocks 242 (by decide) hcalm).2
  have hpaid₁ := hgiven₁.paid hcalm (by decide)
  obtain ⟨second, hdl, hgiven₂⟩ := (@countLock_given env { s with pl := first }
    hlocks 1796 (by decide) hpaid₁.calm).2
  have hpaid₂ := hgiven₂.paid hpaid₁.calm (by decide)
  obtain ⟨third, hbgl, hgiven₃⟩ := (@countLock_given env
    { s with pl := second } hlocks 7188 (by decide) hpaid₂.calm).2
  have hpaid₃ := hgiven₃.paid hpaid₂.calm (by decide)
  dsimp only at hdl hbgl hpaid₂ hpaid₃
  have hsecondDl := hgiven₁.amount 1796
  have hsecondBgl := hgiven₁.amount 7188
  have hthirdBgl := hgiven₂.amount 7188
  dsimp only at hthirdBgl
  rw [if_neg (by decide), add_zero] at hsecondDl hsecondBgl hthirdBgl
  rw [hthirdBgl, hsecondBgl] at hbgl hpaid₃
  rw [hsecondDl] at hdl hpaid₂
  unfold getWls
  rw [hwl]
  dsimp only
  rw [hdl]
  dsimp only
  rw [if_pos rfl, hbgl, if_pos ⟨rfl, by omega⟩]
  have hcap := invLocks_le hlocks hcalm
  simp only [invLocks, locksOf] at henough hcap
  obtain ⟨last, hback, hpaid₄⟩ := @payBack_paid env { s with pl := third }
    hlocks hpaid₃.calm (fun id hid => hgiven₃.bankRoom (hgiven₂.bankRoom
      (hgiven₁.bankRoom (hrooms id hid)))) (total 242 s.pl.inv + total 1796 s.pl.inv * 100 +
      total 7188 s.pl.inv * 10000 - amount) (by omega) (by omega)
  refine ⟨last, hback, ?_⟩
  have hpaid := ((hpaid₁.trans hpaid₂).trans hpaid₃).trans hpaid₄
  convert hpaid using 1
  simp only [lockWorth, Int.reduceEq, ↓reduceIte]
  omega

end Exactness

end NopyServer
