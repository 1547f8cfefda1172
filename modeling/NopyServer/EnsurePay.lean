/-
`EnsurePayBGL`: a payment in big locks (7188), for which big gem locks (8470)
are broken into a hundred each.  The loop that breaks them looks only at what
is in the backpack.  It never ends when `AutoConvert` puts every hundred
together again, and it breaks one lock after the other for nothing when the
hundred find no slot.
-/
import NopyServer.TakeLocks
import NopyServer.Lib.BoundedLoop

namespace NopyServer

namespace Inventory

open BoundedLoop Relation SlotPack

section Definitions

variable (env : Env)

/-- What is still needed once as many big gem locks as possible are paid. -/
def payMgl (cost : Int) (s : Session) : Int × Session :=
  let takeMgl := cost / 100
  if 0 < takeMgl then
    let can := contains s.pl.inv 8470
    let takeMgl := if can < takeMgl then can else takeMgl
    if 0 < takeMgl then
      (cost - takeMgl * 100, (modify env s 8470 (-takeMgl) true).session)
    else (cost, s)
  else (cost, s)

/-- One iteration of the loop that breaks big gem locks. -/
def breakMgl (need : Int) (s : Session) : Next Session :=
  if 0 < need ∧ contains s.pl.inv 7188 < need ∧ 0 < contains s.pl.inv 8470 then
    let s := (modify env s 8470 (-1) true).session
    .again (modify env s 7188 100 true).session
  else .stop s

/-- The payment after the loop. -/
def payBgl (need : Int) (s : Session) : Bool × Session :=
  if 0 < need then
    if contains s.pl.inv 7188 < need then (false, s)
    else (true, (modify env s 7188 (-need) true).session)
  else (true, s)

/-- `EnsurePayBGL`, with at most `fuel` iterations of its loop. -/
def ensurePayBGL (cost : Int) (fuel : Nat) (s : Session) :
    Option (Bool × Session) :=
  if cost ≤ 0 then some (true, s)
  else if contains s.pl.inv 7188 + contains s.pl.inv 8470 * 100 < cost then
    some (false, s)
  else
    let (need, s) := payMgl env cost s
    (runs (breakMgl env need) fuel s).map (payBgl env need)

end Definitions

section Conditions

/-- The locks a payment is counted in. -/
def bglWorth (pl : Player) : Int :=
  contains pl.inv 7188 + 100 * contains pl.inv 8470 +
    if pl.autoConvert = true then 10000 * contains pl.inv 20298 else 0

/-- The payment ends, and is made exactly or not at all. -/
def PaysBgl (env : Env) (cost : Int) (s : Session) : Prop :=
  ∃ fuel result, ensurePayBGL env cost fuel s = some result ∧
    (result.1 = true → 0 < cost →
      bglWorth result.2.pl + cost = bglWorth s.pl ∧
      ∀ id, id ≠ 7188 → id ≠ 8470 →
        (s.pl.autoConvert = true → id ≠ 20298) →
          contains result.2.pl.inv id = contains s.pl.inv id) ∧
    (result.1 = false → result.2.pl.inv = s.pl.inv)

/-- Nothing below the big locks has been converted. -/
structure LowKept (pl next : Player) : Prop where
  gems : next.gems = pl.gems
  wl : contains next.inv 242 = contains pl.inv 242
  dl : contains next.inv 1796 = contains pl.inv 1796

/-- A big gem lock is taken to be broken. -/
def takeOne (env : Env) (s : Session) : Modified := modify env s 8470 (-1) true

/-- The hundred big locks of a broken one are given. -/
def giveHundred (env : Env) (s : Session) : Modified := modify env s 7188 100 true

/-- There are big locks enough once so many big gem locks are broken: each time there is
one and the hundred fit, and no call has anything lower to convert. -/
def Breaks (env : Env) (need : Int) : Nat → Session → Prop
  | 0, s =>
      need ≤ contains s.pl.inv 7188 ∧ LowKept s.pl (payBgl env need s).2.pl
  | n + 1, s =>
      let broken := (takeOne env s).session
      (contains s.pl.inv 7188 < need ∧ 0 < contains s.pl.inv 8470) ∧
        LowKept s.pl broken.pl ∧ (view 0 broken.pl.inv).Fits 200 7188 100 ∧
        LowKept broken.pl (giveHundred env broken).session.pl ∧
        Breaks env need n (giveHundred env broken).session

/-- `AutoConvert` is off, or has nothing below the big locks to convert. -/
def LowIdle (pl : Player) : Prop :=
  Converts pl → (pl.autoCvModeGemsToDl = false ∨ pl.gems < 300000) ∧
    (pl.autoCvModeWlToDl = false ∨ contains pl.inv 242 < 100) ∧
    (pl.autoCvModeDlToBgl = false ∨ contains pl.inv 1796 < 100)

/-- `AutoConvert` puts big locks together. -/
def Joins (pl : Player) : Prop :=
  Converts pl ∧ pl.autoCvModeBglToGgl = true

/-- `AutoConvert` puts big gem locks together. -/
def Tops (pl : Player) : Prop :=
  Converts pl ∧ pl.autoCvModeGglTo20298 = true

instance (pl : Player) : Decidable (Joins pl) :=
  inferInstanceAs (Decidable (_ ∧ _))

instance (pl : Player) : Decidable (Tops pl) :=
  inferInstanceAs (Decidable (_ ∧ _))

/-- Amounts after the big gem locks are put together. -/
def topped (pl : Player) (pack : Pack Int) : Pack Int :=
  if Tops pl then
    (exchange 8470 20298 pack).elim pack fun once =>
      (exchange 8470 20298 once).getD once
  else pack

/-- The number of big gem locks that are paid. -/
def mglPaid (cost : Int) (pl : Player) : Int :=
  min (cost / 100) (contains pl.inv 8470)

/-- The amounts when the loop starts, conversions of big locks apart. -/
def afterMgl (cost : Int) (pl : Player) : Pack Int :=
  if 0 < mglPaid cost pl then
    topped pl ((view 0 pl.inv).less 8470 (mglPaid cost pl))
  else view 0 pl.inv

/-- There are big locks enough without breaking any, or one big gem lock is
left to break and the hundred find a place. -/
def Breakable (cost : Int) (pl : Player) : Prop :=
  cost - mglPaid cost pl * 100 ≤ contains pl.inv 7188 ∨
    0 < (afterMgl cost pl).amount 8470 ∧
      (topped pl ((afterMgl cost pl).less 8470 1)).Fits 200 7188 100

/-- There are big locks enough without breaking any, those set apart that
`AutoConvert` puts together as soon as big gem locks are paid. -/
def Unbroken (cost : Int) (pl : Player) : Prop :=
  let need := cost - mglPaid cost pl * 100
  if 0 < mglPaid cost pl then
    need ≤ contains pl.inv 7188 % 100 ∨
      contains pl.inv 7188 = 200 ∧
        contains pl.inv 8470 = mglPaid cost pl + 199 ∧
        (¬ Tops pl ∨ contains pl.inv 20298 = 200)
  else need ≤ contains pl.inv 7188

/-- The condition for a payment. -/
def BglPayable (cost : Int) (pl : Player) : Prop :=
  if Joins pl then Unbroken cost pl else Breakable cost pl

/-- All slots are taken and the next conversion of big gem locks needs one. -/
def Cramped (pl : Player) : Prop :=
  (Joins pl ∧ Tops pl) ∧ contains pl.inv 20298 = 0 ∧ getSlots pl.inv = 0

instance (cost : Int) (pl : Player) : Decidable (Breakable cost pl) :=
  inferInstanceAs (Decidable (_ ∨ _ ∧ _))

instance (cost : Int) (pl : Player) : Decidable (Unbroken cost pl) :=
  inferInstanceAs (Decidable (if 0 < mglPaid cost pl then _ else _))

instance (cost : Int) (pl : Player) : Decidable (BglPayable cost pl) :=
  inferInstanceAs (Decidable (if Joins pl then _ else _))

end Conditions

section Purses

variable {pl : Player} {a b : Purse} {pack next : Pack Int} {fromId toId : Int}

/-- Why a conversion is not possible. -/
theorem exchange_eq_none (hne : fromId ≠ toId) (hfrom : pack.amount fromId ≤ 200)
    (hto : 0 ≤ pack.amount toId) (h : exchange fromId toId pack = none) :
    pack.amount fromId < 100 ∨ 200 ≤ pack.amount toId ∨
      (pack.amount toId = 0 ∧ pack.room = 0 ∧ pack.amount fromId ≠ 100) := by
  by_contra hnot
  have henough : 100 ≤ pack.amount fromId := by omega
  have htake := @Pack.change_less Int _ 200 100 pack fromId (by decide) henough hfrom
  have hamount : (pack.less fromId 100).amount toId = pack.amount toId := by
    simp [Pack.less, hne]
  have hroom : (pack.less fromId 100).room =
      if pack.amount fromId = 100 then pack.room + 1 else pack.room := rfl
  have hfits : (pack.less fromId 100).Fits 200 toId 1 := by
    constructor
    · omega
    · rw [hroom, hamount]
      split_ifs <;> omega
  have hadd := Pack.change_plus (by decide) (hamount.symm ▸ hto) hfits
  rw [exchange, htake, Option.bind_some, hadd] at h
  cases h

/-- The locks a payment works on, and the one above them. -/
def upperLocks : List Int := [7188, 8470, 20298]

/-- The worth of amounts, in big locks. -/
def bigWorth (pack : Pack Int) : Int :=
  pack.amount 7188 + 100 * pack.amount 8470 + 10000 * pack.amount 20298

theorem Shifted.bigWorth (h : Shifted upperLocks a b) :
    bigWorth b.pack = bigWorth a.pack := by
  have hvalue := h.value
  unfold Purse.value packValue at hvalue
  rw [h.gems, h.others 242 (by decide), h.others 1796 (by decide)] at hvalue
  unfold Inventory.bigWorth
  omega

/-- `LowIdle`, of a purse. -/
structure LowAt (pl : Player) (purse : Purse) : Prop where
  gems : pl.autoCvModeGemsToDl = false ∨ purse.gems < 300000
  wl : pl.autoCvModeWlToDl = false ∨ purse.pack.amount 242 < 100
  dl : pl.autoCvModeDlToBgl = false ∨ purse.pack.amount 1796 < 100

theorem LowAt.shifted (h : LowAt pl a) (hab : Shifted upperLocks a b) :
    LowAt pl b := by
  constructor
  · rw [hab.gems]
    exact h.gems
  · rw [hab.others 242 (by decide)]
    exact h.wl
  · rw [hab.others 1796 (by decide)]
    exact h.dl

/-- The conversions left are those of big locks and of big gem locks. -/
theorem LowAt.conversion (h : LowAt pl a) (hab : Conversion pl a b) :
    b.gems = a.gems ∧
      (pl.autoCvModeBglToGgl = true ∧
          exchange 7188 8470 a.pack = some b.pack ∨
        pl.autoCvModeGglTo20298 = true ∧
          exchange 8470 20298 a.pack = some b.pack) := by
  cases hab with
  | @item fromId toId gems pack next hstep hon hexchange =>
      have henough := (exchange_range (ladder_locks hstep).2.2 hexchange).1
      simp only [ladder, List.mem_cons, Prod.mk.injEq, List.not_mem_nil,
        or_false] at hstep
      rcases hstep with ⟨rfl, rfl⟩ | ⟨rfl, rfl⟩ | ⟨rfl, rfl⟩ | ⟨rfl, rfl⟩
      · exfalso
        rcases h.wl with hoff | hfew
        · exact absurd (hoff.symm.trans hon) (by decide)
        · exact absurd hfew (not_lt.mpr henough)
      · exfalso
        rcases h.dl with hoff | hfew
        · exact absurd (hoff.symm.trans hon) (by decide)
        · exact absurd hfew (not_lt.mpr henough)
      · exact ⟨rfl, Or.inl ⟨hon, hexchange⟩⟩
      · exact ⟨rfl, Or.inr ⟨hon, hexchange⟩⟩
  | gems hon henough _ =>
      exfalso
      rcases h.gems with hoff | hfew
      · exact absurd (hoff.symm.trans hon) (by decide)
      · exact absurd hfew (not_lt.mpr henough)

theorem LowAt.within (h : LowAt pl a) : Within pl upperLocks a := by
  intro next hnext
  obtain ⟨hgems, ⟨-, hexchange⟩ | ⟨-, hexchange⟩⟩ := h.conversion hnext
  · exact ⟨hgems, 7188, by decide, 8470, by decide, by decide, hexchange⟩
  · exact ⟨hgems, 8470, by decide, 20298, by decide, by decide, hexchange⟩

/-- What conversions of big locks leave: there are never more of the lower and
never fewer of the upper ones. -/
structure Raised (pl : Player) (a b : Purse) : Prop where
  shifted : Shifted upperLocks a b
  bgl : b.pack.amount 7188 ≤ a.pack.amount 7188
  top : a.pack.amount 20298 ≤ b.pack.amount 20298
  bglKept : pl.autoCvModeBglToGgl = false →
    b.pack.amount 7188 = a.pack.amount 7188
  topKept : pl.autoCvModeGglTo20298 = false →
    b.pack.amount 20298 = a.pack.amount 20298

theorem LowAt.raised (h : LowAt pl a) (hab : Conversion pl a b) :
    Raised pl a b := by
  have hshifted := hab.shifted (by decide) h.within
  obtain ⟨-, ⟨hon, hexchange⟩ | ⟨hon, hexchange⟩⟩ := h.conversion hab
  · have hamount := exchange_amount (by decide) hexchange
    have hbgl := hamount 7188
    have htop := hamount 20298
    simp only [Int.reduceEq, ↓reduceIte] at hbgl htop
    refine ⟨hshifted, by omega, by omega, fun hoff => ?_, fun _ => by omega⟩
    rw [hoff] at hon
    cases hon
  · have hamount := exchange_amount (by decide) hexchange
    have hbgl := hamount 7188
    have htop := hamount 20298
    simp only [Int.reduceEq, ↓reduceIte] at hbgl htop
    refine ⟨hshifted, by omega, by omega, fun _ => by omega, fun hoff => ?_⟩
    rw [hoff] at hon
    cases hon

theorem conversions_raised (h : LowAt pl a)
    (hab : ReflTransGen (Conversion pl) a b) : Raised pl a b := by
  induction hab with
  | refl =>
      exact ⟨Shifted.refl _ _, le_refl _, le_refl _, fun _ => rfl, fun _ => rfl⟩
  | tail _ hlast ih =>
      have hstep := (h.shifted ih.shifted).raised hlast
      constructor
      · exact ih.shifted.trans hstep.shifted
      · exact le_trans hstep.bgl ih.bgl
      · exact le_trans ih.top hstep.top
      · exact fun hoff => (hstep.bglKept hoff).trans (ih.bglKept hoff)
      · exact fun hoff => (hstep.topKept hoff).trans (ih.topKept hoff)

/-- Where big locks stay as they are there is only one way to convert. -/
theorem topped_of_conversions (h : LowAt pl a)
    (hoff : pl.autoCvModeBglToGgl = false) (hconverts : Converts pl)
    (hcap : a.pack.amount 8470 ≤ 200)
    (hab : ReflTransGen (Conversion pl) a b)
    (hend : ∀ next, ¬ Conversion pl b next) : b.pack = topped pl a.pack := by
  have hstep {c d : Purse} (hac : Shifted upperLocks a c)
      (hcd : Conversion pl c d) : Shifted upperLocks a d ∧
        pl.autoCvModeGglTo20298 = true ∧
          exchange 8470 20298 c.pack = some d.pack := by
    have hlow := h.shifted hac
    refine ⟨hac.trans (hcd.shifted (by decide) hlow.within), ?_⟩
    obtain ⟨-, ⟨hon, -⟩ | hlast⟩ := hlow.conversion hcd
    · rw [hoff] at hon
      cases hon
    · exact hlast
  have hstuck (hon : pl.autoCvModeGglTo20298 = true) :
      exchange 8470 20298 b.pack = none := by
    by_contra hsome
    obtain ⟨last, hlast⟩ := Option.ne_none_iff_exists'.mp hsome
    exact hend ⟨b.gems, last⟩ (@Conversion.item pl 8470 20298 b.gems b.pack last
      (by decide) hon hlast)
  unfold topped
  split_ifs with htops
  · have hnone := hstuck htops.2
    rcases hab.cases_head with rfl | ⟨c, hac, hcb⟩
    · rw [hnone]
      rfl
    · obtain ⟨hshiftC, -, hfirst⟩ := hstep (Shifted.refl _ _) hac
      rw [hfirst]
      rcases hcb.cases_head with rfl | ⟨d, hcd, hdb⟩
      · rw [Option.elim_some, hnone]
        rfl
      · obtain ⟨hshiftD, -, hsecond⟩ := hstep hshiftC hcd
        rw [Option.elim_some, hsecond]
        rcases hdb.cases_head with rfl | ⟨e, hde, -⟩
        · rfl
        · -- there are at most two hundred of them
          obtain ⟨-, -, hthird⟩ := hstep hshiftD hde
          have henough := (exchange_range (by decide) hthird).1
          have hone := exchange_amount (by decide) hfirst 8470
          have htwo := exchange_amount (by decide) hsecond 8470
          simp only [Int.reduceEq, ↓reduceIte] at hone htwo
          omega
  · rcases hab.cases_head with rfl | ⟨c, hac, -⟩
    · rfl
    · exact absurd ⟨hconverts, (hstep (Shifted.refl _ _) hac).2.1⟩ htops

end Purses

section Calls

variable {env : Env} {s t : Session} {id c : Int} {pack next : Pack Int}

/-- What the conversions after a call make of the amounts it left. -/
structure Reached (pl : Player) (pack next : Pack Int) : Prop where
  worth : bigWorth next = bigWorth pack
  slots : next.slotsOf upperLocks = pack.slotsOf upperLocks
  bgl : next.amount 7188 ≤ pack.amount 7188
  top : pack.amount 20298 ≤ next.amount 20298
  bglKept : ¬ Joins pl → next.amount 7188 = pack.amount 7188
  topKept : ¬ Tops pl → next.amount 20298 = pack.amount 20298
  joined : Joins pl → exchange 7188 8470 next = none
  toppedUp : Tops pl → exchange 8470 20298 next = none
  eq_topped : ¬ Joins pl → next = topped pl pack

/-- A player in the middle of a payment. -/
structure Along (s t : Session) : Prop where
  live : Live t
  settings : settings t.pl = settings s.pl
  gems : t.pl.gems = s.pl.gems
  others : ∀ id, id ∉ upperLocks → total id t.pl.inv = total id s.pl.inv
  slots : (view 0 t.pl.inv).slotsOf upperLocks =
    (view 0 s.pl.inv).slotsOf upperLocks
  top : total 20298 s.pl.inv ≤ total 20298 t.pl.inv
  topKept : ¬ Tops s.pl → total 20298 t.pl.inv = total 20298 s.pl.inv

theorem Along.refl (hs : Live s) : Along s s :=
  ⟨hs, rfl, rfl, fun _ _ => rfl, rfl, le_refl _, fun _ => rfl⟩

theorem Along.bounds (h : Along s t) {id : Int} (hid : id ∈ lockIds) :
    0 ≤ total id t.pl.inv ∧ total id t.pl.inv ≤ 200 :=
  h.live.slots.wellFormed.total_bounds (by decide) (lockIds_ne_zero hid)

theorem joins_of_settings {pl next : Player}
    (hsettings : settings next = settings pl) : Joins next ↔ Joins pl := by
  unfold Joins
  rw [converts_of_settings hsettings,
    settings_congr hsettings Player.autoCvModeBglToGgl fun _ => rfl]

theorem tops_of_settings {pl next : Player}
    (hsettings : settings next = settings pl) : Tops next ↔ Tops pl := by
  unfold Tops
  rw [converts_of_settings hsettings,
    settings_congr hsettings Player.autoCvModeGglTo20298 fun _ => rfl]

theorem topped_of_settings {pl next : Player}
    (hsettings : settings next = settings pl) : topped next = topped pl := by
  funext pack
  unfold topped
  simp only [tops_of_settings hsettings]

theorem Reached.of_settings {pl other : Player}
    (hsettings : settings other = settings pl) (h : Reached other pack next) :
    Reached pl pack next := by
  have hjoins := joins_of_settings hsettings
  have htops := tops_of_settings hsettings
  refine ⟨h.worth, h.slots, h.bgl, h.top, fun hoff => ?_, fun hoff => ?_,
    fun hon => ?_, fun hon => ?_, fun hoff => ?_⟩
  · exact h.bglKept (hjoins.not.mpr hoff)
  · exact h.topKept (htops.not.mpr hoff)
  · exact h.joined (hjoins.mpr hon)
  · exact h.toppedUp (htops.mpr hon)
  · rw [h.eq_topped (hjoins.not.mpr hoff), topped_of_settings hsettings]

theorem Outcome.reached (h : Outcome s pack t)
    (hlow : Converts s.pl → LowAt s.pl ⟨s.pl.gems, pack⟩)
    (hcap : pack.amount 8470 ≤ 200) :
    t.pl.gems = s.pl.gems ∧ Reached s.pl pack (view 0 t.pl.inv) ∧
      ∀ id, id ∉ upperLocks → total id t.pl.inv = pack.amount id := by
  by_cases hconverts : Converts s.pl
  · have hraised := conversions_raised (hlow hconverts) h.steps
    refine ⟨hraised.shifted.gems, ?_, hraised.shifted.others⟩
    constructor
    · exact hraised.shifted.bigWorth
    · exact hraised.shifted.slots
    · exact hraised.bgl
    · exact hraised.top
    · intro hoff
      apply hraised.bglKept
      simpa [Joins, hconverts] using hoff
    · intro hoff
      apply hraised.topKept
      simpa [Tops, hconverts] using hoff
    · intro hon
      by_contra hsome
      obtain ⟨last, hlast⟩ := Option.ne_none_iff_exists'.mp hsome
      exact h.settled hconverts ⟨t.pl.gems, last⟩
        (.item (by decide : (7188, 8470) ∈ ladder) hon.2 hlast)
    · intro hon
      by_contra hsome
      obtain ⟨last, hlast⟩ := Option.ne_none_iff_exists'.mp hsome
      exact h.settled hconverts ⟨t.pl.gems, last⟩
        (.item (by decide : (8470, 20298) ∈ ladder) hon.2 hlast)
    · intro hoff
      apply topped_of_conversions (hlow hconverts) _ hconverts hcap h.steps
        (h.settled hconverts)
      simpa [Joins, hconverts] using hoff
  · have hquiet := h.quiet hconverts
    have hview : view 0 t.pl.inv = pack := congrArg Purse.pack hquiet
    have htops : ¬ Tops s.pl := fun htops => hconverts htops.1
    refine ⟨congrArg Purse.gems hquiet, ?_, fun id _ => ?_⟩
    · rw [hview]
      refine ⟨rfl, rfl, le_refl _, le_refl _, fun _ => rfl, fun _ => rfl,
        fun hon => absurd hon.1 hconverts, fun hon => absurd hon htops,
        fun _ => ?_⟩
      rw [topped, if_neg htops]
    · rw [← hview, view_amount]

/-- Nothing below the big locks is converted after a change of these. -/
theorem Along.lowAt (hlow : LowIdle s.pl) (hs : SlotInv s.pl.inv)
    (h : Along s t) (hwl : pack.amount 242 = total 242 t.pl.inv)
    (hdl : pack.amount 1796 = total 1796 t.pl.inv) (hconverts : Converts t.pl) :
    LowAt t.pl ⟨t.pl.gems, pack⟩ := by
  obtain ⟨hgems, hlowWl, hlowDl⟩ :=
    hlow ((converts_of_settings h.settings).mp hconverts)
  rw [contains_eq_total hs] at hlowWl hlowDl
  constructor
  · rw [settings_congr h.settings Player.autoCvModeGemsToDl fun _ => rfl, h.gems]
    exact hgems
  · rw [settings_congr h.settings Player.autoCvModeWlToDl fun _ => rfl, hwl,
      h.others 242 (by decide)]
    exact hlowWl
  · rw [settings_congr h.settings Player.autoCvModeDlToBgl fun _ => rfl, hdl,
      h.others 1796 (by decide)]
    exact hlowDl

/-- A call on one of the two locks of the payment. -/
theorem Along.call (hlocks : env.items.LocksListed) (hlow : LowIdle s.pl)
    (hs : SlotInv s.pl.inv) (h : Along s t) (hid : id = 7188 ∨ id = 8470)
    (hchange : (view 0 t.pl.inv).change 200 id c = some pack) :
    Along s (modify env t id c true).session ∧
      Reached s.pl pack (view 0 (modify env t id c true).session.pl.inv) := by
  have hupper : id ∈ upperLocks := by
    rcases hid with rfl | rfl <;> decide
  have hlock : id ∈ lockIds := by
    rcases hid with rfl | rfl <;> decide
  have hsale : ¬ Sells env t.pl id c := fun hsells =>
    fish_not_lock hlocks hsells.2.2.2.2.2 hlock
  have hkept (other : Int) (hother : other ≠ id) :
      pack.amount other = total other t.pl.inv :=
    Pack.change_amount_of_ne hchange hother
  have houtcome := (modify_changed true hlocks h.live (lock_accepts hlocks hlock)
    hsale hchange).2
  have hlowAt := h.lowAt hlow hs (hkept 242 (by omega)) (hkept 1796 (by omega))
  have hcap : pack.amount 8470 ≤ 200 := by
    by_cases hsame : (8470 : Int) = id
    · rw [hsame]
      exact (Pack.change_range hchange).2
    · rw [hkept 8470 hsame]
      exact (h.bounds (by decide)).2
  have htop : pack.amount 20298 = total 20298 t.pl.inv :=
    hkept 20298 (by omega)
  obtain ⟨hgems, hreached, hothers⟩ := houtcome.reached hlowAt hcap
  have hback := hreached.of_settings h.settings
  generalize (modify env t id c true).session = u at *
  refine ⟨⟨houtcome.live h.live, houtcome.settings.trans h.settings,
    hgems.trans h.gems, ?_, ?_, ?_, ?_⟩, hback⟩
  · intro other hother
    have hne : other ≠ id := fun heq => hother (heq ▸ hupper)
    rw [hothers other hother, hkept other hne, h.others other hother]
  · exact hback.slots.trans
      ((Pack.change_slotsOf hchange hupper (by decide)).trans h.slots)
  · have hle := hback.top
    rw [htop] at hle
    exact le_trans h.top hle
  · intro hoff
    have hsame := hback.topKept hoff
    rw [htop] at hsame
    exact hsame.trans (h.topKept hoff)

end Calls

section Payment

variable {env : Env} {s t u : Session} {cost need : Int} {pack : Pack Int}

theorem bigWorth_less_mgl (pack : Pack Int) (n : Int) :
    bigWorth (pack.less 8470 n) = bigWorth pack - 100 * n := by
  simp [bigWorth, Pack.less]
  omega

theorem bigWorth_less_bgl (pack : Pack Int) (n : Int) :
    bigWorth (pack.less 7188 n) = bigWorth pack - n := by
  simp [bigWorth, Pack.less]
  omega

theorem bigWorth_plus_bgl (pack : Pack Int) (n : Int) :
    bigWorth (pack.plus 7188 n) = bigWorth pack + n := by
  simp [bigWorth, Pack.plus]
  omega

theorem bigWorth_view (inv : List (Int × Int)) : bigWorth (view 0 inv) =
    total 7188 inv + 100 * total 8470 inv + 10000 * total 20298 inv := rfl

theorem slotsOf_upperLocks (pack : Pack Int) : pack.slotsOf upperLocks =
    pack.room + ((if pack.amount 7188 = 0 then 0 else 1) +
      (if pack.amount 8470 = 0 then 0 else 1) +
      if pack.amount 20298 = 0 then 0 else 1) := by
  simp only [Pack.slotsOf, upperLocks, List.countP_cons, List.countP_nil,
    decide_eq_true_eq]
  split_ifs <;> omega

theorem slotsOf_view (inv : List (Int × Int)) :
    (view 0 inv).slotsOf upperLocks = (view 0 inv).room +
      ((if total 7188 inv = 0 then 0 else 1) +
        (if total 8470 inv = 0 then 0 else 1) +
        if total 20298 inv = 0 then 0 else 1) :=
  slotsOf_upperLocks (view 0 inv)

/-- Outside the locks a payment is counted in, nothing changes. -/
theorem Along.bglWorth (h : Along s t) (hs : SlotInv s.pl.inv) :
    (bglWorth t.pl - bglWorth s.pl =
      bigWorth (view 0 t.pl.inv) - bigWorth (view 0 s.pl.inv)) ∧
    ∀ id, id ≠ 7188 → id ≠ 8470 → (s.pl.autoConvert = true → id ≠ 20298) →
      contains t.pl.inv id = contains s.pl.inv id := by
  have hon : t.pl.autoConvert = s.pl.autoConvert :=
    settings_congr h.settings Player.autoConvert fun _ => rfl
  have htops (hoff : s.pl.autoConvert ≠ true) : ¬ Tops s.pl :=
    fun htops => hoff htops.1.1
  constructor
  · unfold Inventory.bglWorth
    rw [hon]
    simp only [contains_eq_total h.live.slots, contains_eq_total hs,
      bigWorth_view]
    by_cases hconvert : s.pl.autoConvert = true
    · rw [if_pos hconvert, if_pos hconvert]
    · rw [if_neg hconvert, if_neg hconvert, h.topKept (htops hconvert)]
      omega
  · intro id hbgl hmgl htop
    rw [contains_eq_total h.live.slots, contains_eq_total hs]
    by_cases hlast : id = 20298
    · subst hlast
      exact h.topKept (htops fun hconvert => htop hconvert rfl)
    · apply h.others
      simp [upperLocks, hbgl, hmgl, hlast]

theorem mglPaid_eq (hs : SlotInv s.pl.inv) :
    mglPaid cost s.pl = min (cost / 100) (total 8470 s.pl.inv) := by
  rw [mglPaid, contains_eq_total hs]

/-- The big gem locks that are paid. -/
theorem payMgl_spec (hlocks : env.items.LocksListed) (hlow : LowIdle s.pl)
    (hs : Live s) (hcost : 0 < cost) :
    (payMgl env cost s).1 = cost - mglPaid cost s.pl * 100 ∧
      Along s (payMgl env cost s).2 ∧
      (0 < mglPaid cost s.pl ∧ Reached s.pl
          ((view 0 s.pl.inv).less 8470 (mglPaid cost s.pl))
          (view 0 (payMgl env cost s).2.pl.inv) ∨
        mglPaid cost s.pl = 0 ∧ (payMgl env cost s).2 = s) := by
  have hbounds := (Along.refl hs).bounds (show 8470 ∈ lockIds by decide)
  have hpaid := @mglPaid_eq s cost hs.slots
  have hmin : (if contains s.pl.inv 8470 < cost / 100 then
      contains s.pl.inv 8470 else cost / 100) = mglPaid cost s.pl := by
    rw [hpaid, contains_eq_total hs.slots]
    split_ifs <;> omega
  unfold payMgl
  dsimp only
  rw [hmin]
  by_cases hpos : 0 < mglPaid cost s.pl
  · have hless := @Pack.change_less Int _ 200 (mglPaid cost s.pl)
      (view 0 s.pl.inv) 8470 hpos (by rw [view_amount]; omega) hbounds.2
    have hcall := (Along.refl hs).call hlocks hlow hs.slots (Or.inr rfl) hless
    rw [if_pos (by omega), if_pos hpos]
    exact ⟨rfl, hcall.1, Or.inl ⟨hpos, hcall.2⟩⟩
  · have hzero : mglPaid cost s.pl = 0 := by omega
    rw [if_neg hpos, ite_self, hzero]
    exact ⟨by omega, Along.refl hs, Or.inr ⟨rfl, rfl⟩⟩

/-- One iteration: a big gem lock goes, and a hundred big locks come when they
fit. -/
theorem breakMgl_again (hlocks : env.items.LocksListed) (hlow : LowIdle s.pl)
    (hs : SlotInv s.pl.inv) (h : Along s t) (hneed : 0 < need)
    (hfew : total 7188 t.pl.inv < need) (hsome : 0 < total 8470 t.pl.inv) :
    ∃ mid u, breakMgl env need t = .again u ∧ Along s mid ∧ Along s u ∧
      Reached s.pl ((view 0 t.pl.inv).less 8470 1) (view 0 mid.pl.inv) ∧
      if (view 0 mid.pl.inv).Fits 200 7188 100 then
        Reached s.pl ((view 0 mid.pl.inv).plus 7188 100) (view 0 u.pl.inv)
      else u = mid := by
  have hcap := (h.bounds (show 8470 ∈ lockIds by decide)).2
  have hless := @Pack.change_less Int _ 200 1 (view 0 t.pl.inv) 8470
    (by decide) (by rw [view_amount]; omega) hcap
  obtain ⟨hmid, hreached⟩ := h.call hlocks hlow hs (Or.inr rfl) hless
  have hbody : breakMgl env need t = .again (modify env
      (modify env t 8470 (-1) true).session 7188 100 true).session := by
    unfold breakMgl
    rw [contains_eq_total h.live.slots, contains_eq_total h.live.slots,
      if_pos ⟨hneed, hfew, hsome⟩]
  generalize (modify env t 8470 (-1) true).session = mid at hmid hreached hbody
  have hnonneg := (hmid.bounds (show 7188 ∈ lockIds by decide)).1
  by_cases hfits : (view 0 mid.pl.inv).Fits 200 7188 100
  · have hplus := Pack.change_plus (by decide) hnonneg hfits
    obtain ⟨hu, hadded⟩ := hmid.call hlocks hlow hs (Or.inl rfl) hplus
    refine ⟨mid, _, hbody, hmid, hu, hreached, ?_⟩
    rw [if_pos hfits]
    exact hadded
  · have hrefused := @modify_of_not_fits env mid 7188 100 hmid.live.slots
      (by decide) true fun haccepts => hfits haccepts.2
    rw [hrefused.2] at hbody
    refine ⟨mid, mid, hbody, hmid, hmid, hreached, ?_⟩
    rw [if_neg hfits]

/-- The loop stops where nothing is needed, nothing is to be broken, or enough
is there. -/
theorem breakMgl_stop (hs : SlotInv s.pl.inv)
    (hstop : breakMgl env need s = .stop t) :
    t = s ∧ ¬ (0 < need ∧ total 7188 s.pl.inv < need ∧
      0 < total 8470 s.pl.inv) := by
  unfold breakMgl at hstop
  rw [contains_eq_total hs, contains_eq_total hs] at hstop
  split_ifs at hstop with hcondition
  exact ⟨(Next.stop.inj hstop).symm, hcondition⟩

theorem breakMgl_entered (hs : SlotInv s.pl.inv)
    (hbody : breakMgl env need s = .again t) :
    0 < need ∧ total 7188 s.pl.inv < need ∧ 0 < total 8470 s.pl.inv := by
  unfold breakMgl at hbody
  rw [contains_eq_total hs, contains_eq_total hs] at hbody
  split_ifs at hbody with hcondition
  exact hcondition

theorem breakMgl_enough (hs : SlotInv s.pl.inv)
    (henough : need ≤ total 7188 s.pl.inv) :
    breakMgl env need s = .stop s := by
  unfold breakMgl
  rw [contains_eq_total hs, if_neg (by omega)]

/-- A payment in big locks that are there. -/
theorem payBgl_paid (hlocks : env.items.LocksListed) (hlow : LowIdle s.pl)
    (hs : SlotInv s.pl.inv) (h : Along s t) (hneed : 0 ≤ need)
    (henough : need ≤ total 7188 t.pl.inv) :
    (payBgl env need t).1 = true ∧ Along s (payBgl env need t).2 ∧
      bigWorth (view 0 (payBgl env need t).2.pl.inv) + need =
        bigWorth (view 0 t.pl.inv) := by
  unfold payBgl
  split_ifs with hpos hfew
  · rw [contains_eq_total h.live.slots] at hfew
    omega
  · have hcap := (h.bounds (show 7188 ∈ lockIds by decide)).2
    have hless := @Pack.change_less Int _ 200 need (view 0 t.pl.inv) 7188 hpos
      henough hcap
    obtain ⟨hu, hreached⟩ := h.call hlocks hlow hs (Or.inl rfl) hless
    refine ⟨rfl, hu, ?_⟩
    rw [hreached.worth, bigWorth_less_bgl]
    omega
  · exact ⟨rfl, h, by dsimp only; omega⟩

theorem payBgl_refused (hs : SlotInv s.pl.inv) (hneed : 0 < need)
    (hfew : total 7188 s.pl.inv < need) : payBgl env need s = (false, s) := by
  unfold payBgl
  rw [contains_eq_total hs, if_pos hneed, if_pos hfew]

end Payment

section Enough

variable {env : Env} {s t : Session} {cost need : Int} {fuel : Nat}

/-- What the loop ends in decides the payment. -/
theorem ensurePayBGL_eq (hs : SlotInv s.pl.inv) (hcost : 0 < cost)
    (htotal : cost ≤ total 7188 s.pl.inv + total 8470 s.pl.inv * 100) :
    ensurePayBGL env cost fuel s =
      (runs (breakMgl env (payMgl env cost s).1) fuel
        (payMgl env cost s).2).map (payBgl env (payMgl env cost s).1) := by
  unfold ensurePayBGL
  rw [contains_eq_total hs, contains_eq_total hs, if_neg (by omega),
    if_neg (by omega)]

/-- Once the loop ends with enough big locks, the payment is made. -/
theorem pays_of_enough (hlocks : env.items.LocksListed) (hlow : LowIdle s.pl)
    (hs : SlotInv s.pl.inv) (hcost : 0 < cost)
    (htotal : cost ≤ total 7188 s.pl.inv + total 8470 s.pl.inv * 100)
    (hruns : runs (breakMgl env (payMgl env cost s).1) fuel
      (payMgl env cost s).2 = some t) (h : Along s t)
    (hneed : (payMgl env cost s).1 = need) (hnonneg : 0 ≤ need)
    (hworth : bigWorth (view 0 t.pl.inv) + (cost - need) =
      bigWorth (view 0 s.pl.inv))
    (henough : need ≤ total 7188 t.pl.inv) : PaysBgl env cost s := by
  obtain ⟨htrue, hu, hpaid⟩ := payBgl_paid hlocks hlow hs h hnonneg henough
  refine ⟨fuel, payBgl env need t, ?_, fun _ _ => ?_, fun hfalse => ?_⟩
  · rw [ensurePayBGL_eq hs hcost htotal, hruns, Option.map_some, hneed]
  · obtain ⟨hdiff, hothers⟩ := hu.bglWorth hs
    exact ⟨by omega, hothers⟩
  · rw [htrue] at hfalse
    cases hfalse

theorem need_nonneg (hs : Live s) (hcost : 0 < cost) :
    0 ≤ mglPaid cost s.pl ∧ 0 ≤ cost - mglPaid cost s.pl * 100 ∧
      (mglPaid cost s.pl < total 8470 s.pl.inv →
        cost - mglPaid cost s.pl * 100 < 100) := by
  have hbounds := (Along.refl hs).bounds (show 8470 ∈ lockIds by decide)
  rw [mglPaid_eq hs.slots]
  omega

/-- The worth once the big gem locks are paid. -/
theorem payMgl_worth (hlocks : env.items.LocksListed) (hlow : LowIdle s.pl)
    (hs : Live s) (hcost : 0 < cost) :
    bigWorth (view 0 (payMgl env cost s).2.pl.inv) +
        mglPaid cost s.pl * 100 = bigWorth (view 0 s.pl.inv) := by
  obtain ⟨-, -, ⟨-, hreached⟩ | ⟨hzero, hsame⟩⟩ :=
    @payMgl_spec env s cost hlocks hlow hs hcost
  · rw [hreached.worth, bigWorth_less_mgl]
    omega
  · rw [hzero, hsame]
    omega

/-- Where big locks stay apart, the amounts at the start of the loop are
known. -/
theorem payMgl_apart (hlocks : env.items.LocksListed) (hlow : LowIdle s.pl)
    (hs : Live s) (hcost : 0 < cost) (hapart : ¬ Joins s.pl) :
    view 0 (payMgl env cost s).2.pl.inv = afterMgl cost s.pl ∧
      total 7188 (payMgl env cost s).2.pl.inv = total 7188 s.pl.inv ∧
      total 8470 (payMgl env cost s).2.pl.inv ≤
        total 8470 s.pl.inv - mglPaid cost s.pl := by
  obtain ⟨-, -, ⟨hpos, hreached⟩ | ⟨hzero, hsame⟩⟩ :=
    @payMgl_spec env s cost hlocks hlow hs hcost
  · have hbgl := hreached.bglKept hapart
    have htop := hreached.top
    have hworth := hreached.worth
    rw [bigWorth_less_mgl, bigWorth_view, bigWorth_view] at hworth
    simp only [Pack.less, view_amount, Int.reduceEq, ↓reduceIte, sub_zero] at hbgl htop
    rw [afterMgl, if_pos hpos]
    exact ⟨hreached.eq_topped hapart, hbgl, by omega⟩
  · rw [afterMgl, if_neg (by omega), hsame, hzero]
    exact ⟨rfl, rfl, by omega⟩

/-- With the loop not even entered. -/
theorem pays_of_start (hlocks : env.items.LocksListed) (hlow : LowIdle s.pl)
    (hs : Live s) (hcost : 0 < cost)
    (htotal : cost ≤ total 7188 s.pl.inv + total 8470 s.pl.inv * 100)
    (henough : cost - mglPaid cost s.pl * 100 ≤
      total 7188 (payMgl env cost s).2.pl.inv) : PaysBgl env cost s := by
  obtain ⟨hneed, hstart, -⟩ := @payMgl_spec env s cost hlocks hlow hs hcost
  have hworth := @payMgl_worth env s cost hlocks hlow hs hcost
  have hstop := @breakMgl_enough env _ _ hstart.live.slots henough
  have hruns : runs (breakMgl env (payMgl env cost s).1) 1
      (payMgl env cost s).2 = some (payMgl env cost s).2 := by
    rw [hneed]
    exact runs_stop hstop
  exact pays_of_enough hlocks hlow hs.slots hcost htotal hruns hstart hneed
    (need_nonneg hs hcost).2.1 (by omega) henough

/-- Where big locks are put together again, what is left of them must do. -/
theorem pays_of_unbroken (hlocks : env.items.LocksListed) (hlow : LowIdle s.pl)
    (hs : Live s) (hcost : 0 < cost)
    (htotal : cost ≤ total 7188 s.pl.inv + total 8470 s.pl.inv * 100)
    (hunbroken : Unbroken cost s.pl) : PaysBgl env cost s := by
  apply pays_of_start hlocks hlow hs hcost htotal
  obtain ⟨-, hstart, hphase⟩ := @payMgl_spec env s cost hlocks hlow hs hcost
  unfold Unbroken at hunbroken
  simp only [contains_eq_total hs.slots] at hunbroken
  have hbefore := (Along.refl hs).bounds (show 7188 ∈ lockIds by decide)
  have hbgl := hstart.bounds (show 7188 ∈ lockIds by decide)
  have hmgl := hstart.bounds (show 8470 ∈ lockIds by decide)
  have htop := hstart.bounds (show 20298 ∈ lockIds by decide)
  obtain ⟨hpaid, -, hsmall⟩ := @need_nonneg s cost hs hcost
  rcases hphase with ⟨hpos, hreached⟩ | ⟨hzero, hsame⟩
  · rw [if_pos hpos] at hunbroken
    have hworth := hreached.worth
    rw [bigWorth_less_mgl, bigWorth_view, bigWorth_view] at hworth
    have hrise := hstart.top
    rcases hunbroken with hleft | ⟨hfull, hmany, hend⟩
    · omega
    · have hkept : total 20298 (payMgl env cost s).2.pl.inv =
          total 20298 s.pl.inv := by
        rcases hend with hoff | hlimit
        · exact hstart.topKept hoff
        · omega
      omega
  · rw [if_neg (by omega)] at hunbroken
    rw [hsame]
    exact hunbroken

/-- Where they are not, one big gem lock more can be broken. -/
theorem pays_of_breakable (hlocks : env.items.LocksListed) (hlow : LowIdle s.pl)
    (hs : Live s) (hcost : 0 < cost) (hapart : ¬ Joins s.pl)
    (htotal : cost ≤ total 7188 s.pl.inv + total 8470 s.pl.inv * 100)
    (hbreakable : Breakable cost s.pl) : PaysBgl env cost s := by
  obtain ⟨hneed, hstart, -⟩ := @payMgl_spec env s cost hlocks hlow hs hcost
  obtain ⟨hview, hbgl, hmgl⟩ :=
    @payMgl_apart env s cost hlocks hlow hs hcost hapart
  have hworth := @payMgl_worth env s cost hlocks hlow hs hcost
  obtain ⟨-, hnonneg, hsmall⟩ := @need_nonneg s cost hs hcost
  by_cases henough : cost - mglPaid cost s.pl * 100 ≤ total 7188 s.pl.inv
  · exact pays_of_start hlocks hlow hs hcost htotal (hbgl ▸ henough)
  · have hneither : ¬ (cost - mglPaid cost s.pl * 100 ≤
        contains s.pl.inv 7188) := by
      rwa [contains_eq_total hs.slots]
    obtain ⟨hleft, hfits⟩ := hbreakable.resolve_left hneither
    rw [← hview] at hleft hfits
    rw [view_amount] at hleft
    have hbefore := (Along.refl hs).bounds (show 7188 ∈ lockIds by decide)
    rw [← hneed] at henough hnonneg hsmall
    obtain ⟨mid, u, hbody, hmid, hu, hbroken, hgiven⟩ :=
      @breakMgl_again env s _ (payMgl env cost s).1 hlocks hlow hs.slots hstart
        (by omega) (by omega) hleft
    rw [← hbroken.eq_topped hapart] at hfits
    rw [if_pos hfits] at hgiven
    have hmidBgl := hbroken.bglKept hapart
    have hlast := hgiven.bglKept hapart
    have hmidWorth := hbroken.worth
    have hlastWorth := hgiven.worth
    rw [bigWorth_less_mgl] at hmidWorth
    rw [bigWorth_plus_bgl] at hlastWorth
    simp only [Pack.less, Pack.plus, view_amount, Int.reduceEq, ↓reduceIte,
      sub_zero] at hmidBgl hlast
    have hdone : (payMgl env cost s).1 ≤ total 7188 u.pl.inv := by omega
    have hruns : runs (breakMgl env (payMgl env cost s).1) 2
        (payMgl env cost s).2 = some u := by
      rw [runs_again hbody]
      exact runs_stop (breakMgl_enough hu.live.slots hdone)
    exact pays_of_enough hlocks hlow hs.slots hcost htotal hruns hu rfl hnonneg
      (by omega) hdone

end Enough

section Worth

variable {env : Env} {s t u : Session} {pl : Player} {a b d : Purse} {pack : Pack Int}
  {id c cost need worth more : Int}

/-- Conversions take from what is below the big locks. -/
structure Drained (a b : Purse) : Prop where
  gems : b.gems ≤ a.gems
  floor : b.gems = a.gems ∨ 0 ≤ b.gems
  wl : b.pack.amount 242 ≤ a.pack.amount 242
  dl : b.gems = a.gems → b.pack.amount 242 = a.pack.amount 242 →
    b.pack.amount 1796 ≤ a.pack.amount 1796

theorem Conversion.drained (h : Conversion pl a b) : Drained a b := by
  cases h with
  | @item fromId toId gems pack next hstep _ hnext =>
      have hamount := exchange_amount (ladder_locks hstep).2.2 hnext
      have hwl := hamount 242
      have hdl := hamount 1796
      simp only [ladder, List.mem_cons, Prod.mk.injEq, List.not_mem_nil, or_false] at hstep
      rcases hstep with ⟨rfl, rfl⟩ | ⟨rfl, rfl⟩ | ⟨rfl, rfl⟩ | ⟨rfl, rfl⟩ <;>
        simp only [Int.reduceEq, ↓reduceIte] at hwl hdl <;>
        exact ⟨le_refl _, Or.inl rfl, by dsimp only; omega, fun _ hsame => by
          dsimp only at hsame ⊢
          omega⟩
  | gems _ henough hnext =>
      have hwl := @Pack.change_amount_of_ne Int _ _ _ _ _ _ hnext 242 (by decide)
      exact ⟨by dsimp only; omega, Or.inr (by dsimp only; omega), le_of_eq hwl,
        fun hsame => by
          dsimp only at hsame
          omega⟩

theorem conversions_drained (h : ReflTransGen (Conversion pl) a b) : Drained a b := by
  induction h with
  | refl => exact ⟨le_refl _, Or.inl rfl, le_refl _, fun _ _ => le_refl _⟩
  | tail _ hlast ih =>
      have hstep := hlast.drained
      have hgems := hstep.gems
      have hwl := hstep.wl
      refine ⟨le_trans hgems ih.gems, ?_, le_trans hwl ih.wl, fun hsame hsameWl => ?_⟩
      · rcases hstep.floor with hkept | hfloor
        · rw [hkept]
          exact ih.floor
        · exact Or.inr hfloor
      · have hbefore := ih.gems
        have hbeforeWl := ih.wl
        exact le_trans (hstep.dl (by omega) (by omega)) (ih.dl (by omega) (by omega))

/-- Big locks are moved, and nothing else but by conversions. -/
structure BigMoved (worth : Int) (s t : Session) : Prop extends LocksMoved worth s t where
  lower : t.pl.gems ≤ s.pl.gems
  floor : t.pl.gems = s.pl.gems ∨ 0 ≤ t.pl.gems
  wl : contains t.pl.inv 242 ≤ contains s.pl.inv 242
  dl : t.pl.gems = s.pl.gems → contains t.pl.inv 242 = contains s.pl.inv 242 →
    contains t.pl.inv 1796 ≤ contains s.pl.inv 1796
  top : s.pl.autoConvert = false →
    contains t.pl.inv 20298 = contains s.pl.inv 20298

theorem BigMoved.refl (hs : Live s) : BigMoved 0 s s :=
  ⟨LocksMoved.refl hs, le_refl _, Or.inl rfl, le_refl _, fun _ _ => le_refl _, fun _ => rfl⟩

theorem BigMoved.trans (hst : BigMoved worth s t) (htu : BigMoved more t u) :
    BigMoved (worth + more) s u := by
  have hlower := hst.lower
  have hlast := htu.lower
  have hwl := hst.wl
  have hlastWl := htu.wl
  refine ⟨hst.toLocksMoved.trans htu.toLocksMoved, le_trans hlast hlower, ?_,
    le_trans hlastWl hwl, fun hsame hsameWl => ?_, fun hoff => ?_⟩
  · rcases htu.floor with hkept | hfloor
    · rw [hkept]
      exact hst.floor
    · exact Or.inr hfloor
  · exact le_trans (htu.dl (by omega) (by omega)) (hst.dl (by omega) (by omega))
  · have hon : t.pl.autoConvert = s.pl.autoConvert :=
      settings_congr hst.settings Player.autoConvert fun _ => rfl
    exact (htu.top (hon.trans hoff)).trans (hst.top hoff)

theorem LowKept.trans {pl next last : Player} (hfirst : LowKept pl next)
    (hlast : LowKept next last) : LowKept pl last :=
  ⟨hlast.gems.trans hfirst.gems, hlast.wl.trans hfirst.wl, hlast.dl.trans hfirst.dl⟩

/-- What is converted does not come back. -/
theorem LowKept.split (hkept : LowKept s.pl u.pl) (hst : BigMoved worth s t)
    (htu : BigMoved more t u) : LowKept s.pl t.pl ∧ LowKept t.pl u.pl := by
  obtain ⟨hgems, hwl, hdl⟩ := hkept
  have hlower := hst.lower
  have hlast := htu.lower
  have hfirstWl := hst.wl
  have hlastWl := htu.wl
  have hfirstDl := hst.dl (by omega) (by omega)
  have hlastDl := htu.dl (by omega) (by omega)
  exact ⟨⟨by omega, by omega, by omega⟩, ⟨by omega, by omega, by omega⟩⟩

/-- A call on one of the two locks of the payment. -/
theorem big_call (hlocks : env.items.LocksListed) (hs : Live s) (hid : id = 7188 ∨ id = 8470)
    (hchange : (view 0 s.pl.inv).change 200 id c = some pack) :
    BigMoved (c * lockGems id) s (modify env s id c true).session := by
  have hlock : id ∈ lockIds := by
    rcases hid with rfl | rfl <;> decide
  have houtcome := (modify_changed true hlocks hs (lock_accepts hlocks hlock)
    (lock_not_sold hlocks hlock s.pl c) hchange).2
  have hdrained := conversions_drained houtcome.steps
  have hbefore (other : Int) (hne : other ≠ id) :
      pack.amount other = contains s.pl.inv other :=
    (Pack.change_amount_of_ne hchange hne).trans (contains_eq_total hs.slots other).symm
  have hafter (other : Int) : contains (modify env s id c true).session.pl.inv other =
      (purse (modify env s id c true).session.pl).pack.amount other :=
    contains_eq_total houtcome.slots other
  refine ⟨houtcome.locksMoved hs hlock hchange, hdrained.gems, hdrained.floor, ?_, ?_, ?_⟩
  · rw [hafter, ← hbefore 242 (by omega)]
    exact hdrained.wl
  · rw [hafter, hafter, ← hbefore 242 (by omega), ← hbefore 1796 (by omega)]
    exact hdrained.dl
  · intro hoff
    have hquiet := houtcome.quiet fun hconverts => by
      rw [hconverts.1] at hoff
      cases hoff
    rw [hafter, hquiet, hbefore 20298 (by omega)]

theorem big_taken (hlocks : env.items.LocksListed) (hs : Live s)
    (hid : id = 7188 ∨ id = 8470) (hc : 0 < c) (henough : c ≤ contains s.pl.inv id) :
    BigMoved (-c * lockGems id) s (modify env s id (-c) true).session := by
  have hlock : id ∈ lockIds := by
    rcases hid with rfl | rfl <;> decide
  rw [contains_eq_total hs.slots] at henough
  have hcap := (hs.slots.wellFormed.total_bounds (by decide) (lockIds_ne_zero hlock)).2
  exact big_call hlocks hs hid (Pack.change_less hc henough hcap)

/-- The big gem locks that are paid. -/
theorem payMgl_moved (hlocks : env.items.LocksListed) (hs : Live s) (hcost : 0 < cost) :
    (0 ≤ (payMgl env cost s).1 ∧ (payMgl env cost s).1 ≤ cost) ∧
      (contains s.pl.inv 8470 = 0 → payMgl env cost s = (cost, s)) ∧
      BigMoved (((payMgl env cost s).1 - cost) * 30000000) s (payMgl env cost s).2 := by
  have hnonneg := contains_nonneg hs.slots (show (8470 : Int) ≠ 0 by decide)
  have hnothing : (0 ≤ cost ∧ cost ≤ cost) ∧ (contains s.pl.inv 8470 = 0 →
      (cost, s) = (cost, s)) ∧ BigMoved ((cost - cost) * 30000000) s s := by
    rw [sub_self, zero_mul]
    exact ⟨⟨hcost.le, le_refl _⟩, fun _ => rfl, BigMoved.refl hs⟩
  unfold payMgl
  dsimp only
  by_cases hmany : 0 < cost / 100
  · rw [if_pos hmany]
    generalize hpaid : (if contains s.pl.inv 8470 < cost / 100 then contains s.pl.inv 8470
      else cost / 100) = paid
    have hle : paid ≤ contains s.pl.inv 8470 ∧ paid ≤ cost / 100 := by
      split_ifs at hpaid <;> omega
    by_cases hpos : 0 < paid
    · have htaken := big_taken hlocks hs (Or.inr rfl) hpos hle.1
      have hworth : -paid * lockGems 8470 = (cost - paid * 100 - cost) * 30000000 := by
        rw [show lockGems 8470 = 3000000000 by decide]
        omega
      rw [if_pos hpos]
      rw [hworth] at htaken
      exact ⟨⟨by dsimp only; omega, by dsimp only; omega⟩, fun hnone => by omega, htaken⟩
    · rw [if_neg hpos]
      exact hnothing
  · rw [if_neg hmany]
    exact hnothing

/-- The rest is paid in big locks that are there. -/
theorem payBgl_moved (hlocks : env.items.LocksListed) (hs : Live s) (hneed : 0 ≤ need)
    (henough : need ≤ contains s.pl.inv 7188) :
    (payBgl env need s).1 = true ∧
      BigMoved (-need * 30000000) s (payBgl env need s).2 := by
  unfold payBgl
  by_cases hpos : 0 < need
  · have htaken := big_taken hlocks hs (Or.inl rfl) hpos henough
    rw [show lockGems 7188 = 30000000 by decide] at htaken
    rw [if_pos hpos, if_neg (not_lt.mpr henough)]
    exact ⟨rfl, htaken⟩
  · have hzero : need = 0 := by omega
    rw [if_neg hpos, hzero, neg_zero, zero_mul]
    exact ⟨rfl, BigMoved.refl hs⟩

theorem takeOne_moved (hlocks : env.items.LocksListed) (hs : Live s)
    (hsome : 0 < contains s.pl.inv 8470) :
    BigMoved (-lockGems 8470) s (takeOne env s).session := by
  have htaken := big_taken hlocks hs (Or.inr rfl) Int.one_pos hsome
  rw [neg_one_mul] at htaken
  unfold takeOne
  exact htaken

/-- The hundred big locks come when they fit. -/
theorem giveHundred_moved (hlocks : env.items.LocksListed) (hs : Live s) :
    ((view 0 s.pl.inv).Fits 200 7188 100 →
        BigMoved (lockGems 8470) s (giveHundred env s).session) ∧
      (¬ (view 0 s.pl.inv).Fits 200 7188 100 → (giveHundred env s).session = s) := by
  unfold giveHundred
  constructor
  · intro hfits
    have hnonneg := contains_nonneg hs.slots (show (7188 : Int) ≠ 0 by decide)
    rw [contains_eq_total hs.slots] at hnonneg
    have hgiven := big_call hlocks hs (Or.inl rfl) (Pack.change_plus (by decide) hnonneg hfits)
    rw [show 100 * lockGems 7188 = lockGems 8470 by decide] at hgiven
    exact hgiven
  · intro hfull
    exact (modify_of_not_fits hs.slots (by decide) true fun h => hfull h.2).2

theorem breakMgl_calls (hbody : breakMgl env need s = .again u) :
    (contains s.pl.inv 7188 < need ∧ 0 < contains s.pl.inv 8470) ∧
      (giveHundred env (takeOne env s).session).session = u := by
  unfold breakMgl at hbody
  split_ifs at hbody with hcondition
  unfold giveHundred takeOne
  exact ⟨hcondition.2, Next.again.inj hbody⟩

/-- What the loop has lost when it ends: some hundreds, or it broke as many as were
needed. -/
theorem runs_breaks (hlocks : env.items.LocksListed) (hneed : 0 ≤ need) {fuel : Nat}
    (hs : Live s) (hruns : runs (breakMgl env need) fuel s = some t) :
    ∃ lost : Nat, BigMoved (-lockGems 8470 * lost) s t ∧
      ¬ (0 < need ∧ total 7188 t.pl.inv < need ∧ 0 < total 8470 t.pl.inv) ∧
      (lost = 0 → need ≤ contains t.pl.inv 7188 →
        LowKept s.pl (payBgl env need t).2.pl → ∃ n, Breaks env need n s) := by
  induction fuel generalizing s with
  | zero => cases hruns
  | succ fuel ih =>
      cases hbody : breakMgl env need s with
      | stop u =>
          rw [runs_stop hbody] at hruns
          obtain rfl := Option.some.inj hruns
          obtain ⟨rfl, hdone⟩ := breakMgl_stop hs.slots hbody
          exact ⟨0, BigMoved.refl hs, hdone, fun _ henough hkept => ⟨0, henough, hkept⟩⟩
      | again u =>
          rw [runs_again hbody] at hruns
          obtain ⟨hentered, rfl⟩ := breakMgl_calls hbody
          have hbroken := takeOne_moved hlocks hs hentered.2
          obtain ⟨hfitting, hrefused⟩ := giveHundred_moved hlocks hbroken.live
          by_cases hfits : (view 0 (takeOne env s).session.pl.inv).Fits 200 7188 100
          · have hgiven := hfitting hfits
            obtain ⟨lost, hrest, hdone, hbreaks⟩ := ih hgiven.live hruns
            refine ⟨lost, ?_, hdone, fun hzero henough hkept => ?_⟩
            · have hall := (hbroken.trans hgiven).trans hrest
              rw [neg_add_cancel, zero_add] at hall
              exact hall
            · have hpaid := (payBgl_moved hlocks hrest.live hneed henough).2
              obtain ⟨hfirst, hafter⟩ := hkept.split hbroken (hgiven.trans (hrest.trans hpaid))
              obtain ⟨hsecond, hlast⟩ := hafter.split hgiven (hrest.trans hpaid)
              obtain ⟨n, hn⟩ := hbreaks hzero henough hlast
              exact ⟨n + 1, hentered, hfirst, hfits, hsecond, hn⟩
          · rw [hrefused hfits] at hruns
            obtain ⟨lost, hrest, hdone, -⟩ := ih hbroken.live hruns
            refine ⟨lost + 1, ?_, hdone, fun hzero => absurd hzero (Nat.succ_ne_zero lost)⟩
            have hall := hbroken.trans hrest
            rw [Nat.cast_succ, mul_add, mul_one, add_comm]
            exact hall

/-- A loop that breaks as many as are needed loses nothing. -/
theorem Breaks.runs (hlocks : env.items.LocksListed) {n : Nat} (hs : Live s)
    (hbreaks : Breaks env need n s) :
    ∃ t, runs (breakMgl env need) (n + 1) s = some t ∧ need ≤ contains t.pl.inv 7188 ∧
      BigMoved 0 s t ∧ LowKept s.pl (payBgl env need t).2.pl := by
  induction n generalizing s with
  | zero =>
      obtain ⟨henough, hkept⟩ := hbreaks
      have hstop := henough
      rw [contains_eq_total hs.slots] at hstop
      exact ⟨s, runs_stop (breakMgl_enough hs.slots hstop), henough, BigMoved.refl hs, hkept⟩
  | succ n ih =>
      obtain ⟨⟨hfew, hsome⟩, hfirst, hfits, hsecond, hrest⟩ := hbreaks
      have hnonneg := contains_nonneg hs.slots (show (7188 : Int) ≠ 0 by decide)
      have hbody : breakMgl env need s =
          .again (giveHundred env (takeOne env s).session).session :=
        if_pos ⟨by omega, hfew, hsome⟩
      have hbroken := takeOne_moved hlocks hs hsome
      have hgiven := (giveHundred_moved hlocks hbroken.live).1 hfits
      obtain ⟨t, hruns, henough, hmoved, hkept⟩ := ih hgiven.live hrest
      refine ⟨t, ?_, henough, ?_, (hfirst.trans hsecond).trans hkept⟩
      · rw [runs_again hbody]
        exact hruns
      · have hall := (hbroken.trans hgiven).trans hmoved
        rw [neg_add_cancel, zero_add] at hall
        exact hall

/-- The worth of a player in big locks and what is below. -/
theorem value_bgl (hs : SlotInv pl.inv) : (purse pl).value =
    pl.gems + 3000 * contains pl.inv 242 + 300000 * contains pl.inv 1796 +
      30000000 * (contains pl.inv 7188 + 100 * contains pl.inv 8470 +
        10000 * contains pl.inv 20298) := by
  rw [value_eq hs]
  unfold getTotalWL
  omega

theorem BigMoved.bglWorth (h : BigMoved worth s t) (hs : SlotInv s.pl.inv) :
    (purse t.pl).value - (purse s.pl).value =
      t.pl.gems - s.pl.gems + 3000 * (contains t.pl.inv 242 - contains s.pl.inv 242) +
        300000 * (contains t.pl.inv 1796 - contains s.pl.inv 1796) +
        30000000 * (bglWorth t.pl - bglWorth s.pl) := by
  have hon : t.pl.autoConvert = s.pl.autoConvert :=
    settings_congr h.settings Player.autoConvert fun _ => rfl
  have htop := h.top
  rw [value_bgl hs, value_bgl h.live.slots]
  unfold Inventory.bglWorth
  rw [hon]
  cases hconvert : s.pl.autoConvert with
  | true =>
      rw [if_pos rfl, if_pos rfl]
      omega
  | false =>
      rw [htop hconvert, if_neg Bool.false_ne_true]
      omega

/-- A payment is made when nothing lower is converted, and big gem locks can be broken as
long as it takes. -/
theorem pays_of_breaks (hlocks : env.items.LocksListed) (hs : Live s) (hcost : 0 < cost)
    (htotal : cost ≤ total 7188 s.pl.inv + total 8470 s.pl.inv * 100)
    (hstart : LowKept s.pl (payMgl env cost s).2.pl) {n : Nat}
    (hbreaks : Breaks env (payMgl env cost s).1 n (payMgl env cost s).2) :
    PaysBgl env cost s := by
  obtain ⟨⟨hneed, -⟩, -, hpaid⟩ := payMgl_moved hlocks hs hcost
  obtain ⟨t, hruns, henough, hmoved, hkept⟩ := hbreaks.runs hlocks hpaid.live
  obtain ⟨htrue, hlast⟩ := payBgl_moved hlocks hmoved.live hneed henough
  have hall := hpaid.trans (hmoved.trans hlast)
  have hlow := hstart.trans hkept
  refine ⟨n + 1, payBgl env (payMgl env cost s).1 t, ?_, fun _ _ => ⟨?_, ?_⟩, fun hfalse => ?_⟩
  · rw [ensurePayBGL_eq hs.slots hcost htotal, hruns, Option.map_some]
  · have hworth := hall.worth
    have hbgl := hall.bglWorth hs.slots
    rw [hlow.gems, hlow.wl, hlow.dl] at hbgl
    omega
  · intro id hbgl hmgl htop
    by_cases hlock : id ∈ lockIds
    · simp only [lockIds, List.mem_cons, List.not_mem_nil, or_false] at hlock
      rcases hlock with rfl | rfl | rfl | rfl | rfl
      · exact hlow.wl
      · exact hlow.dl
      · exact absurd rfl hbgl
      · exact absurd rfl hmgl
      · exact hall.top (Bool.eq_false_iff.mpr fun hon => htop hon rfl)
    · exact hall.others id hlock
  · rw [htrue] at hfalse
    cases hfalse

/-- A payment that is made has lost nothing and converted nothing lower: there are not
gems enough for a hundred. -/
theorem breaks_of_pays (hlocks : env.items.LocksListed) (hs : Live s) (hcost : 0 < cost)
    (htotal : cost ≤ total 7188 s.pl.inv + total 8470 s.pl.inv * 100)
    (hpays : PaysBgl env cost s) :
    LowKept s.pl (payMgl env cost s).2.pl ∧
      ∃ n, Breaks env (payMgl env cost s).1 n (payMgl env cost s).2 := by
  obtain ⟨⟨hneed, -⟩, hnone, hpaid⟩ := payMgl_moved hlocks hs hcost
  obtain ⟨fuel, result, hresult, htrue, hfalse⟩ := hpays
  rw [ensurePayBGL_eq hs.slots hcost htotal] at hresult
  obtain ⟨t, hruns, rfl⟩ := Option.map_eq_some_iff.mp hresult
  obtain ⟨lost, hmoved, hdone, hbreaks⟩ := runs_breaks hlocks hneed hpaid.live hruns
  by_cases henough : (payMgl env cost s).1 ≤ contains t.pl.inv 7188
  · obtain ⟨hmade, hlast⟩ := payBgl_moved hlocks hmoved.live hneed henough
    obtain ⟨hexact, hothers⟩ := htrue hmade hcost
    have hall := hpaid.trans (hmoved.trans hlast)
    have hworth := hall.worth
    have hbgl := hall.bglWorth hs.slots
    have hwl := hothers 242 (by decide) (by decide) fun _ => by decide
    have hdl := hothers 1796 (by decide) (by decide) fun _ => by decide
    have hgems := hs.gems
    have hfloor := hall.floor
    rw [show lockGems 8470 = 3000000000 by decide] at hworth
    have hzero : lost = 0 := by omega
    have hlow : LowKept s.pl (payBgl env (payMgl env cost s).1 t).2.pl :=
      ⟨by omega, hwl, hdl⟩
    obtain ⟨hstart, hrest⟩ := hlow.split hpaid (hmoved.trans hlast)
    exact ⟨hstart, hbreaks hzero henough hrest⟩
  · have hslots := hmoved.live.slots
    have hfew : total 7188 t.pl.inv < (payMgl env cost s).1 := by
      rw [← contains_eq_total hslots]
      exact not_le.mp henough
    have hbgl := contains_nonneg hslots (show (7188 : Int) ≠ 0 by decide)
    have hmgl := contains_nonneg hslots (show (8470 : Int) ≠ 0 by decide)
    rw [contains_eq_total hslots] at hbgl hmgl
    have hpos : 0 < (payMgl env cost s).1 := by omega
    rw [payBgl_refused hslots hpos hfew] at hfalse
    have hsame : t.pl.inv = s.pl.inv := hfalse rfl
    rw [hsame] at hfew hdone hmgl
    have hempty : total 8470 s.pl.inv = 0 := by omega
    rw [hnone ((contains_eq_total hs.slots 8470).trans hempty)] at hfew
    dsimp only at hfew
    omega

end Worth

section Broken

variable {env : Env} {s t u : Session} {cost need : Int}

/-- A payment that is made comes from where the loop stopped. -/
theorem exit_of_pays (hs : SlotInv s.pl.inv) (hcost : 0 < cost)
    (htotal : cost ≤ total 7188 s.pl.inv + total 8470 s.pl.inv * 100)
    (Inv : Session → Prop) (hslots : ∀ t, Inv t → SlotInv t.pl.inv)
    (hstart : Inv (payMgl env cost s).2)
    (hstep : ∀ t u, Inv t →
      breakMgl env (payMgl env cost s).1 t = .again u → Inv u)
    (hpays : PaysBgl env cost s) :
    ∃ t, Inv t ∧ ¬ (0 < (payMgl env cost s).1 ∧
        total 7188 t.pl.inv < (payMgl env cost s).1 ∧ 0 < total 8470 t.pl.inv) ∧
      ((payBgl env (payMgl env cost s).1 t).1 = true →
        bglWorth (payBgl env (payMgl env cost s).1 t).2.pl + cost =
          bglWorth s.pl) ∧
      ((payBgl env (payMgl env cost s).1 t).1 = false →
        (payBgl env (payMgl env cost s).1 t).2.pl.inv = s.pl.inv) := by
  obtain ⟨fuel, result, hresult, htrue, hfalse⟩ := hpays
  rw [ensurePayBGL_eq hs hcost htotal] at hresult
  obtain ⟨t, hruns, rfl⟩ := Option.map_eq_some_iff.mp hresult
  obtain ⟨last, hlast, hstop⟩ := runs_invariant Inv hstep hruns hstart
  obtain ⟨rfl, hdone⟩ := breakMgl_stop (hslots last hlast) hstop
  exact ⟨t, hlast, hdone, fun h => (htrue h hcost).1, hfalse⟩

/-- At the start of the loop, or with something lost. -/
structure Lost (s start t : Session) (paid : Int) : Prop where
  along : Along s t
  lost : t = start ∨
    bigWorth (view 0 t.pl.inv) + paid < bigWorth (view 0 s.pl.inv)

/-- What is lost does not come back. -/
theorem Lost.again {start : Session} {paid : Int}
    (hlocks : env.items.LocksListed) (hlow : LowIdle s.pl)
    (hs : SlotInv s.pl.inv) (hapart : ¬ Joins s.pl)
    (hworth : bigWorth (view 0 start.pl.inv) + paid =
      bigWorth (view 0 s.pl.inv))
    (hunfit : 0 < total 8470 start.pl.inv →
      ¬ (topped s.pl ((view 0 start.pl.inv).less 8470 1)).Fits 200 7188 100)
    (ht : Lost s start t paid) (hbody : breakMgl env need t = .again u) :
    Lost s start u paid := by
  obtain ⟨hpos, hfew, hsome⟩ := breakMgl_entered ht.along.live.slots hbody
  obtain ⟨mid, u', hagain, -, hu, hbroken, hgiven⟩ :=
    breakMgl_again hlocks hlow hs ht.along hpos hfew hsome
  obtain rfl : u = u' := Next.again.inj (hbody.symm.trans hagain)
  have hmidWorth := hbroken.worth
  rw [bigWorth_less_mgl] at hmidWorth
  refine ⟨hu, Or.inr ?_⟩
  split_ifs at hgiven with hfits
  · have hlastWorth := hgiven.worth
    rw [bigWorth_plus_bgl] at hlastWorth
    rcases ht.lost with rfl | hlost
    · rw [← hbroken.eq_topped hapart] at hunfit
      exact absurd hfits (hunfit hsome)
    · omega
  · subst hgiven
    rcases ht.lost with rfl | hlost
    · omega
    · omega

/-- Where big locks stay apart, a payment is only made when there is enough or
one more big gem lock can be broken. -/
theorem breakable_of_pays (hlocks : env.items.LocksListed)
    (hlow : LowIdle s.pl) (hs : Live s) (hcost : 0 < cost)
    (hapart : ¬ Joins s.pl)
    (htotal : cost ≤ total 7188 s.pl.inv + total 8470 s.pl.inv * 100)
    (hpays : PaysBgl env cost s) : Breakable cost s.pl := by
  obtain ⟨hneed, hstart, -⟩ := @payMgl_spec env s cost hlocks hlow hs hcost
  obtain ⟨hview, hbgl, -⟩ :=
    @payMgl_apart env s cost hlocks hlow hs hcost hapart
  have hworth := @payMgl_worth env s cost hlocks hlow hs hcost
  have hbefore := (Along.refl hs).bounds (show 7188 ∈ lockIds by decide)
  have hpaid := (@need_nonneg s cost hs hcost).1
  have hmgl := (hstart.bounds (show 8470 ∈ lockIds by decide)).1
  by_contra hnot
  unfold Breakable at hnot
  rw [contains_eq_total hs.slots, ← hneed, ← hview, not_or, not_and,
    view_amount] at hnot
  obtain ⟨hfew, hunfit⟩ := hnot
  have hstep (t u : Session)
      (ht : Lost s (payMgl env cost s).2 t (cost - (payMgl env cost s).1)) :=
    @Lost.again env s t u (payMgl env cost s).1 _ _ hlocks hlow hs.slots hapart
      (by omega) hunfit ht
  obtain ⟨t, ht, hdone, htrue, hfalse⟩ := exit_of_pays hs.slots hcost
    htotal _ (fun t ht => ht.along.live.slots) ⟨hstart, Or.inl rfl⟩ hstep hpays
  by_cases henough : (payMgl env cost s).1 ≤ total 7188 t.pl.inv
  · obtain ⟨hmade, hu, hafter⟩ := payBgl_paid hlocks hlow hs.slots ht.along
      (by omega) henough
    have hexact := htrue hmade
    have hdiff := (hu.bglWorth hs.slots).1
    rcases ht.lost with rfl | hlost
    · omega
    · omega
  · have hrefused := @payBgl_refused env t (payMgl env cost s).1
      ht.along.live.slots (by omega) (by omega)
    rw [hrefused] at hfalse
    have hsame := hfalse rfl
    have hnone := (ht.along.bounds (show 8470 ∈ lockIds by decide)).1
    rw [hsame] at hdone hnone
    omega

/-- In the loop where big locks are put together again. -/
structure Rejoined (s t : Session) (need : Int) : Prop where
  along : Along s t
  few : total 7188 t.pl.inv < need
  small : total 7188 t.pl.inv < 100
  present : 0 < total 7188 t.pl.inv → 0 < total 7188 s.pl.inv

/-- Big locks are only left apart for want of room for one more big gem lock,
and a cramped player apart that room is there. -/
theorem joined_small (hs : SlotInv s.pl.inv) (ht : Along s t)
    (hjoins : Joins s.pl) (hcalm : ¬ Cramped s.pl)
    (hmgl : 0 < total 8470 s.pl.inv)
    (hjoined : exchange 7188 8470 (view 0 t.pl.inv) = none)
    (hpresent : 100 < total 7188 t.pl.inv → 0 < total 7188 s.pl.inv) :
    total 7188 t.pl.inv < 100 ∨ total 8470 t.pl.inv = 200 := by
  have hbgl := ht.bounds (show 7188 ∈ lockIds by decide)
  have hsome := ht.bounds (show 8470 ∈ lockIds by decide)
  rcases exchange_eq_none (by decide) hbgl.2 hsome.1 hjoined with
    hfew | hfull | ⟨hnone, hroom, hne⟩
  · exact Or.inl hfew
  · rw [view_amount] at hfull
    omega
  · left
    by_contra hmany
    rw [view_amount] at hnone hne
    have hheld := hpresent (by omega)
    have hbglT : total 7188 t.pl.inv ≠ 0 := by omega
    have hbglS : total 7188 s.pl.inv ≠ 0 := by omega
    have hmglS : total 8470 s.pl.inv ≠ 0 := by omega
    have hslots := ht.slots
    rw [slotsOf_view, slotsOf_view, hroom, if_neg hbglT, if_pos hnone,
      if_neg hbglS, if_neg hmglS] at hslots
    by_cases htops : Tops s.pl
    · apply hcalm
      refine ⟨⟨hjoins, htops⟩, ?_, ?_⟩
      · rw [contains_eq_total hs]
        split_ifs at hslots <;> omega
      · change (view 0 s.pl.inv).room = 0
        split_ifs at hslots <;> omega
    · rw [ht.topKept htops] at hslots
      omega

/-- An iteration puts the hundred together again.  The last big gem lock is
never lost: it leaves a slot for the hundred. -/
theorem Rejoined.again (hlocks : env.items.LocksListed) (hlow : LowIdle s.pl)
    (hs : SlotInv s.pl.inv) (hjoins : Joins s.pl) (hcalm : ¬ Cramped s.pl)
    (hmgl : 0 < total 8470 s.pl.inv) (ht : Rejoined s t need)
    (hbody : breakMgl env need t = .again u) :
    Rejoined s u need ∧ (¬ Tops s.pl → 0 < total 8470 u.pl.inv) := by
  obtain ⟨hpos, hfew, hsome⟩ := breakMgl_entered ht.along.live.slots hbody
  obtain ⟨mid, u', hagain, hmid, hu, hbroken, hgiven⟩ :=
    breakMgl_again hlocks hlow hs ht.along hpos hfew hsome
  obtain rfl : u = u' := Next.again.inj (hbody.symm.trans hagain)
  have hbgl {t : Session} (ht : Along s t) :=
    ht.bounds (show 7188 ∈ lockIds by decide)
  have hmany {t : Session} (ht : Along s t) :=
    ht.bounds (show 8470 ∈ lockIds by decide)
  have hbglT := hbgl ht.along
  have hbglMid := hbgl hmid
  have hbglU := hbgl hu
  have hmglT := hmany ht.along
  have hmglMid := hmany hmid
  have hmglU := hmany hu
  have hsmall := ht.small
  -- breaking one leaves the big locks as they are
  have hmidWorth := hbroken.worth
  have hmidBgl := hbroken.bgl
  have hmidTop := hbroken.top
  rw [bigWorth_less_mgl, bigWorth_view, bigWorth_view] at hmidWorth
  simp only [Pack.less, view_amount, Int.reduceEq, ↓reduceIte, sub_zero]
    at hmidBgl hmidTop
  have hsame : total 7188 mid.pl.inv = total 7188 t.pl.inv := by omega
  split_ifs at hgiven with hfits
  · have hlastWorth := hgiven.worth
    have hlastBgl := hgiven.bgl
    have hlastTop := hgiven.top
    rw [bigWorth_plus_bgl, bigWorth_view, bigWorth_view] at hlastWorth
    simp only [Pack.plus, view_amount, Int.reduceEq, ↓reduceIte, add_zero]
      at hlastBgl hlastTop
    have hback : total 7188 u.pl.inv < 100 := by
      rcases joined_small hs hu hjoins hcalm hmgl (hgiven.joined hjoins)
        (fun hover => ht.present (by omega)) with hback | hfull
      · exact hback
      · omega
    have hagain : total 7188 u.pl.inv = total 7188 t.pl.inv := by omega
    refine ⟨⟨hu, hagain ▸ ht.few, hback, fun hheld => ht.present (hagain ▸ hheld)⟩,
      fun hoff => ?_⟩
    have htopT := ht.along.topKept hoff
    have htopU := hu.topKept hoff
    have htopMid := hmid.topKept hoff
    omega
  · subst hgiven
    refine ⟨⟨hu, hsame ▸ ht.few, hsame ▸ ht.small,
      fun hheld => ht.present (hsame ▸ hheld)⟩, fun hoff => ?_⟩
    by_contra hlast
    have hnone : total 8470 u.pl.inv = 0 := by omega
    have hmglS : total 8470 s.pl.inv ≠ 0 := by omega
    have hempty : total 7188 u.pl.inv = 0 ∧ (view 0 u.pl.inv).room = 0 := by
      unfold Pack.Fits at hfits
      rw [view_amount] at hfits
      omega
    have hslots := hu.slots
    rw [slotsOf_view, slotsOf_view, hempty.2, if_pos hempty.1, if_pos hnone,
      if_neg hmglS, hu.topKept hoff] at hslots
    omega

theorem mgl_present (hs : Live s) (hcost : 0 < cost)
    (htotal : cost ≤ total 7188 s.pl.inv + total 8470 s.pl.inv * 100)
    (hbroken : ¬ Unbroken cost s.pl) : 0 < total 8470 s.pl.inv := by
  have hpaid := @mglPaid_eq s cost hs.slots
  unfold Unbroken at hbroken
  rw [contains_eq_total hs.slots] at hbroken
  by_contra hnone
  rw [if_neg (by omega)] at hbroken
  omega

/-- A player whose stacks of the two big locks stay, who has no 20298 before
nor after and no slot left, was cramped to begin with. -/
theorem Along.cramped (hs : SlotInv s.pl.inv) (ht : Along s t)
    (hjoins : Joins s.pl) (htops : Tops s.pl)
    (hbefore : total 7188 s.pl.inv ≠ 0 ∧ total 8470 s.pl.inv ≠ 0 ∧
      total 20298 s.pl.inv = 0)
    (hafter : total 7188 t.pl.inv ≠ 0 ∧ total 8470 t.pl.inv ≠ 0 ∧
      total 20298 t.pl.inv = 0)
    (hroom : (view 0 t.pl.inv).room = 0) : Cramped s.pl := by
  have hslots := ht.slots
  rw [slotsOf_view, slotsOf_view, hroom, if_neg hafter.1, if_neg hafter.2.1,
    if_pos hafter.2.2, if_neg hbefore.1, if_neg hbefore.2.1,
    if_pos hbefore.2.2] at hslots
  refine ⟨⟨hjoins, htops⟩, ?_, ?_⟩
  · rw [contains_eq_total hs]
    exact hbefore.2.2
  · change (view 0 s.pl.inv).room = 0
    omega

/-- The loop starts without enough big locks. -/
theorem rejoined_start (hlocks : env.items.LocksListed) (hlow : LowIdle s.pl)
    (hs : Live s) (hcost : 0 < cost) (hjoins : Joins s.pl)
    (hcalm : ¬ Cramped s.pl)
    (htotal : cost ≤ total 7188 s.pl.inv + total 8470 s.pl.inv * 100)
    (hbroken : ¬ Unbroken cost s.pl) :
    Rejoined s (payMgl env cost s).2 (payMgl env cost s).1 := by
  have hmgl := mgl_present hs hcost htotal hbroken
  have hpaid := @mglPaid_eq s cost hs.slots
  obtain ⟨hneed, hstart, hphase⟩ := @payMgl_spec env s cost hlocks hlow hs hcost
  rw [hneed]
  have hbglS := (Along.refl hs).bounds (show 7188 ∈ lockIds by decide)
  have hmglS := (Along.refl hs).bounds (show 8470 ∈ lockIds by decide)
  have hbglT := hstart.bounds (show 7188 ∈ lockIds by decide)
  have htopT := hstart.bounds (show 20298 ∈ lockIds by decide)
  unfold Unbroken at hbroken
  simp only [contains_eq_total hs.slots] at hbroken
  rcases hphase with ⟨hpos, hreached⟩ | ⟨hzero, hsame⟩
  · rw [if_pos hpos, not_or] at hbroken
    obtain ⟨hfew, hnotFull⟩ := hbroken
    have hworth := hreached.worth
    have hbgl := hreached.bgl
    have htop := hstart.top
    rw [bigWorth_less_mgl, bigWorth_view, bigWorth_view] at hworth
    simp only [Pack.less, view_amount, Int.reduceEq, ↓reduceIte, sub_zero] at hbgl
    have hsmall : total 7188 (payMgl env cost s).2.pl.inv < 100 := by
      rcases joined_small hs.slots hstart hjoins hcalm hmgl
        (hreached.joined hjoins) (by omega) with hsmall | hfull
      · exact hsmall
      · by_contra hmany
        have hkept : total 20298 (payMgl env cost s).2.pl.inv =
            total 20298 s.pl.inv := by omega
        apply hnotFull
        refine ⟨by omega, by omega, ?_⟩
        rw [or_iff_not_imp_left, not_not]
        intro htops
        rcases exchange_eq_none (by decide) (le_of_eq hfull) htopT.1
          (hreached.toppedUp htops) with hlow | hlimit | ⟨hnone, hroom, -⟩
        · rw [view_amount] at hlow
          omega
        · rw [view_amount] at hlimit
          omega
        · rw [view_amount] at hnone
          exact absurd (hstart.cramped hs.slots hjoins htops
            ⟨by omega, by omega, by omega⟩ ⟨by omega, by omega, hnone⟩ hroom) hcalm
    exact ⟨hstart, by omega, hsmall, by omega⟩
  · rw [if_neg (by omega)] at hbroken
    rw [hsame]
    exact ⟨Along.refl hs, by omega, by omega, fun h => h⟩

/-- Where big locks are put together, a payment is only made when nothing has
to be broken. -/
theorem unbroken_of_pays (hlocks : env.items.LocksListed) (hlow : LowIdle s.pl)
    (hs : Live s) (hcost : 0 < cost) (hjoins : Joins s.pl)
    (hcalm : ¬ Cramped s.pl)
    (htotal : cost ≤ total 7188 s.pl.inv + total 8470 s.pl.inv * 100)
    (hpays : PaysBgl env cost s) : Unbroken cost s.pl := by
  by_contra hbroken
  have hmgl := mgl_present hs hcost htotal hbroken
  have hstart := @rejoined_start env s cost hlocks hlow hs hcost hjoins hcalm
    htotal hbroken
  obtain ⟨t, ht, hdone, -, hfalse⟩ := exit_of_pays hs.slots hcost htotal
    (fun t => Rejoined s t (payMgl env cost s).1)
    (fun t ht => ht.along.live.slots) hstart
    (fun t u ht hbody =>
      (ht.again hlocks hlow hs.slots hjoins hcalm hmgl hbody).1) hpays
  have hbgl := ht.along.bounds (show 7188 ∈ lockIds by decide)
  have hneed : 0 < (payMgl env cost s).1 := by
    have hfew := ht.few
    omega
  rw [payBgl_refused ht.along.live.slots hneed ht.few] at hfalse
  have hsame : t.pl.inv = s.pl.inv := hfalse rfl
  apply hdone
  refine ⟨hneed, ht.few, ?_⟩
  rw [hsame]
  exact hmgl

/-- It never ends when something has to be broken. -/
theorem ensurePayBGL_diverges (hlocks : env.items.LocksListed)
    (hlow : LowIdle s.pl) (hs : Live s) (hcost : 0 < cost) (hjoins : Joins s.pl)
    (hoff : ¬ Tops s.pl)
    (htotal : cost ≤ total 7188 s.pl.inv + total 8470 s.pl.inv * 100)
    (hbroken : ¬ Unbroken cost s.pl) (fuel : Nat) :
    ensurePayBGL env cost fuel s = none := by
  have hcalm : ¬ Cramped s.pl := fun h => hoff h.1.2
  have hmgl := mgl_present hs hcost htotal hbroken
  have hstart := @rejoined_start env s cost hlocks hlow hs hcost hjoins hcalm
    htotal hbroken
  have hneed := (@payMgl_spec env s cost hlocks hlow hs hcost).1
  have hworth := @payMgl_worth env s cost hlocks hlow hs hcost
  have hfew := hstart.few
  have hbgl := (hstart.along.bounds (show 7188 ∈ lockIds by decide)).1
  have hkept := hstart.along.topKept hoff
  rw [bigWorth_view, bigWorth_view, hkept] at hworth
  rw [ensurePayBGL_eq hs.slots hcost htotal, Option.map_eq_none_iff]
  apply runs_eq_none fun t => Rejoined s t (payMgl env cost s).1 ∧
    0 < total 8470 t.pl.inv
  · rintro t ⟨ht, hsome⟩
    have hbglT := (ht.along.bounds (show 7188 ∈ lockIds by decide)).1
    have hfewT := ht.few
    obtain ⟨mid, u, hbody, -⟩ := breakMgl_again hlocks hlow hs.slots ht.along
      (by omega) hfewT hsome
    obtain ⟨hu, hleft⟩ := ht.again hlocks hlow hs.slots hjoins hcalm hmgl hbody
    exact ⟨u, hbody, hu, hleft hoff⟩
  · exact ⟨hstart, by omega⟩

/-- A player with one big gem lock whose big locks are put together. -/
def joiner : Session where
  pl := { inv := [(8470, 1), (0, 0)], autoConvert := true
          autoCvModeBglToGgl := true }
  worlds := []

end Broken

end Inventory

end NopyServer
