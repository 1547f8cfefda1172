/-
What `AutoConvert` does to a purse, as a relation.  A conversion takes a
hundred of one lock for one of the next, or 300000 gems for a diamond lock.
`AutoConvert` is a run of conversions to the end; nothing else of the session
changes.  A property that each conversion keeps is therefore kept by every
`Modify` whose callback this is.
-/
import Mathlib.Logic.Relation
import NopyServer.AutoConvert

namespace NopyServer

namespace Inventory

open BoundedLoop Relation SlotPack

/-- What conversions work on: the gems and the amounts in the backpack. -/
structure Purse where
  gems : Int
  pack : Pack Int

/-- The purse of a player. -/
def purse (pl : Player) : Purse := ⟨pl.gems, view 0 pl.inv⟩

/-- One conversion that the settings of a player switch on. -/
inductive Conversion (pl : Player) : Purse → Purse → Prop where
  | item {fromId toId : Int} {gems : Int} {pack next : Pack Int}
      (hstep : (fromId, toId) ∈ ladder) (hon : switchedOn pl fromId = true)
      (hnext : exchange fromId toId pack = some next) :
      Conversion pl ⟨gems, pack⟩ ⟨gems, next⟩
  | gems {gems : Int} {pack next : Pack Int}
      (hon : pl.autoCvModeGemsToDl = true) (henough : 300000 ≤ gems)
      (hnext : pack.change 200 1796 1 = some next) :
      Conversion pl ⟨gems, pack⟩ ⟨gems - 300000, next⟩

/-- The settings under which `AutoConvert` does anything. -/
def Converts (pl : Player) : Prop :=
  pl.autoConvert = true ∧ pl.autoConvertProcessing = false

instance (pl : Player) : Decidable (Converts pl) :=
  inferInstanceAs (Decidable (_ ∧ _))

theorem not_converts_iff {pl : Player} : ¬ Converts pl ↔
    pl.autoConvert = false ∨ pl.autoConvertProcessing = true := by
  unfold Converts
  cases pl.autoConvert <;> cases pl.autoConvertProcessing <;> simp

theorem converts_of_core {pl next : Player} (hcore : next.core = pl.core) :
    Converts next ↔ Converts pl := by
  unfold Converts
  rw [Player.core_congr hcore Player.autoConvert fun _ => rfl,
    Player.core_congr hcore Player.autoConvertProcessing fun _ => rfl]

theorem converts_of_settings {pl next : Player}
    (hsettings : settings next = settings pl) : Converts next ↔ Converts pl := by
  unfold Converts
  rw [settings_congr hsettings Player.autoConvert fun _ => rfl,
    settings_congr hsettings Player.autoConvertProcessing fun _ => rfl]

/-- No conversion is possible, or none is tried. -/
def Settled (pl : Player) (purse : Purse) : Prop :=
  Converts pl → ∀ next, ¬ Conversion pl purse next

section Relation

variable {pl other : Player} {a b : Purse}

theorem Conversion.congr
    (hgems : other.autoCvModeGemsToDl = pl.autoCvModeGemsToDl)
    (hitem : ∀ id, switchedOn other id = switchedOn pl id)
    (h : Conversion pl a b) : Conversion other a b := by
  cases h with
  | item hstep hon hnext => exact .item hstep ((hitem _).trans hon) hnext
  | gems hon henough hnext => exact .gems (hgems.trans hon) henough hnext

theorem Conversion.of_settings (hsettings : settings other = settings pl)
    (h : Conversion pl a b) : Conversion other a b :=
  h.congr (settings_congr hsettings Player.autoCvModeGemsToDl fun _ => rfl)
    (switchedOn_of_settings hsettings)

theorem Settled.of_settings (hsettings : settings other = settings pl)
    (h : Settled pl a) : Settled other a := by
  intro hconverts next hnext
  exact h ((converts_of_settings hsettings).mp hconverts) next
    (hnext.of_settings hsettings.symm)

/-- What every conversion keeps, a run of conversions keeps. -/
theorem conversions_conserve {α : Type} (f : Purse → α)
    (hstep : ∀ a b, Conversion pl a b → f b = f a)
    (h : ReflTransGen (Conversion pl) a b) : f b = f a := by
  induction h with
  | refl => rfl
  | tail _ hlast ih => exact (hstep _ _ hlast).trans ih

/-- The locks and gems of a purse, in gems. -/
def Purse.value (purse : Purse) : Int := packValue purse.gems purse.pack

theorem Conversion.value (h : Conversion pl a b) : b.value = a.value := by
  cases h with
  | item hstep _ hnext => exact (exchange_measures hstep hnext).1
  | gems _ henough hnext => exact (gems_measures henough hnext).1

theorem Conversion.others (h : Conversion pl a b) {id : Int}
    (hid : id ∉ lockIds) : b.pack.amount id = a.pack.amount id := by
  cases h with
  | item hstep _ hnext => exact exchange_others hstep hnext hid
  | gems _ _ hnext =>
      exact Pack.change_amount_of_ne hnext fun h => hid (h ▸ by decide)

theorem conversions_value (h : ReflTransGen (Conversion pl) a b) :
    b.value = a.value :=
  conversions_conserve Purse.value (fun _ _ => Conversion.value) h

theorem conversions_others (h : ReflTransGen (Conversion pl) a b) {id : Int}
    (hid : id ∉ lockIds) : b.pack.amount id = a.pack.amount id :=
  conversions_conserve (fun purse => purse.pack.amount id)
    (fun _ _ hstep => hstep.others hid) h

theorem conversions_gems (h : ReflTransGen (Conversion pl) a b) :
    b.gems ≤ a.gems := by
  induction h with
  | refl => exact le_refl _
  | tail _ hlast ih =>
      cases hlast with
      | item _ _ _ => exact ih
      | gems _ _ _ =>
          dsimp only at ih ⊢
          omega

end Relation

section Shifts

variable {pl : Player} {ids : List Int} {a b c : Purse}

/-- From a purse, only locks of a list are converted into each other. -/
def Within (pl : Player) (ids : List Int) (purse : Purse) : Prop :=
  ∀ next, Conversion pl purse next → next.gems = purse.gems ∧
    ∃ fromId ∈ ids, ∃ toId ∈ ids, (fromId, toId) ∈ ladder ∧
      exchange fromId toId purse.pack = some next.pack

/-- What conversions within a list of locks leave of a purse.  A lock is only
ever made from the one below it. -/
structure Shifted (ids : List Int) (a b : Purse) : Prop where
  gems : b.gems = a.gems
  value : b.value = a.value
  others : ∀ id, id ∉ ids → b.pack.amount id = a.pack.amount id
  slots : b.pack.slotsOf ids = a.pack.slotsOf ids
  nonneg : (∀ id, 0 ≤ a.pack.amount id) → ∀ id, 0 ≤ b.pack.amount id
  low : ∀ low : List Int, (∀ step ∈ ladder, step.2 ∈ low → step.1 ∈ low) →
    (∀ id ∈ low, a.pack.amount id = 0) → ∀ id ∈ low, b.pack.amount id = 0

theorem Shifted.refl (ids : List Int) (a : Purse) : Shifted ids a a :=
  ⟨rfl, rfl, fun _ _ => rfl, rfl, fun h => h, fun _ _ h => h⟩

theorem Shifted.trans (hab : Shifted ids a b) (hbc : Shifted ids b c) :
    Shifted ids a c where
  gems := hbc.gems.trans hab.gems
  value := hbc.value.trans hab.value
  others id hid := (hbc.others id hid).trans (hab.others id hid)
  slots := hbc.slots.trans hab.slots
  nonneg h := hbc.nonneg (hab.nonneg h)
  low low hlow h := hbc.low low hlow (hab.low low hlow h)

/-- A conversion takes a hundred of what there is, and leaves a stack of at
most two hundred. -/
theorem exchange_range {fromId toId : Int} {pack next : Pack Int}
    (hne : fromId ≠ toId) (h : exchange fromId toId pack = some next) :
    100 ≤ pack.amount fromId ∧ pack.amount toId < 200 := by
  have hamount := exchange_amount hne h
  obtain ⟨taken, htake, hadd⟩ := Option.bind_eq_some_iff.mp h
  have hleft := (Pack.change_range htake).1 (by decide)
  have hfull := (Pack.change_range hadd).2
  rw [Pack.change_amount_self htake] at hleft
  rw [hamount toId, if_pos rfl, if_neg hne.symm] at hfull
  omega

theorem Conversion.shifted (hnodup : ids.Nodup) (hwithin : Within pl ids a)
    (h : Conversion pl a b) : Shifted ids a b := by
  obtain ⟨hgems, fromId, hfrom, toId, hto, hstep, hexchange⟩ := hwithin b h
  have hne := (ladder_locks hstep).2.2
  have hamount := exchange_amount hne hexchange
  have henough := (exchange_range hne hexchange).1
  obtain ⟨taken, htake, hadd⟩ := Option.bind_eq_some_iff.mp hexchange
  constructor
  · exact hgems
  · exact h.value
  · intro id hid
    have hneTo : id ≠ toId := fun heq => hid (heq ▸ hto)
    have hneFrom : id ≠ fromId := fun heq => hid (heq ▸ hfrom)
    rw [hamount id, if_neg hneTo, if_neg hneFrom]
    omega
  · rw [Pack.change_slotsOf hadd hto hnodup, Pack.change_slotsOf htake hfrom hnodup]
  · intro hnonneg
    exact Pack.change_nonneg hadd (Pack.change_nonneg htake hnonneg)
  · intro low hlow hzero id hid
    have hneFrom : id ≠ fromId := by
      rintro rfl
      have hnone := hzero id hid
      omega
    have hneTo : id ≠ toId := by
      rintro rfl
      have hnone := hzero fromId (hlow _ hstep hid)
      omega
    rw [hamount id, if_neg hneTo, if_neg hneFrom, hzero id hid]
    rfl

/-- A run of conversions that stays within a list of locks. -/
theorem conversions_shifted (hnodup : ids.Nodup)
    (hwithin : ∀ b, Shifted ids a b → Within pl ids b)
    (h : ReflTransGen (Conversion pl) a b) : Shifted ids a b := by
  induction h with
  | refl => exact Shifted.refl ids a
  | tail _ hlast ih => exact ih.trans (hlast.shifted hnodup (hwithin _ ih))

end Shifts

/-- What `AutoConvert` relies on: a well-formed backpack, infinite mode off and
a number of gems that fits its type. -/
structure Live (s : Session) : Prop where
  slots : SlotInv s.pl.inv
  finite : s.pl.infiniteMode = false
  gems : s.pl.gems < 2 ^ 31

section Refinement

variable {env : Env} {s t u : Session} {fromId toId : Int}

/-- Nothing but the player has changed. -/
def Confined (s t : Session) : Prop := t = { s with pl := t.pl }

theorem Confined.refl (s : Session) : Confined s s := rfl

theorem Confined.player (s : Session) (pl : Player) :
    Confined s { s with pl := pl } := rfl

theorem Confined.trans (hst : Confined s t) (htu : Confined t u) :
    Confined s u := by
  unfold Confined at hst htu ⊢
  rw [htu, hst]

/-- A session inside `AutoConvert` that conversions have led to. -/
structure Trail (s t : Session) : Prop where
  converting : Converting t
  settings : settings t.pl = settings s.pl
  confined : Confined s t
  steps : ReflTransGen (Conversion s.pl) (purse s.pl) (purse t.pl)

theorem Trail.refl (hs : Converting s) : Trail s s :=
  ⟨hs, rfl, Confined.refl s, .refl⟩

theorem Trail.step (hst : Trail s t) (hu : Converting u)
    (hsettings : Inventory.settings u.pl = Inventory.settings t.pl)
    (hconfined : Confined t u) (h : Conversion t.pl (purse t.pl) (purse u.pl)) :
    Trail s u where
  converting := hu
  settings := hsettings.trans hst.settings
  confined := hst.confined.trans hconfined
  steps := hst.steps.tail (h.of_settings hst.settings.symm)

theorem Trail.still (hst : Trail s t) (hu : Converting u)
    (hsettings : Inventory.settings u.pl = Inventory.settings t.pl)
    (hconfined : Confined t u) (h : purse u.pl = purse t.pl) : Trail s u where
  converting := hu
  settings := hsettings.trans hst.settings
  confined := hst.confined.trans hconfined
  steps := h ▸ hst.steps

theorem modify_lock_confined (hlocks : env.items.LocksListed)
    (hs : Converting s) {id : Int} (hid : id ∈ lockIds) (c : Int)
    (forceReturn : Bool) :
    Converting (modify env s id c forceReturn).session ∧
      Confined s (modify env s id c forceReturn).session := by
  rcases modify_lock hlocks hs hid c forceReturn with
    ⟨next, left, heq, hchanged⟩ | ⟨left, heq, -⟩
  · rw [heq]
    exact ⟨hchanged.converting hs, rfl⟩
  · rw [heq]
    exact ⟨hs, rfl⟩

theorem convertItemBody_confined (hlocks : env.items.LocksListed)
    (hfrom : fromId ∈ lockIds) (hto : toId ∈ lockIds) (hs : Converting s)
    (k : Nat) :
    Confined s (convertItemBody (modify env) fromId toId (s, k)).state.1 := by
  have htaken := modify_lock_confined hlocks hs hfrom (-100) true
  have hadded := modify_lock_confined hlocks htaken.1 hto 1 true
  have hrefund := modify_lock_confined hlocks hadded.1 hfrom 100 true
  unfold convertItemBody
  dsimp only
  split_ifs
  · exact htaken.2
  · exact htaken.2.trans (hadded.2.trans hrefund.2)
  · exact htaken.2.trans hadded.2
  · exact Confined.refl s

theorem convertGemsBody_confined (hlocks : env.items.LocksListed)
    (hs : Converting s) (k : Nat) :
    Confined s (convertGemsBody (modify env) (s, k)).state.1 := by
  have hadded := @modify_lock_confined env s hlocks hs 1796 (by decide) 1 true
  unfold convertGemsBody
  dsimp only
  generalize modify env s 1796 1 true = added at hadded ⊢
  split_ifs
  · exact hadded.2
  · simp only [Next.state_again]
    exact hadded.2.trans (Confined.player added.session _)
  · exact Confined.refl s

theorem Exchanged.purse {pack : Pack Int} (h : Exchanged s pack t) :
    purse t.pl = ⟨s.pl.gems, pack⟩ := by
  unfold Inventory.purse
  rw [h.gems, h.view]

theorem Trail.convertItemBody (hlocks : env.items.LocksListed)
    (hstep : (fromId, toId) ∈ ladder) (hon : switchedOn s.pl fromId = true)
    (state : Session × Nat) (hst : Trail s state.1) :
    Trail s (convertItemBody (modify env) fromId toId state).state.1 := by
  obtain ⟨mid, k⟩ := state
  obtain ⟨hfrom, hto, -⟩ := ladder_locks hstep
  have hconfined := convertItemBody_confined hlocks hfrom hto hst.converting k
  rcases convertItemBody_cases hlocks hfrom hto hst.converting k with
    ⟨-, t, hsame, hbody⟩ | ⟨pack, t, hsome, hnext, hbody⟩
  · rw [hbody] at hconfined ⊢
    exact hst.still hsame.converting hsame.settings hconfined hsame.purse
  · rw [hbody] at hconfined ⊢
    have hmid : switchedOn mid.pl fromId = true :=
      (switchedOn_of_settings hst.settings fromId).trans hon
    apply hst.step hnext.converting hnext.settings hconfined
    rw [hnext.purse]
    exact .item hstep hmid hsome

theorem Trail.convertGemsBody (hlocks : env.items.LocksListed)
    (hon : s.pl.autoCvModeGemsToDl = true) (state : Session × Nat)
    (hst : Trail s state.1) :
    Trail s (convertGemsBody (modify env) state).state.1 := by
  obtain ⟨mid, k⟩ := state
  have hconfined := convertGemsBody_confined hlocks hst.converting k
  rcases convertGemsBody_cases hlocks hst.converting k with
    ⟨-, hbody⟩ | ⟨henough, t, hconverting, hsettings, hgems, hview, hbody⟩
  · rw [hbody]
    exact hst
  · rw [hbody] at hconfined ⊢
    have hmid : mid.pl.autoCvModeGemsToDl = true :=
      (settings_congr hst.settings Player.autoCvModeGemsToDl
        fun _ => rfl).trans hon
    apply hst.step hconverting hsettings hconfined
    have hpurse : purse t.pl = ⟨mid.pl.gems - 300000, view 0 t.pl.inv⟩ := by
      unfold purse
      rw [hgems]
    rw [hpurse]
    exact .gems hmid henough hview

theorem Trail.tryConvertGems (hlocks : env.items.LocksListed)
    (hst : Trail s t) : Trail s (tryConvertGems (modify env) t).2 := by
  unfold Inventory.tryConvertGems
  split_ifs with hoff
  · exact hst
  · exact hst
  · have hon : s.pl.autoCvModeGemsToDl = true :=
      (settings_congr hst.settings Player.autoCvModeGemsToDl
        fun _ => rfl).symm.trans (by simpa using hoff)
    exact run_invariant (fun state : Session × Nat => Trail s state.1)
      (Trail.convertGemsBody hlocks hon) _ hst

theorem Trail.tryConvertItem (hlocks : env.items.LocksListed)
    (hstep : (fromId, toId) ∈ ladder) (hst : Trail s t) :
    Trail s (tryConvertItem (modify env) fromId toId
      (switchedOn t.pl fromId) t).2 := by
  unfold Inventory.tryConvertItem
  split_ifs with hoff
  · exact hst
  · exact hst
  · have hon : switchedOn s.pl fromId = true :=
      (switchedOn_of_settings hst.settings fromId).symm.trans
        (by simpa using hoff)
    exact run_invariant (fun state : Session × Nat => Trail s state.1)
      (Trail.convertItemBody hlocks hstep hon) _ hst

theorem Trail.convertSteps (hlocks : env.items.LocksListed)
    (steps : List (Int × Int)) (hsteps : ∀ step ∈ steps, step ∈ ladder)
    (acc : Bool × Session) (hst : Trail s acc.2) :
    Trail s (steps.foldl (convertStep (modify env)) acc).2 := by
  induction steps generalizing acc with
  | nil => exact hst
  | cons step steps ih =>
      apply ih fun other hother => hsteps other (List.mem_cons_of_mem _ hother)
      exact Trail.tryConvertItem hlocks (hsteps step List.mem_cons_self) hst

theorem Trail.convertRoundsBody (hlocks : env.items.LocksListed) (t : Session)
    (hst : Trail s t) : Trail s (convertRoundsBody (modify env) t).state := by
  have hround : Trail s (convertRound (modify env) t).2 := by
    rw [convertRound_eq_foldl]
    exact Trail.convertSteps hlocks ladder (fun _ h => h) _
      (Trail.tryConvertGems hlocks hst)
  unfold Inventory.convertRoundsBody
  dsimp only
  split_ifs <;> exact hround

/-- A session in which no conversion is possible is idle, and the other way
round. -/
theorem Idle.no_conversion (hidle : Idle s) (next : Purse) :
    ¬ Conversion s.pl (purse s.pl) next := by
  intro h
  obtain ⟨hgems, hsteps⟩ := hidle
  unfold purse at h
  cases h with
  | item hstep hon hnext =>
      have hnone := hsteps _ hstep hon
      simp [hnone] at hnext
  | gems hon henough hnext => exact hgems ⟨hon, henough, by simp [hnext]⟩

theorem conversion_setConverting {processing : Bool} {a b : Purse} :
    Conversion (setConverting processing s).pl a b ↔ Conversion s.pl a b := by
  constructor
  · intro h
    exact @Conversion.congr (setConverting processing s).pl s.pl a b rfl
      (fun _ => rfl) h
  · intro h
    exact @Conversion.congr s.pl (setConverting processing s).pl a b rfl
      (fun _ => rfl) h

/-- What a whole `AutoConvert` leaves behind: a run of conversions that is at
its end. -/
structure Converted (s t : Session) : Prop where
  slots : SlotInv t.pl.inv
  settings : settings t.pl = settings s.pl
  confined : Confined s t
  steps : ReflTransGen (Conversion s.pl) (purse s.pl) (purse t.pl)
  settled : Settled s.pl (purse t.pl)
  quiet : ¬ Converts s.pl → t = s

theorem autoConvert_converted (hlocks : env.items.LocksListed) (hs : Live s) :
    Converted s (autoConvert env s) := by
  by_cases hactive : Converts s.pl
  · obtain ⟨hon, hoff⟩ := hactive
    have hstart := converting_start hs.slots hs.finite
    have htrail := run_invariant (Trail (setConverting true s))
      (Trail.convertRoundsBody hlocks) 512 (Trail.refl hstart)
    have hidle := (convertRounds_spec hlocks hstart hs.gems).2
    rw [autoConvert_active hon hoff]
    generalize run (convertRoundsBody (modify env)) 512 (setConverting true s) =
      u at htrail hidle ⊢
    constructor
    · exact htrail.converting.slots
    · exact settings_after hoff htrail.settings
    · have hconfined := htrail.confined
      unfold Confined at hconfined ⊢
      rw [hconfined]
      rfl
    · exact ReflTransGen.mono (fun _ _ h => conversion_setConverting.mp h) _ _
        htrail.steps
    · intro _ next hnext
      apply hidle.no_conversion next
      apply Conversion.of_settings htrail.settings
      exact conversion_setConverting.mpr hnext
    · intro hnot
      exact absurd ⟨hon, hoff⟩ hnot
  · have hsame : autoConvert env s = s :=
      autoConvertWith_quiet (not_converts_iff.mp hactive)
    rw [hsame]
    exact ⟨hs.slots, rfl, Confined.refl s, .refl,
      fun h => absurd h hactive, fun _ => rfl⟩

end Refinement

section Calls

variable {env : Env} {s t : Session} {i c : Int} {pack : Pack Int}

/-- A gift of fish that is put up for sale at once. -/
def Sells (env : Env) (pl : Player) (i c : Int) : Prop :=
  0 < c ∧ pl.autosellfish = true ∧ pl.autosellfishProcessing = false ∧
    0 < i ∧ i < env.items.size ∧ env.items.isFish i = true

instance (env : Env) (pl : Player) (i c : Int) : Decidable (Sells env pl i c) :=
  inferInstanceAs (Decidable (_ ∧ _))

theorem Sells.congr {pl other : Player}
    (hsell : other.autosellfish = pl.autosellfish)
    (hbusy : other.autosellfishProcessing = pl.autosellfishProcessing) :
    Sells env other i c ↔ Sells env pl i c := by
  unfold Sells
  rw [hsell, hbusy]

/-- The sale that may follow a call. -/
def sellAfter (env : Env) (pl : Player) (i c : Int) (t : Session) : Session :=
  if Sells env pl i c then processAutoSellFishInventory env t else t

theorem sells_autoConvert {next : Player} (hcore : next.core = s.pl.core) :
    Sells env (autoConvert env { s with pl := next }).pl i c ↔
      Sells env s.pl i c := by
  have hsell := kept_member env Player.autosellfish s.pl.autosellfish
    (fun _ => rfl) (fun _ _ => rfl) (fun _ _ => rfl) fun _ _ => rfl
  have hbusy := kept_selling env s.pl.autosellfishProcessing
  apply Sells.congr
  · exact hsell.convert _ (hsell.modifyN 2) { s with pl := next }
      (Player.core_congr hcore Player.autosellfish fun _ => rfl)
  · exact hbusy.convert _ (hbusy.modifyN 2) { s with pl := next }
      (Player.core_congr hcore Player.autosellfishProcessing fun _ => rfl)

/-- A call on an accepted id is `Pack.change`, then the two callbacks. -/
theorem modify_called (forceReturn : Bool) (hslots : SlotInv s.pl.inv)
    (haccepts : Accepts env i)
    (hfinite : ¬ (s.pl.infiniteMode = true ∧ c < 0)) :
    (∃ next left, Changed s.pl i c next ∧ modify env s i c forceReturn =
        ⟨0, left, sellAfter env s.pl i c
          (autoConvert env { s with pl := next })⟩) ∨
    (∃ left, modify env s i c forceReturn = ⟨-1, left, s⟩ ∧
      (view 0 s.pl.inv).change 200 i c = none) := by
  have hguard := @guard_iff env s i c haccepts
  rw [modify_eq]
  unfold modifyWith
  by_cases hstop : 200 < c ∨ s.pl.inv = []
  · rw [if_pos (hguard.mpr hstop)]
    exact Or.inr ⟨c, rfl, change_eq_none_of_guard hslots haccepts.1 hstop⟩
  · rw [if_neg fun h => hstop (hguard.mp h), if_neg hfinite]
    have hspec := @modifySlots_spec env.items s.pl i c forceReturn hslots
      haccepts.1 (by omega)
    rcases hspec with ⟨next, left, heq, hchanged⟩ | ⟨left, heq, hnone⟩
    · left
      refine ⟨next, left, hchanged, ?_⟩
      rw [heq]
      unfold sellAfter
      have hsells := @sells_autoConvert env s i c next hchanged.core
      by_cases hsale : Sells env s.pl i c
      · rw [if_pos hsale]
        exact if_pos (hsells.mpr hsale)
      · rw [if_neg hsale]
        exact if_neg (hsells.not.mpr hsale)
    · rw [heq]
      exact Or.inr ⟨left, rfl, hnone⟩

/-- A gift that is not accepted or does not fit changes nothing. -/
theorem modify_of_not_fits (hslots : SlotInv s.pl.inv) (hc : 0 < c)
    (forceReturn : Bool)
    (hnot : ¬ (Accepts env i ∧ (view 0 s.pl.inv).Fits 200 i c)) :
    (modify env s i c forceReturn).ret ≠ 0 ∧
      (modify env s i c forceReturn).session = s := by
  by_cases haccepts : Accepts env i
  · have hnonneg := (hslots.wellFormed.total_bounds (by decide)
      (Int.ne_of_gt haccepts.1)).1
    rcases @modify_called env s i c forceReturn hslots haccepts (by omega) with
      ⟨next, left, hchanged, -⟩ | ⟨left, heq, -⟩
    · refine absurd ⟨haccepts, ?_⟩ hnot
      rw [Pack.fits_iff hc hnonneg, hchanged.view]
      simp
    · rw [heq]
      exact ⟨by simp, rfl⟩
  · rw [modify_not_accepted haccepts]
    exact ⟨by simp, rfl⟩

/-- What a call that made its change leaves behind, a sale apart: the changed
amounts, converted to the end. -/
structure Outcome (s : Session) (pack : Pack Int) (t : Session) : Prop where
  slots : SlotInv t.pl.inv
  settings : settings t.pl = settings s.pl
  confined : Confined s t
  steps : ReflTransGen (Conversion s.pl) ⟨s.pl.gems, pack⟩ (purse t.pl)
  settled : Settled s.pl (purse t.pl)
  quiet : ¬ Converts s.pl → purse t.pl = ⟨s.pl.gems, pack⟩

theorem Outcome.live (hs : Live s) (h : Outcome s pack t) : Live t where
  slots := h.slots
  finite := (settings_congr h.settings Player.infiniteMode
    fun _ => rfl).trans hs.finite
  gems := lt_of_le_of_lt (conversions_gems h.steps) hs.gems

/-- Amounts that are settled are left as they are. -/
theorem Outcome.still (h : Outcome s pack t)
    (hsettled : Settled s.pl ⟨s.pl.gems, pack⟩) :
    purse t.pl = ⟨s.pl.gems, pack⟩ := by
  by_cases hconverts : Converts s.pl
  · rcases h.steps.cases_head with heq | ⟨next, hnext, -⟩
    · exact heq.symm
    · exact absurd hnext (hsettled hconverts next)
  · exact h.quiet hconverts

theorem outcome_autoConvert (hlocks : env.items.LocksListed) (hs : Live s)
    {next : Player} (hchanged : Changed s.pl i c next) :
    Outcome s (view 0 next.inv) (autoConvert env { s with pl := next }) := by
  have hcore := hchanged.core
  have hgems : next.gems = s.pl.gems :=
    Player.core_congr hcore Player.gems fun _ => rfl
  have hsettings : settings next = settings s.pl := settings_of_core hcore
  have hconverts := converts_of_core hcore
  have hfinite : next.infiniteMode = false :=
    (Player.core_congr hcore Player.infiniteMode fun _ => rfl).trans hs.finite
  have h := @autoConvert_converted env { s with pl := next } hlocks
    ⟨hchanged.slots, hfinite, hgems ▸ hs.gems⟩
  have hpurse : purse next = ⟨s.pl.gems, view 0 next.inv⟩ := by
    unfold purse
    rw [hgems]
  constructor
  · exact h.slots
  · exact h.settings.trans hsettings
  · exact (Confined.player s next).trans h.confined
  · rw [← hpurse]
    exact ReflTransGen.mono (fun _ _ h => h.of_settings hsettings.symm) _ _
      h.steps
  · intro hon last hlast
    exact h.settled (hconverts.mpr hon) last (hlast.of_settings hsettings)
  · intro hoff
    rw [h.quiet (hconverts.not.mpr hoff)]
    exact hpurse

theorem contains_of_purse {pl : Player} {gems : Int} (hslots : SlotInv pl.inv)
    (hpurse : purse pl = ⟨gems, pack⟩) (id : Int) :
    contains pl.inv id = pack.amount id := by
  rw [contains_eq_total hslots]
  exact congrArg (fun purse => purse.pack.amount id) hpurse

/-- A call that cannot lead to a sale, on the purse. -/
theorem modify_outcome (forceReturn : Bool) (hlocks : env.items.LocksListed)
    (hs : Live s) (haccepts : Accepts env i) (hsale : ¬ Sells env s.pl i c) :
    (∃ pack, (view 0 s.pl.inv).change 200 i c = some pack ∧
      (modify env s i c forceReturn).ret = 0 ∧
      Outcome s pack (modify env s i c forceReturn).session) ∨
    ((view 0 s.pl.inv).change 200 i c = none ∧
      (modify env s i c forceReturn).ret = -1 ∧
      (modify env s i c forceReturn).session = s) := by
  rcases modify_called forceReturn hs.slots haccepts
    (by simp [hs.finite]) with ⟨next, left, hchanged, heq⟩ | ⟨left, heq, hnone⟩
  · left
    refine ⟨view 0 next.inv, hchanged.view, ?_⟩
    rw [heq, sellAfter, if_neg hsale]
    exact ⟨rfl, outcome_autoConvert hlocks hs hchanged⟩
  · right
    rw [heq]
    exact ⟨hnone, rfl, rfl⟩

/-- A call whose change is known to happen. -/
theorem modify_changed (forceReturn : Bool) (hlocks : env.items.LocksListed)
    (hs : Live s) (haccepts : Accepts env i) (hsale : ¬ Sells env s.pl i c)
    (hchange : (view 0 s.pl.inv).change 200 i c = some pack) :
    (modify env s i c forceReturn).ret = 0 ∧
      Outcome s pack (modify env s i c forceReturn).session := by
  rcases modify_outcome forceReturn hlocks hs haccepts hsale with
    ⟨next, hnext, hret, houtcome⟩ | ⟨hnone, -, -⟩
  · rw [hchange] at hnext
    cases hnext
    exact ⟨hret, houtcome⟩
  · rw [hchange] at hnone
    cases hnone

/-- What is there can be taken. -/
theorem modify_taken (forceReturn : Bool) (hlocks : env.items.LocksListed)
    (hs : Live s) (haccepts : Accepts env i) (hc : 0 < c)
    (henough : c ≤ total i s.pl.inv) :
    (modify env s i (-c) forceReturn).ret = 0 ∧
      Outcome s ((view 0 s.pl.inv).less i c)
        (modify env s i (-c) forceReturn).session := by
  have hcap := (hs.slots.wellFormed.total_bounds (by decide)
    (Int.ne_of_gt haccepts.1)).2
  have hsale : ¬ Sells env s.pl i (-c) := fun hsells =>
    absurd hsells.1 (by omega)
  exact modify_changed forceReturn hlocks hs haccepts hsale
    (Pack.change_less hc henough hcap)

end Calls

end Inventory

end NopyServer
