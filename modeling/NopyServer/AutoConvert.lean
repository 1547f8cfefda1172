/-
`Inventory::AutoConvert` conserves value and ends exhausted.

While it runs, every `Modify` it makes is quiet, so one conversion is two
changes of a `Pack`: a hundred of the source out, one of the target in, and a
refund when the second change fails.  The refund restores the amounts exactly.
Each conversion of an item lowers `lockRank` by the same amount; a conversion
of gems leaves it alone, and a round that only converts gems is followed by one
that cannot.  This keeps the number of rounds far below 512.
-/
import NopyServer.InventoryRuns

namespace NopyServer

namespace Inventory

open BoundedLoop SlotPack

/-- The five locks of the conversion ladder. -/
def lockIds : List Int := [242, 1796, 7188, 8470, 20298]

/-- The worth of a player's locks and gems, in gems. -/
def lockValue (pl : Player) : Int :=
  3000 * (contains pl.inv 242 + 100 * contains pl.inv 1796 +
    10 ^ 4 * contains pl.inv 7188 + 10 ^ 6 * contains pl.inv 8470 +
    10 ^ 8 * contains pl.inv 20298) + pl.gems

/-- The backpack cannot take one more of an item. -/
def Blocked (inv : List (Int × Int)) (toId : Int) : Prop :=
  contains inv toId = 200 ∨ (contains inv toId = 0 ∧ getSlots inv = 0)

/-- A conversion of a hundred `fromId` into one `toId` has come to its end. -/
def ItemExhausted (inv : List (Int × Int)) (fromId toId : Int) : Prop :=
  contains inv fromId < 100 ∨ Blocked inv toId

/-- Every conversion that is switched on has come to its end. -/
structure Exhausted (pl : Player) : Prop where
  gems : pl.autoCvModeGemsToDl = true →
    pl.gems < 300000 ∨ Blocked pl.inv 1796
  wl : pl.autoCvModeWlToDl = true → ItemExhausted pl.inv 242 1796
  dl : pl.autoCvModeDlToBgl = true → ItemExhausted pl.inv 1796 7188
  bgl : pl.autoCvModeBglToGgl = true → ItemExhausted pl.inv 7188 8470
  ggl : pl.autoCvModeGglTo20298 = true → ItemExhausted pl.inv 8470 20298

/-- A player apart from what a conversion changes. -/
def settings (pl : Player) : Player := { pl.core with gems := 0 }

theorem settings_congr {α : Type} {pl next : Player}
    (hsettings : settings next = settings pl) (f : Player → α)
    (hf : ∀ pl : Player, f (settings pl) = f pl) : f next = f pl := by
  rw [← hf next, hsettings, hf pl]

theorem settings_of_core {pl next : Player} (hcore : next.core = pl.core) :
    settings next = settings pl := by
  unfold settings
  rw [hcore]

/-- A session inside `AutoConvert`. -/
structure Converting (s : Session) : Prop where
  slots : SlotInv s.pl.inv
  finite : s.pl.infiniteMode = false
  busy : s.pl.autoConvertProcessing = true

theorem Converting.of_settings {s t : Session} (hs : Converting s)
    (hslots : SlotInv t.pl.inv) (hsettings : settings t.pl = settings s.pl) :
    Converting t where
  slots := hslots
  finite := (settings_congr hsettings Player.infiniteMode
    fun _ => rfl).trans hs.finite
  busy := (settings_congr hsettings Player.autoConvertProcessing
    fun _ => rfl).trans hs.busy

theorem Converting.contains {s : Session} (hs : Converting s) (id : Int) :
    contains s.pl.inv id = total id s.pl.inv :=
  contains_eq_total hs.slots id

section Steps

variable {env : Env} {s : Session} {fromId toId : Int}

theorem lockIds_ne_zero {id : Int} (hid : id ∈ lockIds) : id ≠ 0 := by
  rintro rfl
  simp [lockIds] at hid

theorem lock_accepts (hlocks : env.items.LocksListed) {id : Int}
    (hid : id ∈ lockIds) : Accepts env id := by
  have hsize := hlocks.listed
  simp only [lockIds, List.mem_cons, List.not_mem_nil, or_false] at hid
  unfold Accepts
  omega

/-- The `Modify` calls of `AutoConvert` are quiet. -/
theorem modify_lock (hlocks : env.items.LocksListed) (hs : Converting s)
    {id : Int} (hid : id ∈ lockIds) (c : Int) (forceReturn : Bool) :
    (∃ next left, modify env s id c forceReturn =
        ⟨0, left, { s with pl := next }⟩ ∧ Changed s.pl id c next) ∨
    (∃ left, modify env s id c forceReturn = ⟨-1, left, s⟩ ∧
      (view 0 s.pl.inv).change 200 id c = none) :=
  modify_quiet forceReturn hs.slots (lock_accepts hlocks hid)
    ⟨Or.inr hs.busy, Or.inr (Or.inr (Or.inr (hlocks.notFish id hid))),
      hs.finite⟩

theorem Changed.converting {id c : Int} {next : Player} (hs : Converting s)
    (hchanged : Changed s.pl id c next) :
    Converting { s with pl := next } :=
  hs.of_settings hchanged.slots (settings_of_core hchanged.core)

/-- One conversion on the amounts: a hundred out, one in. -/
def exchange (fromId toId : Int) (pack : Pack Int) : Option (Pack Int) :=
  (pack.change 200 fromId (-100)).bind fun taken => taken.change 200 toId 1

theorem exchange_of_lt (hfew : total fromId s.pl.inv < 100) :
    exchange fromId toId (view 0 s.pl.inv) = none := by
  have hnone : (view 0 s.pl.inv).change 200 fromId (-100) = none := by
    unfold Pack.change
    by_cases hzero : (view 0 s.pl.inv).amount fromId = 0
    · rw [if_pos hzero, if_neg (by omega)]
    · rw [if_neg hzero, if_pos (by simp only [view_amount]; omega)]
  rw [exchange, hnone, Option.bind_none]

theorem exchange_amount {pack next : Pack Int} (hne : fromId ≠ toId)
    (h : exchange fromId toId pack = some next) (id : Int) :
    next.amount id = pack.amount id + (if id = toId then 1 else 0) -
      if id = fromId then 100 else 0 := by
  obtain ⟨taken, htake, hadd⟩ := Option.bind_eq_some_iff.mp h
  rw [Pack.change_amount hadd, Pack.change_amount htake]
  simp only [Function.update_apply]
  split_ifs with hto hfrom <;> subst_vars <;> omega

/-- When no conversion is possible, the source runs short or the target cannot
take one more. -/
theorem itemExhausted_of_exchange (hs : Converting s) (hto : toId ∈ lockIds)
    (hfrom : fromId ∈ lockIds) (hne : fromId ≠ toId)
    (hnone : exchange fromId toId (view 0 s.pl.inv) = none) :
    ItemExhausted s.pl.inv fromId toId := by
  have hfromZero := lockIds_ne_zero hfrom
  have htoZero := lockIds_ne_zero hto
  have hcap := (hs.slots.wellFormed.total_bounds (by decide) hfromZero).2
  have hbounds := hs.slots.wellFormed.total_bounds (by decide) htoZero
  unfold ItemExhausted
  rw [hs.contains]
  by_cases henough : total fromId s.pl.inv < 100
  · exact Or.inl henough
  · right
    obtain ⟨taken, htake⟩ : ∃ taken,
        (view 0 s.pl.inv).change 200 fromId (-100) = some taken :=
      Pack.change_take (by decide) (by simp only [view_amount]; omega) hcap
    have hsame := Pack.change_amount_of_ne htake (Ne.symm hne)
    have hroom := Pack.change_take_room htake (by decide)
    rw [exchange, htake, Option.bind_some, Pack.change_give_eq_none_iff
      (by decide) (by decide) (by rw [hsame]; exact hbounds.1), hsame] at hnone
    unfold Blocked
    rw [hs.contains]
    change _ ∨ _ ∧ room 0 s.pl.inv = 0
    simp only [view_amount, view_room] at hnone hroom
    omega

theorem blocked_of_change (hs : Converting s) (hto : toId ∈ lockIds)
    (hnone : (view 0 s.pl.inv).change 200 toId 1 = none) :
    Blocked s.pl.inv toId := by
  have hbounds := hs.slots.wellFormed.total_bounds (by decide)
    (lockIds_ne_zero hto)
  rw [Pack.change_give_eq_none_iff (by decide) (by decide) hbounds.1] at hnone
  unfold Blocked
  rw [hs.contains]
  change _ ∨ _ ∧ room 0 s.pl.inv = 0
  simp only [view_amount, view_room] at hnone
  omega

/-- A session inside `AutoConvert` after a change of the amounts. -/
structure Exchanged (s : Session) (pack : Pack Int) (t : Session) : Prop where
  converting : Converting t
  settings : settings t.pl = settings s.pl
  gems : t.pl.gems = s.pl.gems
  view : view 0 t.pl.inv = pack

theorem Changed.exchanged {id c : Int} {next : Player} (hs : Converting s)
    (hchanged : Changed s.pl id c next) :
    Exchanged s (SlotPack.view 0 next.inv) { s with pl := next } where
  converting := hchanged.converting hs
  settings := settings_of_core hchanged.core
  gems := Player.core_congr hchanged.core Player.gems fun _ => rfl
  view := rfl

/-- One iteration of a conversion is one exchange.  Taking a hundred always
works; when the target is full the refund puts them back. -/
theorem convertItemBody_cases (hlocks : env.items.LocksListed)
    (hfrom : fromId ∈ lockIds) (hto : toId ∈ lockIds) (hs : Converting s)
    (k : Nat) :
    (exchange fromId toId (view 0 s.pl.inv) = none ∧
      ∃ t, Exchanged s (view 0 s.pl.inv) t ∧
        convertItemBody (modify env) fromId toId (s, k) = .stop (t, k)) ∨
    (∃ pack t, exchange fromId toId (view 0 s.pl.inv) = some pack ∧
      Exchanged s pack t ∧
        convertItemBody (modify env) fromId toId (s, k) =
          .again (t, k + 1)) := by
  unfold convertItemBody
  by_cases henough : 100 ≤ contains s.pl.inv fromId
  · dsimp only
    rw [if_pos henough]
    rw [hs.contains] at henough
    have hcap := (hs.slots.wellFormed.total_bounds (by decide)
      (lockIds_ne_zero hfrom)).2
    obtain ⟨pack, hpack⟩ : ∃ pack,
        (view 0 s.pl.inv).change 200 fromId (-100) = some pack :=
      Pack.change_take (by decide) (by simp only [view_amount]; omega) hcap
    rcases modify_lock hlocks hs hfrom (-100) true with
      ⟨taken, left, htake, htaken⟩ | ⟨left, -, hnone⟩
    · have hmid := htaken.exchanged hs
      rw [htake]
      dsimp only
      rw [if_neg (by decide), exchange, htaken.view, Option.bind_some]
      rcases modify_lock hlocks hmid.converting hto 1 true with
        ⟨added, left', hadd, hadded⟩ | ⟨left', hadd, hfull⟩
      · right
        have hlast := hadded.exchanged hmid.converting
        rw [hadd]
        dsimp only
        rw [if_neg (by decide)]
        exact ⟨view 0 added.inv, _, hadded.view, ⟨hlast.converting,
          hlast.settings.trans hmid.settings, hlast.gems.trans hmid.gems,
          rfl⟩, rfl⟩
      · left
        refine ⟨hfull, ?_⟩
        rw [hadd]
        dsimp only
        rw [if_pos (by decide)]
        have hback := Pack.change_give_back htaken.view (by decide) hcap
        rcases modify_lock hlocks hmid.converting hfrom 100 true with
          ⟨refunded, left'', hrefund, hrefunded⟩ | ⟨left'', -, hnone⟩
        · have hlast := hrefunded.exchanged hmid.converting
          have hview := hrefunded.view.symm.trans hback
          rw [hrefund]
          exact ⟨_, ⟨hlast.converting, hlast.settings.trans hmid.settings,
            hlast.gems.trans hmid.gems, Option.some.inj hview⟩, rfl⟩
        · exact absurd (hnone.symm.trans hback) (by simp)
    · rw [hpack] at hnone
      cases hnone
  · dsimp only
    rw [if_neg henough]
    rw [hs.contains] at henough
    exact Or.inl ⟨exchange_of_lt (by omega), s, ⟨hs, rfl, rfl, rfl⟩, rfl⟩

end Steps

section Measures

/-- `lockValue` of amounts. -/
def packValue (gems : Int) (pack : Pack Int) : Int :=
  3000 * (pack.amount 242 + 100 * pack.amount 1796 +
    10 ^ 4 * pack.amount 7188 + 10 ^ 6 * pack.amount 8470 +
    10 ^ 8 * pack.amount 20298) + gems

/-- Weights under which every conversion of an item costs exactly `10 ^ 8` and
a conversion of gems costs nothing. -/
def lockRank (gems : Int) (pack : Pack Int) : Int :=
  1010101 * pack.amount 242 +
    1010100 * ((gems.toNat / 300000 : Nat) + pack.amount 1796) +
    1010000 * pack.amount 7188 + 1000000 * pack.amount 8470

/-- The item conversions, each with its source and target. -/
def ladder : List (Int × Int) :=
  [(242, 1796), (1796, 7188), (7188, 8470), (8470, 20298)]

theorem ladder_locks {fromId toId : Int} (hstep : (fromId, toId) ∈ ladder) :
    fromId ∈ lockIds ∧ toId ∈ lockIds ∧ fromId ≠ toId := by
  simp only [ladder, List.mem_cons, Prod.mk.injEq, List.not_mem_nil,
    or_false] at hstep
  simp only [lockIds, List.mem_cons, List.not_mem_nil, or_false]
  omega

variable {fromId toId gems : Int} {pack next : Pack Int}

theorem exchange_others (hstep : (fromId, toId) ∈ ladder)
    (h : exchange fromId toId pack = some next) {id : Int}
    (hid : id ∉ lockIds) : next.amount id = pack.amount id := by
  obtain ⟨hfrom, hto, hne⟩ := ladder_locks hstep
  have hneFrom : id ≠ fromId := fun h => hid (h ▸ hfrom)
  have hneTo : id ≠ toId := fun h => hid (h ▸ hto)
  simpa [hneFrom, hneTo] using exchange_amount hne h id

theorem exchange_measures (hstep : (fromId, toId) ∈ ladder)
    (h : exchange fromId toId pack = some next) :
    packValue gems next = packValue gems pack ∧
      lockRank gems next + 10 ^ 8 = lockRank gems pack := by
  have hamount := exchange_amount (ladder_locks hstep).2.2 h
  simp only [ladder, List.mem_cons, Prod.mk.injEq, List.not_mem_nil,
    or_false] at hstep
  unfold packValue lockRank
  rcases hstep with ⟨rfl, rfl⟩ | ⟨rfl, rfl⟩ | ⟨rfl, rfl⟩ | ⟨rfl, rfl⟩ <;>
    simp only [hamount, Int.reduceEq, ↓reduceIte] <;> omega

theorem gems_measures (henough : 300000 ≤ gems)
    (h : pack.change 200 1796 1 = some next) :
    packValue (gems - 300000) next = packValue gems pack ∧
      lockRank (gems - 300000) next = lockRank gems pack := by
  have hdl := Pack.change_amount_self h
  have hother : ∀ id, id ≠ 1796 → next.amount id = pack.amount id :=
    fun id hid => Pack.change_amount_of_ne h hid
  unfold packValue lockRank
  rw [hdl, hother 242 (by decide), hother 7188 (by decide),
    hother 8470 (by decide), hother 20298 (by decide)]
  omega

end Measures

section Loops

variable {env : Env} {s : Session} {fromId toId : Int}

/-- What a conversion does to the session, and what it costs. -/
structure Progress (cost : Int) (s t : Session) (made : Bool) : Prop where
  converting : Converting t
  settings : settings t.pl = settings s.pl
  value : packValue t.pl.gems (view 0 t.pl.inv) =
    packValue s.pl.gems (view 0 s.pl.inv)
  others : ∀ id, id ∉ lockIds → total id t.pl.inv = total id s.pl.inv
  rank : lockRank t.pl.gems (view 0 t.pl.inv) + (if made then cost else 0) ≤
    lockRank s.pl.gems (view 0 s.pl.inv)
  idle : made = false →
    t.pl.gems = s.pl.gems ∧ view 0 t.pl.inv = view 0 s.pl.inv

theorem Progress.refl (cost : Int) (hs : Converting s) :
    Progress cost s s false :=
  ⟨hs, rfl, rfl, fun _ _ => rfl, by simp, fun _ => ⟨rfl, rfl⟩⟩

theorem Progress.trans {cost : Int} {s t u : Session} {made made' : Bool}
    (hcost : 0 ≤ cost) (hst : Progress cost s t made)
    (htu : Progress cost t u made') : Progress cost s u (made || made') where
  converting := htu.converting
  settings := htu.settings.trans hst.settings
  value := htu.value.trans hst.value
  others id hid := (htu.others id hid).trans (hst.others id hid)
  rank := by
    have h₁ := hst.rank
    have h₂ := htu.rank
    cases made <;> cases made' <;>
      simp only [Bool.or_self, Bool.or_true, Bool.or_false, Bool.false_eq_true,
        ↓reduceIte] at h₁ h₂ ⊢ <;> omega
  idle hmade := by
    obtain ⟨hfirst, hsecond⟩ := Bool.or_eq_false_iff.mp hmade
    exact ⟨(htu.idle hsecond).1.trans (hst.idle hfirst).1,
      (htu.idle hsecond).2.trans (hst.idle hfirst).2⟩

theorem Progress.weaken {cost : Int} {s t : Session} {made : Bool}
    (hst : Progress cost s t made) (hcost : 0 ≤ cost) :
    Progress 0 s t made where
  converting := hst.converting
  settings := hst.settings
  value := hst.value
  others := hst.others
  rank := by
    have hrank := hst.rank
    split_ifs at hrank ⊢ <;> omega
  idle := hst.idle

/-- Only what changed is of interest. -/
theorem Progress.made {cost : Int} {s t : Session} {made : Bool}
    (hst : Progress cost s t made) (hcost : 0 ≤ cost) :
    Progress 0 s t true where
  converting := hst.converting
  settings := hst.settings
  value := hst.value
  others := hst.others
  rank := by
    have hrank := hst.rank
    split_ifs at hrank ⊢ <;> omega
  idle hmade := absurd hmade (by decide)

theorem Exchanged.same {t : Session} (cost : Int)
    (hst : Exchanged s (SlotPack.view 0 s.pl.inv) t) :
    Progress cost s t false where
  converting := hst.converting
  settings := hst.settings
  value := by rw [hst.view, hst.gems]
  others id _ := congrFun (congrArg Pack.amount hst.view) id
  rank := by simp [hst.view, hst.gems]
  idle _ := ⟨hst.gems, hst.view⟩

theorem Exchanged.progress {t : Session} {pack : Pack Int}
    (hstep : (fromId, toId) ∈ ladder)
    (h : exchange fromId toId (SlotPack.view 0 s.pl.inv) = some pack)
    (hst : Exchanged s pack t) : Progress (10 ^ 8) s t true where
  converting := hst.converting
  settings := hst.settings
  value := by
    rw [hst.view, hst.gems]
    exact (exchange_measures hstep h).1
  others id hid := by
    have hsame := exchange_others hstep h hid
    rw [← hst.view] at hsame
    exact hsame
  rank := by
    rw [hst.view, hst.gems, if_pos rfl]
    exact le_of_eq (exchange_measures hstep h).2
  idle hmade := absurd hmade (by decide)

/-- The invariant of a conversion loop. -/
theorem convertItemBody_progress (hlocks : env.items.LocksListed)
    (hstep : (fromId, toId) ∈ ladder) (state : Session × Nat)
    (hstate : Progress (10 ^ 8) s state.1 (0 < state.2)) :
    Progress (10 ^ 8) s
      (convertItemBody (modify env) fromId toId state).state.1
      (0 < (convertItemBody (modify env) fromId toId state).state.2) := by
  obtain ⟨mid, k⟩ := state
  obtain ⟨hfrom, hto, -⟩ := ladder_locks hstep
  rcases convertItemBody_cases hlocks hfrom hto hstate.converting k with
    ⟨-, t, hsame, hbody⟩ | ⟨pack, t, hsome, hnext, hbody⟩
  · have hboth := hstate.trans (by decide) (hsame.same (10 ^ 8))
    rw [Bool.or_false] at hboth
    rw [hbody]
    exact hboth
  · have hboth := hstate.trans (by decide) (hnext.progress hstep hsome)
    rw [Bool.or_true] at hboth
    rw [hbody]
    simpa only [Next.state_again, Nat.succ_pos, decide_true] using hboth

theorem tryConvertItem_progress (hlocks : env.items.LocksListed)
    (hstep : (fromId, toId) ∈ ladder) (enabled : Bool) (hs : Converting s) :
    Progress (10 ^ 8) s (tryConvertItem (modify env) fromId toId enabled s).2
      (tryConvertItem (modify env) fromId toId enabled s).1 := by
  unfold tryConvertItem
  split_ifs
  · exact Progress.refl _ hs
  · exact Progress.refl _ hs
  · exact run_invariant (fun state : Session × Nat =>
      Progress (10 ^ 8) s state.1 (0 < state.2))
      (convertItemBody_progress hlocks hstep) _ (Progress.refl _ hs)

/-- The count of conversions never falls back to zero. -/
theorem convertItemBody_counts (hlocks : env.items.LocksListed)
    (hfrom : fromId ∈ lockIds) (hto : toId ∈ lockIds) (state : Session × Nat)
    (hstate : Converting state.1 ∧ 0 < state.2) :
    Converting (convertItemBody (modify env) fromId toId state).state.1 ∧
      0 < (convertItemBody (modify env) fromId toId state).state.2 := by
  obtain ⟨mid, k⟩ := state
  dsimp only at hstate
  rcases convertItemBody_cases hlocks hfrom hto hstate.1 k with
    ⟨-, t, hsame, hbody⟩ | ⟨pack, t, -, hnext, hbody⟩
  · rw [hbody]
    exact ⟨hsame.converting, hstate.2⟩
  · rw [hbody]
    exact ⟨hnext.converting, Nat.succ_pos k⟩

/-- A conversion is made exactly when it is switched on and possible. -/
theorem tryConvertItem_made_iff (hlocks : env.items.LocksListed)
    (hstep : (fromId, toId) ∈ ladder) (enabled : Bool) (hs : Converting s) :
    (tryConvertItem (modify env) fromId toId enabled s).1 = true ↔
      enabled = true ∧ exchange fromId toId (view 0 s.pl.inv) ≠ none := by
  obtain ⟨hfrom, hto, -⟩ := ladder_locks hstep
  unfold tryConvertItem
  split_ifs with hoff hfew
  · simp [hoff]
  · rw [hs.contains] at hfew
    simp [exchange_of_lt hfew]
  · have hon : enabled = true := by simpa using hoff
    rcases convertItemBody_cases hlocks hfrom hto hs 0 with
      ⟨hnone, t, -, hbody⟩ | ⟨pack, t, hsome, hnext, hbody⟩
    · simp [convertBudget, run_stop _ hbody, hnone]
    · have hstart : Converting (t, 0 + 1).1 ∧ 0 < (t, 0 + 1).2 :=
        ⟨hnext.converting, Nat.one_pos⟩
      have hcount := run_invariant
        (fun state : Session × Nat => Converting state.1 ∧ 0 < state.2)
        (convertItemBody_counts hlocks hfrom hto)
        ((200 - contains s.pl.inv toId).toNat + 1) hstart
      simpa [convertBudget, run_again _ hbody, hsome, hon] using hcount.2

/-- Every further iteration adds one to the stack of the target. -/
theorem convertItemBody_again (hlocks : env.items.LocksListed)
    (hstep : (fromId, toId) ∈ ladder) (state next : Session × Nat)
    (hstate : Converting state.1)
    (hbody : convertItemBody (modify env) fromId toId state = .again next) :
    Converting next.1 ∧ (200 - total toId next.1.pl.inv).toNat <
      (200 - total toId state.1.pl.inv).toNat := by
  obtain ⟨mid, k⟩ := state
  obtain ⟨hfrom, hto, hne⟩ := ladder_locks hstep
  dsimp only at hstate ⊢
  rcases convertItemBody_cases hlocks hfrom hto hstate k with
    ⟨-, t, -, heq⟩ | ⟨pack, t, hsome, hnext, heq⟩
  · rw [heq] at hbody
    cases hbody
  · rw [heq] at hbody
    cases hbody
    have hamount := exchange_amount hne hsome toId
    have hcap := (hnext.converting.slots.wellFormed.total_bounds
      (by decide) (lockIds_ne_zero hto)).2
    rw [← hnext.view] at hamount
    simp only [view_amount, ↓reduceIte, Ne.symm hne] at hamount
    exact ⟨hnext.converting, by dsimp only; omega⟩

/-- The budget of a conversion loop is never what ends it. -/
theorem convertItem_exits (hlocks : env.items.LocksListed)
    (hstep : (fromId, toId) ∈ ladder) (hs : Converting s) :
    ∃ last, convertItemBody (modify env) fromId toId last =
      .stop (run (convertItemBody (modify env) fromId toId)
        (convertBudget s.pl.inv toId) (s, 0)) := by
  have hbudget : (200 - total toId s.pl.inv).toNat <
      convertBudget s.pl.inv toId := by
    rw [convertBudget, hs.contains]
    omega
  obtain ⟨last, -, hlast⟩ := run_exits
    (fun state : Session × Nat => Converting state.1)
    (fun state => (200 - total toId state.1.pl.inv).toNat)
    (convertItemBody_again hlocks hstep) (convertBudget s.pl.inv toId) (s, 0)
    hs hbudget
  exact ⟨last, hlast⟩

/-- One iteration of the conversion of gems. -/
theorem convertGemsBody_cases (hlocks : env.items.LocksListed)
    (hs : Converting s) (k : Nat) :
    ((s.pl.gems < 300000 ∨ (view 0 s.pl.inv).change 200 1796 1 = none) ∧
      convertGemsBody (modify env) (s, k) = .stop (s, k)) ∨
    (300000 ≤ s.pl.gems ∧ ∃ t, Converting t ∧
      settings t.pl = settings s.pl ∧ t.pl.gems = s.pl.gems - 300000 ∧
      (view 0 s.pl.inv).change 200 1796 1 = some (view 0 t.pl.inv) ∧
      convertGemsBody (modify env) (s, k) = .again (t, k + 1)) := by
  unfold convertGemsBody
  by_cases henough : 300000 ≤ s.pl.gems
  · dsimp only
    rw [if_pos henough]
    rcases @modify_lock env s hlocks hs 1796 (by decide) 1 true with
      ⟨next, left, hadd, hadded⟩ | ⟨left, hadd, hnone⟩
    · right
      have hnext := hadded.exchanged hs
      have hgems : next.gems = s.pl.gems := hnext.gems
      rw [hadd]
      dsimp only
      rw [if_neg (by decide)]
      refine ⟨henough, _, ?_, ?_, ?_, hadded.view, rfl⟩
      · exact ⟨hnext.converting.slots, hnext.converting.finite,
          hnext.converting.busy⟩
      · exact hnext.settings
      · dsimp only
        rw [hgems]
    · left
      rw [hadd]
      dsimp only
      rw [if_pos (by decide)]
      exact ⟨Or.inr hnone, rfl⟩
  · dsimp only
    rw [if_neg henough]
    exact Or.inl ⟨Or.inl (by omega), rfl⟩

/-- The next iteration would convert gems. -/
def GemsReady (s : Session) : Prop :=
  s.pl.autoCvModeGemsToDl = true ∧ 300000 ≤ s.pl.gems ∧
    (view 0 s.pl.inv).change 200 1796 1 ≠ none

theorem convertGemsBody_progress (hlocks : env.items.LocksListed)
    (state : Session × Nat) (hstate : Progress 0 s state.1 (0 < state.2)) :
    Progress 0 s (convertGemsBody (modify env) state).state.1
      (0 < (convertGemsBody (modify env) state).state.2) := by
  obtain ⟨mid, k⟩ := state
  rcases convertGemsBody_cases hlocks hstate.converting k with
    ⟨-, hbody⟩ | ⟨henough, t, hconverting, hsettings, hgems, hview, hbody⟩
  · rw [hbody]
    exact hstate
  · have hmeasures := gems_measures henough hview
    have hnext : Progress 0 mid t true :=
      { converting := hconverting
        settings := hsettings
        value := by
          rw [hgems]
          exact hmeasures.1
        others := fun id hid => Pack.change_amount_of_ne hview
          fun h => hid (h ▸ by decide)
        rank := by
          rw [hgems, ite_self, add_zero]
          exact le_of_eq hmeasures.2
        idle := fun hmade => absurd hmade (by decide) }
    have hboth := hstate.trans (le_refl 0) hnext
    rw [Bool.or_true] at hboth
    rw [hbody]
    simpa only [Next.state_again, Nat.succ_pos, decide_true] using hboth

theorem tryConvertGems_progress (hlocks : env.items.LocksListed)
    (hs : Converting s) :
    Progress 0 s (tryConvertGems (modify env) s).2
      (tryConvertGems (modify env) s).1 := by
  unfold tryConvertGems
  split_ifs
  · exact Progress.refl _ hs
  · exact Progress.refl _ hs
  · exact run_invariant (fun state : Session × Nat =>
      Progress 0 s state.1 (0 < state.2))
      (convertGemsBody_progress hlocks) _ (Progress.refl _ hs)

theorem convertGemsBody_again (hlocks : env.items.LocksListed)
    (state next : Session × Nat) (hstate : Converting state.1)
    (hbody : convertGemsBody (modify env) state = .again next) :
    Converting next.1 ∧ (200 - total 1796 next.1.pl.inv).toNat <
      (200 - total 1796 state.1.pl.inv).toNat := by
  obtain ⟨mid, k⟩ := state
  dsimp only at hstate ⊢
  rcases convertGemsBody_cases hlocks hstate k with
    ⟨-, heq⟩ | ⟨-, t, hconverting, -, -, hview, heq⟩
  · rw [heq] at hbody
    cases hbody
  · rw [heq] at hbody
    cases hbody
    have hamount := Pack.change_amount_self hview
    have hcap := (hconverting.slots.wellFormed.total_bounds
      (by decide) (show (1796 : Int) ≠ 0 by decide)).2
    simp only [view_amount] at hamount
    exact ⟨hconverting, by dsimp only; omega⟩

/-- Once the conversion of gems has ended, no gems can be converted. -/
theorem tryConvertGems_not_ready (hlocks : env.items.LocksListed)
    (hs : Converting s) : ¬ GemsReady (tryConvertGems (modify env) s).2 := by
  unfold tryConvertGems
  split_ifs with hoff hfew
  · simp [GemsReady, hoff]
  · rintro ⟨-, henough, -⟩
    dsimp only at henough
    omega
  · have hbudget : (200 - total 1796 s.pl.inv).toNat <
        convertBudget s.pl.inv 1796 := by
      rw [convertBudget, hs.contains]
      omega
    obtain ⟨⟨last, k⟩, hconverting, hlast⟩ := run_exits
      (fun state : Session × Nat => Converting state.1)
      (fun state => (200 - total 1796 state.1.pl.inv).toNat)
      (convertGemsBody_again hlocks) (convertBudget s.pl.inv 1796) (s, 0) hs
      hbudget
    rcases convertGemsBody_cases hlocks hconverting k with
      ⟨hend, heq⟩ | ⟨-, t, -, -, -, -, heq⟩
    · rw [heq] at hlast
      rw [← Next.stop.inj hlast]
      rintro ⟨-, henough, hsome⟩
      dsimp only at henough hsome hend
      rcases hend with hfew | hnone
      · omega
      · exact hsome hnone
    · rw [heq] at hlast
      cases hlast

theorem convertGemsBody_counts (hlocks : env.items.LocksListed)
    (state : Session × Nat) (hstate : Converting state.1 ∧ 0 < state.2) :
    Converting (convertGemsBody (modify env) state).state.1 ∧
      0 < (convertGemsBody (modify env) state).state.2 := by
  obtain ⟨mid, k⟩ := state
  dsimp only at hstate
  rcases convertGemsBody_cases hlocks hstate.1 k with
    ⟨-, hbody⟩ | ⟨-, t, hconverting, -, -, -, hbody⟩
  · rw [hbody]
    exact hstate
  · rw [hbody]
    exact ⟨hconverting, Nat.succ_pos k⟩

theorem tryConvertGems_made_iff (hlocks : env.items.LocksListed)
    (hs : Converting s) :
    (tryConvertGems (modify env) s).1 = true ↔ GemsReady s := by
  unfold tryConvertGems GemsReady
  split_ifs with hoff hfew
  · simp [hoff]
  · simp [hfew]
  · have hon : s.pl.autoCvModeGemsToDl = true := by simpa using hoff
    rcases convertGemsBody_cases hlocks hs 0 with
      ⟨hend, hbody⟩ | ⟨henough, t, hconverting, -, -, hview, hbody⟩
    · have hnone : (view 0 s.pl.inv).change 200 1796 1 = none :=
        hend.resolve_left hfew
      simp [convertBudget, run_stop _ hbody, hnone]
    · have hstart : Converting (t, 0 + 1).1 ∧ 0 < (t, 0 + 1).2 :=
        ⟨hconverting, Nat.one_pos⟩
      have hcount := run_invariant
        (fun state : Session × Nat => Converting state.1 ∧ 0 < state.2)
        (convertGemsBody_counts hlocks)
        ((200 - contains s.pl.inv 1796).toNat + 1) hstart
      simpa [convertBudget, run_again _ hbody, hview, hon, henough] using
        hcount.2

end Loops

section Rounds

variable {env : Env} {s : Session}

/-- The flag behind the conversion out of an item. -/
def switchedOn (pl : Player) (fromId : Int) : Bool :=
  if fromId = 242 then pl.autoCvModeWlToDl
  else if fromId = 1796 then pl.autoCvModeDlToBgl
  else if fromId = 7188 then pl.autoCvModeBglToGgl
  else pl.autoCvModeGglTo20298

theorem switchedOn_of_settings {pl next : Player}
    (hsettings : settings next = settings pl) (fromId : Int) :
    switchedOn next fromId = switchedOn pl fromId :=
  settings_congr hsettings (fun pl => switchedOn pl fromId) fun _ => rfl

/-- One item conversion of a round, with the progress so far. -/
def convertStep (modify : Session → Int → Int → Bool → Modified)
    (acc : Bool × Session) (step : Int × Int) : Bool × Session :=
  let tried :=
    tryConvertItem modify step.1 step.2 (switchedOn acc.2.pl step.1) acc.2
  (acc.1 || tried.1, tried.2)

theorem convertRound_eq_foldl
    (modify : Session → Int → Int → Bool → Modified) (s : Session) :
    convertRound modify s =
      ladder.foldl (convertStep modify) (tryConvertGems modify s) := by
  simp [convertRound, ladder, convertStep, switchedOn]

/-- No item conversion of a list is both switched on and possible. -/
def StepsIdle (steps : List (Int × Int)) (s : Session) : Prop :=
  ∀ step ∈ steps, switchedOn s.pl step.1 = true →
    exchange step.1 step.2 (view 0 s.pl.inv) = none

theorem StepsIdle.congr {steps : List (Int × Int)} {s t : Session}
    (hsettings : settings t.pl = settings s.pl)
    (hview : view 0 t.pl.inv = view 0 s.pl.inv) :
    StepsIdle steps t ↔ StepsIdle steps s := by
  unfold StepsIdle
  simp only [hview, switchedOn_of_settings hsettings]

/-- The item conversions of a round, one after the other. -/
theorem convertSteps_progress (hlocks : env.items.LocksListed)
    (steps : List (Int × Int)) (hsteps : ∀ step ∈ steps, step ∈ ladder)
    (acc : Bool × Session) (hs : Converting acc.2) :
    ∃ made, (steps.foldl (convertStep (modify env)) acc).1 = (acc.1 || made) ∧
      Progress (10 ^ 8) acc.2
        (steps.foldl (convertStep (modify env)) acc).2 made ∧
      (made = false ↔ StepsIdle steps acc.2) := by
  induction steps generalizing acc with
  | nil =>
      exact ⟨false, by simp, Progress.refl _ hs, by simp [StepsIdle]⟩
  | cons step steps ih =>
      have hstep := hsteps step List.mem_cons_self
      have hfirst := tryConvertItem_progress hlocks hstep
        (switchedOn acc.2.pl step.1) hs
      have hfirstMade := tryConvertItem_made_iff hlocks hstep
        (switchedOn acc.2.pl step.1) hs
      obtain ⟨made, hflag, hrest, hidle⟩ := ih
        (fun other hother => hsteps other (List.mem_cons_of_mem step hother))
        (convertStep (modify env) acc step) hfirst.converting
      have hacc : convertStep (modify env) acc step =
          (acc.1 || (tryConvertItem (modify env) step.1 step.2
            (switchedOn acc.2.pl step.1) acc.2).1,
          (tryConvertItem (modify env) step.1 step.2
            (switchedOn acc.2.pl step.1) acc.2).2) := rfl
      rw [List.foldl_cons]
      rw [hacc] at hflag hrest hidle ⊢
      generalize tryConvertItem (modify env) step.1 step.2
        (switchedOn acc.2.pl step.1) acc.2 = tried at *
      refine ⟨tried.1 || made, ?_, hfirst.trans (by decide) hrest, ?_⟩
      · rw [hflag, Bool.or_assoc]
      · rw [Bool.or_eq_false_iff]
        unfold StepsIdle
        rw [List.forall_mem_cons]
        have hhead : tried.1 = false ↔ (switchedOn acc.2.pl step.1 = true →
            exchange step.1 step.2 (view 0 acc.2.pl.inv) = none) := by
          rw [← Bool.not_eq_true, hfirstMade]
          tauto
        rw [← hhead]
        refine and_congr_right fun hnone => ?_
        rw [hidle]
        exact StepsIdle.congr hfirst.settings (hfirst.idle hnone).2

theorem GemsReady.congr {s t : Session}
    (hsettings : settings t.pl = settings s.pl)
    (hgems : t.pl.gems = s.pl.gems)
    (hview : view 0 t.pl.inv = view 0 s.pl.inv) :
    GemsReady t ↔ GemsReady s := by
  have hflag := settings_congr hsettings Player.autoCvModeGemsToDl
    fun _ => rfl
  unfold GemsReady
  rw [hflag, hgems, hview]

/-- No conversion at all is both switched on and possible. -/
def Idle (s : Session) : Prop := ¬ GemsReady s ∧ StepsIdle ladder s

theorem Idle.congr {s t : Session} (hsettings : settings t.pl = settings s.pl)
    (hgems : t.pl.gems = s.pl.gems)
    (hview : view 0 t.pl.inv = view 0 s.pl.inv) : Idle t ↔ Idle s := by
  unfold Idle
  rw [StepsIdle.congr hsettings hview,
    GemsReady.congr hsettings hgems hview]

/-- A round makes progress exactly when some conversion is possible.  The last
component is what the number of rounds is counted by. -/
theorem convertRound_progress (hlocks : env.items.LocksListed)
    (hs : Converting s) :
    ∃ made, Progress 0 s (convertRound (modify env) s).2
        (convertRound (modify env) s).1 ∧
      ((convertRound (modify env) s).1 = false ↔ Idle s) ∧
      lockRank (convertRound (modify env) s).2.pl.gems
          (view 0 (convertRound (modify env) s).2.pl.inv) +
        (if made then 10 ^ 8 else 0) ≤
          lockRank s.pl.gems (view 0 s.pl.inv) ∧
      (made = false → (convertRound (modify env) s).1 = true →
        GemsReady s ∧ ¬ GemsReady (convertRound (modify env) s).2) := by
  have hgems := tryConvertGems_progress hlocks hs
  have hgemsMade := tryConvertGems_made_iff hlocks hs
  have hnotReady := tryConvertGems_not_ready hlocks hs
  obtain ⟨made, hflag, hsteps, hidle⟩ := convertSteps_progress hlocks ladder
    (fun _ h => h) (tryConvertGems (modify env) s) hgems.converting
  rw [convertRound_eq_foldl]
  generalize ladder.foldl (convertStep (modify env))
    (tryConvertGems (modify env) s) = round at *
  generalize tryConvertGems (modify env) s = gems at *
  refine ⟨made, ?_, ?_, ?_, ?_⟩
  · rw [hflag]
    exact hgems.trans (le_refl 0) (hsteps.weaken (by decide))
  · rw [hflag, Bool.or_eq_false_iff, hidle, ← Bool.not_eq_true, hgemsMade]
    refine and_congr_right fun hnone => ?_
    have hsame := hgems.idle (Bool.eq_false_iff.mpr (hgemsMade.not.mpr hnone))
    exact StepsIdle.congr hgems.settings hsame.2
  · have h₁ := hgems.rank
    have h₂ := hsteps.rank
    rw [ite_self] at h₁
    omega
  · intro hnone hprogress
    rw [hflag, hnone, Bool.or_false] at hprogress
    have hsame := hsteps.idle hnone
    exact ⟨hgemsMade.mp hprogress, (GemsReady.congr hsteps.settings hsame.1
      hsame.2).not.mpr hnotReady⟩

theorem lockRank_nonneg (hs : Converting s) :
    0 ≤ lockRank s.pl.gems (view 0 s.pl.inv) := by
  have hbounds : ∀ id ∈ lockIds, 0 ≤ total id s.pl.inv := fun id hid =>
    (hs.slots.wellFormed.total_bounds (by decide) (lockIds_ne_zero hid)).1
  have hwl := hbounds 242 (by decide)
  have hdl := hbounds 1796 (by decide)
  have hbgl := hbounds 7188 (by decide)
  have hggl := hbounds 8470 (by decide)
  unfold lockRank
  simp only [view_amount]
  omega

/-- A backpack and a 32-bit number of gems bound the number of rounds. -/
theorem lockRank_lt (hs : Converting s) (hgems : s.pl.gems < 2 ^ 31) :
    lockRank s.pl.gems (view 0 s.pl.inv) < 10 ^ 10 := by
  have hbounds : ∀ id ∈ lockIds, total id s.pl.inv ≤ 200 := fun id hid =>
    (hs.slots.wellFormed.total_bounds (by decide) (lockIds_ne_zero hid)).2
  have hwl := hbounds 242 (by decide)
  have hdl := hbounds 1796 (by decide)
  have hbgl := hbounds 7188 (by decide)
  have hggl := hbounds 8470 (by decide)
  unfold lockRank
  simp only [view_amount]
  omega

open Classical in
/-- The rounds still possible: two for each item conversion that the rank
allows, and one more while gems can be converted. -/
noncomputable def roundsLeft (s : Session) : Nat :=
  ((2 * lockRank s.pl.gems (view 0 s.pl.inv) +
    if GemsReady s then 10 ^ 8 else 0) / 10 ^ 8).toNat

theorem convertRoundsBody_again (hlocks : env.items.LocksListed)
    (s t : Session) (hs : Converting s)
    (hbody : convertRoundsBody (modify env) s = .again t) :
    Progress 0 s t true ∧ roundsLeft t < roundsLeft s := by
  obtain ⟨made, hprogress, -, hrank, hgems⟩ := convertRound_progress hlocks hs
  unfold convertRoundsBody at hbody
  dsimp only at hbody
  split at hbody
  · next hround =>
      cases hbody
      rw [hround] at hprogress
      refine ⟨hprogress, ?_⟩
      have hnonneg := lockRank_nonneg hprogress.converting
      unfold roundsLeft
      cases made with
      | true =>
          simp only [↓reduceIte] at hrank
          split <;> split <;> omega
      | false =>
          obtain ⟨hready, hnot⟩ := hgems rfl hround
          simp only [Bool.false_eq_true, ↓reduceIte] at hrank
          rw [if_pos hready, if_neg hnot]
          omega
  · cases hbody

/-- The rounds conserve the value and every other item, and end idle. -/
theorem convertRounds_spec (hlocks : env.items.LocksListed)
    (hs : Converting s) (hgems : s.pl.gems < 2 ^ 31) :
    Progress 0 s (run (convertRoundsBody (modify env)) 512 s) true ∧
      Idle (run (convertRoundsBody (modify env)) 512 s) := by
  have hbudget : roundsLeft s < 512 := by
    have hlt := lockRank_lt hs hgems
    unfold roundsLeft
    split <;> omega
  obtain ⟨last, hlast, hstop⟩ := run_exits (fun t => Progress 0 s t true)
    roundsLeft
    (fun t u ht hbody => by
      obtain ⟨hprogress, hlt⟩ :=
        convertRoundsBody_again hlocks t u ht.converting hbody
      exact ⟨ht.trans (le_refl 0) hprogress, hlt⟩)
    512 s ((Progress.refl 0 hs).made (le_refl 0)) hbudget
  obtain ⟨made, hprogress, hidle, -, -⟩ :=
    convertRound_progress hlocks hlast.converting
  generalize run (convertRoundsBody (modify env)) 512 s = final at hstop ⊢
  unfold convertRoundsBody at hstop
  dsimp only at hstop
  split at hstop
  · cases hstop
  · next hround =>
      have hnone : (convertRound (modify env) last).1 = false := by
        simpa using hround
      have hsame := hprogress.idle hnone
      rw [← Next.stop.inj hstop]
      refine ⟨?_, ?_⟩
      · have hboth := hlast.trans (le_refl 0) hprogress
        rwa [Bool.true_or] at hboth
      · exact (Idle.congr hprogress.settings hsame.1 hsame.2).mpr
          (hidle.mp hnone)

/-- From an idle session the rounds change no amount. -/
theorem convertRounds_idle (hlocks : env.items.LocksListed)
    (hs : Converting s) (hidle : Idle s) :
    Progress 0 s (run (convertRoundsBody (modify env)) 512 s) false := by
  obtain ⟨made, hprogress, hiff, -, -⟩ := convertRound_progress hlocks hs
  have hnone := hiff.mpr hidle
  have hbody : convertRoundsBody (modify env) s =
      .stop (convertRound (modify env) s).2 := by
    simp [convertRoundsBody, hnone]
  rw [run_stop 511 hbody]
  rwa [hnone] at hprogress

theorem exhausted_of_idle (hs : Converting s) (hidle : Idle s) :
    Exhausted s.pl := by
  obtain ⟨hgems, hsteps⟩ := hidle
  have hitem : ∀ fromId toId, (fromId, toId) ∈ ladder →
      switchedOn s.pl fromId = true → ItemExhausted s.pl.inv fromId toId := by
    intro fromId toId hstep hon
    obtain ⟨hfrom, hto, hne⟩ := ladder_locks hstep
    exact itemExhausted_of_exchange hs hto hfrom hne (hsteps _ hstep hon)
  refine ⟨fun hon => ?_, hitem 242 1796 (by decide), hitem 1796 7188 (by decide),
    hitem 7188 8470 (by decide), hitem 8470 20298 (by decide)⟩
  by_cases hfew : s.pl.gems < 300000
  · exact Or.inl hfew
  · refine Or.inr (blocked_of_change hs (by decide) ?_)
    by_contra hsome
    exact hgems ⟨hon, by omega, hsome⟩

end Rounds

section Whole

variable {env : Env} {s : Session}

theorem lockValue_eq (hs : SlotInv s.pl.inv) :
    lockValue s.pl = packValue s.pl.gems (view 0 s.pl.inv) := by
  unfold lockValue packValue
  simp only [contains_eq_total hs, view_amount]

/-- The session in which the rounds of an active `AutoConvert` start. -/
theorem converting_start (hslots : SlotInv s.pl.inv)
    (hfinite : s.pl.infiniteMode = false) : Converting (setConverting true s) :=
  ⟨hslots, hfinite, rfl⟩

theorem autoConvert_active (hon : s.pl.autoConvert = true)
    (hidle : s.pl.autoConvertProcessing = false) :
    autoConvert env s = setConverting false
      (run (convertRoundsBody (modify env)) 512 (setConverting true s)) := by
  simp [autoConvert, autoConvertWith, hon, hidle]

theorem setConverting_back (hs : Converting s) :
    setConverting true (setConverting false s) = s := by
  have hbusy := hs.busy
  obtain ⟨pl, worlds, now, rands⟩ := s
  dsimp only at hbusy
  simp only [setConverting, ← hbusy]

theorem settings_after {u : Session}
    (hoff : s.pl.autoConvertProcessing = false)
    (hsettings : settings u.pl = settings (setConverting true s).pl) :
    settings (setConverting false u).pl = settings s.pl := by
  change ({ settings u.pl with autoConvertProcessing := false } : Player) = _
  rw [hsettings]
  simp [settings, Player.core, setConverting, hoff]

/-- `AutoConvert` conserves the value of locks and gems and the count of every
other item, leaves every enabled conversion exhausted, and changes no count
when it is run again. -/
theorem autoConvert_conserves_and_exhausts (hlocks : env.items.LocksListed)
    (hslots : SlotInv s.pl.inv) (hfinite : s.pl.infiniteMode = false)
    (hgems : s.pl.gems < 2 ^ 31) :
    let t := autoConvert env s
    let again := autoConvert env t
    lockValue t.pl = lockValue s.pl ∧
      (∀ id, id ∉ lockIds → contains t.pl.inv id = contains s.pl.inv id) ∧
      settings t.pl = settings s.pl ∧
      (s.pl.autoConvert = true → s.pl.autoConvertProcessing = false →
        Exhausted t.pl) ∧
      (∀ id, contains again.pl.inv id = contains t.pl.inv id) ∧
      again.pl.gems = t.pl.gems := by
  by_cases hactive : s.pl.autoConvert = true ∧
      s.pl.autoConvertProcessing = false
  · obtain ⟨hon, hoff⟩ := hactive
    obtain ⟨hprogress, hidle⟩ := convertRounds_spec hlocks
      (converting_start hslots hfinite) hgems
    dsimp only
    rw [autoConvert_active hon hoff]
    generalize run (convertRoundsBody (modify env)) 512
      (setConverting true s) = u at hprogress hidle ⊢
    have hu := hprogress.converting
    have honU : u.pl.autoConvert = true :=
      (settings_congr hprogress.settings Player.autoConvert
        fun _ => rfl).trans hon
    have hrerun := convertRounds_idle hlocks hu hidle
    have hagain : autoConvert env (setConverting false u) =
        setConverting false (run (convertRoundsBody (modify env)) 512 u) := by
      rw [@autoConvert_active env (setConverting false u) honU rfl,
        setConverting_back hu]
    rw [hagain]
    refine ⟨?_, ?_, settings_after hoff hprogress.settings,
      fun _ _ => ?_, ?_, (hrerun.idle rfl).1⟩
    · exact (lockValue_eq hu.slots).trans
        (hprogress.value.trans (lockValue_eq hslots).symm)
    · intro id hid
      exact (hu.contains id).trans
        ((hprogress.others id hid).trans (contains_eq_total hslots id).symm)
    · obtain ⟨h₁, h₂, h₃, h₄, h₅⟩ := exhausted_of_idle hu hidle
      exact ⟨h₁, h₂, h₃, h₄, h₅⟩
    · intro id
      have hview := congrFun (congrArg Pack.amount (hrerun.idle rfl).2) id
      exact (hrerun.converting.contains id).trans
        (hview.trans (hu.contains id).symm)
  · have hquiet : s.pl.autoConvert = false ∨
        s.pl.autoConvertProcessing = true := by
      cases hon : s.pl.autoConvert <;>
        cases hoff : s.pl.autoConvertProcessing <;> simp_all
    have hsame : autoConvert env s = s := autoConvertWith_quiet hquiet
    dsimp only
    rw [hsame, hsame]
    exact ⟨rfl, fun _ _ => rfl, rfl, fun hon hoff => absurd ⟨hon, hoff⟩ hactive,
      fun _ => rfl, rfl⟩

/-- A hundred world locks beside 199 diamond locks: the diamond lock they make
fills the stack, and the stack goes on into two blue gem locks. -/
theorem autoConvert_two_steps :
    let env : Env := { items := ⟨20298, fun _ => {}⟩ }
    let s : Session :=
      { pl := { inv := [(242, 100), (1796, 199), (0, 0)], autoConvert := true
                autoCvModeWlToDl := true, autoCvModeDlToBgl := true } }
    (autoConvert env s).pl.inv = [(7188, 2), (0, 0), (0, 0)] ∧
      lockValue (autoConvert env s).pl = lockValue s.pl :=
  ⟨by decide, (autoConvert_conserves_and_exhausts ⟨by decide, by decide⟩
    (by decide) rfl (by decide)).1⟩

end Whole

end Inventory

end NopyServer
