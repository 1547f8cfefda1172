/-
Experience and levels: `Pet_Ai::Add_Xp` and `Kit_Server::Add_Xp`.  Both keep a
level and the experience gained on it, and both charge the threshold of a level
for leaving it.  A pet climbs in a loop, but the charge is computed once, before
the loop; a kit climbs one level in a call.
-/
import Mathlib.Algebra.BigOperators.Group.Finset.Basic
import Mathlib.Algebra.Order.BigOperators.Group.Finset
import NopyServer.BuxGems
import NopyServer.Lib.BoundedLoop

namespace NopyServer

open BoundedLoop

/-- `unit * ((level * level) + 2)`, the experience that a level takes. -/
def required (unit level : Int) : Int := unit * (level * level + 2)

/-- What the next `levels` levels take together. -/
def requiredFor (unit level : Int) (levels : Nat) : Int :=
  ∑ i ∈ Finset.range levels, required unit (level + i)

section Thresholds

variable {unit level : Int}

theorem required_pos (hunit : 0 < unit) (level : Int) :
    0 < required unit level := by
  have hsquare := mul_self_nonneg level
  exact Int.mul_pos hunit (by omega)

theorem required_lt (hunit : 0 < unit) (hlevel : 0 ≤ level) {higher : Int}
    (hlt : level < higher) : required unit level < required unit higher := by
  have hsquare : level * level < higher * higher :=
    mul_self_lt_mul_self hlevel hlt
  exact Int.mul_lt_mul_of_pos_left (by omega) hunit

@[simp]
theorem requiredFor_zero : requiredFor unit level 0 = 0 := rfl

@[simp]
theorem requiredFor_one : requiredFor unit level 1 = required unit level := by
  simp [requiredFor]

/-- Two levels or more take more than the first threshold for each. -/
theorem mul_required_lt (hunit : 0 < unit) (hlevel : 0 ≤ level) {levels : Nat}
    (hmore : 2 ≤ levels) :
    levels * required unit level < requiredFor unit level levels := by
  have hle : ∀ i ∈ Finset.range levels,
      required unit level ≤ required unit (level + i) := by
    intro i _
    rcases Nat.eq_zero_or_pos i with rfl | hpos
    · simp
    · exact Int.le_of_lt (required_lt hunit hlevel (by omega))
  have hlt : ∃ i ∈ Finset.range levels,
      required unit level < required unit (level + i) :=
    ⟨1, Finset.mem_range.mpr hmore, required_lt hunit hlevel (by simp)⟩
  have hsum := Finset.sum_lt_sum hle hlt
  rwa [Finset.sum_const, Finset.card_range, nsmul_eq_mul] at hsum

end Thresholds

/-- The members of the global event that experience depends on. -/
structure Event where
  xpEvent : Bool := false
  xXp : Int := 0

/-- The members of `Player` that a pet is kept in. -/
structure Pet where
  showPets : Bool := false
  petLevel : Int := 0
  petXp : Int := 0
  abilityXgems : Int := 0
  abilityXxp : Int := 0
  activeBluename : Bool := false
deriving DecidableEq

namespace PetAi

/-- What reaching a level unlocks. -/
def unlock (pet : Pet) : Pet :=
  if pet.petLevel = 10 then { pet with abilityXgems := 1, abilityXxp := 1 }
  else if pet.petLevel = 30 then { pet with abilityXgems := 2, abilityXxp := 2 }
  else if pet.petLevel = 50 then
    { pet with abilityXgems := 3, abilityXxp := 3, activeBluename := true }
  else pet

/-- One level up for the charge `required_`. -/
def levelUp (required_ : Int) (pet : Pet) : Pet :=
  unlock { pet with
    petLevel := pet.petLevel + 1
    petXp := pet.petXp - required_ }

/-- One iteration of the loop; decrementing `add_more` makes it go on. -/
def climbBody (required_ : Int) (pet : Pet) : Next Pet :=
  let pet :=
    if required 50 pet.petLevel ≤ pet.petXp then levelUp required_ pet else pet
  if required 50 pet.petLevel ≤ pet.petXp then .again pet else .stop pet

/-- The experience that a call of `Add_Xp` adds. -/
def gain (event : Event) (amount : Int) (pet : Pet) : Int :=
  if pet.showPets = true ∧ pet.petLevel < 50 then
    (if event.xpEvent then event.xXp * amount else amount) +
      (if 0 < pet.abilityXxp then pet.abilityXxp * amount else amount)
  else 0

/-- `Pet_Ai::Add_Xp`. -/
def addXp (event : Event) (amount : Int) (pet : Pet) : Pet :=
  let required_ := required 50 pet.petLevel
  if pet.showPets then
    if pet.petLevel ≤ 50 then
      if pet.petLevel = 50 then pet
      else
        let pet := { pet with petXp := pet.petXp +
          (if event.xpEvent then event.xXp * amount else amount) }
        let pet := { pet with petXp := pet.petXp +
          (if 0 < pet.abilityXxp then pet.abilityXxp * amount else amount) }
        run (climbBody required_) (pet.petXp.toNat + 1) pet
    else pet
  else pet

section Climbing

variable {required_ : Int} {pet next : Pet}

theorem levelUp_level : (levelUp required_ pet).petLevel = pet.petLevel + 1 := by
  unfold levelUp unlock
  split_ifs <;> rfl

theorem levelUp_xp : (levelUp required_ pet).petXp = pet.petXp - required_ := by
  unfold levelUp unlock
  split_ifs <;> rfl

/-- An iteration that goes on has raised the level. -/
theorem climbBody_again (hbody : climbBody required_ pet = .again next) :
    next = levelUp required_ pet ∧
      required 50 next.petLevel ≤ next.petXp := by
  unfold climbBody at hbody
  dsimp only at hbody
  split at hbody
  · split at hbody
    · next hreached =>
        cases hbody
        exact ⟨rfl, hreached⟩
    · cases hbody
  · cases hbody

/-- The loop is left by its body: every further iteration costs experience. -/
theorem climb_exits (hrequired : 0 < required_) (pet : Pet) :
    ∃ last, climbBody required_ last =
      .stop (run (climbBody required_) (pet.petXp.toNat + 1) pet) := by
  have hstep : ∀ s t, True → climbBody required_ s = .again t →
      True ∧ t.petXp.toNat < s.petXp.toNat := by
    intro s t _ hbody
    obtain ⟨rfl, hreached⟩ := climbBody_again hbody
    have hpos := required_pos (show (0 : Int) < 50 by decide)
      (levelUp required_ s).petLevel
    rw [levelUp_xp] at hreached ⊢
    exact ⟨trivial, by omega⟩
  obtain ⟨last, -, hlast⟩ := run_exits (fun _ => True)
    (fun pet : Pet => pet.petXp.toNat) hstep (pet.petXp.toNat + 1) pet trivial
    (Nat.lt_succ_self _)
  exact ⟨last, hlast⟩

/-- A pet that has climbed at least two levels, at one charge for each. -/
def Overcharged (start : Pet) (required_ : Int) (pet : Pet) : Prop :=
  ∃ levels : Nat, 2 ≤ levels ∧ pet.petLevel = start.petLevel + levels ∧
    pet.petXp = start.petXp - levels * required_

theorem overcharged_body {start : Pet}
    (hpet : Overcharged start required_ pet) :
    Overcharged start required_ (climbBody required_ pet).state := by
  obtain ⟨levels, hmore, hlevel, hxp⟩ := hpet
  have hup : Overcharged start required_ (levelUp required_ pet) := by
    refine ⟨levels + 1, by omega, ?_, ?_⟩
    · rw [levelUp_level, hlevel]
      push_cast
      omega
    · rw [levelUp_xp, hxp]
      push_cast
      rw [Int.add_mul, Int.one_mul]
      omega
  unfold climbBody
  dsimp only
  split_ifs
  · exact hup
  · exact hup
  · exact ⟨levels, hmore, hlevel, hxp⟩

end Climbing

/-- What a climb should do: the level stays at most 50, the experience below
the threshold of the level reached, and what the levels took and what is left
are what there was and what was gained. -/
structure Climbs (pet : Pet) (gained : Int) (next : Pet) : Prop where
  level : pet.petLevel ≤ next.petLevel ∧ next.petLevel ≤ 50
  xp : next.petLevel = 50 ∨
    0 ≤ next.petXp ∧ next.petXp < required 50 next.petLevel
  sum : next.petXp + requiredFor 50 pet.petLevel
    (next.petLevel - pet.petLevel).toNat = pet.petXp + gained

section Exactness

variable {event : Event} {amount : Int} {pet : Pet}

/-- The loop, from the experience that the call has added. -/
theorem addXp_eq_run (hlevel : pet.petLevel < 50) (hshown : pet.showPets = true) :
    addXp event amount pet = run (climbBody (required 50 pet.petLevel))
      ((pet.petXp + gain event amount pet).toNat + 1)
      { pet with petXp := pet.petXp + gain event amount pet } := by
  have hgain : gain event amount pet =
      (if event.xpEvent then event.xXp * amount else amount) +
        (if 0 < pet.abilityXxp then pet.abilityXxp * amount else amount) :=
    if_pos ⟨hshown, hlevel⟩
  unfold addXp
  rw [hgain, if_pos hshown, if_pos (Int.le_of_lt hlevel),
    if_neg (Int.ne_of_lt hlevel)]
  simp only [add_assoc]

theorem climb_none {required_ : Int} (budget : Nat)
    (hshort : pet.petXp < required 50 pet.petLevel) :
    run (climbBody required_) (budget + 1) pet = pet := by
  have hnot := not_le_of_gt hshort
  apply run_stop
  simp [climbBody, hnot]

theorem climb_once {required_ : Int} (budget : Nat)
    (hreached : required 50 pet.petLevel ≤ pet.petXp)
    (hshort : pet.petXp - required_ < required 50 (pet.petLevel + 1)) :
    run (climbBody required_) (budget + 1) pet = levelUp required_ pet := by
  apply run_stop
  unfold climbBody
  rw [if_pos hreached]
  dsimp only
  rw [levelUp_level, levelUp_xp, if_neg (not_le_of_gt hshort)]

theorem climb_more {required_ : Int} (budget : Nat)
    (hreached : required 50 pet.petLevel ≤ pet.petXp)
    (hmore : required 50 (pet.petLevel + 1) ≤ pet.petXp - required_) :
    Overcharged pet required_
      (run (climbBody required_) (budget + 2) pet) := by
  have hfirst : climbBody required_ pet = .again (levelUp required_ pet) := by
    unfold climbBody
    rw [if_pos hreached]
    dsimp only
    rw [levelUp_level, levelUp_xp, if_pos hmore]
  have htwo : Overcharged pet required_
      (levelUp required_ (levelUp required_ pet)) := by
    refine ⟨2, Nat.le_refl 2, ?_, ?_⟩
    · rw [levelUp_level, levelUp_level]
      push_cast
      omega
    · rw [levelUp_xp, levelUp_xp]
      push_cast
      omega
  have hagain : required 50 (levelUp required_ pet).petLevel ≤
      (levelUp required_ pet).petXp := by
    rwa [levelUp_level, levelUp_xp]
  have hsecond : (climbBody required_ (levelUp required_ pet)).state =
      levelUp required_ (levelUp required_ pet) := by
    unfold climbBody
    rw [if_pos hagain]
    dsimp only
    split <;> rfl
  rw [run_again (budget + 1) hfirst]
  cases hbody : climbBody required_ (levelUp required_ pet) with
  | stop last =>
      rw [hbody, Next.state_stop] at hsecond
      rw [run_stop budget hbody, hsecond]
      exact htwo
  | again last =>
      rw [hbody, Next.state_again] at hsecond
      rw [run_again budget hbody, hsecond]
      exact run_invariant _ (fun _ => overcharged_body) budget htwo

theorem Overcharged.not_climbs {start next : Pet} {gained : Int}
    (hlevel : 0 ≤ start.petLevel)
    (hnext : Overcharged { start with petXp := start.petXp + gained }
      (required 50 start.petLevel) next) : ¬ Climbs start gained next := by
  obtain ⟨levels, hmore, hnextLevel, hxp⟩ := hnext
  intro hclimbs
  have hlt := mul_required_lt (show (0 : Int) < 50 by decide) hlevel hmore
  have hsum := hclimbs.sum
  have hcount : (next.petLevel - start.petLevel).toNat = levels := by
    dsimp only at hnextLevel
    omega
  rw [hcount] at hsum
  dsimp only at hxp
  omega

/-- Below the threshold the level stays. -/
theorem climbs_none {gained : Int} (hlevel : pet.petLevel < 50)
    (hxp : 0 ≤ pet.petXp + gained)
    (hbelow : pet.petXp + gained < required 50 pet.petLevel) :
    Climbs pet gained { pet with petXp := pet.petXp + gained } := by
  constructor
  · exact ⟨le_refl _, le_of_lt hlevel⟩
  · exact Or.inr ⟨hxp, hbelow⟩
  · simp

/-- One level up, for the threshold of the level that is left. -/
theorem climbs_once {gained : Int} (hlevel : pet.petLevel < 50)
    (hreached : required 50 pet.petLevel ≤ pet.petXp + gained)
    (hshort : pet.petXp + gained - required 50 pet.petLevel <
      required 50 (pet.petLevel + 1)) :
    Climbs pet gained (levelUp (required 50 pet.petLevel)
      { pet with petXp := pet.petXp + gained }) := by
  have hone : (pet.petLevel + 1 - pet.petLevel).toNat = 1 := by omega
  constructor
  · rw [levelUp_level]
    dsimp only
    omega
  · rw [levelUp_level, levelUp_xp]
    dsimp only
    omega
  · rw [levelUp_level, levelUp_xp]
    dsimp only
    rw [hone, requiredFor_one]
    omega

/-- A call of `Add_Xp` does what a climb should do exactly when the experience
does not pass two thresholds. -/
theorem addXp_climbs_iff (event : Event) (amount : Int) (pet : Pet)
    (hlevel : 0 ≤ pet.petLevel ∧ pet.petLevel < 50)
    (hxp : 0 ≤ pet.petXp ∧ pet.petXp < required 50 pet.petLevel)
    (hgain : 0 ≤ gain event amount pet) :
    Climbs pet (gain event amount pet) (addXp event amount pet) ↔
      pet.petXp + gain event amount pet <
        required 50 pet.petLevel + required 50 (pet.petLevel + 1) := by
  have hpos := required_pos (show (0 : Int) < 50 by decide) (pet.petLevel + 1)
  by_cases hshown : pet.showPets = true
  · rw [addXp_eq_run hlevel.2 hshown]
    generalize gain event amount pet = gained at hgain ⊢
    by_cases hreached : required 50 pet.petLevel ≤ pet.petXp + gained
    · by_cases hmore : required 50 (pet.petLevel + 1) ≤
          pet.petXp + gained - required 50 pet.petLevel
      · -- Two levels or more, each for the threshold of the first.
        obtain ⟨budget, hbudget⟩ : ∃ budget,
            (pet.petXp + gained).toNat + 1 = budget + 2 :=
          ⟨(pet.petXp + gained).toNat - 1, by omega⟩
        have hover := @climb_more { pet with petXp := pet.petXp + gained }
          (required 50 pet.petLevel) budget hreached hmore
        rw [hbudget]
        constructor
        · intro hclimbs
          exact absurd hclimbs (hover.not_climbs hlevel.1)
        · intro hfew
          omega
      · have hshort := not_le.mp hmore
        rw [@climb_once { pet with petXp := pet.petXp + gained }
          (required 50 pet.petLevel) _ hreached hshort]
        constructor
        · intro _
          omega
        · intro _
          exact climbs_once hlevel.2 hreached hshort
    · have hbelow := not_le.mp hreached
      rw [@climb_none { pet with petXp := pet.petXp + gained } _ _ hbelow]
      constructor
      · intro _
        omega
      · intro _
        exact climbs_none hlevel.2 (by omega) hbelow
  · have hnone : addXp event amount pet = pet := by simp [addXp, hshown]
    have hzero : gain event amount pet = 0 := by simp [gain, hshown]
    have hsame : { pet with petXp := pet.petXp + 0 } = pet := by simp
    rw [hnone, hzero]
    constructor
    · intro _
      omega
    · intro _
      have hstays := @climbs_none pet 0 hlevel.2 (by omega) (by omega)
      rwa [hsame] at hstays

/-- Three hundred experience take a new pet to level two and leave it a hundred,
though the two levels take two hundred and fifty. -/
theorem addXp_two_levels :
    ¬ ∀ (event : Event) (amount : Int) (pet : Pet),
      0 ≤ pet.petLevel ∧ pet.petLevel < 50 →
      0 ≤ pet.petXp ∧ pet.petXp < required 50 pet.petLevel →
      0 ≤ gain event amount pet →
        Climbs pet (gain event amount pet) (addXp event amount pet) := by
  intro hall
  have hclimbs := hall {} 150 { showPets := true } (by decide) (by decide)
    (by decide)
  exact absurd hclimbs.sum (by decide)

/-- A hundred experience, counted twice, reach level one. -/
theorem addXp_one_level :
    Climbs { showPets := true } 200 (addXp {} 100 { showPets := true }) :=
  (addXp_climbs_iff {} 100 { showPets := true } (by decide) (by decide)
    (by decide)).mpr (by decide)

end Exactness

end PetAi

namespace KitServer

/-- The part of `Kit_Server::Add_Xp` under `name == "kit"`, with `levelup`. -/
def gainXp (amount : Int) (kit : Kit) : Bool × Kit :=
  if kit.lvlKit = 100 then (false, kit)
  else
    let kit := { kit with xpKit := kit.xpKit + amount }
    let required_ := required 125 kit.lvlKit
    if required 125 kit.lvlKit ≤ kit.xpKit then
      (true, { lvlKit := kit.lvlKit + 1, xpKit := kit.xpKit - required_ })
    else (false, kit)

/-- What a level up of a kit is worth: points of the grow pass and gems. -/
def rewardLevel (env : Env) (peer : Nat) (now : Int) (server : Server) :
    Server :=
  let server := server.mapPlayer peer fun pl =>
    if pl.account.gp ≠ 0 then
      { pl with growPass := { pl.growPass with
        growpassPoints := pl.growPass.growpassPoints + 20 } }
    else pl
  BuxGems.onBuxGems env peer now 500 server

/-- `Kit_Server::Add_Xp`. -/
def addXp (env : Env) (peer : Nat) (now amount : Int) (name : String)
    (server : Server) : Server :=
  match server.players[peer]? with
  | none => server
  | some pl =>
      let gained := if name = "kit" then gainXp amount pl.kit else (false, pl.kit)
      let server := server.mapPlayer peer fun pl => { pl with kit := gained.2 }
      if gained.1 then rewardLevel env peer now server else server

/-- One call for each gain, every call at its own time. -/
def addXps (env : Env) (peer : Nat) (calls : List (Int × Int))
    (server : Server) : Server :=
  calls.foldl (fun server call => addXp env peer call.1 call.2 "kit" server)
    server

/-- The kits of a connected player. -/
def kitOf (peer : Nat) (server : Server) : Option Kit :=
  server.players[peer]?.map Player.kit

section Calls

variable {env : Env} {server : Server} {peer : Nat} {now : Int}

theorem kit_unrelated : BuxGems.Unrelated Player.kit where
  core _ := rfl
  gems _ _ := rfl
  converting _ _ := rfl
  selling _ _ := rfl
  pair _ _ := rfl
  growPass _ _ := rfl

theorem kitOf_rewardLevel :
    kitOf peer (rewardLevel env peer now server) = kitOf peer server := by
  have hgems := @BuxGems.Unrelated.onBuxGems Kit Player.kit env
    (server.mapPlayer peer fun pl =>
      if pl.account.gp ≠ 0 then
        { pl with growPass := { pl.growPass with
          growpassPoints := pl.growPass.growpassPoints + 20 } }
      else pl) peer now kit_unrelated 500
  have hpoints := @Server.mapPlayer_view Kit Player.kit server peer
    (fun pl => if pl.account.gp ≠ 0 then
        { pl with growPass := { pl.growPass with
          growpassPoints := pl.growPass.growpassPoints + 20 } }
      else pl) fun pl _ => by dsimp only; split <;> rfl
  unfold kitOf
  rw [← List.getElem?_map, ← List.getElem?_map]
  exact congrArg (·[peer]?) (hgems.trans hpoints)

/-- The kits follow `gainXp`, whatever else a level up sets off. -/
theorem kitOf_addXp (amount : Int) :
    kitOf peer (addXp env peer now amount "kit" server) =
      (kitOf peer server).map fun kit => (gainXp amount kit).2 := by
  unfold addXp
  cases hpl : server.players[peer]? with
  | none => simp [kitOf, hpl]
  | some pl =>
      have hset : kitOf peer (server.mapPlayer peer fun pl' =>
          { pl' with kit := (gainXp amount pl.kit).2 }) =
          some (gainXp amount pl.kit).2 := by
        simp [kitOf, Server.mapPlayer, hpl]
      have hkit : kitOf peer server = some pl.kit := by simp [kitOf, hpl]
      dsimp only
      rw [if_pos rfl, hkit]
      split
      · rw [kitOf_rewardLevel, hset]
        rfl
      · rw [hset]
        rfl

/-- One call of `gainXp` for each gain. -/
def gainXps (gains : List Int) (kit : Kit) : Kit :=
  gains.foldl (fun kit amount => (gainXp amount kit).2) kit

theorem kitOf_addXps (calls : List (Int × Int)) (server : Server) :
    kitOf peer (addXps env peer calls server) =
      (kitOf peer server).map (gainXps (calls.map Prod.snd)) := by
  induction calls generalizing server with
  | nil => exact Option.map_id_apply.symm
  | cons call calls ih =>
      have hfirst := @kitOf_addXp env server peer call.1 call.2
      change kitOf peer (addXps env peer calls
        (addXp env peer call.1 call.2 "kit" server)) = _
      rw [ih, hfirst, Option.map_map]
      rfl

end Calls

section Splitting

variable {kit : Kit} {amount : Int} {gains : List Int}

theorem gainXp_short (hlevel : kit.lvlKit ≠ 100)
    (hshort : kit.xpKit + amount < required 125 kit.lvlKit) :
    gainXp amount kit = (false, ⟨kit.lvlKit, kit.xpKit + amount⟩) := by
  unfold gainXp
  rw [if_neg hlevel]
  exact if_neg (not_le.mpr hshort)

theorem gainXp_reached (hlevel : kit.lvlKit ≠ 100)
    (hreached : required 125 kit.lvlKit ≤ kit.xpKit + amount) :
    gainXp amount kit = (true, ⟨kit.lvlKit + 1,
      kit.xpKit + amount - required 125 kit.lvlKit⟩) := by
  unfold gainXp
  rw [if_neg hlevel]
  exact if_pos hreached

/-- At level 100 nothing is gained any more. -/
theorem gainXps_top (gains : List Int) (hlevel : kit.lvlKit = 100) :
    gainXps gains kit = kit := by
  induction gains with
  | nil => rfl
  | cons amount gains ih =>
      have hnone : gainXp amount kit = (false, kit) := if_pos hlevel
      change gainXps gains (gainXp amount kit).2 = kit
      rw [hnone]
      exact ih

/-- Gains that stay below the threshold add up. -/
theorem gainXps_short (hlevel : kit.lvlKit ≠ 100)
    (hgains : ∀ gain ∈ gains, 0 ≤ gain)
    (hshort : kit.xpKit + gains.sum < required 125 kit.lvlKit) :
    gainXps gains kit = ⟨kit.lvlKit, kit.xpKit + gains.sum⟩ := by
  induction gains generalizing kit with
  | nil => simp [gainXps]
  | cons amount gains ih =>
      have hrest : ∀ gain ∈ gains, 0 ≤ gain := fun gain hgain =>
        hgains gain (List.mem_cons_of_mem amount hgain)
      have hsum := List.sum_nonneg hrest
      rw [List.sum_cons] at hshort ⊢
      change gainXps gains (gainXp amount kit).2 = _
      have hlater := @ih ⟨kit.lvlKit, kit.xpKit + amount⟩ hlevel hrest
        (by dsimp only; omega)
      rw [gainXp_short hlevel (by omega), hlater]
      simp only [add_assoc]

/-- Gains that reach the threshold reach it with one of them. -/
theorem gainXps_reached (hlevel : kit.lvlKit ≠ 100)
    (hxp : kit.xpKit < required 125 kit.lvlKit)
    (hreached : required 125 kit.lvlKit ≤ kit.xpKit + gains.sum) :
    ∃ before gain after, gains = before ++ gain :: after ∧
      required 125 kit.lvlKit ≤ kit.xpKit + (before.sum + gain) ∧
      (∀ fewer, fewer <+: before →
        kit.xpKit + fewer.sum < required 125 kit.lvlKit) ∧
      gainXps gains kit = gainXps after ⟨kit.lvlKit + 1,
        kit.xpKit + (before.sum + gain) - required 125 kit.lvlKit⟩ := by
  induction gains generalizing kit with
  | nil =>
      rw [List.sum_nil] at hreached
      omega
  | cons amount gains ih =>
      rw [List.sum_cons] at hreached
      by_cases hnow : required 125 kit.lvlKit ≤ kit.xpKit + amount
      · refine ⟨[], amount, gains, rfl, by simpa using hnow, ?_, ?_⟩
        · intro fewer hfewer
          rw [List.prefix_nil.mp hfewer]
          simpa using hxp
        · change gainXps gains (gainXp amount kit).2 = _
          rw [gainXp_reached hlevel hnow]
          simp
      · have hshort := not_le.mp hnow
        obtain ⟨before, gain, after, rfl, hcross, hfewer, hrun⟩ :=
          @ih ⟨kit.lvlKit, kit.xpKit + amount⟩ hlevel hshort
            (by dsimp only; omega)
        dsimp only at hcross hfewer hrun
        refine ⟨amount :: before, gain, after, rfl, ?_, ?_, ?_⟩
        · rw [List.sum_cons]
          omega
        · intro fewer hprefix
          rcases List.prefix_cons_iff.mp hprefix with rfl | ⟨rest, rfl, hrest⟩
          · simpa using hxp
          · have hlt := hfewer rest hrest
            rw [List.sum_cons]
            omega
        · change gainXps (before ++ gain :: after) (gainXp amount kit).2 = _
          rw [gainXp_short hlevel hshort, hrun, List.sum_cons]
          simp only [add_assoc]

end Splitting

/-- What splitting a gain should do: the calls reach what one call with the sum
reaches, below its threshold or at level 100. -/
structure Splits (kit once : Kit) : Prop where
  below : kit.xpKit < required 125 kit.lvlKit ∨ kit.lvlKit = 100
  same : kit = once

/-- When splitting works: the gains together do not pass two thresholds; from
level 99, nothing is gained once its threshold is reached. -/
def Splittable (kit : Kit) (gains : List Int) : Prop :=
  if kit.lvlKit = 99 then
    ∀ before after, gains = before ++ after →
      required 125 99 ≤ kit.xpKit + before.sum → ∀ gain ∈ after, gain = 0
  else
    kit.xpKit + gains.sum <
      required 125 kit.lvlKit + required 125 (kit.lvlKit + 1)

section Law

variable {kit : Kit} {gains : List Int}

theorem sum_prefix_le {before after : List Int}
    (hgains : ∀ gain ∈ before ++ after, 0 ≤ gain) :
    before.sum ≤ (before ++ after).sum := by
  have hrest := List.sum_nonneg fun gain hgain =>
    hgains gain (List.mem_append_right before hgain)
  rw [List.sum_append]
  omega

theorem splits_short (hlevel : kit.lvlKit < 100)
    (hgains : ∀ gain ∈ gains, 0 ≤ gain)
    (hshort : kit.xpKit + gains.sum < required 125 kit.lvlKit) :
    Splits (gainXps gains kit) (gainXp gains.sum kit).2 ∧
      Splittable kit gains := by
  have hne := Int.ne_of_lt hlevel
  rw [gainXps_short hne hgains hshort, gainXp_short hne hshort]
  refine ⟨⟨Or.inl hshort, rfl⟩, ?_⟩
  unfold Splittable
  split
  · next htop =>
      rintro before after rfl hreached
      have hle := sum_prefix_le hgains
      rw [htop] at hshort
      omega
  · have hpos := required_pos (show (0 : Int) < 125 by decide) (kit.lvlKit + 1)
    omega

/-- Below level 99 the gains after the level up are below the next threshold. -/
theorem splits_below_top (hlevel : kit.lvlKit < 99)
    (hxp : kit.xpKit < required 125 kit.lvlKit)
    (hgains : ∀ gain ∈ gains, 0 ≤ gain)
    (hreached : required 125 kit.lvlKit ≤ kit.xpKit + gains.sum) :
    Splits (gainXps gains kit) (gainXp gains.sum kit).2 ↔
      Splittable kit gains := by
  have hne : kit.lvlKit ≠ 100 := by omega
  have hnotTop : kit.lvlKit ≠ 99 := Int.ne_of_lt hlevel
  unfold Splittable
  rw [if_neg hnotTop, gainXp_reached hne hreached]
  dsimp only
  constructor
  · rintro ⟨hbelow, hsame⟩
    rw [hsame] at hbelow
    dsimp only at hbelow
    omega
  · intro hfew
    obtain ⟨before, gain, after, rfl, -, -, hrun⟩ :=
      gainXps_reached hne hxp hreached
    have hafter : ∀ later ∈ after, 0 ≤ later := fun later hlater =>
      hgains later (List.mem_append_right before
        (List.mem_cons_of_mem gain hlater))
    rw [List.sum_append, List.sum_cons] at hfew ⊢
    rw [hrun, gainXps_short (by dsimp only; omega) hafter
      (by dsimp only; omega)]
    constructor
    · dsimp only
      omega
    · rw [Kit.mk.injEq]
      dsimp only
      omega

/-- From level 99 the kit stops at level 100, and what comes later is lost. -/
theorem splits_at_top (hlevel : kit.lvlKit = 99)
    (hxp : kit.xpKit < required 125 kit.lvlKit)
    (hgains : ∀ gain ∈ gains, 0 ≤ gain)
    (hreached : required 125 kit.lvlKit ≤ kit.xpKit + gains.sum) :
    Splits (gainXps gains kit) (gainXp gains.sum kit).2 ↔
      Splittable kit gains := by
  have hne : kit.lvlKit ≠ 100 := by omega
  obtain ⟨before, gain, after, rfl, hcross, hfewer, hrun⟩ :=
    gainXps_reached hne hxp hreached
  have hafter : ∀ later ∈ after, 0 ≤ later := fun later hlater =>
    hgains later (List.mem_append_right before
      (List.mem_cons_of_mem gain hlater))
  have hsum := List.sum_nonneg hafter
  unfold Splittable
  rw [if_pos hlevel, gainXp_reached hne hreached, hrun,
    gainXps_top after (by dsimp only; omega), List.sum_append, List.sum_cons]
  rw [hlevel] at hcross hfewer ⊢
  constructor
  · rintro ⟨-, hsame⟩ fewer rest heq hfull later hlater
    have hzero : after.sum = 0 := by
      rw [Kit.mk.injEq] at hsame
      omega
    have hall : ∀ gain ∈ after, gain = 0 := fun gain hgain =>
      List.all_zero_of_le_zero_le_of_sum_eq_zero hafter hzero hgain
    -- The threshold is not reached before `gain`, so `rest` lies within `after`.
    rcases List.append_eq_append_iff.mp heq with
      ⟨more, rfl, hmore⟩ | ⟨more, hmore, rfl⟩
    · cases more with
      | nil =>
          rw [List.append_nil] at hfull
          have hlt := hfewer before List.prefix_rfl
          omega
      | cons first more =>
          rw [List.cons_append] at hmore
          obtain ⟨-, rfl⟩ := List.cons.inj hmore
          exact hall later (List.mem_append_right more hlater)
    · have hlt := hfewer fewer (hmore ▸ List.prefix_append fewer more)
      omega
  · intro hzero
    have hall := hzero (before ++ [gain]) after (by simp) (by
      rw [List.sum_append, List.sum_singleton]
      exact hcross)
    have hnone := List.sum_eq_zero hall
    constructor
    · right
      rfl
    · rw [Kit.mk.injEq]
      omega

/-- One call for each gain leaves the kit below its threshold and where one call
with the sum leaves it, exactly when the gains are splittable. -/
theorem addXps_splits_iff (env : Env) (server : Server) (peer : Nat)
    (pl : Player) (hpl : server.players[peer]? = some pl)
    (hlevel : pl.kit.lvlKit < 100)
    (hxp : pl.kit.xpKit < required 125 pl.kit.lvlKit)
    (calls : List (Int × Int)) (hgains : ∀ call ∈ calls, 0 ≤ call.2)
    (now : Int) :
    (∃ kit once, kitOf peer (addXps env peer calls server) = some kit ∧
      kitOf peer (addXp env peer now (calls.map Prod.snd).sum "kit" server) =
        some once ∧ Splits kit once) ↔
      Splittable pl.kit (calls.map Prod.snd) := by
  have hkit : kitOf peer server = some pl.kit := by simp [kitOf, hpl]
  have hnonneg : ∀ gain ∈ calls.map Prod.snd, 0 ≤ gain := by
    intro gain hgain
    obtain ⟨call, hcall, rfl⟩ := List.mem_map.mp hgain
    exact hgains call hcall
  have hlaw : Splits (gainXps (calls.map Prod.snd) pl.kit)
        (gainXp (calls.map Prod.snd).sum pl.kit).2 ↔
      Splittable pl.kit (calls.map Prod.snd) := by
    by_cases hreached : required 125 pl.kit.lvlKit ≤
        pl.kit.xpKit + (calls.map Prod.snd).sum
    · by_cases htop : pl.kit.lvlKit = 99
      · exact splits_at_top htop hxp hnonneg hreached
      · exact splits_below_top (by omega) hxp hnonneg hreached
    · obtain ⟨hsplits, hsplittable⟩ :=
        splits_short hlevel hnonneg (not_le.mp hreached)
      exact iff_of_true hsplits hsplittable
  rw [kitOf_addXps, kitOf_addXp, hkit, ← hlaw]
  simp

/-- Twenty-four gains of 27 take new kits to level two; one gain of 648 takes
them to level one, with more experience than its threshold. -/
theorem addXps_not_split :
    ¬ ∀ (env : Env) (server : Server) (peer : Nat) (pl : Player),
      server.players[peer]? = some pl → pl.kit.lvlKit < 100 →
      pl.kit.xpKit < required 125 pl.kit.lvlKit →
      ∀ calls : List (Int × Int), (∀ call ∈ calls, 0 ≤ call.2) → ∀ now : Int,
        ∃ kit once, kitOf peer (addXps env peer calls server) = some kit ∧
          kitOf peer (addXp env peer now (calls.map Prod.snd).sum "kit" server) =
            some once ∧ Splits kit once := by
  intro hall
  obtain ⟨kit, once, hkit, honce, hsplits⟩ :=
    hall { items := ⟨0, fun _ => {}⟩ } { players := [{}] } 0 {} rfl (by decide) (by decide)
      (List.replicate 24 (0, 27)) (by decide) 0
  rw [kitOf_addXps] at hkit
  rw [kitOf_addXp] at honce
  have hcalls : gainXps (List.replicate 24 27) {} = kit :=
    Option.some.inj hkit
  have hsum : (gainXp 648 {}).2 = once := Option.some.inj honce
  have hsame := hsplits.same
  rw [← hcalls, ← hsum] at hsame
  exact absurd hsame (by decide)

/-- Ten gains of 27 are split without loss. -/
theorem addXps_ten_split :
    ∃ kit once, kitOf 0 (addXps { items := ⟨0, fun _ => {}⟩ } 0
        (List.replicate 10 (0, 27)) { players := [{}] }) = some kit ∧
      kitOf 0 (addXp { items := ⟨0, fun _ => {}⟩ } 0 0
        ((List.replicate 10 ((0 : Int), (27 : Int))).map Prod.snd).sum "kit"
        { players := [{}] }) = some once ∧ Splits kit once :=
  (addXps_splits_iff { items := ⟨0, fun _ => {}⟩ }
    { players := [{}] } 0 {} rfl (by decide) (by decide)
    (List.replicate 10 (0, 27)) (by decide) 0).mpr (by
      unfold Splittable
      rw [if_neg (by decide)]
      decide)

end Law

end KitServer

end NopyServer
