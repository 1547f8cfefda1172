/-
The teams of a game at its two ends.  `START` deals the players out one after the
other and looks for another team where one is full; where all are full the player
keeps the team 0 that every player begins with.  `END` takes the highest score over
all four team slots, and the winners from the teams that play.
-/
import NopyServer.WorldGame
import Mathlib.Data.Finset.Max
import Mathlib.Data.Nat.Count
import Mathlib.Data.Int.CardIntervalMod

namespace NopyServer

section Dealing

variable {teamSize cap n t u : Nat}

/-- How often a team has its turn among the first `n`. -/
def turns (teamSize n t : Nat) : Nat := Nat.count (fun i => i % teamSize = t) n

theorem turns_succ :
    turns teamSize (n + 1) t = turns teamSize n t + if n % teamSize = t then 1 else 0 :=
  Nat.count_succ _ n

theorem turns_eq (ht : t < teamSize) :
    turns teamSize n t = n / teamSize + if t < n % teamSize then 1 else 0 := by
  have hcount := Nat.count_modEq_card n (Nat.zero_lt_of_lt ht) t
  simp only [Nat.ModEq, Nat.mod_eq_of_lt ht] at hcount
  exact hcount

theorem turns_self (hteams : 0 < teamSize) :
    turns teamSize n (n % teamSize) = n / teamSize := by
  rw [turns_eq (Nat.mod_lt n hteams), if_neg (Nat.lt_irrefl _), Nat.add_zero]

theorem turns_all (ht : t < teamSize) : turns teamSize (teamSize * cap) t = cap := by
  rw [turns_eq ht, Nat.mul_mod_right, Nat.mul_div_cancel_left _ (Nat.zero_lt_of_lt ht),
    if_neg (Nat.not_lt_zero t), Nat.add_zero]

theorem turns_mono {m : Nat} (hle : n ≤ m) : turns teamSize n t ≤ turns teamSize m t :=
  Nat.count_monotone _ hle

theorem le_turns (ht : t < teamSize) (hn : teamSize * cap ≤ n) :
    cap ≤ turns teamSize n t := by
  have hall := @turns_all teamSize cap t ht
  exact hall.symm.le.trans (turns_mono hn)

theorem turns_le (ht : t < teamSize) (hn : n ≤ teamSize * cap) :
    turns teamSize n t ≤ cap := by
  have hle := @turns_mono teamSize n t _ hn
  rwa [turns_all ht] at hle

theorem turns_even (ht : t < teamSize) (hu : u < teamSize) :
    turns teamSize n t ≤ turns teamSize n u + 1 := by
  rw [turns_eq ht, turns_eq hu]
  split_ifs <;> omega

/-- The team of the `i`-th player. -/
def seat (teamSize cap i : Nat) : Nat :=
  if i < teamSize * cap then i % teamSize else 0

theorem seat_lt (hteams : 0 < teamSize) (i : Nat) : seat teamSize cap i < teamSize := by
  unfold seat
  split_ifs
  · exact Nat.mod_lt i hteams
  · exact hteams

/-- Who comes after all places are taken is put into team 0. -/
theorem count_seats (teamSize cap n t : Nat) :
    ((List.range n).map (seat teamSize cap)).count t =
      turns teamSize (min n (teamSize * cap)) t +
        if t = 0 then n - teamSize * cap else 0 := by
  induction n with
  | zero => simp [turns]
  | succ n ih =>
      rw [List.range_succ, List.map_append, List.count_append, ih]
      rcases Nat.lt_or_ge n (teamSize * cap) with hroom | hfull
      · have hseat : seat teamSize cap n = n % teamSize := if_pos hroom
        rw [Nat.min_eq_left hroom.le, Nat.min_eq_left hroom, turns_succ,
          Nat.sub_eq_zero_of_le hroom.le, Nat.sub_eq_zero_of_le hroom]
        simp [hseat, List.count_singleton]
      · have hseat : seat teamSize cap n = 0 := if_neg hfull.not_gt
        rw [Nat.min_eq_right hfull, Nat.min_eq_right (Nat.le_succ_of_le hfull)]
        by_cases hzero : t = 0
        · subst hzero
          simp only [List.map_cons, List.map_nil, hseat, List.count_singleton_self, if_true]
          omega
        · simp [hseat, hzero, Ne.symm hzero]

end Dealing

namespace WorldGame

section Assignment

variable {g : WorldGame} {peers : List GamePeer} {peer : GamePeer}
  {teamSize cap i left assigned : Nat} {teamCounts : List Nat}

theorem findTeam_free (hfree : teamCounts.getD assigned 0 < cap) :
    findTeam teamSize cap teamCounts left assigned = assigned := by
  cases left with
  | zero => rfl
  | succ left => rw [findTeam, if_neg hfree.not_ge]

theorem findTeam_lt (hassigned : assigned < teamSize) :
    findTeam teamSize cap teamCounts left assigned < teamSize := by
  induction left generalizing assigned with
  | zero => exact hassigned
  | succ left ih =>
      rw [findTeam]
      split_ifs
      · exact ih (Nat.mod_lt _ (Nat.zero_lt_of_lt hassigned))
      · exact hassigned

/-- As long as a place is free the team whose turn it is has one. -/
theorem assignTeams_eq (hteams : 0 < teamSize) (hlength : teamCounts.length = teamSize)
    (hcounts : ∀ t < teamSize,
      teamCounts.getD t 0 = turns teamSize (min i (teamSize * cap)) t) :
    assignTeams teamSize cap left i teamCounts =
      (List.range' i left).map (seat teamSize cap) := by
  induction left generalizing i teamCounts with
  | zero => rfl
  | succ left ih =>
      rw [List.range'_succ, List.map_cons, assignTeams]
      rcases Nat.lt_or_ge i (teamSize * cap) with hroom | hfull
      · rw [Nat.min_eq_left hroom.le] at hcounts
        have hturn : teamCounts.getD (i % teamSize) 0 < cap := by
          rw [hcounts _ (Nat.mod_lt i hteams), turns_self hteams]
          exact Nat.div_lt_of_lt_mul hroom
        rw [findTeam_free hturn, if_pos hturn, seat, if_pos hroom]
        refine congrArg _ (ih (by rw [List.length_modify, hlength]) fun t ht => ?_)
        have hthere : t < teamCounts.length := hlength.symm ▸ ht
        have hcount := hcounts t ht
        rw [List.getD_eq_getElem?_getD, List.getElem?_eq_getElem hthere,
          Option.getD_some] at hcount
        rw [Nat.min_eq_left hroom, turns_succ, ← hcount, List.getD_eq_getElem?_getD,
          List.getElem?_modify, List.getElem?_eq_getElem hthere]
        split_ifs <;> rfl
      · rw [Nat.min_eq_right hfull] at hcounts
        have hnone : ¬ teamCounts.getD (findTeam teamSize cap teamCounts teamSize
            (i % teamSize)) 0 < cap := by
          rw [hcounts _ (findTeam_lt (Nat.mod_lt i hteams)),
            turns_all (findTeam_lt (Nat.mod_lt i hteams))]
          exact Nat.lt_irrefl _
        rw [if_neg hnone, seat, if_neg hfull.not_gt]
        refine congrArg _ (ih hlength fun t ht => ?_)
        rw [Nat.min_eq_right (Nat.le_succ_of_le hfull)]
        exact hcounts t ht

/-- `min_team` and `max_team` of `START`. -/
def minTeam (g : WorldGame) : Nat := if g.minTeamSize = 0 then 1 else g.minTeamSize

def maxTeam (g : WorldGame) : Nat := if g.maxTeamSize = 0 then 64 else g.maxTeamSize

theorem playerTeams_eq (hteams : 0 < g.teamSize) (count : Nat) :
    g.playerTeams count = (List.range count).map (seat g.teamSize g.maxTeam) := by
  unfold playerTeams
  dsimp only
  rw [if_pos hteams, List.range_eq_range']
  refine assignTeams_eq hteams List.length_replicate fun t ht => ?_
  simp [turns, ht]

/-- The check of `START` for enough players. -/
def Passes (g : WorldGame) (peers : List GamePeer) (peer : GamePeer) : Prop :=
  g.teamSize * g.minTeam ≤ (g.worldPlayers peers peer).length

/-- The teams that `START` gives to the players. -/
def assignment (g : WorldGame) (peers : List GamePeer) (peer : GamePeer) : List Nat :=
  (g.joins peers peer).map Prod.snd

theorem assignment_eq (hteams : 0 < g.teamSize) (hpasses : g.Passes peers peer) :
    g.assignment peers peer =
      (List.range (g.worldPlayers peers peer).length).map (seat g.teamSize g.maxTeam) := by
  have henough : ¬ (g.worldPlayers peers peer).length < g.teamSize * g.minTeam :=
    hpasses.not_gt
  rw [← playerTeams_eq hteams, assignment, joins]
  rw [minTeam] at henough
  rw [if_neg henough, List.map_snd_zip]
  rw [length_playerTeams, List.length_map]

/-- The players are dealt out as the settings of the teams ask for. -/
structure Dealt (teamSize minTeam maxTeam players : Nat) (teams : List Nat) : Prop where
  everyone : teams.length = players
  inside : ∀ t ∈ teams, t < teamSize
  enough : ∀ t < teamSize, minTeam ≤ teams.count t
  capped : ∀ t < teamSize, teams.count t ≤ maxTeam
  even : ∀ t < teamSize, ∀ u < teamSize, teams.count t < maxTeam → teams.count u < maxTeam →
    teams.count t ≤ teams.count u + 1

/-- `START` deals the players out as it should exactly when the teams have a place for
each of them. -/
theorem start_dealt_iff (hteams : 0 < g.teamSize) (hpasses : g.Passes peers peer) :
    Dealt g.teamSize g.minTeam g.maxTeam (g.worldPlayers peers peer).length
        (g.assignment peers peer) ↔
      (g.worldPlayers peers peer).length ≤ g.teamSize * g.maxTeam := by
  have hpassed : g.teamSize * g.minTeam ≤ (g.worldPlayers peers peer).length := hpasses
  rw [assignment_eq hteams hpasses]
  generalize (g.worldPlayers peers peer).length = players at hpassed ⊢
  constructor
  · intro hdealt
    have hfirst := hdealt.capped 0 hteams
    rw [count_seats, if_pos rfl] at hfirst
    by_contra hmore
    rw [not_le] at hmore
    rw [Nat.min_eq_right hmore.le, turns_all hteams] at hfirst
    omega
  · intro hroom
    have hcount : ∀ t, ((List.range players).map (seat g.teamSize g.maxTeam)).count t =
        turns g.teamSize players t := by
      intro t
      rw [count_seats, Nat.min_eq_left hroom, Nat.sub_eq_zero_of_le hroom, ite_self,
        Nat.add_zero]
    refine ⟨by simp, fun t ht => ?_, fun t ht => ?_, fun t ht => ?_, fun t ht u hu _ _ => ?_⟩
    · obtain ⟨i, -, rfl⟩ := List.mem_map.mp ht
      exact seat_lt hteams i
    · rw [hcount]
      exact le_turns ht hpassed
    · rw [hcount]
      exact turns_le ht hroom
    · rw [hcount, hcount]
      exact turns_even ht hu

def gamePlayer (netID : Nat) : GamePeer :=
  { world := "ARENA", tankIDName := "ann", netID := netID }

/-- Two teams of two places for three players. -/
theorem start_dealt_three :
    ∃ g : WorldGame, ∃ peers peer, 0 < g.teamSize ∧ g.minTeam ≤ g.maxTeam ∧
      g.Passes peers peer ∧
      Dealt g.teamSize g.minTeam g.maxTeam (g.worldPlayers peers peer).length
        (g.assignment peers peer) := by
  refine ⟨idle { teamSize := 2, maxTeamSize := 2 } [],
    [gamePlayer 1, gamePlayer 2, gamePlayer 3], gamePlayer 1, by decide, by decide,
    by unfold Passes; decide, ?_⟩
  exact (start_dealt_iff (by decide) (by unfold Passes; decide)).mpr (by decide)

/-- Two players are put into the one team, which has one place. -/
theorem start_overfills_team :
    ¬ ∀ (g : WorldGame) (peers : List GamePeer) (peer : GamePeer), 0 < g.teamSize →
      g.teamSize ≤ 4 → g.minTeamSize ≤ 64 → g.maxTeamSize ≤ 64 → g.minTeam ≤ g.maxTeam →
      g.Passes peers peer →
      Dealt g.teamSize g.minTeam g.maxTeam (g.worldPlayers peers peer).length
        (g.assignment peers peer) := by
  intro hclaim
  have hdealt := hclaim (idle { teamSize := 1, maxTeamSize := 1 } [])
    [gamePlayer 1, gamePlayer 2] (gamePlayer 1) (by decide) (by decide) (by decide)
    (by decide) (by decide) (by unfold Passes; decide)
  exact absurd (hdealt.capped 0 (by decide)) (by decide)

end Assignment

section Winners

variable {g : WorldGame} {t : Nat}

/-- The score of a team slot. -/
def teamScore (g : WorldGame) (t : Nat) : Int :=
  (g.teams[t]?.map TeamData.score).getD 0

/-- A player whom nobody has outscored. -/
def Leads (g : WorldGame) (pl : PlayerData) : Prop :=
  ∀ other ∈ g.players, other.score ≤ pl.score

instance (g : WorldGame) (pl : PlayerData) : Decidable (g.Leads pl) :=
  inferInstanceAs (Decidable (∀ other ∈ g.players, other.score ≤ pl.score))

/-- There are four team slots, and at most as many teams play. -/
structure Shaped (g : WorldGame) : Prop where
  four : g.teams.length = 4
  size : g.teamSize ≤ 4

/-- The winners are the competitors with the highest score. -/
structure Rightful (g : WorldGame) (announced : WinnersData) : Prop where
  team : announced.team = true ↔ 0 < g.teamSize
  teams : 0 < g.teamSize → announced.members ≠ [] ∧ announced.members.Nodup ∧
    ∀ t, t ∈ announced.members ↔
      t < g.teamSize ∧ ∀ u < g.teamSize, g.teamScore u ≤ g.teamScore t
  players : g.teamSize = 0 → announced.members =
    (g.players.filter fun pl => g.Leads pl).map PlayerData.netID

theorem max_player_iff {pl : PlayerData} (hpl : pl ∈ g.players) :
    (g.players.map PlayerData.score).max? = some pl.score ↔ g.Leads pl := by
  rw [List.max?_eq_some_iff]
  constructor
  · rintro ⟨-, hmax⟩ other hother
    exact hmax _ (List.mem_map_of_mem hother)
  · intro hleads
    refine ⟨List.mem_map_of_mem hpl, fun score hscore => ?_⟩
    obtain ⟨other, hother, rfl⟩ := List.mem_map.mp hscore
    exact hleads other hother

theorem teamScore_eq (hfour : g.teams.length = 4) (ht : t < 4) :
    g.teams[t]?.map TeamData.score = some (g.teamScore t) := by
  unfold teamScore
  rw [List.getElem?_eq_getElem (hfour.symm ▸ ht)]
  rfl

theorem max_team_iff (hfour : g.teams.length = 4) (ht : t < 4) :
    (g.teams.map TeamData.score).max? = some (g.teamScore t) ↔
      ∀ u < 4, g.teamScore u ≤ g.teamScore t := by
  have hmem : ∀ score, score ∈ g.teams.map TeamData.score ↔
      ∃ u < 4, score = g.teamScore u := by
    intro score
    rw [List.mem_iff_getElem?]
    constructor
    · rintro ⟨u, hu⟩
      have hlt : u < 4 := by
        have hinside := (List.getElem?_eq_some_iff.mp hu).1
        rwa [List.length_map, hfour] at hinside
      rw [List.getElem?_map, teamScore_eq hfour hlt] at hu
      exact ⟨u, hlt, (Option.some.inj hu).symm⟩
    · rintro ⟨u, hu, rfl⟩
      exact ⟨u, by rw [List.getElem?_map, teamScore_eq hfour hu]⟩
  rw [List.max?_eq_some_iff]
  constructor
  · rintro ⟨-, hmax⟩ u hu
    exact hmax _ ((hmem _).mpr ⟨u, hu, rfl⟩)
  · intro hall
    refine ⟨(hmem _).mpr ⟨t, ht, rfl⟩, fun score hscore => ?_⟩
    obtain ⟨u, hu, rfl⟩ := (hmem score).mp hscore
    exact hall u hu

theorem mem_winners_iff (hg : g.Shaped) (hteams : 0 < g.teamSize) :
    t ∈ g.winners.members ↔
      t < g.teamSize ∧ ∀ u < 4, g.teamScore u ≤ g.teamScore t := by
  unfold winners
  rw [if_neg hteams.ne', List.mem_filter, List.mem_range]
  refine and_congr_right fun ht => ?_
  have hslot : t < 4 := ht.trans_le hg.size
  rw [beq_iff_eq, teamScore_eq hg.four hslot, max_team_iff hg.four hslot]

/-- No slot beyond the playing teams has a higher score than all of them. -/
def Outscored (g : WorldGame) : Prop :=
  ∀ u < 4, ∃ t < g.teamSize, g.teamScore u ≤ g.teamScore t

/-- Some team of the first ones has the highest score of them. -/
theorem exists_best (g : WorldGame) (hteams : 0 < g.teamSize) :
    ∃ t < g.teamSize, ∀ u < g.teamSize, g.teamScore u ≤ g.teamScore t := by
  obtain ⟨t, ht, hbest⟩ := Finset.exists_max_image (Finset.range g.teamSize) g.teamScore
    ⟨0, Finset.mem_range.mpr hteams⟩
  exact ⟨t, Finset.mem_range.mp ht, fun u hu => hbest u (Finset.mem_range.mpr hu)⟩

theorem rightful_teams_iff (hg : g.Shaped) (hteams : 0 < g.teamSize) :
    g.Rightful g.winners ↔ g.Outscored := by
  constructor
  · intro hright u hu
    obtain ⟨hsome, -, -⟩ := hright.teams hteams
    obtain ⟨t, ht⟩ := List.exists_mem_of_ne_nil _ hsome
    obtain ⟨hplays, hbest⟩ := (mem_winners_iff hg hteams).mp ht
    exact ⟨t, hplays, hbest u hu⟩
  · intro houtscored
    -- the best of the playing teams is the best of all slots
    have hslots : ∀ t, (∀ u < g.teamSize, g.teamScore u ≤ g.teamScore t) →
        ∀ u < 4, g.teamScore u ≤ g.teamScore t := by
      intro t hbest u hu
      obtain ⟨v, hv, hle⟩ := houtscored u hu
      exact hle.trans (hbest v hv)
    have hmem : ∀ t, t ∈ g.winners.members ↔
        t < g.teamSize ∧ ∀ u < g.teamSize, g.teamScore u ≤ g.teamScore t := by
      intro t
      rw [mem_winners_iff hg hteams]
      refine and_congr_right fun ht => ⟨fun hall u hu => hall u (hu.trans_le hg.size), ?_⟩
      exact hslots t
    refine ⟨?_, fun _ => ⟨?_, ?_, hmem⟩, fun hzero => absurd hzero hteams.ne'⟩
    · unfold winners
      rw [if_neg hteams.ne']
      exact iff_of_true rfl hteams
    · obtain ⟨t, ht, hbest⟩ := g.exists_best hteams
      exact List.ne_nil_of_mem ((hmem t).mpr ⟨ht, hbest⟩)
    · unfold winners
      rw [if_neg hteams.ne']
      exact List.nodup_range.filter _

theorem rightful_players_iff (hfree : g.teamSize = 0) :
    g.Rightful g.winners ↔ ∀ pl ∈ g.players, g.Leads pl → pl.netID < 256 := by
  have hbest : g.players.filter (fun pl =>
      (g.players.map PlayerData.score).max? == some pl.score) =
      g.players.filter fun pl => g.Leads pl := by
    refine List.filter_congr fun pl hpl => ?_
    rw [Bool.eq_iff_iff, beq_iff_eq, max_player_iff hpl, decide_eq_true_iff]
  have hmembers : g.winners.members =
      (g.players.filter fun pl => g.Leads pl).map fun pl => pl.netID % 256 := by
    unfold winners
    rw [if_pos hfree]
    exact congrArg _ hbest
  have hteam : g.winners.team = true ↔ 0 < g.teamSize := by
    unfold winners
    rw [if_pos hfree]
    exact iff_of_false Bool.false_ne_true hfree.not_gt
  have hsame : g.winners.members =
      (g.players.filter fun pl => g.Leads pl).map PlayerData.netID ↔
        ∀ pl ∈ g.players, g.Leads pl → pl.netID < 256 := by
    rw [hmembers, List.map_inj_left]
    simp only [List.mem_filter, decide_eq_true_eq, and_imp]
    refine forall_congr' fun pl => forall_congr' fun _ => forall_congr' fun _ => ?_
    omega
  rw [← hsame]
  exact ⟨fun hright => hright.players hfree, fun heq =>
    ⟨hteam, fun hteams => absurd hfree hteams.ne', fun _ => heq⟩⟩

/-- `END` declares the competitors with the highest score the winners exactly when, of
teams, no slot beyond the playing ones outscores them, and, of players, the winners'
netIDs fit into a byte. -/
theorem finish_rightful_iff (hg : g.Shaped) :
    (∃ announced, g.finish.announced = announced :: g.announced ∧
        g.Rightful announced) ↔
      if 0 < g.teamSize then g.Outscored
      else ∀ pl ∈ g.players, g.Leads pl → pl.netID < 256 := by
  have hfinish : (∃ announced, g.finish.announced = announced :: g.announced ∧
      g.Rightful announced) ↔ g.Rightful g.winners := by
    simp [finish]
  rw [hfinish]
  split_ifs with hteams
  · exact rightful_teams_iff hg hteams
  · exact rightful_players_iff (Nat.eq_zero_of_not_pos hteams)

end Winners

section Shape

variable {g : WorldGame}

theorem Shaped.join (hg : g.Shaped) (netID teamId : Nat) : (g.join netID teamId).Shaped := by
  unfold WorldGame.join
  split_ifs
  · exact ⟨(List.length_modify _ _ _).trans hg.four, hg.size⟩
  · exact ⟨hg.four, hg.size⟩
  · exact hg

theorem Shaped.joinAll (hg : g.Shaped) (joins : List (Nat × Nat)) :
    (g.joinAll joins).Shaped := by
  induction joins generalizing g with
  | nil => exact hg
  | cons call joins ih => exact ih (hg.join call.1 call.2)

theorem Shaped.leave (hg : g.Shaped) (own netID : Nat) : (g.leave own netID).Shaped := by
  unfold WorldGame.leave
  dsimp only
  split_ifs
  · refine ⟨?_, hg.size⟩
    dsimp only
    split
    · split_ifs
      · rw [List.length_modify, hg.four]
      · exact hg.four
    · exact hg.four
  · exact hg
  · exact hg

theorem Shaped.finish (hg : g.Shaped) : g.finish.Shaped := ⟨rfl, hg.size⟩

theorem Shaped.modifyPlayer (hg : g.Shaped) (netID : Nat) (type : Modifier)
    (modifier : Int8) : (g.modifyPlayer netID type modifier).Shaped := by
  unfold WorldGame.modifyPlayer
  cases g.getPlayer netID with
  | none => exact hg
  | some i =>
      cases type with
      | live => exact ⟨hg.four, hg.size⟩
      | hit => exact ⟨hg.four, hg.size⟩
      | score =>
          dsimp only
          have hteams : ∀ (t : Nat) (f : TeamData → TeamData),
              { g with teams := g.teams.modify t f }.Shaped :=
            fun t f => ⟨by rw [List.length_modify, hg.four], hg.size⟩
          by_cases hfree : (g.players[i]?.map PlayerData.team).getD 4 = 4
          · simp only [if_pos hfree]
            split_ifs
            · exact Shaped.finish ⟨hg.four, hg.size⟩
            · exact ⟨hg.four, hg.size⟩
          · simp only [if_neg hfree]
            split_ifs
            · exact (hteams _ _).finish
            · exact hteams _ _

/-- The settings of an event are among those that the dialog clamps them to. -/
def Clamped : GameEvent → Prop
  | .processInput settings _ => settings.teamSize ≤ 4
  | _ => True

theorem Shaped.apply {event : GameEvent} (hg : g.Shaped) (hevent : Clamped event) :
    (g.apply event).Shaped := by
  cases event with
  | start peers peer =>
      change (g.start peers peer).Shaped
      have hopen : { g with started := true }.Shaped := ⟨hg.four, hg.size⟩
      unfold WorldGame.start
      extract_lets minTeam
      split_ifs
      · exact hg
      · exact hopen.joinAll _
  | join netID teamId => exact hg.join netID teamId
  | leave netID => exact hg.leave netID _
  | modifyPlayer netID type modifier => exact hg.modifyPlayer netID type modifier
  | finish => exact hg.finish
  | processInput settings managers =>
      refine ⟨hg.four, ?_⟩
      change (if g.started then g.toGameSettings else settings).teamSize ≤ 4
      split_ifs
      · exact hg.size
      · exact hevent

/-- Every game that is reached has its four slots. -/
theorem Shaped.run {events : List GameEvent} (hg : g.Shaped)
    (hevents : ∀ event ∈ events, Clamped event) : (g.run events).Shaped := by
  induction events generalizing g with
  | nil => exact hg
  | cons event events ih =>
      exact ih (hg.apply (hevents event List.mem_cons_self)) fun other hother =>
        hevents other (List.mem_cons_of_mem _ hother)

theorem idle_shaped {settings : GameSettings} (hsettings : settings.teamSize ≤ 4)
    (managers : List String) : (idle settings managers).Shaped :=
  ⟨rfl, hsettings⟩

/-- Two players on two teams. -/
def duel : GameEvent := .start [gamePlayer 1, gamePlayer 2] (gamePlayer 1)

theorem scorer_wins :
    ∃ announced, ((idle { teamSize := 2 } []).run
        [duel, .modifyPlayer 2 .score 1]).finish.announced = [announced] ∧
      ((idle { teamSize := 2 } []).run [duel, .modifyPlayer 2 .score 1]).Rightful
        announced := by
  have hshaped : ((idle { teamSize := 2 } []).run
      [duel, .modifyPlayer 2 .score 1]).Shaped :=
    (idle_shaped (by decide) []).run (by simp [duel, Clamped])
  have hnone : ((idle { teamSize := 2 } []).run
      [duel, .modifyPlayer 2 .score 1]).announced = [] := by decide
  have houtscored : ((idle { teamSize := 2 } []).run
      [duel, .modifyPlayer 2 .score 1]).Outscored := by
    unfold Outscored
    decide
  have hright := (finish_rightful_iff hshaped).mpr (by
    rw [if_pos (by decide)]
    exact houtscored)
  rwa [hnone] at hright

/-- Where both teams have a negative score nobody wins: the slots of the teams that do
not play have the score zero. -/
theorem negative_teams_have_no_winner :
    ¬ ∀ (settings : GameSettings) (managers : List String) (events : List GameEvent),
      settings.teamSize ≤ 4 → (∀ event ∈ events, Clamped event) →
      ((idle settings managers).run events).started = true →
      ∃ announced, ((idle settings managers).run events).finish.announced =
          announced :: ((idle settings managers).run events).announced ∧
        ((idle settings managers).run events).Rightful announced := by
  intro hclaim
  obtain ⟨announced, heq, hright⟩ := hclaim { teamSize := 2 } []
    [duel, .modifyPlayer 1 .score (-1), .modifyPlayer 2 .score (-1)] (by decide)
    (by simp [duel, Clamped]) (by decide)
  have hnobody : announced.members = [] := by
    rw [finish, List.cons.injEq] at heq
    rw [← heq.1]
    decide
  exact (hright.teams (by decide)).1 hnobody

end Shape

end WorldGame

end NopyServer
