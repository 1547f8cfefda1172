/-
The game of a world: `WorldGame`.  A player of a running game is written down
twice, as a record with the number of a team and by netID in the list of that
team.  `JOIN` and `LEAVE` change both.  `LEAVE` reads the team of the leaver
behind the pointer to its record after `remove_if` has moved the records, and
`JOIN` does not take a player out of the list of the former team.
-/
import Mathlib.Data.List.Nodup
import Mathlib.Tactic.SplitIfs
import NopyServer.Lib.Ledger

namespace NopyServer

/-- `std::remove_if`: the entries that stay move to the front, behind them the
vector holds what it held.  The number is where the entries that stay end. -/
def removeIf {α : Type} (p : α → Bool) (xs : List α) : List α × Nat :=
  let kept := xs.filter fun x => !p x
  (kept ++ xs.drop kept.length, kept.length)

inductive Modifier where
  | score | live | hit
deriving DecidableEq

structure PlayerData where
  netID : Nat
  team : Nat
  score : Int := 0
  lives : Int8 := 0
  hits : Int8 := 0
deriving DecidableEq

structure TeamData where
  score : Int := 0
  members : List Nat := []
deriving DecidableEq

/-- The winners that `END` announces, with their score. -/
structure WinnersData where
  team : Bool := false
  members : List Nat := []
  score : Int := 0
deriving DecidableEq

/-- What the dialog of a game generator edits. -/
structure GameSettings where
  teamSize : Nat := 4
  lives : Nat := 3
  goals : Int := 5
  minTeamSize : Nat := 0
  maxTeamSize : Nat := 0
  flags : Nat := 0
deriving DecidableEq

/-- The results announced so far are kept in `announced`, the last one first. -/
structure WorldGame extends GameSettings where
  managers : List String := []
  started : Bool := false
  players : List PlayerData := []
  teams : List TeamData := [{}, {}, {}, {}]
  announced : List WinnersData := []
deriving DecidableEq

/-- A slot of `server->peers` with its player. -/
structure GamePeer where
  connected : Bool := true
  world : String
  tankIDName : String
  netID : Nat
deriving DecidableEq

namespace WorldGame

/-- `OWNER_PLAYS` among the `GameOptions`. -/
def ownerPlays : Nat := 4

def isOptionEnabled (g : WorldGame) (option : Nat) : Bool :=
  g.flags &&& option != 0

def isManager (g : WorldGame) (playerName : String) : Bool :=
  g.managers.contains playerName

/-- `GetPlayer`: a pointer into `players` as an index. -/
def getPlayer (g : WorldGame) (netID : Nat) : Option Nat :=
  g.players.findIdx? fun pl => pl.netID == netID

/-- `push_back` unless `std::find` finds the netID. -/
def addMember (netID : Nat) (team : TeamData) : TeamData :=
  if netID ∈ team.members then team
  else { team with members := team.members ++ [netID] }

/-- `erase` of what `std::find` finds. -/
def eraseMember (netID : Nat) (team : TeamData) : TeamData :=
  { team with members := team.members.erase netID }

/-- `manageBattle` with `JOIN`. -/
def join (g : WorldGame) (netID teamId : Nat) : WorldGame :=
  if g.started then
    let players := match g.getPlayer netID with
      | none => g.players ++
          [{ netID := netID, team := teamId, score := 0,
             lives := Int8.ofNat g.lives }]
      | some i => g.players.modify i fun pl => { pl with team := teamId }
    { g with
      players := players
      teams :=
        if teamId ≠ 4 then g.teams.modify teamId (addMember (netID % 256))
        else g.teams }
  else g

/-- `manageBattle` with `LEAVE`, called by the peer with netID `own`. -/
def leave (g : WorldGame) (own netID : Nat) : WorldGame :=
  if g.started then
    let player := g.getPlayer netID
    let it := removeIf (fun pl => pl.netID == netID) g.players
    if it.2 ≠ g.players.length then
      -- the pointer stays at its place while the records move up
      let pointee := player.bind fun i => it.1[i]?
      { g with
        teams := match pointee with
          | some pl =>
              if pl.team ≠ 4 then
                g.teams.modify pl.team (eraseMember (own % 256))
              else g.teams
          | none => g.teams
        players := it.1.take it.2 }
    else g
  else g

/-- The first half of `manageBattle` with `END`. -/
def winners (g : WorldGame) : WinnersData :=
  if g.teamSize = 0 then
    let best := g.players.filter fun pl =>
      (g.players.map PlayerData.score).max? == some pl.score
    let members := best.map fun pl => pl.netID % 256
    { team := false
      members := members
      -- the score is looked up under the netID that was cut to a byte
      score := ((members.head?.bind g.getPlayer).bind fun i =>
        g.players[i]?.map PlayerData.score).getD 0 }
  else
    let best := (List.range g.teamSize).filter fun idx =>
      (g.teams.map TeamData.score).max? == g.teams[idx]?.map TeamData.score
    { team := true
      members := best
      score := (best.head?.bind fun idx =>
        g.teams[idx]?.map TeamData.score).getD 0 }

/-- `manageBattle` with `END`. -/
def finish (g : WorldGame) : WorldGame :=
  { g with
    started := false
    managers := []
    teams := [{}, {}, {}, {}]
    players := []
    announced := g.winners :: g.announced }

/-- The search of `START` for a team with a free place. -/
def findTeam (teamSize maxTeam : Nat) (teamCounts : List Nat) :
    (left assigned : Nat) → Nat
  | 0, assigned => assigned
  | left + 1, assigned =>
      if maxTeam ≤ teamCounts.getD assigned 0 then
        findTeam teamSize maxTeam teamCounts left ((assigned + 1) % teamSize)
      else assigned

/-- The teams that `START` gives to the players from the `i`-th on. -/
def assignTeams (teamSize maxTeam : Nat) :
    (left i : Nat) → (teamCounts : List Nat) → List Nat
  | 0, _, _ => []
  | left + 1, i, teamCounts =>
      let assigned := findTeam teamSize maxTeam teamCounts teamSize (i % teamSize)
      if teamCounts.getD assigned 0 < maxTeam then
        assigned :: assignTeams teamSize maxTeam left (i + 1)
          (teamCounts.modify assigned (· + 1))
      else 0 :: assignTeams teamSize maxTeam left (i + 1) teamCounts

/-- The connected players of the world of `peer`. -/
def inWorld (peers : List GamePeer) (peer : GamePeer) : List GamePeer :=
  peers.filter fun cp => cp.connected && peer.world == cp.world

def worldPlayers (g : WorldGame) (peers : List GamePeer) (peer : GamePeer) :
    List GamePeer :=
  (inWorld peers peer).filter fun cp =>
    !(g.isManager cp.tankIDName && !g.isOptionEnabled ownerPlays)

def playerTeams (g : WorldGame) (count : Nat) : List Nat :=
  let maxTeam := if g.maxTeamSize = 0 then 64 else g.maxTeamSize
  if 0 < g.teamSize then
    assignTeams g.teamSize maxTeam count 0 (List.replicate g.teamSize 0)
  else List.replicate count 4

/-- The calls of `JOIN` that `START` makes: netID and team. -/
def joins (g : WorldGame) (peers : List GamePeer) (peer : GamePeer) :
    List (Nat × Nat) :=
  let players := g.worldPlayers peers peer
  let minTeam := if g.minTeamSize = 0 then 1 else g.minTeamSize
  if players.length < g.teamSize * minTeam then []
  else (players.map GamePeer.netID).zip (g.playerTeams players.length)

def joinAll (g : WorldGame) (joins : List (Nat × Nat)) : WorldGame :=
  joins.foldl (fun game call => game.join call.1 call.2) g

/-- `manageBattle` with `START`. -/
def start (g : WorldGame) (peers : List GamePeer) (peer : GamePeer) :
    WorldGame :=
  let minTeam := if g.minTeamSize = 0 then 1 else g.minTeamSize
  if (g.worldPlayers peers peer).length < g.teamSize * minTeam then g
  else { g with started := true }.joinAll (g.joins peers peer)

/-- The test of `ModifyPlayer` whether a score ends the game. -/
def reached (goals score : Int) : Bool :=
  goals ≠ 0 ∧ (goals < 0 ∧ score ≤ goals ∨ 0 < goals ∧ goals ≤ score)

def modifyPlayer (g : WorldGame) (netID : Nat) (type : Modifier)
    (modifier : Int8) : WorldGame :=
  match g.getPlayer netID with
  | none => g
  | some i =>
      match type with
      | .score =>
          let team := (g.players[i]?.map PlayerData.team).getD 4
          let scored :=
            if team = 4 then
              { g with players := g.players.modify i fun pl =>
                  { pl with score := pl.score + modifier.toInt } }
            else
              { g with teams := g.teams.modify team fun data =>
                  { data with score := data.score + modifier.toInt } }
          let score :=
            if team = 4 then (scored.players[i]?.map PlayerData.score).getD 0
            else (scored.teams[team]?.map TeamData.score).getD 0
          if reached g.goals score then scored.finish else scored
      | .live =>
          { g with players := g.players.modify i fun pl =>
              { pl with lives := pl.lives + modifier } }
      | .hit =>
          { g with players := g.players.modify i fun pl =>
              { pl with hits := pl.hits + modifier } }

/-- `processInput` without its buttons: the settings that the lines of the dialog
give are taken over unless a game runs, the managers are in any case. -/
def processInput (g : WorldGame) (settings : GameSettings)
    (managers : List String) : WorldGame :=
  { g with
    toGameSettings := if g.started then g.toGameSettings else settings
    managers := managers }

end WorldGame

/-- What the players of a world do to its game. -/
inductive GameEvent where
  | start (peers : List GamePeer) (peer : GamePeer)
  | join (netID teamId : Nat)
  | leave (netID : Nat)
  | modifyPlayer (netID : Nat) (type : Modifier) (modifier : Int8)
  | finish
  | processInput (settings : GameSettings) (managers : List String)
deriving DecidableEq

namespace WorldGame

/-- A player leaves with the own netID. -/
def apply (g : WorldGame) : GameEvent → WorldGame
  | .start peers peer => g.start peers peer
  | .join netID teamId => g.join netID teamId
  | .leave netID => g.leave netID (netID % 256)
  | .modifyPlayer netID type modifier => g.modifyPlayer netID type modifier
  | .finish => g.finish
  | .processInput settings managers => g.processInput settings managers

/-- A game that has not been started. -/
def idle (settings : GameSettings) (managers : List String) : WorldGame :=
  { toGameSettings := settings, managers := managers }

def run (g : WorldGame) (events : List GameEvent) : WorldGame :=
  events.foldl apply g

/-- The netIDs on record, each with its team. -/
def roster (g : WorldGame) : List (Nat × Nat) :=
  g.players.map fun pl => (pl.netID, pl.team)

def lists (g : WorldGame) : List (List Nat) :=
  g.teams.map TeamData.members

/-- The list of a team; outside of `teams` there is none. -/
def members (g : WorldGame) (t : Nat) : List Nat :=
  g.lists[t]?.getD []

/-- The records and the lists say the same, and each says it once. -/
structure Good (g : WorldGame) : Prop where
  four : g.lists.length = 4
  once : (g.roster.map Prod.fst).Nodup
  fits : ∀ entry ∈ g.roster, entry.1 < 256
  listed_iff : ∀ t < 4, ∀ n, n ∈ g.members t ↔ (n, t) ∈ g.roster
  listed_once : ∀ t, (g.members t).Nodup
  idle : g.started = false → g.players = []

end WorldGame

/-- The record that `findIdx?` finds, with what stands before and behind it. -/
theorem findIdx?_split {α : Type} {p : α → Bool} {xs : List α} {i : Nat}
    (h : xs.findIdx? p = some i) :
    ∃ before x after, xs = before ++ x :: after ∧ before.length = i ∧
      p x = true ∧ ∀ y ∈ before, p y = false := by
  obtain ⟨hi, hp, hbefore⟩ := List.findIdx?_eq_some_iff_getElem.mp h
  refine ⟨xs.take i, xs[i], xs.drop (i + 1), ?_, ?_, hp, ?_⟩
  · simp
  · simp [Nat.le_of_lt hi]
  · intro y hy
    obtain ⟨j, hj, rfl⟩ := List.mem_take_iff_getElem.mp hy
    exact Bool.eq_false_iff.mpr (hbefore j (by omega))

theorem modify_append_cons {α : Type} (before after : List α) (x : α)
    (f : α → α) :
    (before ++ x :: after).modify before.length f = before ++ f x :: after := by
  induction before with
  | nil => rfl
  | cons y before ih => simp [ih]

/-- With one entry to remove, `remove_if` leaves at its place the entry behind
it, or the entry itself where it was the last one. -/
theorem removeIf_split {α : Type} (p : α → Bool) {before after : List α} {x : α}
    (hbefore : ∀ y ∈ before, p y = false) (hx : p x = true)
    (hafter : ∀ y ∈ after, p y = false) :
    (removeIf p (before ++ x :: after)).2 = before.length + after.length ∧
      (removeIf p (before ++ x :: after)).1.take
        (removeIf p (before ++ x :: after)).2 = before ++ after ∧
      (removeIf p (before ++ x :: after)).1[before.length]? =
        some (after.head?.getD x) := by
  have hkept : (before ++ x :: after).filter (fun y => !p y) = before ++ after := by
    rw [List.filter_append, List.filter_cons_of_neg (by simp [hx]),
      List.filter_eq_self.mpr (by simpa using hbefore),
      List.filter_eq_self.mpr (by simpa using hafter)]
  have hlength : (before ++ after).length = before.length + after.length :=
    List.length_append
  simp only [removeIf, hkept]
  refine ⟨hlength, List.take_left, ?_⟩
  cases after with
  | nil => simp
  | cons y after => simp

namespace WorldGame

theorem getPlayer_none {g : WorldGame} {n : Nat} (h : g.getPlayer n = none) :
    ∀ pl ∈ g.players, pl.netID ≠ n := by
  intro pl hpl
  simpa using List.findIdx?_eq_none_iff.mp h pl hpl

theorem not_mem_roster {g : WorldGame} {n : Nat}
    (h : ∀ pl ∈ g.players, pl.netID ≠ n) (u : Nat) : (n, u) ∉ g.roster := by
  intro hmem
  obtain ⟨pl, hpl, heq⟩ := List.mem_map.mp hmem
  exact h pl hpl (congrArg Prod.fst heq)

/-- The only record of a netID that `GetPlayer` finds. -/
theorem Good.split {g : WorldGame} (hg : g.Good) {n i : Nat}
    (h : g.getPlayer n = some i) :
    ∃ before pl after, g.players = before ++ pl :: after ∧ before.length = i ∧
      pl.netID = n ∧ (∀ other ∈ before, other.netID ≠ n) ∧
      ∀ other ∈ after, other.netID ≠ n := by
  obtain ⟨before, pl, after, hplayers, hlength, hpl, hbefore⟩ := findIdx?_split h
  have hn : pl.netID = n := by simpa using hpl
  have honce := hg.once
  rw [roster, hplayers] at honce
  refine ⟨before, pl, after, hplayers, hlength, hn, ?_, ?_⟩
  · intro other hother
    simpa using hbefore other hother
  · intro other hother heq
    simp only [List.map_append, List.map_map, List.map_cons, Function.comp_def]
      at honce
    have hnotin := (List.nodup_cons.mp honce.of_append_right).1
    exact hnotin (List.mem_map.mpr ⟨other, hother, heq.trans hn.symm⟩)

/-! `JOIN`. -/

theorem members_modify {g : WorldGame} {teams : List TeamData} {t : Nat}
    {f : TeamData → TeamData} (onMembers : List Nat → List Nat)
    (hf : ∀ team, (f team).members = onMembers team.members)
    (hteams : teams = g.teams.modify t f) (hfour : g.lists.length = 4) (u : Nat) :
    ((teams.map TeamData.members)[u]?).getD [] =
      if t = u ∧ u < 4 then onMembers (g.members u) else g.members u := by
  have hlength : g.teams.length = 4 := by simpa [lists] using hfour
  rw [hteams, List.getElem?_map, List.getElem?_modify]
  simp only [members, lists, List.getElem?_map]
  by_cases hu : u < 4
  · have hin : u < g.teams.length := by omega
    by_cases htu : t = u
    · simp [htu, hu, hin, hf]
    · simp [htu]
  · have hout : g.teams[u]? = none := List.getElem?_eq_none (by omega)
    simp [hu, hout]

theorem addMember_members (n : Nat) (team : TeamData) :
    (addMember n team).members =
      if n ∈ team.members then team.members else team.members ++ [n] := by
  unfold addMember
  split_ifs <;> rfl

theorem members_join {g : WorldGame} (hstarted : g.started = true)
    (hfour : g.lists.length = 4) {n : Nat} (hn : n < 256) (t u : Nat) :
    (g.join n t).members u =
      if t = u ∧ u < 4 then
        if n ∈ g.members u then g.members u else g.members u ++ [n]
      else g.members u := by
  by_cases ht : t = 4
  · have hnot : ¬(t = u ∧ u < 4) := by omega
    rw [if_neg hnot]
    simp [join, hstarted, ht, members, lists]
  · have hmod : n % 256 = n := Nat.mod_eq_of_lt hn
    have hteams : (g.join n t).teams = g.teams.modify t (addMember n) := by
      simp [join, hstarted, ht, hmod]
    exact members_modify (fun list => if n ∈ list then list else list ++ [n])
      (addMember_members n) hteams hfour u

/-- What `JOIN` does to the records: the player is on record with the new team,
nobody else's record changes. -/
theorem roster_join {g : WorldGame} (hg : g.Good) (hstarted : g.started = true)
    (n t : Nat) :
    ((g.join n t).roster.map Prod.fst).Nodup ∧
      ∀ m u, (m, u) ∈ (g.join n t).roster ↔
        m = n ∧ u = t ∨ m ≠ n ∧ (m, u) ∈ g.roster := by
  have honce := hg.once
  cases hfind : g.getPlayer n with
  | none =>
      have hroster : (g.join n t).roster = g.roster ++ [(n, t)] := by
        simp [join, hstarted, hfind, roster]
      have hnotin := not_mem_roster (getPlayer_none hfind)
      constructor
      · rw [hroster, List.map_append, List.map_cons, List.map_nil]
        apply List.Nodup.append honce (List.nodup_singleton n)
        intro m hm hmn
        obtain ⟨⟨m', u⟩, hmem, rfl⟩ := List.mem_map.mp hm
        have heq : m' = n := List.mem_singleton.mp hmn
        exact hnotin u (heq ▸ hmem)
      · intro m u
        rw [hroster, List.mem_append, List.mem_singleton, Prod.mk.injEq]
        constructor
        · rintro (hmem | hmem)
          · exact Or.inr ⟨fun heq => hnotin u (heq ▸ hmem), hmem⟩
          · exact Or.inl hmem
        · rintro (hmem | ⟨-, hmem⟩)
          · exact Or.inr hmem
          · exact Or.inl hmem
  | some i =>
      obtain ⟨before, pl, after, hplayers, hlength, hpl, hbefore, hafter⟩ :=
        hg.split hfind
      have hnow : (g.join n t).players =
          before ++ { pl with team := t } :: after := by
        simp [join, hstarted, hfind, hplayers, ← hlength, modify_append_cons]
      have hids : (g.join n t).roster.map Prod.fst = g.roster.map Prod.fst := by
        simp [roster, hnow, hplayers]
      refine ⟨hids ▸ honce, ?_⟩
      intro m u
      simp only [roster, hnow, hplayers, List.map_append, List.map_cons,
        List.mem_append, List.mem_cons, List.mem_map, Prod.mk.injEq, hpl]
      constructor
      · rintro (⟨other, hother, rfl, rfl⟩ | ⟨rfl, rfl⟩ | ⟨other, hother, rfl, rfl⟩)
        · exact Or.inr ⟨hbefore other hother, Or.inl ⟨other, hother, rfl, rfl⟩⟩
        · exact Or.inl ⟨rfl, rfl⟩
        · exact Or.inr
            ⟨hafter other hother, Or.inr (Or.inr ⟨other, hother, rfl, rfl⟩)⟩
      · rintro (⟨rfl, rfl⟩ | ⟨hne, hother | ⟨rfl, -⟩ | hother⟩)
        · exact Or.inr (Or.inl ⟨rfl, rfl⟩)
        · exact Or.inl hother
        · exact absurd rfl hne
        · exact Or.inr (Or.inr hother)

/-- The player has no record yet, or is in no list, or in that of the team it
joins. -/
def JoinKeeps (g : WorldGame) (n t : Nat) : Prop :=
  ∀ pl ∈ g.players, pl.netID = n → 4 ≤ pl.team ∨ pl.team = t

instance (g : WorldGame) (n t : Nat) : Decidable (g.JoinKeeps n t) :=
  inferInstanceAs (Decidable (∀ pl ∈ g.players, _))

theorem joinKeeps_iff {g : WorldGame} {n t : Nat} :
    g.JoinKeeps n t ↔ ∀ u < 4, (n, u) ∈ g.roster → u = t := by
  constructor
  · intro h u hu hmem
    obtain ⟨pl, hpl, heq⟩ := List.mem_map.mp hmem
    obtain ⟨hn, hteam⟩ := Prod.mk.inj heq
    rcases h pl hpl hn with hout | ht
    · omega
    · exact hteam.symm.trans ht
  · intro h pl hpl hn
    by_cases hteam : 4 ≤ pl.team
    · exact Or.inl hteam
    · exact Or.inr
        (h pl.team (by omega) (List.mem_map.mpr ⟨pl, hpl, by rw [hn]⟩))

theorem mem_members_join {g : WorldGame} (hg : g.Good)
    (hstarted : g.started = true) {n : Nat} (hn : n < 256) (t m : Nat) {u : Nat}
    (hu : u < 4) :
    m ∈ (g.join n t).members u ↔ m ∈ g.members u ∨ m = n ∧ u = t := by
  rw [members_join hstarted hg.four hn t u]
  by_cases htu : t = u
  · subst htu
    by_cases hin : n ∈ g.members t
    · simp only [hu, hin, and_self, if_true, and_true]
      constructor
      · exact Or.inl
      · rintro (h | rfl)
        · exact h
        · exact hin
    · simp [hu, hin]
  · simp [htu, Ne.symm htu]

/-- `JOIN` keeps the two in agreement exactly when it does not take a player
from one team to another. -/
theorem good_join_iff {g : WorldGame} (hg : g.Good) (hstarted : g.started = true)
    {n : Nat} (hn : n < 256) (t : Nat) :
    (g.join n t).Good ↔ g.JoinKeeps n t := by
  obtain ⟨honce, hroster⟩ := roster_join hg hstarted n t
  rw [joinKeeps_iff]
  constructor
  · intro hgood u hu hrecord
    have hlisted := (mem_members_join hg hstarted hn t n hu).mpr
      (Or.inl ((hg.listed_iff u hu n).mpr hrecord))
    rcases (hroster n u).mp ((hgood.listed_iff u hu n).mp hlisted) with h | h
    · exact h.2
    · exact absurd rfl h.1
  · intro hkeeps
    constructor
    · by_cases ht : t = 4 <;> simpa [lists, join, hstarted, ht] using hg.four
    · exact honce
    · rintro ⟨m, u⟩ hentry
      rcases (hroster m u).mp hentry with ⟨rfl, -⟩ | ⟨-, hold⟩
      · exact hn
      · exact hg.fits _ hold
    · intro u hu m
      rw [mem_members_join hg hstarted hn t m hu, hroster m u,
        hg.listed_iff u hu m]
      constructor
      · rintro (hold | hnew)
        · by_cases hmn : m = n
          · exact Or.inl ⟨hmn, hkeeps u hu (hmn ▸ hold)⟩
          · exact Or.inr ⟨hmn, hold⟩
        · exact Or.inl hnew
      · rintro (hnew | ⟨-, hold⟩)
        · exact Or.inr hnew
        · exact Or.inl hold
    · intro u
      rw [members_join hstarted hg.four hn t u]
      split_ifs with htu hin
      · exact hg.listed_once u
      · exact List.Nodup.append (hg.listed_once u) (List.nodup_singleton n)
          fun m hm hmn => hin (List.mem_singleton.mp hmn ▸ hm)
      · exact hg.listed_once u
    · intro hstopped
      simp [join, hstarted] at hstopped

/-! `LEAVE`. -/

/-- The player has no record, or is in no list, or the record behind its own is
of the same team, or there is none. -/
def LeaveKeeps (g : WorldGame) (n : Nat) : Prop :=
  ∀ i ∈ g.getPlayer n, ∀ pl ∈ g.players[i]?,
    4 ≤ pl.team ∨ ∀ next ∈ g.players[i + 1]?, next.team = pl.team

instance (g : WorldGame) (n : Nat) : Decidable (g.LeaveKeeps n) :=
  inferInstanceAs (Decidable (∀ i ∈ g.getPlayer n, _))

/-- The leaver is gone from the records and from the lists, and nothing else
changed in them. -/
structure LeavesOnly (g g' : WorldGame) (n : Nat) : Prop where
  players : g'.players = g.players.filter fun pl => pl.netID != n
  members : ∀ t, g'.members t = (g.members t).filter (· != n)

theorem Good.listed {g : WorldGame} (hg : g.Good) {n t : Nat}
    (h : n ∈ g.members t) : t < 4 ∧ (n, t) ∈ g.roster := by
  have ht : t < 4 := by
    by_contra hge
    have hnone : g.lists[t]? = none :=
      List.getElem?_eq_none (by have := hg.four; omega)
    simp [members, hnone] at h
  exact ⟨ht, (hg.listed_iff t ht n).mp h⟩

/-- A player is on record with one team. -/
theorem Good.team_eq {g : WorldGame} (hg : g.Good) {n t u : Nat}
    (ht : (n, t) ∈ g.roster) (hu : (n, u) ∈ g.roster) : t = u := by
  have hsame := List.inj_on_of_nodup_map hg.once ht hu rfl
  exact (Prod.mk.inj hsame).2

theorem filter_members {g : WorldGame} {n t : Nat} (h : n ∉ g.members t) :
    (g.members t).filter (· != n) = g.members t := by
  apply List.filter_eq_self.mpr
  intro m hm
  exact bne_iff_ne.mpr fun heq => h (heq ▸ hm)

theorem leave_of_none {g : WorldGame} {n : Nat} (h : g.getPlayer n = none)
    (own : Nat) : g.leave own n = g := by
  have hkept : g.players.filter (fun pl => !(pl.netID == n)) = g.players := by
    apply List.filter_eq_self.mpr
    intro pl hpl
    simpa using getPlayer_none h pl hpl
  have hend : (removeIf (fun pl => pl.netID == n) g.players).2 =
      g.players.length := by
    simp only [removeIf, hkept]
  simp [leave, hend]

/-- The list that `LEAVE` changes is that of the team it reads behind the
pointer. -/
theorem leave_split {g : WorldGame} (hg : g.Good) (hstarted : g.started = true)
    {n : Nat} (hn : n < 256) {before after : List PlayerData} {pl : PlayerData}
    (hplayers : g.players = before ++ pl :: after)
    (hfind : g.getPlayer n = some before.length) (hpl : pl.netID = n)
    (hbefore : ∀ other ∈ before, other.netID ≠ n)
    (hafter : ∀ other ∈ after, other.netID ≠ n) :
    (g.leave n n).players = before ++ after ∧
      ∀ u, (g.leave n n).members u =
        if (after.head?.getD pl).team = u ∧ u < 4 then (g.members u).erase n
        else g.members u := by
  have hstay : ∀ other ∈ before, (other.netID == n) = false := by
    simpa using hbefore
  have hstay' : ∀ other ∈ after, (other.netID == n) = false := by
    simpa using hafter
  have hgoes : (pl.netID == n) = true := by simpa using hpl
  obtain ⟨hend, htake, hpointee⟩ :=
    removeIf_split (fun other : PlayerData => other.netID == n) hstay hgoes hstay'
  rw [← hplayers] at hend htake hpointee
  have hne : (removeIf (fun other => other.netID == n) g.players).2 ≠
      g.players.length := by
    rw [hend, hplayers, List.length_append, List.length_cons]
    omega
  have hmod : n % 256 = n := Nat.mod_eq_of_lt hn
  constructor
  · simp [leave, hstarted, hne, htake]
  · intro u
    by_cases hfree : (after.head?.getD pl).team = 4
    · have hnot : ¬((after.head?.getD pl).team = u ∧ u < 4) := by omega
      rw [if_neg hnot]
      simp [leave, hstarted, hne, hfind, hpointee, hfree, members, lists]
    · have hteams : (g.leave n n).teams =
          g.teams.modify (after.head?.getD pl).team (eraseMember n) := by
        simp [leave, hstarted, hne, hfind, hpointee, hfree, hmod]
      exact members_modify (fun list => list.erase n) (fun _ => rfl) hteams
        hg.four u

theorem leaveKeeps_split {g : WorldGame} {n : Nat}
    {before after : List PlayerData} {pl : PlayerData}
    (hplayers : g.players = before ++ pl :: after)
    (hfind : g.getPlayer n = some before.length) :
    g.LeaveKeeps n ↔ 4 ≤ pl.team ∨ (after.head?.getD pl).team = pl.team := by
  have hhere : g.players[before.length]? = some pl := by simp [hplayers]
  have hnext : g.players[before.length + 1]? = after.head? := by
    rw [hplayers]
    cases after <;> simp
  simp only [LeaveKeeps, hfind, hhere, hnext, Option.mem_def, Option.some.injEq,
    forall_eq']
  cases after <;> simp

theorem leavesOnly_of_none {g : WorldGame} (hg : g.Good) {n : Nat}
    (h : g.getPlayer n = none) : LeavesOnly g (g.leave n n) n := by
  have hnone := getPlayer_none h
  rw [leave_of_none h]
  constructor
  · refine (List.filter_eq_self.mpr fun pl hpl => ?_).symm
    exact bne_iff_ne.mpr (hnone pl hpl)
  · intro t
    refine (filter_members fun hmem => ?_).symm
    exact not_mem_roster hnone t (hg.listed hmem).2

/-- In a game that is in agreement, `LEAVE` removes the leaver and nobody else
exactly when the record behind that of the leaver is of the same team. -/
theorem leavesOnly_iff {g : WorldGame} (hg : g.Good)
    (hstarted : g.started = true) {n : Nat} (hn : n < 256) :
    LeavesOnly g (g.leave n n) n ↔ g.LeaveKeeps n := by
  cases hfind : g.getPlayer n with
  | none =>
      refine iff_of_true (leavesOnly_of_none hg hfind) ?_
      intro i hi
      rw [hfind] at hi
      cases hi
  | some i =>
      obtain ⟨before, pl, after, hplayers, rfl, hpl, hbefore, hafter⟩ :=
        hg.split hfind
      obtain ⟨hnow, hmembers⟩ := leave_split hg hstarted hn hplayers hfind hpl
        hbefore hafter
      have hrecord : (n, pl.team) ∈ g.roster :=
        List.mem_map.mpr ⟨pl, by simp [hplayers], by rw [hpl]⟩
      rw [leaveKeeps_split hplayers hfind]
      constructor
      · intro honly
        by_cases hfree : 4 ≤ pl.team
        · exact Or.inl hfree
        · refine Or.inr ?_
          by_contra hother
          have hin := (hg.listed_iff pl.team (by omega) n).mpr hrecord
          have hstill := honly.members pl.team
          rw [hmembers, if_neg fun h => hother h.1] at hstill
          rw [hstill] at hin
          simp at hin
      · intro hkeeps
        constructor
        · rw [hnow, hplayers, List.filter_append,
            List.filter_cons_of_neg (by simp [hpl]),
            List.filter_eq_self.mpr (by simpa using hbefore),
            List.filter_eq_self.mpr (by simpa using hafter)]
        · intro u
          rw [hmembers u]
          split_ifs with hu
          · exact (hg.listed_once u).erase_eq_filter n
          · refine (filter_members fun hmem => ?_).symm
            obtain ⟨hlt, hentry⟩ := hg.listed hmem
            obtain rfl := hg.team_eq hentry hrecord
            rcases hkeeps with hfree | hteam
            · omega
            · exact hu ⟨hteam, hlt⟩

theorem leave_lists_length (g : WorldGame) (own n : Nat) :
    (g.leave own n).lists.length = g.lists.length := by
  simp only [lists, leave, List.length_map]
  split_ifs
  · split
    · split_ifs <;> simp
    · rfl
  · rfl
  · rfl

theorem leave_started (g : WorldGame) (own n : Nat) :
    (g.leave own n).started = g.started := by
  simp only [leave]
  split_ifs <;> rfl

theorem good_of_leavesOnly {g : WorldGame} (hg : g.Good) {n : Nat}
    (h : LeavesOnly g (g.leave n n) n) : (g.leave n n).Good := by
  have hsub : ((g.leave n n).roster).Sublist g.roster := by
    rw [roster, h.players]
    exact List.filter_sublist.map _
  have hentry : ∀ m u, (m, u) ∈ (g.leave n n).roster ↔
      (m, u) ∈ g.roster ∧ m ≠ n := by
    intro m u
    simp only [roster, h.players, List.mem_map, List.mem_filter, bne_iff_ne,
      Prod.mk.injEq]
    constructor
    · rintro ⟨pl, ⟨hpl, hne⟩, rfl, rfl⟩
      exact ⟨⟨pl, hpl, rfl, rfl⟩, hne⟩
    · rintro ⟨⟨pl, hpl, rfl, rfl⟩, hne⟩
      exact ⟨pl, ⟨hpl, hne⟩, rfl, rfl⟩
  constructor
  · rw [leave_lists_length]
    exact hg.four
  · exact hg.once.sublist (hsub.map _)
  · intro entry hmem
    exact hg.fits entry (hsub.subset hmem)
  · intro u hu m
    rw [h.members u, List.mem_filter, hg.listed_iff u hu m, bne_iff_ne, hentry]
  · intro u
    rw [h.members u]
    exact (hg.listed_once u).filter _
  · intro hstopped
    rw [h.players, hg.idle (leave_started g n n ▸ hstopped), List.filter_nil]

/-! The other operations. -/

/-- Scores, lives, hits and settings do not matter for the agreement. -/
theorem Good.congr {g g' : WorldGame} (hg : g.Good)
    (hroster : g'.roster = g.roster) (hlists : g'.lists = g.lists)
    (hidle : g'.started = false → g.started = false) : g'.Good := by
  have hmembers : ∀ t, g'.members t = g.members t := by
    intro t
    rw [members, hlists, members]
  constructor
  · rw [hlists]
    exact hg.four
  · rw [hroster]
    exact hg.once
  · rw [hroster]
    exact hg.fits
  · intro t ht n
    rw [hmembers, hroster]
    exact hg.listed_iff t ht n
  · intro t
    rw [hmembers]
    exact hg.listed_once t
  · intro hstopped
    have hnone : g'.roster = [] := by
      rw [hroster, roster, hg.idle (hidle hstopped), List.map_nil]
    exact List.map_eq_nil_iff.mp hnone

/-- A game without players. -/
theorem good_of_empty {g : WorldGame} (hplayers : g.players = [])
    (hlists : g.lists = [[], [], [], []]) : g.Good := by
  have hroster : g.roster = [] := by rw [roster, hplayers, List.map_nil]
  have hmembers : ∀ t, g.members t = [] := by
    intro t
    rw [members, hlists]
    match t with
    | 0 | 1 | 2 | 3 => rfl
    | _ + 4 => rfl
  constructor
  · rw [hlists]
    rfl
  · simp [hroster]
  · simp [hroster]
  · simp [hroster, hmembers]
  · simp [hmembers]
  · intro _
    exact hplayers

theorem good_finish (g : WorldGame) : g.finish.Good :=
  good_of_empty rfl rfl

theorem good_modifyPlayer {g : WorldGame} (hg : g.Good) (n : Nat)
    (type : Modifier) (modifier : Int8) :
    (g.modifyPlayer n type modifier).Good := by
  have hplayers : ∀ (i : Nat) (f : PlayerData → PlayerData),
      (∀ pl, ((f pl).netID, (f pl).team) = (pl.netID, pl.team)) →
      { g with players := g.players.modify i f }.Good := fun i f hf =>
    hg.congr (Ledger.map_modify_kept fun pl _ => hf pl) rfl id
  cases hfind : g.getPlayer n with
  | none => simpa [modifyPlayer, hfind] using hg
  | some i =>
      cases type with
      | live =>
          simp only [modifyPlayer, hfind]
          exact hplayers i _ fun _ => rfl
      | hit =>
          simp only [modifyPlayer, hfind]
          exact hplayers i _ fun _ => rfl
      | score =>
          simp only [modifyPlayer, hfind]
          split_ifs
          · exact good_finish _
          · exact hplayers i _ fun _ => rfl
          · exact good_finish _
          · refine hg.congr rfl ?_ id
            exact Ledger.map_modify_kept fun _ _ => rfl

/-- The calls of `JOIN` that `START` makes are of different players, so that none
of them moves a player whom another one is about. -/
theorem good_joinAll {g : WorldGame} (hg : g.Good) (hstarted : g.started = true)
    {joins : List (Nat × Nat)} (honce : (joins.map Prod.fst).Nodup)
    (hfit : ∀ call ∈ joins, call.1 < 256)
    (hkeeps : ∀ call ∈ joins, g.JoinKeeps call.1 call.2) :
    (g.joinAll joins).Good := by
  induction joins generalizing g with
  | nil => exact hg
  | cons call joins ih =>
      obtain ⟨hnotin, honce⟩ := List.nodup_cons.mp honce
      have hfirst := hfit call List.mem_cons_self
      have hjoined := (good_join_iff hg hstarted hfirst call.2).mpr
        (hkeeps call List.mem_cons_self)
      have hstarted' : (g.join call.1 call.2).started = true := by
        simp [join, hstarted]
      refine ih hjoined hstarted' honce
        (fun other hother => hfit other (List.mem_cons_of_mem _ hother)) ?_
      intro other hother
      have hne : other.1 ≠ call.1 := fun heq =>
        hnotin (heq ▸ List.mem_map_of_mem hother)
      have hbefore := joinKeeps_iff.mp (hkeeps other (List.mem_cons_of_mem _ hother))
      apply joinKeeps_iff.mpr
      intro u hu hentry
      rcases ((roster_join hg hstarted call.1 call.2).2 other.1 u).mp hentry with
        ⟨heq, -⟩ | ⟨-, hold⟩
      · exact absurd heq hne
      · exact hbefore u hu hold

theorem length_assignTeams (teamSize maxTeam left i : Nat)
    (teamCounts : List Nat) :
    (assignTeams teamSize maxTeam left i teamCounts).length = left := by
  induction left generalizing i teamCounts with
  | zero => rfl
  | succ left ih =>
      simp only [assignTeams]
      split_ifs <;> simp [ih]

theorem length_playerTeams (g : WorldGame) (count : Nat) :
    (g.playerTeams count).length = count := by
  simp only [playerTeams]
  split_ifs
  · exact length_assignTeams ..
  · exact length_assignTeams ..
  · exact List.length_replicate

/-- A `START` that finds enough players lets all of them join. -/
theorem netIDs_joins (g : WorldGame) (peers : List GamePeer) (peer : GamePeer) :
    g.joins peers peer = [] ∨
      (g.joins peers peer).map Prod.fst =
        (g.worldPlayers peers peer).map GamePeer.netID := by
  by_cases henough : (g.worldPlayers peers peer).length <
      g.teamSize * (if g.minTeamSize = 0 then 1 else g.minTeamSize)
  · exact Or.inl (if_pos henough)
  · refine Or.inr ?_
    have hteams : ((g.worldPlayers peers peer).map GamePeer.netID).length ≤
        (g.playerTeams (g.worldPlayers peers peer).length).length := by
      simp [length_playerTeams]
    rw [joins, if_neg henough]
    exact List.map_fst_zip hteams

theorem joins_sublist (g : WorldGame) (peers : List GamePeer) (peer : GamePeer) :
    ((g.joins peers peer).map Prod.fst).Sublist
      ((inWorld peers peer).map GamePeer.netID) := by
  rcases netIDs_joins g peers peer with hnone | hall
  · rw [hnone]
    exact List.nil_sublist _
  · rw [hall]
    exact List.filter_sublist.map _

theorem good_start {g : WorldGame} (hg : g.Good) {peers : List GamePeer}
    {peer : GamePeer} (honce : ((inWorld peers peer).map GamePeer.netID).Nodup)
    (hfit : ∀ cp ∈ inWorld peers peer, cp.netID < 256)
    (hkeeps : ∀ call ∈ g.joins peers peer, g.JoinKeeps call.1 call.2) :
    (g.start peers peer).Good := by
  have hsub := joins_sublist g peers peer
  by_cases henough : (g.worldPlayers peers peer).length <
      g.teamSize * (if g.minTeamSize = 0 then 1 else g.minTeamSize)
  · rw [start, if_pos henough]
    exact hg
  · rw [start, if_neg henough]
    apply good_joinAll
    · exact hg.congr rfl rfl fun h => absurd h (by simp)
    · rfl
    · exact honce.sublist hsub
    · intro call hcall
      obtain ⟨cp, hcp, heq⟩ := List.mem_map.mp
        (hsub.subset (List.mem_map_of_mem hcall))
      exact heq ▸ hfit cp hcp
    · exact hkeeps

end WorldGame

/-- The netIDs of the players are different and fit into the argument. -/
def GameEvent.Fits : GameEvent → Prop
  | .start peers peer =>
      ((WorldGame.inWorld peers peer).map GamePeer.netID).Nodup ∧
        ∀ cp ∈ WorldGame.inWorld peers peer, cp.netID < 256
  | .join netID _ => netID < 256
  | .leave netID => netID < 256
  | .modifyPlayer netID _ _ => netID < 256
  | .finish => True
  | .processInput _ _ => True

namespace WorldGame

/-- A player that joins is not on another team; a player that leaves is followed
in the records by one of the same team. -/
def Keeps (g : WorldGame) : GameEvent → Prop
  | .start peers peer =>
      ∀ call ∈ g.joins peers peer, g.JoinKeeps call.1 call.2
  | .join netID teamId => g.JoinKeeps netID teamId
  | .leave netID => g.LeaveKeeps netID
  | _ => True

/-- Every event of a run meets the condition in the state it finds. -/
def KeepsAlong (g : WorldGame) : List GameEvent → Prop
  | [] => True
  | event :: events => g.Keeps event ∧ (g.apply event).KeepsAlong events

instance (g : WorldGame) : (event : GameEvent) → Decidable (g.Keeps event)
  | .start peers peer =>
      inferInstanceAs (Decidable (∀ call ∈ g.joins peers peer, _))
  | .join netID teamId => inferInstanceAs (Decidable (g.JoinKeeps netID teamId))
  | .leave netID => inferInstanceAs (Decidable (g.LeaveKeeps netID))
  | .modifyPlayer _ _ _ => inferInstanceAs (Decidable True)
  | .finish => inferInstanceAs (Decidable True)
  | .processInput _ _ => inferInstanceAs (Decidable True)

instance decidableKeepsAlong (g : WorldGame) :
    (events : List GameEvent) → Decidable (g.KeepsAlong events)
  | [] => inferInstanceAs (Decidable True)
  | event :: events =>
      have := decidableKeepsAlong (g.apply event) events
      inferInstanceAs (Decidable (_ ∧ _))

theorem join_of_stopped {g : WorldGame} (h : g.started = false) (n t : Nat) :
    g.join n t = g := by
  simp [join, h]

theorem leavesOnly_of_stopped {g : WorldGame} (hg : g.Good)
    (h : g.started = false) (n : Nat) : LeavesOnly g (g.leave n n) n := by
  have hsame : g.leave n n = g := by simp [leave, h]
  have hplayers := hg.idle h
  rw [hsame]
  constructor
  · rw [hplayers, List.filter_nil]
  · intro t
    have hnone : g.members t = [] := by
      apply List.eq_nil_iff_forall_not_mem.mpr
      intro m hm
      have hentry := (hg.listed hm).2
      simp [roster, hplayers] at hentry
    rw [hnone, List.filter_nil]

theorem leavesOnly_leave {g : WorldGame} (hg : g.Good) {n : Nat} (hn : n < 256)
    (hkeeps : g.LeaveKeeps n) : LeavesOnly g (g.leave n n) n := by
  cases hstarted : g.started with
  | false => exact leavesOnly_of_stopped hg hstarted n
  | true => exact (leavesOnly_iff hg hstarted hn).mpr hkeeps

theorem good_apply {g : WorldGame} (hg : g.Good) {event : GameEvent}
    (hfits : event.Fits) (hkeeps : g.Keeps event) : (g.apply event).Good := by
  cases event with
  | start peers peer => exact good_start hg hfits.1 hfits.2 hkeeps
  | join netID teamId =>
      cases hstarted : g.started with
      | false =>
          change (g.join netID teamId).Good
          rwa [join_of_stopped hstarted]
      | true => exact (good_join_iff hg hstarted hfits teamId).mpr hkeeps
  | leave netID =>
      change (g.leave netID (netID % 256)).Good
      rw [Nat.mod_eq_of_lt hfits]
      exact good_of_leavesOnly hg (leavesOnly_leave hg hfits hkeeps)
  | modifyPlayer netID type modifier => exact good_modifyPlayer hg netID type modifier
  | finish => exact good_finish g
  | processInput settings managers => exact hg.congr rfl rfl id

theorem good_run {g : WorldGame} (hg : g.Good) {events : List GameEvent}
    (hfits : ∀ event ∈ events, event.Fits) (hkeeps : g.KeepsAlong events) :
    (g.run events).Good := by
  induction events generalizing g with
  | nil => exact hg
  | cons event events ih =>
      obtain ⟨hfirst, hrest⟩ := hkeeps
      apply ih (good_apply hg (hfits event List.mem_cons_self) hfirst)
      · intro other hother
        exact hfits other (List.mem_cons_of_mem _ hother)
      · exact hrest

theorem keepsAlong_append {g : WorldGame} {before after : List GameEvent} :
    g.KeepsAlong (before ++ after) ↔
      g.KeepsAlong before ∧ (g.run before).KeepsAlong after := by
  induction before generalizing g with
  | nil => simp [KeepsAlong, run]
  | cons event before ih =>
      simp only [List.cons_append, KeepsAlong, ih, and_assoc]
      rfl

/-- The membership data of a game agree. -/
structure Agree (g : WorldGame) : Prop where
  player_once : (g.players.map PlayerData.netID).Nodup
  listed_iff : ∀ t < 4, ∀ n,
    n ∈ g.members t ↔ ∃ pl ∈ g.players, pl.netID = n ∧ pl.team = t
  listed_once : ∀ t, (g.members t).Nodup
  listed_player : ∀ t, ∀ n ∈ g.members t, ∃ pl ∈ g.players, pl.netID = n

theorem Good.agree {g : WorldGame} (hg : g.Good) : g.Agree := by
  have hentry : ∀ n t, (n, t) ∈ g.roster ↔
      ∃ pl ∈ g.players, pl.netID = n ∧ pl.team = t := by
    intro n t
    simp [roster]
  constructor
  · simpa [roster, Function.comp_def] using hg.once
  · intro t ht n
    rw [hg.listed_iff t ht n, hentry]
  · exact hg.listed_once
  · intro t n hmem
    obtain ⟨pl, hpl, hn, -⟩ := (hentry n t).mp (hg.listed hmem).2
    exact ⟨pl, hpl, hn⟩

/-- In a run whose events meet the condition the membership data of a started
game agree, and a player that leaves is removed and nobody else. -/
theorem membership_agrees_along_runs (settings : GameSettings)
    (managers : List String) (events : List GameEvent)
    (hfits : ∀ event ∈ events, event.Fits)
    (hkeeps : (idle settings managers).KeepsAlong events) :
    (∀ before after, events = before ++ after →
      ((idle settings managers).run before).started = true →
      ((idle settings managers).run before).Agree) ∧
    ∀ before netID after, events = before ++ .leave netID :: after →
      LeavesOnly ((idle settings managers).run before)
        ((idle settings managers).run (before ++ [.leave netID])) netID := by
  have hgood : ∀ before after, events = before ++ after →
      ((idle settings managers).run before).Good := by
    rintro before after rfl
    apply good_run (good_of_empty rfl rfl)
    · intro event hevent
      exact hfits event (List.mem_append_left _ hevent)
    · exact (keepsAlong_append.mp hkeeps).1
  constructor
  · intro before after hevents _
    exact (hgood before after hevents).agree
  · intro before netID after hevents
    have hn : netID < 256 := hfits (.leave netID) (by simp [hevents])
    rw [hevents] at hkeeps
    have hleave := (keepsAlong_append.mp hkeeps).2.1
    have honly := leavesOnly_leave (hgood before _ hevents) hn hleave
    simpa [run, apply, Nat.mod_eq_of_lt hn] using honly

/-- Three players in a world start a game. -/
def threeStart : GameEvent :=
  let ann : GamePeer := { world := "ARENA", tankIDName := "ann", netID := 1 }
  let bob : GamePeer := { world := "ARENA", tankIDName := "bob", netID := 2 }
  let cid : GamePeer := { world := "ARENA", tankIDName := "cid", netID := 3 }
  .start [ann, bob, cid] ann

theorem fits_threeStart : threeStart.Fits := by
  simp [threeStart, GameEvent.Fits, inWorld]

theorem fits_leave {n : Nat} : (GameEvent.leave n).Fits ↔ n < 256 :=
  Iff.rfl

theorem last_leavers_are_removed :
    ((idle { teamSize := 2 } []).run [threeStart, .leave 3, .leave 2]).Agree ∧
      LeavesOnly
        ((idle { teamSize := 2 } []).run [threeStart, .leave 3])
        ((idle { teamSize := 2 } []).run [threeStart, .leave 3, .leave 2]) 2 := by
  have hruns := membership_agrees_along_runs { teamSize := 2 } []
    [threeStart, .leave 3, .leave 2] (by simp [fits_threeStart, fits_leave]) (by decide +kernel)
  exact ⟨hruns.1 _ [] rfl (by decide +kernel), hruns.2 [threeStart, .leave 3] 2 [] rfl⟩

/-- The first of three players on two teams is in the list of its team after it
has left: behind its record there is one of the other team. -/
theorem first_leaver_stays_listed :
    (∀ event ∈ [threeStart, .leave 1], event.Fits) ∧
      ((idle { teamSize := 2 } []).run [threeStart, .leave 1]).started = true ∧
      ((idle { teamSize := 2 } []).run [threeStart, .leave 1]).players.map
        PlayerData.netID = [2, 3] ∧
      ((idle { teamSize := 2 } []).run [threeStart, .leave 1]).members 0 =
        [1, 3] ∧
      ¬((idle { teamSize := 2 } []).run [threeStart, .leave 1]).Agree := by
  have hplayers : ((idle { teamSize := 2 } []).run
      [threeStart, .leave 1]).players.map PlayerData.netID = [2, 3] := by
    decide +kernel
  have hlist : ((idle { teamSize := 2 } []).run
      [threeStart, .leave 1]).members 0 = [1, 3] := by
    decide +kernel
  refine ⟨by simp [fits_threeStart, fits_leave], by decide +kernel, hplayers,
    hlist, ?_⟩
  intro hagree
  obtain ⟨pl, hpl, hn⟩ := hagree.listed_player 0 1 (by simp [hlist])
  have hmem := List.mem_map_of_mem (f := PlayerData.netID) hpl
  simp [hplayers, hn] at hmem

end WorldGame

end NopyServer
