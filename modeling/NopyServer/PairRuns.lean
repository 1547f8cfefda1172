/-
Runs of `UpdatePairProgress` by two players who share the quest of a pair.  The quest is
kept twice and either player moves both copies on, so the copies stay equal.  A finished
quest is rewarded and replaced, unless the player who made the last step has used up the
rewards of the day: then the function returns early, nobody is rewarded and the finished
quest stays where it is.
-/
import NopyServer.BuxGems

namespace NopyServer

namespace PairRuns

open BuxGems

section Definitions

variable (env : Env)

/-- A call of `UpdatePairProgress`. -/
structure Call where
  peer : Nat
  now : Int
  type : Int
  amount : Int

def Call.apply (call : Call) (server : Server) : Server :=
  updatePairProgress env call.peer call.now call.type call.amount server

def run (calls : List Call) (server : Server) : Server :=
  calls.foldl (fun server call => call.apply env server) server

/-- What a pair has to do and what is done. -/
structure Quest where
  type : Int
  goal : Int
  progress : Int
deriving DecidableEq

def questOf (pl : Player) : Quest :=
  ⟨pl.pair.questType, pl.pair.questGoal, pl.pair.questProgress⟩

def withQuest (quest : Quest) (pl : Player) : Player :=
  { pl with pair := { pl.pair with
    questType := quest.type, questGoal := quest.goal, questProgress := quest.progress } }

/-- A player with one finished quest more. -/
def counted (charisma : Int) (pl : Player) : Player :=
  { pl with pair := { pl.pair with
    dailyCount := pl.pair.dailyCount + 1
    pairCount := pl.pair.pairCount + 1
    pairCharisma := charisma } }

/-- A player whose partner is the other one. -/
structure Bound (server : Server) (p q : Nat) (pl : Player) : Prop where
  here : server.players[p]? = some pl
  paired : pl.pair.isPaired = true
  partner : findPeer server pl.pair.partnerName = some q

/-- Two players who are each other's partner and share a quest. -/
structure Couple (server : Server) (a b : Nat) (x y : Player) : Prop where
  distinct : a ≠ b
  first : Bound server a b x
  second : Bound server b a y
  shared : questOf y = questOf x

/-- The quest still has something to do. -/
def Quest.Open (quest : Quest) : Prop := quest.progress < quest.goal

/-- A call moves a quest to its goal. -/
def Call.Ends (call : Call) (quest : Quest) : Prop :=
  call.type = quest.type ∧ quest.goal ≤ quest.progress + call.amount

instance (call : Call) (quest : Quest) : Decidable (call.Ends quest) :=
  inferInstanceAs (Decidable (_ ∧ _))

/-- The quest after a call that does not end it. -/
def Call.moved (call : Call) (quest : Quest) : Quest :=
  if call.type = quest.type then { quest with progress := quest.progress + call.amount }
  else quest

/-- Nothing of a player but the quest is different. -/
def Unrewarded (pl next : Player) : Prop := next = withQuest (questOf next) pl

/-- A player is given the rewards of a pair once. -/
def Rewarded (pl next : Player) : Prop :=
  ∃ (s : Session) (charisma : Int) (quest : Quest),
    s.pl = counted charisma (withQuest quest pl) ∧
      next = withQuest (questOf next) (givePairRewards env s).pl

/-- A player below the limit of the day is rewarded, another one is not. -/
def Served (pl next : Player) : Prop :=
  if pl.pair.dailyCount < 10 then Rewarded env pl next else Unrewarded pl next

/-- A finished quest has served both players, and a new one has started. -/
structure Finished (x y x' y' : Player) : Prop where
  first : Served env x x'
  second : Served env y y'
  shared : questOf y' = questOf x'
  fresh : (questOf x').progress = 0
  opened : (questOf x').Open

/-- A quest that is not finished goes on for both players. -/
structure Going (call : Call) (x y x' y' : Player) : Prop where
  first : x' = withQuest (call.moved (questOf x)) x
  second : y' = withQuest (call.moved (questOf x)) y

/-- What a call should do. -/
def Fair (a b : Nat) (server : Server) (call : Call) : Prop :=
  ∀ x y, server.players[a]? = some x → server.players[b]? = some y →
    ∃ x' y', (call.apply env server).players[a]? = some x' ∧
      (call.apply env server).players[b]? = some y' ∧
      if call.Ends (questOf x) then Finished env x y x' y' else Going call x y x' y'

/-- Who ends a quest has rewards left for the day. -/
def InLimit (server : Server) (call : Call) : Prop :=
  ∀ pl, server.players[call.peer]? = some pl → call.Ends (questOf pl) →
    pl.pair.dailyCount < 10

/-- Every call of a run is as it should be. -/
def Along (ok : Server → Call → Prop) : List Call → Server → Prop
  | [], _ => True
  | call :: rest, server => ok server call ∧ Along ok rest (call.apply env server)

/-- The rewards between two records of a player are within the limit of a day. -/
structure Tally (pl next : Player) : Prop where
  counts : next.pair.pairCount - pl.pair.pairCount =
    next.pair.dailyCount - pl.pair.dailyCount
  grown : pl.pair.dailyCount ≤ next.pair.dailyCount
  limit : next.pair.dailyCount ≤ max 10 pl.pair.dailyCount

end Definitions

section Records

variable {env : Env} {server : Server} {p q : Nat} {pl : Player} {now : Int}
  {f : PairQuest → PairQuest}

theorem pair_carried : Carried Player.pair where
  core _ := rfl
  gems _ _ := rfl
  converting _ _ := rfl
  selling _ _ := rfl

theorem name_unrelated : Unrelated Player.tankIDName where
  core _ := rfl
  gems _ _ := rfl
  converting _ _ := rfl
  selling _ _ := rfl
  pair _ _ := rfl
  growPass _ _ := rfl

/-- Players are found by their names alone. -/
theorem findPeer_congr {next : Server}
    (hnames : viewAll Player.tankIDName next = viewAll Player.tankIDName server)
    (name : String) : findPeer next name = findPeer server name := by
  have hby : ∀ server : Server, findPeer server name =
      (viewAll Player.tankIDName server).findIdx? fun other => other == name := by
    intro server
    unfold findPeer viewAll
    rw [List.findIdx?_map]
    rfl
  rw [hby, hby, hnames]

theorem mapPair_self (hhere : server.players[p]? = some pl) :
    (mapPair p f server).players[p]? = some { pl with pair := f pl.pair } := by
  unfold mapPair Server.mapPlayer
  dsimp only
  rw [List.getElem?_modify_eq, hhere]
  rfl

theorem mapPair_other (hne : p ≠ q) :
    (mapPair p f server).players[q]? = server.players[q]? := by
  unfold mapPair Server.mapPlayer
  dsimp only
  exact List.getElem?_modify_ne _ _ hne

theorem serve_self {handler : Session → Session} (hhere : server.players[p]? = some pl) :
    (server.serve p now handler).players[p]? =
      some (handler (server.session pl now)).pl := by
  unfold Server.serve
  rw [hhere]
  dsimp only
  rw [List.getElem?_set_self]
  exact (List.getElem?_eq_some_iff.mp hhere).1

theorem serve_other {handler : Session → Session} (hne : p ≠ q) :
    (server.serve p now handler).players[q]? = server.players[q]? := by
  unfold Server.serve
  split
  · rfl
  · dsimp only
    rw [List.getElem?_set_ne hne]

theorem finishQuest_self {charisma : Int → Int} (hhere : server.players[p]? = some pl) :
    ∃ s : Session, s.pl = counted (charisma pl.pair.pairCharisma) pl ∧
      (finishQuest env p now charisma server).players[p]? =
        some (givePairRewards env s).pl := by
  unfold finishQuest
  exact ⟨_, rfl, serve_self (mapPair_self hhere)⟩

theorem finishQuest_other {charisma : Int → Int} (hne : p ≠ q) :
    (finishQuest env p now charisma server).players[q]? = server.players[q]? := by
  unfold finishQuest
  dsimp only
  rw [serve_other hne, mapPair_other hne]

@[simp]
theorem questOf_withQuest (quest : Quest) (pl : Player) : questOf (withQuest quest pl) = quest :=
  rfl

@[simp]
theorem withQuest_twice (first second : Quest) (pl : Player) :
    withQuest second (withQuest first pl) = withQuest second pl := rfl

@[simp]
theorem withQuest_self (pl : Player) : withQuest (questOf pl) pl = pl := rfl

theorem Unrewarded.tally {pl next : Player} (hsame : Unrewarded pl next) : Tally pl next := by
  unfold Unrewarded at hsame
  rw [hsame]
  exact ⟨by simp [withQuest], le_refl _, le_max_right _ _⟩

theorem Rewarded.counts {pl next : Player} (hgiven : Rewarded env pl next) :
    next.pair.dailyCount = pl.pair.dailyCount + 1 ∧
      next.pair.pairCount = pl.pair.pairCount + 1 := by
  obtain ⟨s, charisma, quest, hs, hnext⟩ := hgiven
  have hkept := pair_carried.givePairRewards env s
  rw [hnext]
  simp only [withQuest]
  rw [hkept, hs]
  exact ⟨rfl, rfl⟩

theorem Served.tally {pl next : Player} (hserved : Served env pl next) : Tally pl next := by
  unfold Served at hserved
  split_ifs at hserved with hlimit
  · obtain ⟨hdaily, hcount⟩ := hserved.counts
    exact ⟨by omega, by omega, by omega⟩
  · exact hserved.tally

theorem Tally.trans {first second third : Player} (hfirst : Tally first second)
    (hsecond : Tally second third) : Tally first third := by
  have hf := hfirst.counts
  have hs := hsecond.counts
  have hlf := hfirst.limit
  have hls := hsecond.limit
  exact ⟨by omega, le_trans hfirst.grown hsecond.grown, by omega⟩

theorem Tally.refl (pl : Player) : Tally pl pl :=
  ⟨by omega, le_refl _, le_max_right _ _⟩

end Records

section Step

variable {env : Env} {server : Server} {a b : Nat} {x y : Player} {call : Call}

theorem Couple.symm (hcouple : Couple server a b x y) : Couple server b a y x :=
  ⟨hcouple.distinct.symm, hcouple.second, hcouple.first, hcouple.shared.symm⟩

/-- The progress is written to both copies. -/
def syncBoth (a b : Nat) (progress : Int) (server : Server) : Server :=
  let set (pair : PairQuest) : PairQuest := { pair with questProgress := progress }
  mapPair b set (mapPair a set server)

/-- A finished quest when its last step is within the limit. -/
def finish (env : Env) (a b : Nat) (now : Int) (server : Server) : Server :=
  let (draw, server) := server.rand
  let server := finishQuest env a now
    (fun charisma => charisma + ((draw % 10 : Nat) + 5)) server
  generatePairQuest a (finishPartner env a b now server)

/-- What a call by one of two partners does to a quest that is open. -/
theorem apply_eq (hcouple : Couple server a b x y) (hopen : (questOf x).Open)
    (hpeer : call.peer = a) :
    call.apply env server =
      if call.type ≠ x.pair.questType then server
      else
        let moved := syncBoth a b (x.pair.questProgress + call.amount) server
        if x.pair.questProgress + call.amount < x.pair.questGoal then moved
        else
          let ended := syncBoth a b x.pair.questGoal moved
          if 10 ≤ x.pair.dailyCount then ended else finish env a b call.now ended := by
  have hgoing : ¬ x.pair.questGoal ≤ x.pair.questProgress := Int.not_le.mpr hopen
  unfold Call.apply updatePairProgress
  rw [hpeer, hcouple.first.here]
  dsimp only
  rw [if_neg (by simp [hcouple.first.paired]), if_neg hgoing, hcouple.first.partner]
  by_cases htype : call.type = x.pair.questType
  · have hsame : ¬ x.pair.questType ≠ call.type := fun h => h htype.symm
    have hsame' : ¬ call.type ≠ x.pair.questType := fun h => h htype
    rw [if_neg hsame, if_neg hsame']
    rfl
  · have hother : x.pair.questType ≠ call.type := fun h => htype h.symm
    rw [if_pos hother, if_pos htype]

theorem syncBoth_players (hcouple : Couple server a b x y) (progress : Int) :
    (syncBoth a b progress server).players[a]? =
        some (withQuest { questOf x with progress := progress } x) ∧
      (syncBoth a b progress server).players[b]? =
        some (withQuest { questOf x with progress := progress } y) := by
  have hshared := hcouple.shared
  have hsecond : withQuest { questOf x with progress := progress } y =
      { y with pair := { y.pair with questProgress := progress } } := by
    rw [← hshared]
    rfl
  unfold syncBoth
  dsimp only
  constructor
  · rw [mapPair_other hcouple.distinct.symm, mapPair_self hcouple.first.here]
    rfl
  · rw [hsecond, mapPair_self (by
      rw [mapPair_other hcouple.distinct]
      exact hcouple.second.here)]

/-- Who is bound to whom does not depend on the quest. -/
theorem Bound.of_kept {next : Server} {pl after : Player} {p q : Nat}
    (hbound : Bound server p q pl)
    (hnames : viewAll Player.tankIDName next = viewAll Player.tankIDName server)
    (hhere : next.players[p]? = some after)
    (hpaired : after.pair.isPaired = pl.pair.isPaired)
    (hpartner : after.pair.partnerName = pl.pair.partnerName) : Bound next p q after where
  here := hhere
  paired := hpaired.trans hbound.paired
  partner := by
    rw [hpartner, findPeer_congr hnames]
    exact hbound.partner

theorem syncBoth_couple (hcouple : Couple server a b x y) (progress : Int) :
    Couple (syncBoth a b progress server) a b
      (withQuest { questOf x with progress := progress } x)
      (withQuest { questOf x with progress := progress } y) where
  distinct := hcouple.distinct
  first := hcouple.first.of_kept
    (by simp only [syncBoth, name_unrelated.mapPair]) (syncBoth_players hcouple progress).1 rfl rfl
  second := hcouple.second.of_kept
    (by simp only [syncBoth, name_unrelated.mapPair]) (syncBoth_players hcouple progress).2 rfl rfl
  shared := rfl

end Step

section Finish

variable {env : Env} {server : Server} {a b : Nat} {x y : Player} {now : Int}

theorem drawGoal_pos (type : Nat) : 0 < (drawGoal type server).1 := by
  unfold drawGoal
  dsimp only
  split_ifs
  · exact Int.one_pos
  · dsimp only
    omega
  · dsimp only
    omega
  · dsimp only
    omega

theorem drawGoal_players (type : Nat) : (drawGoal type server).2.players = server.players := by
  unfold drawGoal
  dsimp only
  split_ifs <;> rfl

/-- A new quest starts for both players. -/
theorem generatePairQuest_players (hne : a ≠ b) (hbound : Bound server a b x)
    (hother : server.players[b]? = some y) :
    ∃ quest : Quest, quest.progress = 0 ∧ quest.Open ∧
      (generatePairQuest a server).players[a]? = some (withQuest quest x) ∧
      (generatePairQuest a server).players[b]? = some (withQuest quest y) := by
  obtain ⟨draw, drawn, hdraw⟩ : ∃ draw drawn, server.rand = (draw, drawn) := ⟨_, _, rfl⟩
  have hdrawn : drawn.players = server.players := by
    rw [← show server.rand.2 = drawn by rw [hdraw]]
    rfl
  obtain ⟨goal, ready, hgoal⟩ : ∃ goal ready, drawGoal (draw % 4 + 1) drawn = (goal, ready) :=
    ⟨_, _, rfl⟩
  have hready : ready.players = server.players := by
    have hkept := @drawGoal_players drawn (draw % 4 + 1)
    rw [hgoal] at hkept
    exact hkept.trans hdrawn
  have hpos : 0 < goal := by
    have hdrawnGoal := @drawGoal_pos drawn (draw % 4 + 1)
    rwa [hgoal] at hdrawnGoal
  let quest : Quest := ⟨(draw % 4 + 1 : Nat), goal, 0⟩
  let renew (pair : PairQuest) : PairQuest :=
    { pair with questType := quest.type, questGoal := quest.goal, questProgress := 0 }
  have hfind : findPeer (mapPair a renew ready) x.pair.partnerName = some b := by
    rw [@findPeer_congr server (mapPair a renew ready)]
    · exact hbound.partner
    · rw [name_unrelated.mapPair]
      unfold viewAll
      rw [hready]
  have heq : generatePairQuest a server = mapPair b renew (mapPair a renew ready) := by
    unfold generatePairQuest
    rw [hbound.here, hdraw]
    dsimp only
    rw [hgoal]
    dsimp only
    rw [hfind]
  refine ⟨quest, rfl, hpos, ?_, ?_⟩
  · rw [heq, mapPair_other hne.symm, mapPair_self (by rw [hready]; exact hbound.here)]
    rfl
  · rw [heq, mapPair_self (by
      rw [mapPair_other hne, hready]
      exact hother)]
    rfl

/-- What a finished quest gives a player, apart from the next quest. -/
def Given (env : Env) (pl next : Player) : Prop :=
  if pl.pair.dailyCount < 10 then
    ∃ (s : Session) (charisma : Int), s.pl = counted charisma pl ∧
      next = (givePairRewards env s).pl
  else next = pl

theorem Given.served {pl mid : Player} {first : Quest}
    (hgiven : Given env (withQuest first pl) mid) (second : Quest) :
    Served env pl (withQuest second mid) := by
  unfold Given at hgiven
  unfold Served
  by_cases hlimit : pl.pair.dailyCount < 10
  · rw [if_pos (show (withQuest first pl).pair.dailyCount < 10 from hlimit)] at hgiven
    rw [if_pos hlimit]
    obtain ⟨s, charisma, hs, hmid⟩ := hgiven
    exact ⟨s, charisma, first, hs, by rw [hmid]; rfl⟩
  · rw [if_neg (show ¬ (withQuest first pl).pair.dailyCount < 10 from hlimit)] at hgiven
    rw [if_neg hlimit, hgiven]
    rfl

/-- Who is paired with whom is not given away. -/
theorem Given.bound {pl next : Player} (hgiven : Given env pl next) :
    next.pair.isPaired = pl.pair.isPaired ∧ next.pair.partnerName = pl.pair.partnerName := by
  unfold Given at hgiven
  split_ifs at hgiven
  · obtain ⟨s, charisma, hs, hnext⟩ := hgiven
    have hkept := pair_carried.givePairRewards env s
    rw [hnext, hkept, hs]
    exact ⟨rfl, rfl⟩
  · rw [hgiven]
    exact ⟨rfl, rfl⟩

theorem finishPartner_players (hne : a ≠ b) (hx : server.players[a]? = some x)
    (hy : server.players[b]? = some y) :
    (finishPartner env a b now server).players[a]? = some x ∧
      ∃ y', (finishPartner env a b now server).players[b]? = some y' ∧ Given env y y' := by
  unfold finishPartner Given
  rw [hx, hy]
  dsimp only
  split_ifs
  · obtain ⟨s, hs, hthere⟩ := @finishQuest_self env server b y now
      (fun _ => x.pair.pairCharisma) hy
    exact ⟨by rw [finishQuest_other hne.symm, hx], _, hthere, s, _, hs, rfl⟩
  · exact ⟨hx, y, hy, rfl⟩

/-- A quest that is finished within the limit serves both players and is replaced. -/
theorem finish_players (hne : a ≠ b) (hx : Bound server a b x) (hy : Bound server b a y)
    (hlimit : x.pair.dailyCount < 10) :
    ∃ x1 y1, ∃ quest : Quest, quest.progress = 0 ∧ quest.Open ∧ Given env x x1 ∧
      Given env y y1 ∧
      (finish env a b now server).players[a]? = some (withQuest quest x1) ∧
      (finish env a b now server).players[b]? = some (withQuest quest y1) := by
  obtain ⟨draw, drawn, hdraw⟩ : ∃ draw drawn, server.rand = (draw, drawn) := ⟨_, _, rfl⟩
  have hdrawn : drawn.players = server.players := by
    rw [← show server.rand.2 = drawn by rw [hdraw]]
    rfl
  let charm (charisma : Int) : Int := charisma + ((draw % 10 : Nat) + 5)
  obtain ⟨s, hs, hfirst⟩ := @finishQuest_self env drawn a x now charm
    (by rw [hdrawn]; exact hx.here)
  have hsecond : (finishQuest env a now charm drawn).players[b]? = some y := by
    rw [finishQuest_other hne, hdrawn]
    exact hy.here
  obtain ⟨hkept, y1, hthere, hgiven⟩ :=
    @finishPartner_players env _ a b _ y now hne hfirst hsecond
  have hgivenFirst : Given env x (givePairRewards env s).pl := by
    unfold Given
    rw [if_pos hlimit]
    exact ⟨s, _, hs, rfl⟩
  have hnames : viewAll Player.tankIDName
      (finishPartner env a b now (finishQuest env a now charm drawn)) =
        viewAll Player.tankIDName server := by
    rw [name_unrelated.finishPartner, name_unrelated.finishQuest]
    unfold viewAll
    rw [hdrawn]
  have hbound := hx.of_kept hnames hkept hgivenFirst.bound.1 hgivenFirst.bound.2
  obtain ⟨quest, hzero, hopen, hnewFirst, hnewSecond⟩ :=
    generatePairQuest_players hne hbound hthere
  have heq : finish env a b now server = generatePairQuest a
      (finishPartner env a b now (finishQuest env a now charm drawn)) := by
    unfold finish
    rw [hdraw]
  rw [heq]
  exact ⟨_, y1, quest, hzero, hopen, hgivenFirst, hgiven, hnewFirst, hnewSecond⟩

end Finish

section Fairness

variable {env : Env} {server : Server} {a b : Nat} {x y : Player} {call : Call}

theorem ends_iff (hcouple : Couple server a b x y) :
    call.Ends (questOf y) ↔ call.Ends (questOf x) := by
  rw [hcouple.shared]

theorem couple_apply {x' y' : Player} (hcouple : Couple server a b x y)
    (hx : (call.apply env server).players[a]? = some x')
    (hy : (call.apply env server).players[b]? = some y')
    (hfirst : x'.pair.isPaired = x.pair.isPaired ∧ x'.pair.partnerName = x.pair.partnerName)
    (hsecond : y'.pair.isPaired = y.pair.isPaired ∧ y'.pair.partnerName = y.pair.partnerName)
    (hshared : questOf y' = questOf x') : Couple (call.apply env server) a b x' y' where
  distinct := hcouple.distinct
  first := hcouple.first.of_kept (name_unrelated.updatePairProgress ..) hx hfirst.1 hfirst.2
  second := hcouple.second.of_kept (name_unrelated.updatePairProgress ..) hy hsecond.1 hsecond.2
  shared := hshared

/-- A call by the first partner within the limit. -/
theorem apply_fair (hcouple : Couple server a b x y) (hopen : (questOf x).Open)
    (hpeer : call.peer = a)
    (hlimit : call.Ends (questOf x) → x.pair.dailyCount < 10) :
    ∃ x' y', Couple (call.apply env server) a b x' y' ∧
      if call.Ends (questOf x) then Finished env x y x' y' else Going call x y x' y' := by
  have heq := @apply_eq env server a b x y call hcouple hopen hpeer
  by_cases htype : call.type = x.pair.questType
  · rw [if_neg (not_not_intro htype)] at heq
    dsimp only at heq
    by_cases hshort : x.pair.questProgress + call.amount < x.pair.questGoal
    · have hnot : ¬ call.Ends (questOf x) := fun h => absurd h.2 (Int.not_le.mpr hshort)
      have hmoved : call.moved (questOf x) =
          { questOf x with progress := x.pair.questProgress + call.amount } := if_pos htype
      rw [if_pos hshort] at heq
      have hafter := syncBoth_couple hcouple (x.pair.questProgress + call.amount)
      rw [heq]
      refine ⟨_, _, hafter, ?_⟩
      rw [if_neg hnot]
      exact ⟨by rw [hmoved], by rw [hmoved]⟩
    · have hends : call.Ends (questOf x) := ⟨htype, Int.not_lt.mp hshort⟩
      have hbelow := hlimit hends
      have hended := syncBoth_couple
        (syncBoth_couple hcouple (x.pair.questProgress + call.amount)) x.pair.questGoal
      rw [if_neg hshort, if_neg (Int.not_le.mpr hbelow)] at heq
      obtain ⟨x1, y1, quest, hzero, hnew, hfirst, hsecond, hthere, hother⟩ :=
        @finish_players env _ a b _ _ call.now hcouple.distinct hended.first hended.second hbelow
      rw [← heq] at hthere hother
      have hboundFirst := hfirst.bound
      have hboundSecond := hsecond.bound
      rw [withQuest_twice] at hfirst hsecond
      refine ⟨_, _, couple_apply hcouple hthere hother hboundFirst hboundSecond rfl, ?_⟩
      rw [if_pos hends]
      exact ⟨hfirst.served quest, hsecond.served quest, rfl, hzero, hnew⟩
  · have hnot : ¬ call.Ends (questOf x) := fun h => htype h.1
    have hmoved : call.moved (questOf x) = questOf x := if_neg htype
    rw [if_pos htype] at heq
    rw [heq]
    refine ⟨x, y, hcouple, ?_⟩
    rw [if_neg hnot]
    refine ⟨by rw [hmoved]; rfl, ?_⟩
    rw [hmoved, ← hcouple.shared]
    rfl

/-- A call that ends the quest beyond the limit leaves it finished in place. -/
theorem apply_beyond (hcouple : Couple server a b x y) (hopen : (questOf x).Open)
    (hpeer : call.peer = a) (hends : call.Ends (questOf x))
    (hlimit : 10 ≤ x.pair.dailyCount) :
    Couple (call.apply env server) a b
      (withQuest { questOf x with progress := x.pair.questGoal } x)
      (withQuest { questOf x with progress := x.pair.questGoal } y) := by
  have heq := @apply_eq env server a b x y call hcouple hopen hpeer
  have htype : call.type = x.pair.questType := hends.1
  have hreached : ¬ x.pair.questProgress + call.amount < x.pair.questGoal :=
    Int.not_lt.mpr hends.2
  rw [if_neg (not_not_intro htype)] at heq
  dsimp only at heq
  rw [if_neg hreached, if_pos hlimit] at heq
  rw [heq]
  exact syncBoth_couple (syncBoth_couple hcouple (x.pair.questProgress + call.amount))
    x.pair.questGoal

/-- A finished quest is not moved on. -/
theorem apply_closed (hcouple : Couple server a b x y) (hclosed : ¬ (questOf x).Open)
    (hpeer : call.peer = a) : call.apply env server = server := by
  have hdone : x.pair.questGoal ≤ x.pair.questProgress := Int.not_lt.mp hclosed
  unfold Call.apply updatePairProgress
  rw [hpeer, hcouple.first.here]
  dsimp only
  rw [if_neg (by simp [hcouple.first.paired])]
  split_ifs
  · rfl
  · rfl

/-- The two copies of the quest stay equal, and nobody is rewarded beyond the limit. -/
theorem apply_couple (hcouple : Couple server a b x y) (hpeer : call.peer = a) :
    ∃ x' y', Couple (call.apply env server) a b x' y' ∧ Tally x x' ∧ Tally y y' := by
  by_cases hopen : (questOf x).Open
  · by_cases hbeyond : call.Ends (questOf x) ∧ 10 ≤ x.pair.dailyCount
    · refine ⟨_, _, apply_beyond hcouple hopen hpeer hbeyond.1 hbeyond.2, ?_, ?_⟩
      · exact Unrewarded.tally rfl
      · exact Unrewarded.tally rfl
    · obtain ⟨x', y', hafter, hfair⟩ := @apply_fair env _ _ _ _ _ _ hcouple hopen hpeer
        fun hends => Int.not_le.mp fun hlimit => hbeyond ⟨hends, hlimit⟩
      refine ⟨x', y', hafter, ?_⟩
      split_ifs at hfair
      · exact ⟨hfair.first.tally, hfair.second.tally⟩
      · rw [hfair.first, hfair.second]
        exact ⟨Unrewarded.tally rfl, Unrewarded.tally rfl⟩
  · rw [apply_closed hcouple hopen hpeer]
    exact ⟨x, y, hcouple, Tally.refl x, Tally.refl y⟩

theorem Finished.symm {x' y' : Player} (hfinished : Finished env x y x' y') :
    Finished env y x y' x' where
  first := hfinished.second
  second := hfinished.first
  shared := hfinished.shared.symm
  fresh := by
    rw [hfinished.shared]
    exact hfinished.fresh
  opened := by
    rw [hfinished.shared]
    exact hfinished.opened

theorem Going.symm {x' y' : Player} (hshared : questOf y = questOf x)
    (hgoing : Going call x y x' y') : Going call y x y' x' where
  first := by
    rw [hshared]
    exact hgoing.second
  second := by
    rw [hshared]
    exact hgoing.first

end Fairness

section Runs

variable {env : Env} {server : Server} {a b : Nat} {x y : Player} {call : Call}

/-- A quest that goes on is open. -/
theorem Going.opened {x' y' : Player} (hgoing : Going call x y x' y')
    (hopen : (questOf x).Open) (hnot : ¬ call.Ends (questOf x)) : (questOf x').Open := by
  rw [hgoing.first, questOf_withQuest]
  unfold Call.moved
  by_cases htype : call.type = (questOf x).type
  · rw [if_pos htype]
    exact Int.not_le.mp fun hreached => hnot ⟨htype, hreached⟩
  · rw [if_neg htype]
    exact hopen

/-- Either partner may call. -/
theorem apply_couple_either (hcouple : Couple server a b x y)
    (hpeer : call.peer = a ∨ call.peer = b) :
    ∃ x' y', Couple (call.apply env server) a b x' y' ∧ Tally x x' ∧ Tally y y' := by
  rcases hpeer with hfirst | hsecond
  · exact apply_couple hcouple hfirst
  · obtain ⟨y', x', hafter, hy, hx⟩ := @apply_couple env _ _ _ _ _ _ hcouple.symm hsecond
    exact ⟨x', y', hafter.symm, hx, hy⟩

/-- A call is fair exactly when whoever ends the quest is within the limit. -/
theorem fair_iff (hcouple : Couple server a b x y) (hopen : (questOf x).Open)
    (hpeer : call.peer = a ∨ call.peer = b) :
    Fair env a b server call ↔ InLimit server call := by
  constructor
  · intro hfair pl hpl hends
    obtain ⟨x', y', hx', hy', hdone⟩ := hfair x y hcouple.first.here hcouple.second.here
    by_contra hbeyond
    have hends' : call.Ends (questOf x) := by
      rcases hpeer with hfirst | hsecond
      · rw [hfirst, hcouple.first.here] at hpl
        rwa [Option.some.inj hpl]
      · rw [hsecond, hcouple.second.here] at hpl
        rw [← hcouple.shared]
        rwa [Option.some.inj hpl]
    rw [if_pos hends'] at hdone
    -- a finished quest that stays is not open
    have hleft : ∃ left, (call.apply env server).players[a]? = some left ∧
        ¬ (questOf left).Open := by
      rcases hpeer with hfirst | hsecond
      · rw [hfirst, hcouple.first.here] at hpl
        rw [← Option.some.inj hpl] at hbeyond
        exact ⟨_, (apply_beyond hcouple hopen hfirst hends' (Int.not_lt.mp hbeyond)).first.here,
          lt_irrefl _⟩
      · rw [hsecond, hcouple.second.here] at hpl
        rw [← Option.some.inj hpl] at hbeyond
        have hopen' : (questOf y).Open := by
          rw [hcouple.shared]
          exact hopen
        have hafter := @apply_beyond env _ _ _ _ _ _ hcouple.symm hopen' hsecond
          ((ends_iff hcouple).mpr hends') (Int.not_lt.mp hbeyond)
        exact ⟨_, hafter.second.here, lt_irrefl _⟩
    obtain ⟨left, hthere, hclosed⟩ := hleft
    rw [hx'] at hthere
    rw [← Option.some.inj hthere] at hclosed
    exact hclosed hdone.opened
  · intro hlimit x0 y0 hx0 hy0
    rw [hcouple.first.here] at hx0
    rw [hcouple.second.here] at hy0
    rw [← Option.some.inj hx0, ← Option.some.inj hy0]
    rcases hpeer with hfirst | hsecond
    · obtain ⟨x', y', hafter, hdone⟩ := @apply_fair env _ _ _ _ _ _ hcouple hopen hfirst
        fun hends => hlimit x (by rw [hfirst]; exact hcouple.first.here) hends
      exact ⟨x', y', hafter.first.here, hafter.second.here, hdone⟩
    · have hopen' : (questOf y).Open := by
        rw [hcouple.shared]
        exact hopen
      obtain ⟨y', x', hafter, hdone⟩ := @apply_fair env _ _ _ _ _ _ hcouple.symm hopen' hsecond
        fun hends => hlimit y (by rw [hsecond]; exact hcouple.second.here) hends
      refine ⟨x', y', hafter.second.here, hafter.first.here, ?_⟩
      by_cases hends : call.Ends (questOf x)
      · rw [if_pos ((ends_iff hcouple).mpr hends)] at hdone
        rw [if_pos hends]
        exact hdone.symm
      · rw [if_neg (fun h => hends ((ends_iff hcouple).mp h))] at hdone
        rw [if_neg hends]
        exact hdone.symm hcouple.shared.symm

/-- After a fair call the quest is open. -/
theorem open_of_fair {x' y' : Player} (hcouple : Couple server a b x y)
    (hopen : (questOf x).Open) (hafter : Couple (call.apply env server) a b x' y')
    (hfair : Fair env a b server call) : (questOf x').Open := by
  obtain ⟨x1, y1, hx1, -, hdone⟩ := hfair x y hcouple.first.here hcouple.second.here
  rw [hafter.first.here] at hx1
  rw [Option.some.inj hx1]
  split_ifs at hdone with hends
  · exact hdone.opened
  · exact hdone.opened hopen hends

/-- The two copies of the quest stay equal along every run, and nobody is rewarded more
than ten times. -/
theorem couple_run (calls : List Call) (hcouple : Couple server a b x y)
    (hpeers : ∀ call ∈ calls, call.peer = a ∨ call.peer = b) :
    ∃ x' y', Couple (run env calls server) a b x' y' ∧ Tally x x' ∧ Tally y y' := by
  induction calls generalizing server x y with
  | nil => exact ⟨x, y, hcouple, Tally.refl x, Tally.refl y⟩
  | cons call rest ih =>
      obtain ⟨x1, y1, hafter, hx, hy⟩ := @apply_couple_either env _ _ _ _ _ _ hcouple
        (hpeers call List.mem_cons_self)
      obtain ⟨x2, y2, hend, hx2, hy2⟩ := ih hafter fun other hother =>
        hpeers other (List.mem_cons_of_mem call hother)
      exact ⟨x2, y2, hend, hx.trans hx2, hy.trans hy2⟩

theorem along_fair_iff (calls : List Call) (hcouple : Couple server a b x y)
    (hopen : (questOf x).Open) (hpeers : ∀ call ∈ calls, call.peer = a ∨ call.peer = b) :
    Along env (Fair env a b) calls server ↔ Along env InLimit calls server := by
  induction calls generalizing server x y with
  | nil => exact Iff.rfl
  | cons call rest ih =>
      have hpeer := hpeers call List.mem_cons_self
      have hfair := @fair_iff env _ _ _ _ _ _ hcouple hopen hpeer
      obtain ⟨x1, y1, hafter, -, -⟩ := @apply_couple_either env _ _ _ _ _ _ hcouple hpeer
      have hrest := fun hcall => ih hafter (open_of_fair hcouple hopen hafter hcall)
        fun other hother => hpeers other (List.mem_cons_of_mem call hother)
      constructor
      · rintro ⟨hcall, hlater⟩
        exact ⟨hfair.mp hcall, (hrest hcall).mp hlater⟩
      · rintro ⟨hcall, hlater⟩
        exact ⟨hfair.mpr hcall, (hrest (hfair.mpr hcall)).mpr hlater⟩

/-- The quest of a pair stays shared along every run; and its calls reward both players
below the limit and start the next quest exactly when whoever ends a quest has rewards
left for the day. -/
theorem quests_along_runs (calls : List Call) (hcouple : Couple server a b x y)
    (hopen : (questOf x).Open) (hpeers : ∀ call ∈ calls, call.peer = a ∨ call.peer = b) :
    (∀ done todo, calls = done ++ todo →
      ∃ x' y', Couple (run env done server) a b x' y' ∧ Tally x x' ∧ Tally y y') ∧
    (Along env (Fair env a b) calls server ↔ Along env InLimit calls server) := by
  refine ⟨fun done todo hsplit => couple_run done hcouple fun call hcall => ?_,
    along_fair_iff calls hcouple hopen hpeers⟩
  exact hpeers call (by rw [hsplit]; exact List.mem_append_left todo hcall)

/-- Two players with one operation to do, and the rewards of the day of either. -/
def surgeons (first second : Int) : Server where
  players :=
    [{ tankIDName := "ann", pair :=
        { isPaired := true, partnerName := "ben", questType := 4, questGoal := 1
          dailyCount := first } },
      { tankIDName := "ben", pair :=
        { isPaired := true, partnerName := "ann", questType := 4, questGoal := 1
          dailyCount := second } }]

theorem surgeons_couple (first second : Int) :
    ∃ x y, Couple (surgeons first second) 0 1 x y ∧ (questOf x).Open :=
  ⟨_, _, ⟨by decide, ⟨rfl, rfl, rfl⟩, ⟨rfl, rfl, rfl⟩, rfl⟩, Int.one_pos⟩

/-- The last step of a player beyond the limit rewards nobody. -/
theorem last_step_beyond_limit :
    ¬ ∀ (env : Env) (server : Server) (a b : Nat) (x y : Player) (calls : List Call),
      Couple server a b x y → (questOf x).Open →
      (∀ call ∈ calls, call.peer = a ∨ call.peer = b) →
        Along env (Fair env a b) calls server := by
  intro hall
  obtain ⟨x, y, hcouple, hopen⟩ := surgeons_couple 10 0
  have hpeers : ∀ call ∈ [(⟨0, 0, 4, 1⟩ : Call)], call.peer = 0 ∨ call.peer = 1 := by simp
  have hfair := hall { items := ⟨0, fun _ => {}⟩ } (surgeons 10 0) 0 1 x y _ hcouple hopen
    hpeers
  have hlimit := ((along_fair_iff _ hcouple hopen hpeers).mp hfair).1 _ rfl (by decide)
  exact absurd hlimit (by decide)

/-- The last step of a player within the limit rewards both. -/
theorem last_step_within_limit :
    Along { items := ⟨0, fun _ => {}⟩ } (Fair { items := ⟨0, fun _ => {}⟩ } 0 1)
      [⟨1, 0, 3, 5⟩, ⟨0, 0, 4, 1⟩] (surgeons 9 10) := by
  obtain ⟨x, y, hcouple, hopen⟩ := surgeons_couple 9 10
  refine (quests_along_runs _ hcouple hopen (by simp)).2.mpr ⟨?_, ?_, trivial⟩
  · intro pl hpl hends
    cases hpl
    exact absurd hends.1 (by decide)
  · intro pl hpl _
    cases hpl
    decide

end Runs

end PairRuns

end NopyServer
