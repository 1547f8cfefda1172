/-
Gems that a player is given.  `OnBuxGems` may complete a task of the grow pass,
moves the quest of the player's pair on, and lets `AutoConvert` turn the gems
into locks.  A finished quest rewards both players of the pair, so these
functions work on the server and not on one session.

None of this touches anybody's name or account.
-/
import NopyServer.InventoryRuns
import NopyServer.Server

namespace NopyServer

open Inventory

namespace Server

/-- One call of `rand()`. -/
def rand (server : Server) : Nat × Server :=
  (server.rands 0, { server with rands := fun n => server.rands (n + 1) })

end Server

namespace BuxGems

/-- `Inventory::HasItemsInInv`. -/
def hasItemsInInv (inv : List (Int × Int)) (itemId count : Int) : Option Nat :=
  inv.findIdx? fun slot =>
    slot.1 == itemId && (decide (count ≤ slot.2) || count == -1)

/-- The drop of what does not fit on the stack, near the player. -/
def dropRest (env : Env) (itemId count : Int) (s : Session) : Session :=
  let (x, s) := s.rand
  let (y, s) := s.rand
  let drop : WorldDrop :=
    ⟨itemId, count, s.pl.x + (x % 17 : Nat), s.pl.y + (y % 17 : Nat)⟩
  match s.findWorld s.pl.world with
  | none => s
  | some w =>
      (s.freshen w).mapWorld w fun world => visualDrop env.items s.now world drop

/-- `SaveDropItemMoreTimes`. -/
def saveDropItemMoreTimes (env : Env) (itemId count : Int) (s : Session) :
    Session :=
  let currentItemCount := contains s.pl.inv itemId
  let plusItem := int32 (currentItemCount + count)
  if currentItemCount = 0 then (modify env s itemId count true).session
  else
    match hasItemsInInv s.pl.inv itemId 1 with
    | none => s
    | some idx =>
        let setCount (n : Int) : Session :=
          s.mapPlayer fun pl => { pl with inv := pl.inv.set idx (itemId, n) }
        if 200 < plusItem then dropRest env itemId (plusItem - 200) (setCount 200)
        else setCount plusItem

/-- `GiveItemSafe`. -/
def giveItemSafe (env : Env) (itemId amount : Int) (s : Session) : Session :=
  let given := modify env s itemId amount false
  if given.ret = 0 then given.session
  else saveDropItemMoreTimes env itemId amount given.session

/-- A reward of `GivePairRewards`: it comes with `chance` in `sides`, and its
number is drawn where `most` gives the largest one. -/
structure PairReward where
  chance : Nat
  sides : Nat
  itemId : Int
  most : Option Nat

def pairRewards : List PairReward :=
  [⟨98, 100, 13158, some 5⟩, ⟨25, 1000, 19614, none⟩, ⟨5, 100, 19190, none⟩,
    ⟨30, 100, 5665, some 10⟩, ⟨50, 100, 10268, some 20⟩,
    ⟨30, 100, 3402, some 10⟩, ⟨20, 100, 9350, some 5⟩]

def givePairReward (env : Env) (s : Session) (reward : PairReward) : Session :=
  let (draw, s) := s.rand
  if draw % reward.sides < reward.chance then
    match reward.most with
    | none => giveItemSafe env reward.itemId 1 s
    | some most =>
        let (got, s) := s.rand
        giveItemSafe env reward.itemId ((got % most : Nat) + 1) s
  else s

/-- `GivePairRewards`. -/
def givePairRewards (env : Env) (s : Session) : Session :=
  pairRewards.foldl (givePairReward env) s

/-- The quest of a pair is changed in the player's record. -/
def mapPair (peer : Nat) (f : PairQuest → PairQuest) : Server → Server :=
  Server.mapPlayer peer fun pl => { pl with pair := f pl.pair }

/-- The connected player of a name. -/
def findPeer (server : Server) (name : String) : Option Nat :=
  server.players.findIdx? fun pl => pl.tankIDName == name

/-- The goal that `GeneratePairQuest` draws for a quest type. -/
def drawGoal (type : Nat) (server : Server) : Int × Server :=
  if type = 4 then (1, server)
  else
    let (draw, server) := server.rand
    if type = 1 then ((draw % 1999 : Nat) + 1, server)
    else if type = 2 then ((draw % 199 : Nat) + 1, server)
    else ((draw % 99000 : Nat) + 1000, server)

/-- `GeneratePairQuest`. -/
def generatePairQuest (peer : Nat) (server : Server) : Server :=
  match server.players[peer]? with
  | none => server
  | some pl =>
      let (draw, server) := server.rand
      let type := draw % 4 + 1
      let (goal, server) := drawGoal type server
      let quest (pair : PairQuest) : PairQuest :=
        { pair with questType := type, questGoal := goal, questProgress := 0 }
      let server := mapPair peer quest server
      match findPeer server pl.pair.partnerName with
      | none => server
      | some partner => mapPair partner quest server

/-- A finished quest counts for a player who is below the limit of the day. -/
def finishQuest (env : Env) (peer : Nat) (now : Int)
    (charisma : Int → Int) (server : Server) : Server :=
  let server := mapPair peer (fun pair =>
    { pair with
      dailyCount := pair.dailyCount + 1
      pairCount := pair.pairCount + 1
      pairCharisma := charisma pair.pairCharisma }) server
  server.serve peer now (givePairRewards env)

/-- The partner's side of a finished quest. -/
def finishPartner (env : Env) (peer partner : Nat) (now : Int)
    (server : Server) : Server :=
  match server.players[peer]?, server.players[partner]? with
  | some pl, some other =>
      if other.pair.dailyCount < 10 then
        finishQuest env partner now (fun _ => pl.pair.pairCharisma) server
      else server
  | _, _ => server

/-- `UpdatePairProgress`. -/
def updatePairProgress (env : Env) (peer : Nat) (now : Int)
    (type amount : Int) (server : Server) : Server :=
  match server.players[peer]? with
  | none => server
  | some pl =>
      if pl.pair.isPaired = false then server
      else if pl.pair.questType ≠ type then server
      else if pl.pair.questGoal ≤ pl.pair.questProgress then server
      else
        let partner := findPeer server pl.pair.partnerName
        let sync (progress : Int) (server : Server) : Server :=
          let set (pair : PairQuest) : PairQuest :=
            { pair with questProgress := progress }
          match partner with
          | none => mapPair peer set server
          | some partner => mapPair partner set (mapPair peer set server)
        let progress := pl.pair.questProgress + amount
        let server := sync progress server
        if progress < pl.pair.questGoal then server
        else
          let server := sync pl.pair.questGoal server
          if 10 ≤ pl.pair.dailyCount then server
          else
            let (draw, server) := server.rand
            let server := finishQuest env peer now
              (fun charisma => charisma + ((draw % 10 : Nat) + 5)) server
            let server :=
              match partner with
              | none => server
              | some partner => finishPartner env peer partner now server
            generatePairQuest peer server

/-- `Add_Piggy_Bank`. -/
def addPiggyBank (amount : Int) (pass : GrowPass) : GrowPass :=
  if pass.pgBank ≠ 0 ∧ pass.bankedPiggy < 350000 then
    { pass with bankedPiggy := min (pass.bankedPiggy + amount) 350000 }
  else pass

/-- `complete_gpass_task`. -/
def completeGpassTask (task : String) (pl : Player) : Bool × Player :=
  if task ∈ pl.growPass.growpassQuests then (false, pl)
  else
    let pass := addPiggyBank 10000 { pl.growPass with
      growpassQuests := pl.growPass.growpassQuests ++ [task] }
    let getPoints :=
      if task = "Growtoken" then 40
      else if task = "Claim 4,000 gems" then 150
      else 10
    let gems := if task = "Claim 4,000 gems" then pl.gems + 4000 else pl.gems
    if pass.growpassPoints < 5400 then
      (true, { pl with
        gems := gems
        growPass := { pass with
          growpassPoints := pass.growpassPoints + getPoints } })
    else (false, { pl with gems := gems, growPass := pass })

/-- The task of the grow pass that gems can complete. -/
def gemsTask (amount : Int) (pl : Player) : Bool × Player :=
  if pl.account.gp ≠ 0 ∧ 30 ≤ amount then completeGpassTask "Gems" pl
  else (false, pl)

/-- `OnBuxGems`. -/
def onBuxGems (env : Env) (peer : Nat) (now amount : Int) (server : Server) :
    Server :=
  match server.players[peer]? with
  | none => server
  | some pl =>
      let task := gemsTask amount pl
      let amount := if task.1 = true then amount + 3 else amount
      let server := server.mapPlayer peer fun _ => task.2
      let server :=
        if 0 < amount then updatePairProgress env peer now 3 amount server
        else server
      let server := server.mapPlayer peer fun pl =>
        { pl with gems := pl.gems + amount }
      if 0 < amount then server.serve peer now (autoConvert env) else server

section Frame

variable {α : Type} {view : Player → α} {env : Env} {server : Server}
  {peer : Nat} {now : Int}

/-- A view of a player that no item touches. -/
structure Carried (view : Player → α) : Prop where
  core : ∀ pl : Player, view pl.core = view pl
  gems : ∀ (pl : Player) gems, view { pl with gems := gems } = view pl
  converting : ∀ (pl : Player) processing,
    view { pl with autoConvertProcessing := processing } = view pl
  selling : ∀ (pl : Player) processing,
    view { pl with autosellfishProcessing := processing } = view pl

/-- A view of a player that no gift of gems or items touches. -/
structure Unrelated (view : Player → α) : Prop extends Carried view where
  pair : ∀ (pl : Player) pair, view { pl with pair := pair } = view pl
  growPass : ∀ (pl : Player) pass, view { pl with growPass := pass } = view pl

/-- A view of all players. -/
def viewAll (view : Player → α) (server : Server) : List α :=
  server.players.map view

namespace Carried

theorem kept (hview : Carried view) (value : α) :
    Kept env fun s => view s.pl = value :=
  kept_member env view value hview.core hview.gems hview.converting
    hview.selling

theorem modify (hview : Carried view) (s : Session) (i c : Int)
    (forceReturn : Bool) :
    view (Inventory.modify env s i c forceReturn).session.pl = view s.pl :=
  ((hview.kept (view s.pl)).modifyN 2).modify s i c forceReturn rfl

theorem autoConvert (hview : Carried view) (s : Session) :
    view (Inventory.autoConvert env s).pl = view s.pl := by
  have hkept := @Carried.kept α view env hview (view s.pl)
  exact hkept.convert _ (hkept.modifyN 2) s rfl

theorem setSlots (hview : Carried view) (pl : Player)
    (inv : List (Int × Int)) : view { pl with inv := inv } = view pl := by
  rw [← hview.core, ← hview.core pl]
  rfl

theorem dropRest (view : Player → α) (itemId count : Int) (s : Session) :
    view (dropRest env itemId count s).pl = view s.pl := by
  unfold BuxGems.dropRest
  dsimp only
  split <;> rfl

theorem saveDropItemMoreTimes (hview : Carried view) (itemId count : Int)
    (s : Session) :
    view (saveDropItemMoreTimes env itemId count s).pl = view s.pl := by
  unfold BuxGems.saveDropItemMoreTimes
  cases hasItemsInInv s.pl.inv itemId 1 with
  | none =>
      dsimp only
      split_ifs
      · exact hview.modify s itemId count true
      · rfl
  | some idx =>
      dsimp only
      split_ifs
      · exact hview.modify s itemId count true
      · rw [dropRest view]
        exact hview.setSlots _ _
      · exact hview.setSlots _ _

theorem giveItemSafe (hview : Carried view) (itemId amount : Int)
    (s : Session) : view (giveItemSafe env itemId amount s).pl = view s.pl := by
  have hgiven := @Carried.modify α view env hview s itemId amount false
  unfold BuxGems.giveItemSafe
  dsimp only
  split_ifs
  · exact hgiven
  · rw [hview.saveDropItemMoreTimes, hgiven]

theorem givePairRewards (hview : Carried view) (env : Env) (s : Session) :
    view (givePairRewards env s).pl = view s.pl := by
  unfold BuxGems.givePairRewards
  induction pairRewards generalizing s with
  | nil => rfl
  | cons reward rest ih =>
      rw [List.foldl_cons, ih]
      unfold givePairReward
      dsimp only
      split_ifs
      · split
        · rw [hview.giveItemSafe]
          rfl
        · rw [hview.giveItemSafe]
          rfl
      · rfl

end Carried

namespace Unrelated

theorem mapPlayer {f : Player → Player}
    (hf : ∀ pl, server.players[peer]? = some pl → view (f pl) = view pl) :
    viewAll view (server.mapPlayer peer f) = viewAll view server :=
  Server.mapPlayer_view hf

theorem serve {handler : Session → Session}
    (hhandler : ∀ s, view (handler s).pl = view s.pl) :
    viewAll view (server.serve peer now handler) = viewAll view server :=
  Server.serve_view hhandler

theorem rand : viewAll view server.rand.2 = viewAll view server := rfl

theorem mapPair (hview : Unrelated view) (f : PairQuest → PairQuest) :
    viewAll view (mapPair peer f server) = viewAll view server :=
  mapPlayer fun pl _ => hview.pair pl (f pl.pair)

theorem finishQuest (hview : Unrelated view) (charisma : Int → Int) :
    viewAll view (finishQuest env peer now charisma server) =
      viewAll view server := by
  unfold BuxGems.finishQuest
  rw [serve (hview.givePairRewards env), hview.mapPair]

theorem finishPartner (hview : Unrelated view) (partner : Nat) :
    viewAll view (finishPartner env peer partner now server) =
      viewAll view server := by
  unfold BuxGems.finishPartner
  split
  · split_ifs
    · exact hview.finishQuest _
    · rfl
  · rfl

theorem drawGoal (type : Nat) :
    viewAll view (drawGoal type server).2 = viewAll view server := by
  unfold BuxGems.drawGoal
  dsimp only
  split_ifs <;> rfl

theorem generatePairQuest (hview : Unrelated view) :
    viewAll view (generatePairQuest peer server) = viewAll view server := by
  unfold BuxGems.generatePairQuest
  split
  · rfl
  · dsimp only
    split <;> simp only [hview.mapPair, drawGoal, rand]

theorem updatePairProgress (hview : Unrelated view) (type amount : Int) :
    viewAll view (updatePairProgress env peer now type amount server) =
      viewAll view server := by
  unfold BuxGems.updatePairProgress
  cases server.players[peer]? with
  | none => rfl
  | some pl =>
      dsimp only
      split_ifs
      · rfl
      · rfl
      · rfl
      all_goals
        split <;> simp only [hview.generatePairQuest, hview.finishPartner,
          hview.finishQuest, hview.mapPair, rand]

theorem gemsTask (hview : Unrelated view) (amount : Int) (pl : Player) :
    view (gemsTask amount pl).2 = view pl := by
  have hboth (gems : Int) (pass : GrowPass) :
      view { pl with gems := gems, growPass := pass } = view pl :=
    (hview.growPass { pl with gems := gems } pass).trans (hview.gems pl gems)
  unfold BuxGems.gemsTask completeGpassTask
  dsimp only
  split_ifs <;> first | rfl | exact hboth _ _

/-- Gems change nothing of a player but gems, items, the grow pass and the
quest of the pair. -/
theorem onBuxGems (hview : Unrelated view) (amount : Int) :
    viewAll view (onBuxGems env peer now amount server) =
      viewAll view server := by
  unfold BuxGems.onBuxGems
  cases hpl : server.players[peer]? with
  | none => rfl
  | some pl =>
      dsimp only
      have htask : viewAll view (server.mapPlayer peer
          fun _ => (BuxGems.gemsTask amount pl).2) = viewAll view server := by
        apply mapPlayer
        intro other hother
        rw [hpl] at hother
        cases hother
        exact hview.gemsTask amount pl
      generalize (if (BuxGems.gemsTask amount pl).1 = true then amount + 3
        else amount) = total
      have hgems (server : Server) : viewAll view (server.mapPlayer peer
          fun pl => { pl with gems := pl.gems + total }) = viewAll view server :=
        mapPlayer fun pl _ => hview.gems pl _
      split_ifs
      · rw [serve hview.autoConvert, hgems, hview.updatePairProgress, htask]
      · rw [hgems, htask]

end Unrelated

/-- What a player is known by and has been credited with, gems apart. -/
def standing (pl : Player) : String × Account := (pl.tankIDName, pl.account)

/-- The standing of all players. -/
def standings (server : Server) : List (String × Account) :=
  server.players.map standing

theorem standing_unrelated : Unrelated standing where
  core _ := rfl
  gems _ _ := rfl
  converting _ _ := rfl
  selling _ _ := rfl
  pair _ _ := rfl
  growPass _ _ := rfl

theorem modify_standing (env : Env) (s : Session) (i c : Int)
    (forceReturn : Bool) :
    standing (modify env s i c forceReturn).session.pl = standing s.pl :=
  standing_unrelated.modify s i c forceReturn

theorem standings_mapPlayer {f : Player → Player}
    (hf : ∀ pl, server.players[peer]? = some pl → standing (f pl) = standing pl) :
    standings (server.mapPlayer peer f) = standings server :=
  Server.mapPlayer_view hf

theorem standings_serve {handler : Session → Session}
    (hhandler : ∀ s, standing (handler s).pl = standing s.pl) :
    standings (server.serve peer now handler) = standings server :=
  Server.serve_view hhandler

/-- Gems change nobody's name or account. -/
theorem standings_onBuxGems (amount : Int) :
    standings (onBuxGems env peer now amount server) = standings server :=
  standing_unrelated.onBuxGems amount

end Frame

end BuxGems

end NopyServer
