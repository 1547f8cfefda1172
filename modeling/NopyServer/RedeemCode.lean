/-
Redeem codes.  `redeem_code` checks that the code is known, that the player is
not in the cooldown, that the code has not expired, that the player has not
claimed it and that it has been claimed less than `MaximumEnter` times.  Then
it credits the rewards one after the other, the items last, and records the
claim when `Modify` took at least one of the items.

Each request that hands out anything leaves a receipt, which the source does
not have: the name of the player, the code, and the rewards as they were
credited.
-/
import NopyServer.BuxGems

namespace NopyServer

open Inventory BuxGems

/-- `Redeem_Code`. -/
structure RedeemCode where
  items : List (Int × Int) := []
  userHasClaim : List String := []
  growPass : Bool := false
  roadToGlory : Bool := false
  requiringLvl : Int := 0
  maximumEnter : Int := 0
  poepleEnter : Int := 0
  levell : Int := 0
  gemss : Int := 0
  coin : Int := 0
  seasonalsToken : Int := 0
  playerRole : Int := 0
  code : String := ""
  time : Int := 0
deriving DecidableEq

namespace RedeemCode

/-- One reward of a code. -/
inductive Reward where
  | growPass
  | roadToGlory
  | gems (amount : Int)
  | level (amount : Int)
  | coin (amount : Int)
  | seasonalsToken (amount : Int)
  | role (id : Int)
  | item (id count : Int)
deriving DecidableEq

/-- The rewards of a code that are not items. -/
def scalars (code : RedeemCode) : List Reward :=
  (if code.growPass = true then [.growPass] else []) ++
    (if code.roadToGlory = true then [.roadToGlory] else []) ++
    (if code.gemss ≠ 0 then [.gems code.gemss] else []) ++
    (if code.levell ≠ 0 then [.level code.levell] else []) ++
    (if code.coin ≠ 0 then [.coin code.coin] else []) ++
    (if code.seasonalsToken ≠ 0 then [.seasonalsToken code.seasonalsToken]
      else []) ++
    (if code.playerRole ≠ 0 then [.role code.playerRole] else [])

def itemReward (item : Int × Int) : Reward := .item item.1 item.2

/-- All rewards of a code. -/
def rewards (code : RedeemCode) : List Reward :=
  code.scalars ++ code.items.map itemReward

/-- What a request has handed out so far, and its flag `success`. -/
structure Grant where
  server : Server
  granted : List Reward := []
  success : Bool := false

/-- A reward is credited. -/
def Grant.credit (reward : Reward) (f : Server → Server) (g : Grant) : Grant :=
  { g with server := f g.server, granted := g.granted ++ [reward] }

def mapAccount (peer : Nat) (f : Account → Account) : Server → Server :=
  Server.mapPlayer peer fun pl => { pl with account := f pl.account }

/-- `Role::Prefix`. -/
def rolePrefix (pl : Player) : String :=
  let role := pl.account.role
  if role.ownerServer = true then "`b[OWNER] @"
  else if pl.hasConfigAccess = true then "`c[CONFIG] @"
  else if role.staff = true then "`4[STAFF] @"
  else if role.streamers = true then "`4[STREAM] @"
  else if role.donatur = true then "`2[DONATOR] @"
  else if role.unlimited = true then "`8[UNLIMITED] @"
  else if role.god = true then "`9[GOD] @"
  else if role.developer = true then "`6[DEV] @"
  else if role.administrator = true then "`e[ADMIN] @"
  else if role.moderator = true then "`#[MOD] @"
  else if role.vip = true then "`1[VIP] @"
  else "`w"

/-- The role of a number is set where the player does not have it. -/
def setRole (roleId : Int) (role : Roles) : Roles :=
  { role with
    vip := role.vip || roleId == 1
    moderator := role.moderator || roleId == 2
    administrator := role.administrator || roleId == 3
    developer := role.developer || roleId == 4
    ownerServer := role.ownerServer || roleId == 5
    cheats := role.cheats || roleId == 6 }

/-- Where the tokens of the running guild event are counted. -/
def addTokens (guildEventType : String) (amount : Int) (account : Account) :
    Account :=
  if guildEventType = "Spring Clash" then
    { account with springToken := account.springToken + amount }
  else if guildEventType = "Summer Clash" then
    { account with summerToken := account.summerToken + amount }
  else if guildEventType = "Winter Clash" then
    { account with winterToken := account.winterToken + amount }
  else account

/-- There are tokens of this guild event. -/
def HasTokens (guildEventType : String) : Prop :=
  guildEventType = "Spring Clash" ∨ guildEventType = "Summer Clash" ∨
    guildEventType = "Winter Clash"

instance (guildEventType : String) : Decidable (HasTokens guildEventType) :=
  inferInstanceAs (Decidable (_ ∨ _))

/-- One of the numbers that stand for a role. -/
def KnownRole (roleId : Int) : Prop := 1 ≤ roleId ∧ roleId ≤ 6

instance (roleId : Int) : Decidable (KnownRole roleId) :=
  inferInstanceAs (Decidable (_ ∧ _))

section Give

variable (env : Env) (peer : Nat) (now : Int) (code : RedeemCode)

def giveGrowPass (g : Grant) : Grant :=
  if code.growPass = true then
    g.credit .growPass (mapAccount peer fun account => { account with gp := 1 })
  else g

def giveRoadToGlory (g : Grant) : Grant :=
  if code.roadToGlory = true then
    g.credit .roadToGlory
      (mapAccount peer fun account => { account with glo := 1 })
  else g

def giveGems (g : Grant) : Grant :=
  if code.gemss ≠ 0 then
    g.credit (.gems code.gemss) (onBuxGems env peer now code.gemss)
  else g

def giveLevel (g : Grant) : Grant :=
  if code.levell ≠ 0 then
    g.credit (.level code.levell) (mapAccount peer fun account =>
      { account with level := account.level + code.levell })
  else g

def giveCoin (g : Grant) : Grant :=
  if code.coin ≠ 0 then
    g.credit (.coin code.coin) (mapAccount peer fun account =>
      { account with gtwl := account.gtwl + code.coin })
  else g

-- Outside the three events the tokens are announced and counted nowhere.
def giveTokens (guildEventType : String) (g : Grant) : Grant :=
  if code.seasonalsToken ≠ 0 ∧ HasTokens guildEventType then
    g.credit (.seasonalsToken code.seasonalsToken)
      (mapAccount peer (addTokens guildEventType code.seasonalsToken))
  else g

def giveRole (g : Grant) : Grant :=
  if code.playerRole ≠ 0 then
    let g :=
      if KnownRole code.playerRole then
        g.credit (.role code.playerRole) (mapAccount peer fun account =>
          { account with role := setRole code.playerRole account.role })
      else g
    { g with server := g.server.mapPlayer peer fun pl =>
        { pl with nameColor := rolePrefix pl } }
  else g

/-- The rewards that are not items, in the order of the source. -/
def giveScalars (guildEventType : String) (g : Grant) : Grant :=
  let g := giveGrowPass peer code g
  let g := giveRoadToGlory peer code g
  let g := giveGems env peer now code g
  let g := giveLevel peer code g
  let g := giveCoin peer code g
  let g := giveTokens peer code guildEventType g
  giveRole peer code g

/-- `Modify` for a connected player. -/
def modifyItem (item : Int × Int) (server : Server) : Int × Server :=
  ((server.players[peer]?.map fun pl =>
      (modify env (server.session pl now) item.1 item.2 false).ret).getD (-1),
    server.serve peer now fun s => (modify env s item.1 item.2 false).session)

def giveItem (g : Grant) (item : Int × Int) : Grant :=
  let given := modifyItem env peer now item g.server
  if given.1 = 0 then ⟨given.2, g.granted ++ [itemReward item], true⟩
  else { g with server := given.2 }

end Give

/-- A `redeem_code` message at a time; the clock of the cooldown counts
milliseconds. -/
structure Request where
  peer : Nat
  now : Int
  nowMs : Int
  guildEventType : String
  cch : String

/-- The code a message asks for. -/
def codeText (cch : String) : Option String :=
  if TextScanner.tryGet cch "buttonClicked" = some "redeem_code_button" then
    let rCode := TextScanner.get cch "redeemcode"
    if rCode.length = 10 ∧ rCode.toList.all Char.isAlphanum = true then
      some (String.ofList (rCode.toList.map toUpperChar))
    else none
  else none

/-- The tests behind the cooldown. -/
def MayClaim (pl : Player) (now : Int) (code : RedeemCode) : Prop :=
  1 ≤ code.time - now ∧ pl.tankIDName ∉ code.userHasClaim ∧
    code.poepleEnter < code.maximumEnter ∧
    code.requiringLvl ≤ pl.account.level

instance (pl : Player) (now : Int) (code : RedeemCode) :
    Decidable (MayClaim pl now code) :=
  inferInstanceAs (Decidable (_ ∧ _))

/-- A claim is recorded. -/
def record (name : String) (code : RedeemCode) : RedeemCode :=
  { code with
    poepleEnter := code.poepleEnter + 1
    userHasClaim := code.userHasClaim ++ [name] }

structure Outcome where
  server : Server
  codes : List RedeemCode
  granted : List Reward := []

/-- The rewards of the code at `p` are credited and the claim is recorded. -/
def claim (env : Env) (req : Request) (server : Server)
    (codes : List RedeemCode) (p : Nat) (code : RedeemCode) : Outcome :=
  let g := giveScalars env req.peer req.now code req.guildEventType
    { server := server }
  let g := code.items.foldl (giveItem env req.peer req.now) g
  match g.success, g.server.players[req.peer]? with
  | true, some pl =>
      ⟨g.server, codes.modify p (record pl.tankIDName), g.granted⟩
  | _, _ => ⟨g.server, codes, g.granted⟩

/-- The cooldown starts again. -/
def startCooldown (req : Request) : Server → Server :=
  Server.mapPlayer req.peer fun pl => { pl with lastRedeem := req.nowMs }

def findCode (codes : List RedeemCode) (text : String) : Option Nat :=
  codes.findIdx? fun code => code.code == text

/-- `redeem_code`. -/
def redeemCode (env : Env) (req : Request) (server : Server)
    (codes : List RedeemCode) : Outcome :=
  match server.players[req.peer]?, (codeText req.cch).bind (findCode codes) with
  | some pl, some p =>
      if pl.lastRedeem + 3000 < req.nowMs then
        let server := startCooldown req server
        match codes[p]? with
        | some code =>
            if MayClaim pl req.now code then claim env req server codes p code
            else { server := server, codes := codes }
        | none => { server := server, codes := codes }
      else { server := server, codes := codes }
  | _, _ => { server := server, codes := codes }

end RedeemCode

end NopyServer
