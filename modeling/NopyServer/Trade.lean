/-
Trades between two players: `trade_started`, `Mod_Trade`, `Rem_Trade`, the
dialog `trade_item`, `mod_trade`, `trade_accept` and `cancel_trade`.  A trade is
no object of its own: two players trade when each has the other's `netID` in
`trading_with`, and every function looks the partner up among the connected
players.
-/
import NopyServer.Server

namespace NopyServer

open Inventory

namespace Trade

/-- A change of what a player trades. -/
def mapTrading (p : Nat) (f : Trading → Trading) : Server → Server :=
  Server.mapPlayer p fun pl => { pl with trading := f pl.trading }

/-- `find_if` over the loaded worlds by name. -/
def findWorld (server : Server) (name : String) : Option Nat :=
  server.worlds.findIdx? fun world => world.name == name

def loadedWorld (server : Server) (name : String) : Option World :=
  server.worlds.find? fun world => world.name == name

/-- The test of a partner in the same world. -/
def isPartner (pl cp : Player) : Bool :=
  cp.world == pl.world && cp.netID == pl.trading.tradingWith &&
    pl.netID == cp.trading.tradingWith

/-- The first partner among the connected players. -/
def partner (server : Server) (pl : Player) : Option Nat :=
  server.players.findIdx? (isPartner pl)

/-- What `cancel_trade` leaves to the partner: the acceptance stays. -/
def Trading.left (trading : Trading) : Trading :=
  { trading with
    blockTrade := false, acceptTheOffer := false, tradingWith := -1
    tradeItems := [] }

/-- `cancel_trade`. -/
def cancelTrade (p : Nat) (server : Server) : Server :=
  let server :=
    match server.players[p]?.bind (partner server) with
    | some q => mapTrading q Trading.left server
    | none => server
  mapTrading p (fun _ => {}) server

/-- One iteration of the loop of `mod_trade` over `trade_items`: an entry of the
item moves to the end with the new count. -/
def changeEntry (itemId count : Int) (state : List (Int × Int) × Bool)
    (i : Nat) : List (Int × Int) × Bool :=
  match state.1[i]?, state.1.getLast? with
  | some entry, some last =>
      if entry.1 = itemId then
        ((state.1.set i last).set (state.1.length - 1) (itemId, count), true)
      else state
  | _, _ => state

/-- The loop, with `f_`. -/
def changeOffer (itemId count : Int) (tradeItems : List (Int × Int)) :
    List (Int × Int) × Bool :=
  (List.range tradeItems.length).foldl (changeEntry itemId count)
    (tradeItems, false)

/-- The new offer; `none` where `mod_trade` returns because four items are
offered already. -/
def addOffer (itemId count : Int) (tradeItems : List (Int × Int)) :
    Option (List (Int × Int)) :=
  let changed := changeOffer itemId count tradeItems
  if changed.2 then some changed.1
  else if 3 < changed.1.length then none
  else some (changed.1 ++ [(itemId, count)])

/-- The offer without the first entry of an item. -/
def removeOffer (itemId : Int) (tradeItems : List (Int × Int)) :
    List (Int × Int) :=
  tradeItems.eraseP fun entry => entry.1 == itemId

/-- The count of the first entry of an item. -/
def offered (itemId : Int) (tradeItems : List (Int × Int)) : Int :=
  match tradeItems.find? fun entry => entry.1 == itemId with
  | some entry => entry.2
  | none => 0

def setOffer (p : Nat) (tradeItems : List (Int × Int)) : Server → Server :=
  mapTrading p fun trading => { trading with tradeItems := tradeItems }

def setAccept (p : Nat) (accept : Bool) : Server → Server :=
  mapTrading p fun trading => { trading with tradeAccept := accept }

/-- The second copy of `mod_trade`, behind the search of the partner. -/
def modAlone (p : Nat) (pl : Player) (itemId count : Int) (remove : Bool)
    (server : Server) : Server :=
  let offer :=
    if remove then some (removeOffer itemId pl.trading.tradeItems)
    else if count = 0 then none
    else addOffer itemId count pl.trading.tradeItems
  match offer with
  | none => server
  | some tradeItems =>
      let server := setOffer p tradeItems server
      if (loadedWorld server pl.world).isSome then setAccept p false server
      else server

/-- The first copy of `mod_trade`, with a partner. -/
def modWith (p q : Nat) (pl : Player) (itemId count : Int) (remove : Bool)
    (server : Server) : Server :=
  if remove then
    let server' := setOffer p (removeOffer itemId pl.trading.tradeItems) server
    let server' :=
      if offered itemId pl.trading.tradeItems = 0 then cancelTrade p server'
      else server'
    setAccept q false (setAccept p false server')
  else
    match addOffer itemId count pl.trading.tradeItems with
    | none => server
    | some tradeItems =>
        setAccept q false (setAccept p false (setOffer p tradeItems server))

/-- `mod_trade` leaves the search by `break` when the item is a key of somebody
else's world, a guild key for somebody outside the guild, or nothing. -/
def leavesSearch (pl cp : Player) (world : World) (itemId count : Int)
    (remove : Bool) : Bool :=
  ((itemId == 5816 || itemId == 1424) &&
      !iequals pl.tankIDName world.ownerName &&
      !pl.account.role.administrator) ||
    (itemId == 5816 && (pl.guildId == 0 || pl.guildId != cp.guildId)) ||
    (!remove && count == 0)

/-- `mod_trade`. -/
def modTrade (p : Nat) (itemId count : Int) (remove : Bool)
    (server : Server) : Server :=
  match server.players[p]? with
  | none => server
  | some pl =>
      if pl.trading.tradingWith = -1 then server
      else
        match partner server pl with
        | none => modAlone p pl itemId count remove server
        | some q =>
            match server.players[q]?, loadedWorld server pl.world with
            | some cp, some world =>
                if pl.trading.blockTrade = true ∨ cp.trading.blockTrade = true then
                  cancelTrade (if pl.trading.blockTrade then p else q) server
                else if leavesSearch pl cp world itemId count remove then
                  modAlone p pl itemId count remove server
                else modWith p q pl itemId count remove server
            | _, _ => server

section Messages

variable (env : Env) (now : Int)

/-- The item a message of `Mod_Trade` or `Rem_Trade` names. -/
def messageItem (cch : String) : Option Int :=
  if (explode "|" cch).length < 3 then none
  else some (atoi ((explode "\n" ((explode "|" cch).getD 2 "")).getD 0 ""))

/-- What `Mod_Trade` and `Rem_Trade` share: the item must be there and be
tradeable, a guild key must not go to a member of a guild, and a key of
somebody else's world ends the trade.  What follows then gets the item and its
count. -/
def offerMessage (cch : String) (p : Nat)
    (next : Int → Int → Server → Server) (server : Server) : Server :=
  match server.players[p]?, messageItem cch with
  | some pl, some itemId =>
      let c := contains pl.inv itemId
      let guildss := server.players.any fun cp =>
        isPartner pl cp && itemId == 5816 && cp.guildId != 0
      let cancel := (itemId == 1424 || itemId == 5816) &&
        (loadedWorld server pl.world).any fun world =>
          !iequals world.ownerName pl.tankIDName
      if c = 0 then server
      else if (env.items.item itemId).untradeable = true ∨
          env.items.isFish itemId = true then server
      else
        let server :=
          if cancel = true ∧ pl.trading.tradingWith ≠ -1 then
            cancelTrade p server
          else server
        if guildss then server else next itemId c server
  | _, _ => server

/-- `Rem_Trade`. -/
def remTradeMessage (cch : String) (p : Nat) : Server → Server :=
  offerMessage env cch p fun itemId c => modTrade p itemId c true

/-- `Mod_Trade`: for more than one item a dialog asks for the count. -/
def modTradeMessage (cch : String) (p : Nat) : Server → Server :=
  offerMessage env cch p fun itemId c server =>
    if c = 1 then modTrade p itemId c false server else server

/-- A call of `Modify` with amount zero for a connected player, with the
answer. -/
def askAt (p : Nat) (itemId : Int) (server : Server) : Int × Server :=
  match server.players[p]? with
  | none => (0, server)
  | some pl =>
      let asked := modify env (server.session pl now) itemId 0 false
      (asked.c_, ⟨server.players.set p asked.session.pl, asked.session.worlds,
        asked.session.rands⟩)

/-- The dialog `trade_item`. -/
def tradeItem (cch : String) (p : Nat) (server : Server) : Server :=
  let count := TextScanner.get cch "count"
  let itemId := getEmbed cch "itemID"
  if env.isNumber itemId = false ∨ env.isNumber count = false then server
  else
    let asked := askAt env now p (atoi itemId) server
    if asked.1 < atoi count ∨ asked.1 = 0 then asked.2
    else modTrade p (atoi itemId) (atoi count) false asked.2

/-- The loop of `trade_space_check`, with `slots_needed`; `none` where a stack
would grow beyond two hundred. -/
def spaceLoop (p : Nat) : List (Int × Int) → Int → Server →
    Option Int × Server
  | [], slotsNeeded, server => (some slotsNeeded, server)
  | entry :: rest, slotsNeeded, server =>
      let asked := askAt env now p entry.1 server
      if asked.1 ≠ 0 then
        if 200 < asked.1 + entry.2 then (none, asked.2)
        else spaceLoop p rest (slotsNeeded - 1) asked.2
      else spaceLoop p rest slotsNeeded asked.2

/-- `trade_space_check`: room in the backpack of one player for the offer of
another. -/
def tradeSpaceCheck (p q : Nat) (server : Server) : Bool × Server :=
  match server.players[q]? with
  | none => (true, server)
  | some cp =>
      let checked := spaceLoop env now p cp.trading.tradeItems
        cp.trading.tradeItems.length server
      match checked.1, checked.2.players[p]? with
      | some slotsNeeded, some pl =>
          (slotsNeeded ≤ getSlots pl.inv, checked.2)
      | _, _ => (false, checked.2)

/-- A player who does not have an offered item any more ends the trade. -/
def checkOffer (q : Nat) (server : Server) : Bool × Server :=
  match server.players[q]? with
  | none => (false, server)
  | some cp =>
      if cp.trading.tradingWith ≠ -1 ∧ cp.trading.tradeItems.any (fun entry =>
          contains cp.inv entry.1 = 0) = true then
        (true, cancelTrade q server)
      else (false, server)

/-- `send_trade_confirm_dialog`. -/
def sendTradeConfirmDialog (p q : Nat) (server : Server) : Server :=
  mapTrading q (fun trading => { trading with blockTrade := true })
    (mapTrading p (fun trading => { trading with blockTrade := true }) server)

/-- `trade_accept` once both players have accepted.  The result says whether
the flag `f_` is set. -/
def bothAccepted (p q : Nat) (server : Server) : Bool × Server :=
  let mine := tradeSpaceCheck env now p q server
  if mine.1 = false then
    (true, setAccept q false (setAccept p false mine.2))
  else
    let theirs := tradeSpaceCheck env now q p mine.2
    if theirs.1 = false then
      (true, setAccept q false (setAccept p false theirs.2))
    else
      let first := checkOffer q theirs.2
      let second := checkOffer p first.2
      (false,
        if first.1 = false ∧ second.1 = false then
          sendTradeConfirmDialog p q second.2
        else second.2)

/-- One iteration of the loop of `trade_accept` over the connected players,
with `f_`. -/
def acceptBody (p : Nat) (status : Bool) (state : Bool × Server) (q : Nat) :
    Bool × Server :=
  match state.2.players[p]?, state.2.players[q]? with
  | some pl, some cp =>
      if isPartner pl cp then
        match findWorld state.2 pl.world with
        | none => (true, state.2)
        | some w =>
            let server := setAccept p status
              { state.2 with
                worlds := state.2.worlds.modify w fun world =>
                  { world with freshWorld := true } }
            let accepted := fun i => server.players[i]?.any
              fun pl => pl.trading.tradeAccept
            if accepted p = true ∧ accepted q = true then
              let both := bothAccepted env now p q server
              (state.1 || both.1, both.2)
            else (true, server)
      else state
  | _, _ => state

/-- `trade_accept`. -/
def tradeAccept (cch : String) (p : Nat) (server : Server) : Server :=
  match server.players[p]? with
  | none => server
  | some pl =>
      let words := explode "|" cch
      let status := (explode "\n" (words.getD 2 "")).getD 0 ""
      if pl.trading.tradingWith = -1 then server
      else if words.length < 3 then server
      else if status ≠ "1" ∧ status ≠ "0" then server
      else
        let last := (List.range server.players.length).foldl
          (acceptBody env now p (status == "1")) (false, server)
        if last.1 then last.2 else setAccept p (status == "1") last.2

/-- The player with a name or display name that `last_wrenched` is part of. -/
def namedBy (wrenched name : String) : Bool :=
  (textFind (toLower name) (toLower wrenched) && 3 ≤ wrenched.length &&
      wrenched.length != name.length) || iequals name wrenched

def isWrenched (pl cp : Player) : Bool :=
  cp.world == pl.world && cp.tankIDName != pl.tankIDName &&
    (namedBy pl.lastWrenched cp.tankIDName ||
      (cp.dName != "" && textFind (toLower cp.dName) (toLower pl.lastWrenched) &&
        3 ≤ pl.lastWrenched.length &&
        pl.lastWrenched.length != cp.dName.length) ||
      iequals cp.dName pl.lastWrenched)

/-- The player a message of `trade_started` is about. -/
def startTarget (cch : String) (pl : Player) (server : Server) : Option Nat :=
  let words := explode "|" cch
  if words.length < 4 then none
  else if atoi ((explode "\n" (words.getD 3 "")).getD 0 "") = -1 then none
  else server.players.findIdx? (isWrenched pl)

/-- `trade_started`. -/
def tradeStarted (cch : String) (p : Nat) (server : Server) : Server :=
  match server.players[p]? with
  | none => server
  | some pl =>
      match startTarget cch pl server with
      | none => server
      | some q =>
          match server.players[q]? with
          | none => server
          | some cp =>
              if cp.friends.any (fun friend =>
                  iequals friend.name pl.tankIDName && friend.blockTrade) then
                server
              else if iequals cp.tankIDName pl.tankIDName then server
              else if cp.trading.tradingWith ≠ -1 ∧
                  cp.trading.tradingWith ≠ pl.netID then
                mapTrading p (fun trading =>
                  { trading with blockTrade := false, tradingWith := -1 }) server
              else
                setAccept q false (mapTrading p (fun trading =>
                  { trading with
                    tradingWith := cp.netID, tradeAccept := false }) server)

/-- The messages of a trade. -/
inductive Message where
  | started (cch : String)
  | mod (cch : String)
  | rem (cch : String)
  | item (cch : String)
  | accept (cch : String)
  | cancel

/-- What the server does with a message of a player. -/
def handle : Message → Nat → Server → Server
  | .started cch => tradeStarted cch
  | .mod cch => modTradeMessage env cch
  | .rem cch => remTradeMessage env cch
  | .item cch => tradeItem env now cch
  | .accept cch => tradeAccept env now cch
  | .cancel => cancelTrade

end Messages

end Trade

end NopyServer
