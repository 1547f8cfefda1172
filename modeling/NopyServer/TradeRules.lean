/-
What `cancel_trade` leaves of a trade, and which keys get into an offer.
`cancel_trade` has a list of resets for each of the two players, and the list
for the partner forgets `trade_accept`.  `mod_trade` refuses a key by leaving
its search with `break`, behind which the second copy of its code puts the key
into the offer.
-/
import NopyServer.TradeRuns

namespace NopyServer

open Inventory

namespace Trade

section Cancel

variable {server : Server} {p q : Nat} {pl cp : Player}

/-- Neither of two players trades any more, and nobody else has changed. -/
structure Cancelled (server next : Server) (p q : Nat) : Prop where
  first : ∀ pl, next.players[p]? = some pl → pl.trading = {}
  second : ∀ cp, next.players[q]? = some cp → cp.trading = {}
  others : ∀ k, k ≠ p → k ≠ q → next.players[k]? = server.players[k]?

theorem mapTrading_at (p k : Nat) (f : Trading → Trading) (server : Server) :
    (mapTrading p f server).players[k]? =
      if p = k then server.players[k]?.map fun pl =>
        { pl with trading := f pl.trading }
      else server.players[k]? := by
  simp only [mapTrading, Server.mapPlayer, List.getElem?_modify]
  split_ifs
  · rfl
  · exact Option.map_id'

/-- What the partner keeps is its acceptance. -/
theorem left_eq_iff (trading : Trading) :
    Trading.left trading = {} ↔ trading.tradeAccept = false := by
  constructor
  · intro hleft
    exact congrArg Trading.tradeAccept hleft
  · intro haccept
    simp only [Trading.left, haccept]

/-- `cancel_trade` looks for the partner in front of everybody. -/
theorem cancelTrade_with {k : Nat} (hpl : server.players[p]? = some pl)
    (hfound : partner server pl = some k) :
    cancelTrade p server =
      mapTrading p (fun _ => {}) (mapTrading k Trading.left server) := by
  unfold cancelTrade
  rw [hpl, Option.bind_some, hfound]

theorem cancelTrade_alone (hpl : server.players[p]? = some pl)
    (hfound : partner server pl = none) :
    cancelTrade p server = mapTrading p (fun _ => {}) server := by
  unfold cancelTrade
  rw [hpl, Option.bind_some, hfound]

/-- A player whom the search passes over trades on. -/
theorem cancelTrade_misses (hpl : server.players[p]? = some pl)
    (hcp : server.players[q]? = some cp) (hapart : p ≠ q)
    (hfound : partner server pl ≠ some q) :
    (cancelTrade p server).players[q]? = some cp := by
  cases hother : partner server pl with
  | none =>
      rw [cancelTrade_alone hpl hother, mapTrading_at, if_neg hapart]
      exact hcp
  | some k =>
      have hk : k ≠ q := fun heq => hfound (heq ▸ hother)
      rw [cancelTrade_with hpl hother, mapTrading_at, if_neg hapart,
        mapTrading_at, if_neg hk]
      exact hcp

/-- Two players trade with each other, at whatever stage.  When
one of them cancels, both are without a trade and nobody else has changed
exactly when the search finds the other, whose acceptance is not set. -/
theorem cancelTrade_clears_iff (hpl : server.players[p]? = some pl)
    (hcp : server.players[q]? = some cp) (hapart : p ≠ q)
    (hmutual : Mutual pl cp) (hreal : pl.netID ≠ -1) :
    Cancelled server (cancelTrade p server) p q ↔
      partner server pl = some q ∧ cp.trading.tradeAccept = false := by
  constructor
  · intro hcancelled
    have hfound : partner server pl = some q := by
      by_contra hmissed
      have hkept := cancelTrade_misses hpl hcp hapart hmissed
      have hnobody := congrArg Trading.tradingWith
        (hcancelled.second cp hkept)
      exact hreal (hmutual.2.symm.trans hnobody)
    refine ⟨hfound, (left_eq_iff cp.trading).mp ?_⟩
    refine hcancelled.second { cp with trading := Trading.left cp.trading } ?_
    rw [cancelTrade_with hpl hfound, mapTrading_at, if_neg hapart, mapTrading_at,
      if_pos rfl, hcp, Option.map_some]
  · rintro ⟨hfound, haccept⟩
    rw [cancelTrade_with hpl hfound]
    constructor
    · intro pl' hpl'
      rw [mapTrading_at, if_pos rfl, mapTrading_at, if_neg hapart.symm, hpl] at hpl'
      rw [← Option.some.inj hpl']
    · intro cp' hcp'
      rw [mapTrading_at, if_neg hapart, mapTrading_at, if_pos rfl, hcp] at hcp'
      rw [← Option.some.inj hcp']
      exact (left_eq_iff cp.trading).mpr haccept
    · intro k hp hq
      rw [mapTrading_at, if_neg hp.symm, mapTrading_at, if_neg hq.symm]

/-- The accepter cancels while nothing is accepted by the other one. -/
theorem cancelTrade_by_accepter :
    Cancelled (traders [(2, 1)]) (cancelTrade 1 (traders [(2, 1)])) 1 0 :=
  (@cancelTrade_clears_iff (traders [(2, 1)]) 1 0 accepter (offerer [(2, 1)]) rfl
    rfl (by decide) ⟨rfl, rfl⟩ (by decide)).mpr ⟨by decide, rfl⟩

/-- The offerer cancels, and the other one has still accepted. -/
theorem cancelTrade_leaves_acceptance :
    ¬ ∀ (server : Server) (p q : Nat) (pl cp : Player),
      Pair server p q pl cp → Mutual pl cp →
        Cancelled server (cancelTrade p server) p q := by
  intro hall
  have hcancelled := hall _ 0 1 _ _ (traders_pair [(2, 1)]) ⟨rfl, rfl⟩
  have hcleared := hcancelled.second
    { accepter with trading := Trading.left accepter.trading } rfl
  exact absurd (congrArg Trading.tradeAccept hcleared) (by decide)

end Cancel

section Keys

variable {env : Env} {server : Server} {p k : Nat} {pl : Player}
  {itemId count : Int} {remove : Bool} {offer next : List (Int × Int)}

/-- The World Key and the Guild Key. -/
def Key (itemId : Int) : Prop :=
  itemId = 1424 ∨ itemId = 5816

def Keyless (offer : List (Int × Int)) : Prop :=
  ∀ entry ∈ offer, ¬ Key entry.1

/-- Neither an administrator nor the owner of the world. -/
def Foreign (server : Server) (pl : Player) : Prop :=
  pl.account.role.administrator = false ∧
    ∀ world, loadedWorld server pl.world = some world →
      iequals pl.tankIDName world.ownerName = false

/-- The errors that `Mod_Trade` and `mod_trade` show on the screen. -/
inductive Refusal where
  | untradeable
  | inGuild
  | foreignKey
  | otherGuild
deriving DecidableEq

/-- The text of an error, with the name of the partner. -/
def Refusal.text (nick : String) : Refusal → String
  | untradeable => "You'd be sorry if you lost that!"
  | inGuild => "`4Oops - " ++ nick ++ " is already in guild."
  | foreignKey => "You can only trade World Keys in a world you own!"
  | otherGuild => "The person must join your guild first!"

/-- The error of a call of `mod_trade`. -/
def modRefusal (p : Nat) (itemId : Int) (server : Server) : Option Refusal :=
  match server.players[p]? with
  | none => none
  | some pl =>
      if pl.trading.tradingWith = -1 then none
      else
        match (partner server pl).bind (server.players[·]?),
            loadedWorld server pl.world with
        | some cp, some world =>
            if pl.trading.blockTrade = true ∨ cp.trading.blockTrade = true then none
            else if (itemId = 5816 ∨ itemId = 1424) ∧
                iequals pl.tankIDName world.ownerName = false ∧
                pl.account.role.administrator = false then
              some .foreignKey
            else if itemId = 5816 ∧
                (pl.guildId = 0 ∨ pl.guildId ≠ cp.guildId) then
              some .otherGuild
            else none
        | _, _ => none

/-- `guildss`: the partner is in a guild already. -/
def guildTaken (server : Server) (pl : Player) (itemId : Int) : Bool :=
  server.players.any fun cp =>
    isPartner pl cp && itemId == 5816 && cp.guildId != 0

/-- The trade as `Mod_Trade` goes on with it. -/
def withoutForeignKey (p : Nat) (pl : Player) (itemId : Int) (server : Server) :
    Server :=
  if foreignKey server pl itemId = true ∧ pl.trading.tradingWith ≠ -1 then
    cancelTrade p server
  else server

/-- The error of a message of `Mod_Trade`. -/
def messageRefusal (env : Env) (cch : String) (p : Nat) (server : Server) :
    Option Refusal :=
  match server.players[p]?, messageItem cch with
  | some pl, some itemId =>
      if contains pl.inv itemId = 0 then none
      else if (env.items.item itemId).untradeable = true ∨
          env.items.isFish itemId = true then some .untradeable
      else if guildTaken server pl itemId then some .inGuild
      else if contains pl.inv itemId = 1 then
        modRefusal p itemId (withoutForeignKey p pl itemId server)
      else none
  | _, _ => none

/-- What changes an offer: a message of `Mod_Trade` or a call of `mod_trade`. -/
inductive Call where
  | message (cch : String)
  | mod (itemId count : Int) (remove : Bool)

def perform (env : Env) : Call → Nat → Server → Server
  | .message cch => modTradeMessage env cch
  | .mod itemId count remove => fun p => modTrade p itemId count remove

def refusal (env : Env) : Call → Nat → Server → Option Refusal
  | .message cch => messageRefusal env cch
  | .mod itemId _ _ => fun p => modRefusal p itemId

/-- All offers. -/
def offers (server : Server) : List (List (Int × Int)) :=
  server.players.map fun pl => pl.trading.tradeItems

/-- `mod_trade` returns before the second copy of its code. -/
def Returns (server : Server) (pl : Player) : Prop :=
  pl.trading.tradingWith = -1 ∨
    ∃ cp, (partner server pl).bind (server.players[·]?) = some cp ∧
      (loadedWorld server pl.world = none ∨ pl.trading.blockTrade = true ∨
        cp.trading.blockTrade = true)

/-- A call of `mod_trade` that puts no key into the offer. -/
def ModCareful (server : Server) (pl : Player) (itemId count : Int)
    (remove : Bool) : Prop :=
  Key itemId → Returns server pl ∨ remove = true ∨ count = 0 ∨
    4 ≤ pl.trading.tradeItems.length

/-- A call that puts no key into the offer and ends no trade with an error. -/
def Careful (env : Env) (server : Server) (pl : Player) : Call → Prop
  | .mod itemId count remove => ModCareful server pl itemId count remove
  | .message cch => ∀ itemId, messageItem cch = some itemId →
      contains pl.inv itemId ≠ 0 → (env.items.item itemId).untradeable = false →
      env.items.isFish itemId = false →
      if foreignKey server pl itemId = true ∧ pl.trading.tradingWith ≠ -1 then
        guildTaken server pl itemId = true → ∀ cp, (cp = pl ∨
          (partner server pl).bind (server.players[·]?) = some cp) →
          cp.trading.tradeItems = []
      else guildTaken server pl itemId = false → contains pl.inv itemId = 1 →
        ModCareful server pl itemId 1 false

theorem changeOffer_mem {entry : Int × Int}
    (hentry : entry ∈ (changeOffer itemId count offer).1) :
    entry ∈ offer ∨ entry = (itemId, count) := by
  revert entry
  refine List.foldlRecOn (List.range offer.length) (changeEntry itemId count)
    (motive := fun state => ∀ {entry}, entry ∈ state.1 →
      entry ∈ offer ∨ entry = (itemId, count)) Or.inl ?_
  intro state hstate i _ entry hentry
  rcases changeEntry_cases itemId count state i with
    ⟨hsame, -⟩ | ⟨moved, last, -, hlast, -, hmoved⟩
  · rw [hsame] at hentry
    exact hstate hentry
  · rw [hmoved] at hentry
    rcases List.mem_or_eq_of_mem_set hentry with hset | rfl
    · rcases List.mem_or_eq_of_mem_set hset with hold | rfl
      · exact hstate hold
      · exact hstate (List.mem_of_getElem? hlast)
    · exact Or.inr rfl

theorem Keyless.add (hoffer : Keyless offer) (hitem : ¬ Key itemId)
    (hadd : addOffer itemId count offer = some next) : Keyless next := by
  have hchanged : Keyless (changeOffer itemId count offer).1 := by
    intro entry hentry
    rcases changeOffer_mem hentry with hold | rfl
    · exact hoffer entry hold
    · exact hitem
  unfold addOffer at hadd
  dsimp only at hadd
  split_ifs at hadd
  · rw [← Option.some.inj hadd]
    exact hchanged
  · rw [← Option.some.inj hadd]
    intro entry hentry
    rcases List.mem_append.mp hentry with hold | hnew
    · exact hchanged entry hold
    · rw [List.mem_singleton.mp hnew]
      exact hitem

theorem Keyless.without (hoffer : Keyless offer) (itemId : Int) :
    Keyless (removeOffer itemId offer) :=
  fun entry hentry => hoffer entry (List.eraseP_sublist.subset hentry)

/-- A key that is not offered does not get offered carefully. -/
theorem Keyless.idle (hoffer : Keyless offer) (hitem : Key itemId)
    (hcareful : remove = true ∨ count = 0 ∨ 4 ≤ offer.length) :
    aloneOffer itemId count remove offer = none ∨
      aloneOffer itemId count remove offer = some offer := by
  have habsent : ∀ entry ∈ offer, entry.1 ≠ itemId :=
    fun entry hentry heq => hoffer entry hentry (heq ▸ hitem)
  unfold aloneOffer
  by_cases hremove : remove = true
  · right
    rw [if_pos hremove, removeOffer, List.eraseP_of_forall_not]
    intro entry hentry
    simpa using habsent entry hentry
  · left
    rw [if_neg hremove]
    by_cases hzero : count = 0
    · exact if_pos hzero
    · rw [if_neg hzero, addOffer, changeOffer_of_absent habsent]
      dsimp only
      have hfull := (hcareful.resolve_left hremove).resolve_left hzero
      rw [if_neg Bool.false_ne_true, if_pos (Nat.lt_of_succ_le hfull)]

/-- A player who may not offer a key and offers none. -/
def Barred (server : Server) (p : Nat) : Prop :=
  ∃ pl, server.players[p]? = some pl ∧ Foreign server pl ∧
    Keyless pl.trading.tradeItems

theorem Barred.mapTrading {f : Trading → Trading} (hbarred : Barred server p)
    (hf : k = p → ∀ trading, Keyless trading.tradeItems →
      Keyless (f trading).tradeItems) :
    Barred (Trade.mapTrading k f server) p := by
  obtain ⟨pl, hpl, hforeign, hkeyless⟩ := hbarred
  by_cases hk : k = p
  · refine ⟨{ pl with trading := f pl.trading }, ?_, hforeign, hf hk _ hkeyless⟩
    rw [mapTrading_at, if_pos hk, hpl, Option.map_some]
  · refine ⟨pl, ?_, hforeign, hkeyless⟩
    rw [mapTrading_at, if_neg hk]
    exact hpl

theorem Barred.setAccept (hbarred : Barred server p) (k : Nat) (accept : Bool) :
    Barred (Trade.setAccept k accept server) p :=
  hbarred.mapTrading fun _ _ hkeyless => hkeyless

theorem Barred.setOffer (hbarred : Barred server p)
    (hnext : k = p → Keyless next) : Barred (Trade.setOffer k next server) p :=
  hbarred.mapTrading fun hk _ _ => hnext hk

theorem Barred.cancelTrade (hbarred : Barred server p) (k : Nat) :
    Barred (Trade.cancelTrade k server) p := by
  have hnone : Keyless [] := fun entry hentry => absurd hentry List.not_mem_nil
  unfold Trade.cancelTrade
  refine Barred.mapTrading ?_ fun _ _ _ => hnone
  split
  · exact hbarred.mapTrading fun _ _ _ => hnone
  · exact hbarred

theorem modAlone_barred (hbarred : Barred server p)
    (hoffer : k = p → ∀ next,
      aloneOffer itemId count remove pl.trading.tradeItems = some next →
        Keyless next) :
    Barred (modAlone k pl itemId count remove server) p := by
  unfold aloneOffer at hoffer
  unfold modAlone
  dsimp only
  split
  · exact hbarred
  next tradeItems hnext =>
    have hset := hbarred.setOffer fun hk => hoffer hk tradeItems hnext
    split
    · exact hset.setAccept k false
    · exact hset

theorem modWith_barred {q : Nat} (hbarred : Barred server p)
    (hkeyless : k = p → Keyless pl.trading.tradeItems ∧ ¬ Key itemId) :
    Barred (modWith k q pl itemId count remove server) p := by
  unfold modWith
  split
  · have hset := hbarred.setOffer fun hk => (hkeyless hk).1.without itemId
    refine Barred.setAccept (Barred.setAccept ?_ k false) q false
    split
    · exact hset.cancelTrade k
    · exact hset
  · split
    · exact hbarred
    next tradeItems hadd =>
      have hset := hbarred.setOffer fun hk =>
        (hkeyless hk).1.add (hkeyless hk).2 hadd
      exact (hset.setAccept k false).setAccept q false

/-- For somebody who may not offer a key, the search ends with one. -/
theorem leavesSearch_foreign {cp : Player} {world : World}
    (hforeign : Foreign server pl)
    (hworld : loadedWorld server pl.world = some world) (hitem : Key itemId) :
    leavesSearch pl cp world itemId count remove = true := by
  unfold leavesSearch
  rw [hforeign.1, hforeign.2 world hworld]
  rcases hitem with rfl | rfl <;> rfl

theorem aloneOffer_keyless (hoffer : Keyless offer)
    (hcareful : Key itemId → remove = true ∨ count = 0 ∨ 4 ≤ offer.length)
    (halone : aloneOffer itemId count remove offer = some next) :
    Keyless next := by
  by_cases hitem : Key itemId
  · rcases hoffer.idle hitem (hcareful hitem) with hnone | hsame
    · rw [hnone] at halone
      cases halone
    · rw [hsame] at halone
      rwa [← Option.some.inj halone]
  · unfold aloneOffer at halone
    split_ifs at halone
    · rw [← Option.some.inj halone]
      exact hoffer.without itemId
    · exact hoffer.add hitem halone

/-- A call of `mod_trade`, careful where it is the player's own. -/
theorem modTrade_barred (hbarred : Barred server p)
    (hcareful : k = p → ∀ pl, server.players[p]? = some pl →
      ModCareful server pl itemId count remove) :
    Barred (modTrade k itemId count remove server) p := by
  unfold modTrade
  cases hpl : server.players[k]? with
  | none => exact hbarred
  | some pl =>
      have hown : k = p → Foreign server pl ∧ Keyless pl.trading.tradeItems := by
        intro hk
        obtain ⟨own, hown, hforeign, hkeyless⟩ := hbarred
        rw [hk, hown] at hpl
        rw [← Option.some.inj hpl]
        exact ⟨hforeign, hkeyless⟩
      have halone : ¬ Returns server pl → k = p → ∀ next,
          aloneOffer itemId count remove pl.trading.tradeItems = some next →
            Keyless next := by
        intro hstays hk next hnext
        refine aloneOffer_keyless (hown hk).2 (fun hitem => ?_) hnext
        rw [hk] at hpl
        exact (hcareful hk pl hpl hitem).resolve_left hstays
      dsimp only
      by_cases hnobody : pl.trading.tradingWith = -1
      · rw [if_pos hnobody]
        exact hbarred
      · rw [if_neg hnobody]
        split
        next hnone =>
          refine modAlone_barred hbarred (halone ?_)
          rintro (hback | ⟨cp, hcp, -⟩)
          · exact hnobody hback
          · rw [hnone] at hcp
            cases hcp
        next q hq =>
          split
          next cp world hcp hworld =>
            by_cases hblock : pl.trading.blockTrade = true ∨
                cp.trading.blockTrade = true
            · rw [if_pos hblock]
              exact hbarred.cancelTrade _
            rw [if_neg hblock]
            split_ifs with hleaves
            · refine modAlone_barred hbarred (halone ?_)
              rintro (hback | ⟨cp', hcp', hback⟩)
              · exact hnobody hback
              · rw [hq, Option.bind_some, hcp] at hcp'
                rw [← Option.some.inj hcp', hworld] at hback
                exact hblock (hback.resolve_left nofun)
            · refine modWith_barred hbarred fun hk => ⟨(hown hk).2, fun hitem => ?_⟩
              exact hleaves (leavesSearch_foreign (hown hk).1 hworld hitem)
          · exact hbarred

theorem withoutForeignKey_barred (hbarred : Barred server p) (pl : Player) :
    Barred (withoutForeignKey k pl itemId server) p := by
  unfold withoutForeignKey
  split
  · exact hbarred.cancelTrade k
  · exact hbarred

/-- `Mod_Trade` apart from its messages. -/
theorem modTradeMessage_eq {cch : String} (hpl : server.players[p]? = some pl)
    (hitem : messageItem cch = some itemId) :
    modTradeMessage env cch p server =
      if contains pl.inv itemId = 0 then server
      else if (env.items.item itemId).untradeable = true ∨
          env.items.isFish itemId = true then server
      else if guildTaken server pl itemId = true then
        withoutForeignKey p pl itemId server
      else if contains pl.inv itemId = 1 then
        modTrade p itemId 1 false (withoutForeignKey p pl itemId server)
      else withoutForeignKey p pl itemId server := by
  have hplain : modTradeMessage env cch p server =
      if contains pl.inv itemId = 0 then server
      else if (env.items.item itemId).untradeable = true ∨
          env.items.isFish itemId = true then server
      else if guildTaken server pl itemId = true then
        withoutForeignKey p pl itemId server
      else if contains pl.inv itemId = 1 then
        modTrade p itemId (contains pl.inv itemId) false
          (withoutForeignKey p pl itemId server)
      else withoutForeignKey p pl itemId server := by
    unfold modTradeMessage offerMessage
    rw [hpl, hitem]
    rfl
  rw [hplain]
  split_ifs with hnone hbanned hguild hone
  · rfl
  · rfl
  · rfl
  · rw [hone]
  · rfl

/-- The trade is over once a foreign key has been named. -/
theorem withoutForeignKey_ended (hpl : server.players[p]? = some pl)
    (hended : foreignKey server pl itemId = true ∧ pl.trading.tradingWith ≠ -1) :
    (withoutForeignKey p pl itemId server).players[p]? =
      some { pl with trading := {} } := by
  unfold withoutForeignKey
  rw [if_pos hended]
  cases hfound : partner server pl with
  | none =>
      rw [cancelTrade_alone hpl hfound, mapTrading_at, if_pos rfl, hpl,
        Option.map_some]
  | some q =>
      rw [cancelTrade_with hpl hfound, mapTrading_at, if_pos rfl, mapTrading_at,
        hpl]
      split_ifs <;> rfl

theorem withoutForeignKey_same
    (hkept : ¬ (foreignKey server pl itemId = true ∧
      pl.trading.tradingWith ≠ -1)) :
    withoutForeignKey p pl itemId server = server :=
  if_neg hkept

theorem modTradeMessage_barred {cch : String} (hbarred : Barred server p)
    (hcareful : k = p → ∀ pl, server.players[p]? = some pl →
      Careful env server pl (.message cch)) :
    Barred (modTradeMessage env cch k server) p := by
  cases hpl : server.players[k]? with
  | none =>
      unfold modTradeMessage offerMessage
      rw [hpl]
      exact hbarred
  | some pl =>
      cases hitem : messageItem cch with
      | none =>
          unfold modTradeMessage offerMessage
          rw [hpl, hitem]
          exact hbarred
      | some itemId =>
          rw [modTradeMessage_eq hpl hitem]
          have hkept := @withoutForeignKey_barred server p k itemId hbarred pl
          split_ifs with hnone hbanned hguild hone
          · exact hbarred
          · exact hbarred
          · exact hkept
          · by_cases hended : foreignKey server pl itemId = true ∧
                pl.trading.tradingWith ≠ -1
            · rw [modTrade_nobody (withoutForeignKey_ended hpl hended) rfl]
              exact hkept
            · rw [withoutForeignKey_same hended]
              refine modTrade_barred hbarred fun hk own hown => ?_
              rw [hk, hown] at hpl
              rw [Option.some.inj hpl] at hown
              rw [not_or, Bool.not_eq_true, Bool.not_eq_true] at hbanned
              have hcareful := hcareful hk pl hown itemId hitem hnone hbanned.1
                hbanned.2
              rw [if_neg hended] at hcareful
              rw [Option.some.inj hpl]
              exact hcareful (Bool.eq_false_iff.mpr hguild) hone
          · exact hkept

theorem offers_mapTrading {f : Trading → Trading}
    (hf : ∀ pl, server.players[p]? = some pl →
      (f pl.trading).tradeItems = pl.trading.tradeItems) :
    offers (mapTrading p f server) = offers server :=
  Server.mapPlayer_view hf

theorem modAlone_offers (hpl : server.players[p]? = some pl)
    (hidle : aloneOffer itemId count remove pl.trading.tradeItems = none ∨
      aloneOffer itemId count remove pl.trading.tradeItems =
        some pl.trading.tradeItems) :
    offers (modAlone p pl itemId count remove server) = offers server := by
  unfold aloneOffer at hidle
  unfold modAlone
  dsimp only
  rcases hidle with hnone | hsame
  · rw [hnone]
  · rw [hsame]
    dsimp only
    have hset : offers (setOffer p pl.trading.tradeItems server) =
        offers server := by
      refine offers_mapTrading fun own hown => ?_
      rw [hpl] at hown
      rw [← Option.some.inj hown]
    split
    · exact (offers_mapTrading fun _ _ => rfl).trans hset
    · exact hset

/-- A trade without offers ends without a changed offer. -/
theorem cancelTrade_offers (hpl : server.players[p]? = some pl)
    (hempty : ∀ cp, (cp = pl ∨
        (partner server pl).bind (server.players[·]?) = some cp) →
      cp.trading.tradeItems = []) :
    offers (cancelTrade p server) = offers server := by
  have hleft : ∀ k, partner server pl = some k →
      offers (mapTrading k Trading.left server) = offers server := by
    intro k hk
    refine offers_mapTrading fun cp hcp => ?_
    rw [hempty cp (Or.inr (by rw [hk, Option.bind_some]; exact hcp))]
    rfl
  cases hfound : partner server pl with
  | none =>
      rw [cancelTrade_alone hpl hfound]
      refine offers_mapTrading fun own hown => ?_
      rw [hpl] at hown
      rw [← Option.some.inj hown, hempty pl (Or.inl rfl)]
  | some k =>
      rw [cancelTrade_with hpl hfound]
      refine (offers_mapTrading fun own hown => ?_).trans (hleft k hfound)
      rw [mapTrading_at, hpl] at hown
      split_ifs at hown
      · rw [← Option.some.inj hown]
        rfl
      · rw [← Option.some.inj hown, hempty pl (Or.inl rfl)]

/-- An error of `mod_trade` is about a key, and the second copy of its code
follows. -/
theorem modTrade_refused (hpl : server.players[p]? = some pl)
    (hrefused : modRefusal p itemId server ≠ none) :
    Key itemId ∧ ¬ Returns server pl ∧
      modTrade p itemId count remove server =
        modAlone p pl itemId count remove server := by
  unfold modRefusal at hrefused
  rw [hpl] at hrefused
  dsimp only at hrefused
  by_cases hnobody : pl.trading.tradingWith = -1
  · rw [if_pos hnobody] at hrefused
    exact absurd rfl hrefused
  rw [if_neg hnobody] at hrefused
  split at hrefused
  next cp world hcp hworld =>
    by_cases hblock : pl.trading.blockTrade = true ∨ cp.trading.blockTrade = true
    · rw [if_pos hblock] at hrefused
      exact absurd rfl hrefused
    rw [if_neg hblock] at hrefused
    have hleaves : Key itemId ∧
        leavesSearch pl cp world itemId count remove = true := by
      unfold leavesSearch
      split_ifs at hrefused with hforeign hguild
      · rw [hforeign.2.1, hforeign.2.2]
        rcases hforeign.1 with rfl | rfl
        · exact ⟨Or.inr rfl, rfl⟩
        · exact ⟨Or.inl rfl, rfl⟩
      · obtain ⟨rfl, hguild⟩ := hguild
        refine ⟨Or.inr rfl, ?_⟩
        simp only [Bool.or_eq_true, Bool.and_eq_true, beq_iff_eq, bne_iff_ne]
        exact Or.inl (Or.inr ⟨trivial, hguild⟩)
      · exact absurd rfl hrefused
    refine ⟨hleaves.1, ?_, ?_⟩
    · rintro (hback | ⟨cp', hcp', hback⟩)
      · exact hnobody hback
      · rw [hcp] at hcp'
        rw [← Option.some.inj hcp', hworld] at hback
        exact hblock (hback.resolve_left nofun)
    · obtain ⟨q, hq, hcpq⟩ := Option.bind_eq_some_iff.mp hcp
      unfold modTrade
      rw [hpl]
      dsimp only
      rw [if_neg hnobody, hq]
      dsimp only
      rw [hcpq, hworld]
      dsimp only
      rw [if_neg hblock, if_pos hleaves.2]
  · exact absurd rfl hrefused

theorem modTrade_refused_offers (hpl : server.players[p]? = some pl)
    (hkeyless : Keyless pl.trading.tradeItems)
    (hcareful : ModCareful server pl itemId count remove)
    (hrefused : modRefusal p itemId server ≠ none) :
    offers (modTrade p itemId count remove server) = offers server := by
  obtain ⟨hitem, hstays, halone⟩ := @modTrade_refused server p pl itemId count
    remove hpl hrefused
  rw [halone]
  exact modAlone_offers hpl
    (hkeyless.idle hitem ((hcareful hitem).resolve_left hstays))

theorem modTradeMessage_refused_offers {cch : String}
    (hpl : server.players[p]? = some pl)
    (hkeyless : Keyless pl.trading.tradeItems)
    (hcareful : Careful env server pl (.message cch))
    (hrefused : messageRefusal env cch p server ≠ none) :
    offers (modTradeMessage env cch p server) = offers server := by
  unfold messageRefusal at hrefused
  rw [hpl] at hrefused
  cases hitem : messageItem cch with
  | none =>
      rw [hitem] at hrefused
      exact absurd rfl hrefused
  | some itemId =>
      rw [hitem] at hrefused
      dsimp only at hrefused
      rw [modTradeMessage_eq hpl hitem]
      split_ifs at hrefused with hnone hbanned hguild hone
      · exact absurd rfl hrefused
      · rw [if_neg hnone, if_pos hbanned]
      · rw [if_neg hnone, if_neg hbanned, if_pos hguild]
        rw [not_or, Bool.not_eq_true, Bool.not_eq_true] at hbanned
        have hcareful := hcareful itemId hitem hnone hbanned.1 hbanned.2
        unfold withoutForeignKey
        split_ifs at hcareful ⊢
        · exact cancelTrade_offers hpl (hcareful hguild)
        · rfl
      · rw [if_neg hnone, if_neg hbanned, if_neg hguild, if_pos hone]
        rw [not_or, Bool.not_eq_true, Bool.not_eq_true] at hbanned
        have hcareful := hcareful itemId hitem hnone hbanned.1 hbanned.2
        by_cases hended : foreignKey server pl itemId = true ∧
            pl.trading.tradingWith ≠ -1
        · unfold modRefusal at hrefused
          rw [withoutForeignKey_ended hpl hended] at hrefused
          exact absurd rfl hrefused
        · rw [withoutForeignKey_same hended] at hrefused ⊢
          rw [if_neg hended] at hcareful
          exact modTrade_refused_offers hpl hkeyless
            (hcareful (Bool.eq_false_iff.mpr hguild) hone) hrefused
      · exact absurd rfl hrefused

/-- A player calls `Mod_Trade` or `mod_trade`, the barred one carefully. -/
inductive CarefulStep (env : Env) (p : Nat) : Server → Server → Prop where
  | own (server : Server) (pl : Player) (call : Call)
      (hpl : server.players[p]? = some pl)
      (hcareful : Careful env server pl call) :
      CarefulStep env p server (perform env call p server)
  | other (server : Server) (k : Nat) (call : Call) (hother : k ≠ p) :
      CarefulStep env p server (perform env call k server)

theorem carefulStep_barred {server' : Server} (hbarred : Barred server p)
    (hstep : CarefulStep env p server server') : Barred server' p := by
  cases hstep with
  | own pl call hpl hcareful =>
      have hown : ∀ own, server.players[p]? = some own →
          Careful env server own call := by
        intro own hown
        rw [hpl] at hown
        rwa [← Option.some.inj hown]
      cases call with
      | message cch => exact modTradeMessage_barred hbarred fun _ => hown
      | mod itemId count remove => exact modTrade_barred hbarred fun _ => hown
  | other k call hother =>
      cases call with
      | message cch =>
          exact modTradeMessage_barred hbarred fun hk => absurd hk hother
      | mod itemId count remove =>
          exact modTrade_barred hbarred fun hk => absurd hk hother

/-- A refused call leaves all offers as they are. -/
def RefusesCleanly (env : Env) (server : Server) (p : Nat) (call : Call) : Prop :=
  refusal env call p server ≠ none →
    offers (perform env call p server) = offers server

theorem careful_refusesCleanly {call : Call} (hpl : server.players[p]? = some pl)
    (hkeyless : Keyless pl.trading.tradeItems)
    (hcareful : Careful env server pl call) :
    RefusesCleanly env server p call := by
  intro hrefused
  cases call with
  | message cch =>
      exact modTradeMessage_refused_offers hpl hkeyless hcareful hrefused
  | mod itemId count remove =>
      exact modTrade_refused_offers hpl hkeyless hcareful hrefused

/-- Over every run of calls in which a player who is neither an administrator
nor the owner of the world calls carefully, no key gets into its offer, and a
careful call that is refused leaves all offers as they are. -/
theorem keys_stay_out_along_runs {start : Server}
    (hpl : start.players[p]? = some pl) (hforeign : Foreign start pl)
    (hkeyless : Keyless pl.trading.tradeItems)
    (hrun : Relation.ReflTransGen (CarefulStep env p) start server) :
    ∃ pl, server.players[p]? = some pl ∧ Keyless pl.trading.tradeItems ∧
      ∀ call, Careful env server pl call → RefusesCleanly env server p call := by
  have hreached : Barred server p := by
    induction hrun with
    | refl => exact ⟨pl, hpl, hforeign, hkeyless⟩
    | tail _ hstep ih => exact carefulStep_barred ih hstep
  obtain ⟨own, hown, -, hkept⟩ := hreached
  exact ⟨own, hown, hkept, fun call => careful_refusesCleanly hown hkept⟩

/-- Any player makes any call. -/
inductive CallStep (env : Env) : Server → Server → Prop where
  | call (server : Server) (k : Nat) (call : Call) :
      CallStep env server (perform env call k server)

/-- A player with a World Key, in the world of somebody else, trading. -/
def keyHolder : Player :=
  { offerer [] with inv := [(1424, 1), (0, 0)] }

def keyTrade : Server where
  players := [keyHolder, accepter]
  worlds := [{ name := "START", ownerName := "Cat" }]

theorem keyTrade_foreign : Foreign keyTrade keyHolder := by
  refine ⟨rfl, fun world hworld => ?_⟩
  rw [← Option.some.inj (show some _ = some world from hworld)]
  decide

/-- `mod_trade` shows its error and puts the key into the offer. -/
theorem refused_key_is_offered :
    ¬ ∀ (env : Env) (start server : Server) (p : Nat) (pl : Player),
      start.players[p]? = some pl → Foreign start pl →
      Keyless pl.trading.tradeItems →
      Relation.ReflTransGen (CallStep env) start server →
      ∃ pl, server.players[p]? = some pl ∧ Keyless pl.trading.tradeItems ∧
        ∀ call, RefusesCleanly env server p call := by
  intro hall
  have hnone : Keyless keyHolder.trading.tradeItems :=
    fun entry hentry => absurd hentry List.not_mem_nil
  have hrun : Relation.ReflTransGen (CallStep { items := ⟨2000, fun _ => {}⟩ })
      keyTrade (modTrade 0 1424 1 false keyTrade) :=
    .single (.call keyTrade 0 (.mod 1424 1 false))
  obtain ⟨pl, hpl, hkeyless, -⟩ := hall _ _ _ 0 _ rfl keyTrade_foreign hnone hrun
  have hoffer : ((modTrade 0 1424 1 false keyTrade).players[0]?.map
      fun pl => pl.trading.tradeItems) = some [(1424, 1)] := by decide
  rw [hpl] at hoffer
  have hoffer : pl.trading.tradeItems = [(1424, 1)] := Option.some.inj hoffer
  refine hkeyless (1424, 1) ?_ (Or.inl rfl)
  rw [hoffer]
  exact List.mem_singleton_self _

/-- The message that names the key ends the trade instead. -/
theorem named_key_stays_out :
    let named := perform { items := ⟨2000, fun _ => {}⟩ }
      (.message "action|mod_trade\nitemID|1424\n") 0 keyTrade
    offers named = [[], []] ∧
      ∃ pl, named.players[0]? = some pl ∧ Keyless pl.trading.tradeItems ∧
        ∀ call, Careful { items := ⟨2000, fun _ => {}⟩ } named pl call →
          RefusesCleanly { items := ⟨2000, fun _ => {}⟩ } named 0 call := by
  refine ⟨by decide +kernel, ?_⟩
  refine @keys_stay_out_along_runs _ _ 0 keyHolder keyTrade rfl keyTrade_foreign
    (fun entry hentry => absurd hentry List.not_mem_nil)
    (.single (.own keyTrade keyHolder _ rfl ?_))
  intro itemId hitem _ _ _
  have hkey : itemId = 1424 :=
    Option.some.inj (hitem.symm.trans (by decide +kernel))
  subst hkey
  rw [if_pos (by decide)]
  intro hguild
  exact absurd hguild (by decide)

end Keys

end Trade

end NopyServer
