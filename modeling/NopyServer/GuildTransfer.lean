/-
The sale of a world: `transfer_world`, which a trade calls for a world key or a
guild key.  In a guild world the buyer becomes the leader of the guild and the
former owner a co-leader.
-/
import NopyServer.Guilds
import NopyServer.Trade

namespace NopyServer

open Trade

namespace GuildTransfer

/-- How a call of `transfer_world` ends. -/
inductive Outcome where
  | kept
  | cancelled
  | moved
deriving Repr, DecidableEq

section Definitions

variable (env : Env)

/-- The block that locks the whole world. -/
def worldLock (world : World) : Option WorldBlock :=
  world.blocks.find? fun block =>
    (env.items.item block.fg.toNat).blockType == .lock &&
      !([202, 204, 206, 4994].contains block.fg)

/-- The tests before `transfer_world` looks at the guild: an owner, a size that
the source can divide by, and a world lock. -/
def transferable (world : World) : Bool :=
  world.ownerName != "" && 100 ≤ world.blocks.length &&
    (worldLock env world).any fun block => block.fg != 0

/-- `my_rank` of `transfer_world`: the role of the first member of exactly this
name. -/
def exactRank (members : List GuildMember) (name : String) : UInt8 :=
  match members.find? fun member => member.memberName == name with
  | some member => member.roleId
  | none => 0

/-- The world leaves the list of its former owner: the seller, a connected
player, or a player of whom there is only the file.  The entries of a file are
texts, in which the source looks for a member `name`; so it gives up on a file
with any entry. -/
def releaseWorld (p : Nat) (world : World) (realm : Realm) : Option Realm :=
  let drop := fun pl : Player =>
    { pl with worldsOwned := pl.worldsOwned.filter (· != world.name) }
  match realm.players[p]? with
  | none => none
  | some pl =>
      if pl.tankIDName = world.ownerName then some (realm.mapPlayer p drop)
      else
        match realm.players.findIdx? fun cp => cp.tankIDName == world.ownerName with
        | some q => some (realm.mapPlayer q drop)
        | none =>
            match realm.files.find? fun file => file.name == world.ownerName with
            | some file => if file.worldsOwned = [] then some realm else none
            | none => some realm

/-- The name of the owner as it is shown. -/
def shownName (pl : Player) : String :=
  if pl.nameColor ≠ "`0" ∨ pl.account.role.moderator = true ∨
      (pl.account.role.administrator = true ∧ pl.nameColor ≠ "`2") then
    pl.nameColor ++ pl.tankIDName
  else pl.tankIDName

/-- The world gets its new owner. -/
def giveWorld (w q : Nat) (world : World) (buyer : Player) (realm : Realm) :
    Realm :=
  let realm := realm.mapPlayer q fun pl =>
    { pl with worldsOwned := pl.worldsOwned ++ [world.name] }
  { realm with
    worlds := realm.worlds.modify w fun world =>
      { world with
        ownerName := buyer.tankIDName, ownerNamed := shownName buyer } }

/-- The former owner becomes a co-leader. -/
def demote (beforeName : String) (member : GuildMember) : GuildMember :=
  if member.memberName = beforeName then { member with roleId := 2 } else member

/-- The member list after the sale. -/
def handOver (beforeName : String) (buyer : String) (now : Int)
    (members : List GuildMember) : List GuildMember :=
  members.map (demote beforeName) ++
    [{ roleId := 3, memberName := buyer, lastOnline := now }]

/-- The guild gets its new leader. -/
def promote (now : Int) (w p q g : Nat) (world : World) (buyer : Player)
    (realm : Realm) : Realm :=
  let realm := (realm.mapGuild g fun guild =>
    { guild with
      guildMembers := handOver world.ownerName buyer.tankIDName now
        guild.guildMembers }.toSave).mapPlayer q fun pl =>
          { pl with guildId := world.guildId }
  let realm := realm.savePlayer q
  let owned := realm.worlds.getD w world
  let recolour := updateGuildName realm.guilds world.name owned
  (realm.mapPlayer p recolour).mapPlayer q recolour

/-- `transfer_world`. -/
def transferWorld (now : Int) (w p q : Nat) (realm : Realm) :
    Outcome × Realm :=
  match realm.worlds[w]?, realm.players[p]?, realm.players[q]? with
  | some world, some seller, some buyer =>
      if transferable env world = false then (.kept, realm)
      else if world.guildId ≠ 0 then
        match realm.guildIdx world.guildId with
        | none => (.kept, realm)
        | some g =>
            let members := ((realm.guilds[g]?).map Guild.guildMembers).getD []
            if exactRank members seller.tankIDName < 3 ∨
                seller.guildId ≠ world.guildId ∨ buyer.guildId ≠ 0 then
              (.cancelled,
                { realm with toServer := cancelTrade p realm.toServer })
            else
              match releaseWorld p world realm with
              | none => (.kept, realm)
              | some realm =>
                  (.moved, promote now w p q g world buyer
                    (giveWorld w q world buyer realm))
      else
        match releaseWorld p world realm with
        | none => (.kept, realm)
        | some realm => (.moved, giveWorld w q world buyer realm)
  | _, _, _ => (.kept, realm)

end Definitions

section Roles

variable {beforeName buyer : String} {now : Int} {old : List GuildMember}

/-- The member list after a sale is right: every name once, one leader, who is
the new owner, the former owner a co-leader and everybody else as before. -/
structure RightRoles (beforeName newOwner : String)
    (old new : List GuildMember) : Prop where
  names : (new.map GuildMember.memberName).Nodup
  leader : ∃ member, new.filter (fun member => member.roleId == 3) = [member] ∧
    member.memberName = newOwner
  others : ∀ member ∈ new, member.memberName ≠ newOwner →
    if member.memberName = beforeName then member.roleId = 2 else member ∈ old
  listed : ∀ member ∈ old, ∃ kept ∈ new, kept.memberName = member.memberName

theorem demote_name (member : GuildMember) :
    (demote beforeName member).memberName = member.memberName := by
  unfold demote
  split <;> rfl

theorem handOver_names :
    (handOver beforeName buyer now old).map GuildMember.memberName =
      old.map GuildMember.memberName ++ [buyer] := by
  simp [handOver, demote_name]

/-- The leaders after a sale are the buyer and the leaders other than the former
owner. -/
theorem handOver_leaders :
    (handOver beforeName buyer now old).filter (fun member => member.roleId == 3) =
      (old.filter fun member =>
        member.roleId == 3 && member.memberName != beforeName) ++
        [{ roleId := 3, memberName := buyer, lastOnline := now }] := by
  unfold handOver
  rw [List.filter_append]
  congr 1
  induction old with
  | nil => rfl
  | cons first rest ih =>
      rw [List.map_cons, List.filter_cons, List.filter_cons, ih]
      unfold demote
      by_cases hname : first.memberName = beforeName
      · simp [hname]
      · simp [hname]

/-- The sale leaves a right list exactly when every name stood once in the list,
the buyer's did not, and nobody but the former owner was a leader. -/
theorem handOver_right_iff :
    RightRoles beforeName buyer old (handOver beforeName buyer now old) ↔
      (old.map GuildMember.memberName).Nodup ∧
        (∀ member ∈ old, member.memberName ≠ buyer) ∧
        ∀ member ∈ old, member.roleId = 3 → member.memberName = beforeName := by
  constructor
  · intro hright
    have hnames := hright.names
    rw [handOver_names, List.nodup_append] at hnames
    obtain ⟨leader, hleader, -⟩ := hright.leader
    rw [handOver_leaders] at hleader
    have hnone : (old.filter fun member =>
        member.roleId == 3 && member.memberName != beforeName) = [] := by
      have hlength := congrArg List.length hleader
      rw [List.length_append] at hlength
      exact List.length_eq_zero_iff.mp (by simpa using hlength)
    refine ⟨hnames.1, fun member hmember heq => ?_, fun member hmember hrole => ?_⟩
    · exact hnames.2.2 member.memberName (List.mem_map_of_mem hmember) buyer
        (List.mem_singleton_self buyer) heq
    · by_contra hname
      have hfilter := List.filter_eq_nil_iff.mp hnone member hmember
      simp [hrole, hname] at hfilter
  · rintro ⟨hnodup, hbuyer, hleaders⟩
    refine ⟨?_, ⟨{ roleId := 3, memberName := buyer, lastOnline := now }, ?_, rfl⟩,
      fun member hmember hne => ?_, fun member hmember => ?_⟩
    · rw [handOver_names, List.nodup_append]
      refine ⟨hnodup, by simp, fun name hname other hother => ?_⟩
      obtain ⟨member, hmember, rfl⟩ := List.mem_map.mp hname
      rw [List.mem_singleton.mp hother]
      exact hbuyer member hmember
    · rw [handOver_leaders, List.filter_eq_nil_iff.mpr, List.nil_append]
      intro member hmember
      by_cases hrole : member.roleId = 3
      · simp [hrole, hleaders member hmember hrole]
      · simp [hrole]
    · rcases List.mem_append.mp hmember with hold | hnew
      · obtain ⟨before, hbefore, rfl⟩ := List.mem_map.mp hold
        rw [demote_name]
        unfold demote
        split
        · rfl
        · exact hbefore
      · rw [List.mem_singleton.mp hnew] at hne
        exact absurd rfl hne
    · exact ⟨demote beforeName member,
        List.mem_append_left _ (List.mem_map_of_mem hmember),
        demote_name member⟩

end Roles

section Transfers

variable {env : Env} {now : Int} {realm next : Realm} {w p q g : Nat}
  {world : World} {seller buyer : Player} {guild : Guild}

/-- At most one player's list of worlds changes. -/
theorem releaseWorld_cases (hrelease : releaseWorld p world realm = some next) :
    next = realm ∨ ∃ owner, next = realm.mapPlayer owner fun pl =>
      { pl with worldsOwned := pl.worldsOwned.filter (· != world.name) } := by
  unfold releaseWorld at hrelease
  split at hrelease
  · cases hrelease
  · split at hrelease
    · exact Or.inr ⟨p, (Option.some.inj hrelease).symm⟩
    · split at hrelease
      next owner _ => exact Or.inr ⟨owner, (Option.some.inj hrelease).symm⟩
      next =>
        split at hrelease
        · split at hrelease
          · exact Or.inl (Option.some.inj hrelease).symm
          · cases hrelease
        · exact Or.inl (Option.some.inj hrelease).symm

theorem releaseWorld_frame (hrelease : releaseWorld p world realm = some next) :
    next.guilds = realm.guilds ∧ next.worlds = realm.worlds := by
  rcases releaseWorld_cases hrelease with rfl | ⟨owner, rfl⟩
  · exact ⟨rfl, rfl⟩
  · exact ⟨rfl, rfl⟩

/-- The guild and the world after a sale. -/
theorem promote_result (hguild : realm.guilds[g]? = some guild)
    (hworld : realm.worlds[w]? = some world)
    (hrelease : releaseWorld p world realm = some next) :
    let after := promote now w p q g world buyer (giveWorld w q world buyer next)
    (after.guilds[g]?).map Guild.guildMembers =
        some (handOver world.ownerName buyer.tankIDName now
          guild.guildMembers) ∧
      (after.worlds[w]?).map World.ownerName = some buyer.tankIDName := by
  obtain ⟨hguilds, hworlds⟩ := releaseWorld_frame hrelease
  dsimp only [promote]
  generalize hrealm : Realm.mapPlayer q _ (Realm.mapGuild g _ _) = mid
  obtain ⟨hsaved, hkept⟩ := mid.savePlayer_frame q
  constructor
  · change ((mid.savePlayer q).guilds[g]?).map _ = _
    rw [hsaved, ← hrealm]
    simp [Realm.mapPlayer, Realm.mapGuild, giveWorld, hguilds, hguild,
      Guild.toSave]
  · change ((mid.savePlayer q).worlds[w]?).map _ = _
    rw [hkept, ← hrealm]
    simp [Realm.mapPlayer, Realm.mapGuild, giveWorld, hworlds, hworld]

/-- A guild world, its guild, and two connected players. -/
structure GuildWorld (realm : Realm) (w p q g : Nat) (world : World)
    (seller buyer : Player) (guild : Guild) : Prop where
  getWorld : realm.worlds[w]? = some world
  locked : world.guildId ≠ 0
  found : realm.guildIdx world.guildId = some g
  getGuild : realm.guilds[g]? = some guild
  sells : realm.players[p]? = some seller
  buys : realm.players[q]? = some buyer

/-- Two players about to sell a guild world: they trade with each other in it,
the seller owns it, and `mod_trade` puts the guild key into the offer. -/
structure Sale (realm : Realm) (p q : Nat) (world : World) (seller : Player)
    (count : Int) : Prop where
  partners : partner realm.toServer seller = some q
  loaded : loadedWorld realm.toServer seller.world = some world
  owner : iequals seller.tankIDName world.ownerName = true
  admitted : ∃ after c,
    (modTrade p 5816 count false realm.toServer).players[p]? = some after ∧
      (5816, c) ∈ after.trading.tradeItems

/-- `transfer_world` in a guild world. -/
theorem transferWorld_guild (hat : GuildWorld realm w p q g world seller buyer guild) :
    transferWorld env now w p q realm =
      if transferable env world = false then (.kept, realm)
      else if exactRank guild.guildMembers seller.tankIDName < 3 ∨
          seller.guildId ≠ world.guildId ∨ buyer.guildId ≠ 0 then
        (.cancelled, { realm with toServer := cancelTrade p realm.toServer })
      else
        match releaseWorld p world realm with
        | none => (.kept, realm)
        | some next =>
            (.moved, promote now w p q g world buyer
              (giveWorld w q world buyer next)) := by
  unfold transferWorld
  rw [hat.getWorld, hat.sells, hat.buys]
  dsimp only
  rw [if_pos hat.locked, hat.found]
  dsimp only
  rw [hat.getGuild]
  rfl

theorem transferWorld_cancelled_iff (hat : GuildWorld realm w p q g world seller buyer guild) :
    (transferWorld env now w p q realm).1 = .cancelled ↔
      transferable env world = true ∧
        (exactRank guild.guildMembers seller.tankIDName < 3 ∨
          seller.guildId ≠ world.guildId ∨ buyer.guildId ≠ 0) := by
  rw [transferWorld_guild hat]
  cases htransferable : transferable env world with
  | false => simp
  | true =>
      by_cases hrefused : exactRank guild.guildMembers seller.tankIDName < 3 ∨
        seller.guildId ≠ world.guildId ∨ buyer.guildId ≠ 0
      · simp [hrefused]
      · rw [if_neg (by simp), if_neg hrefused]
        cases releaseWorld p world realm with
        | none => simp [hrefused]
        | some next => simp [hrefused]

/-- The members and the owner after a sale that completes. -/
theorem transferWorld_moved (hat : GuildWorld realm w p q g world seller buyer guild)
    (hmoved : (transferWorld env now w p q realm).1 = .moved) :
    ((transferWorld env now w p q realm).2.guilds[g]?).map Guild.guildMembers =
        some (handOver world.ownerName buyer.tankIDName now
          guild.guildMembers) ∧
      ((transferWorld env now w p q realm).2.worlds[w]?).map World.ownerName =
        some buyer.tankIDName := by
  rw [transferWorld_guild hat] at hmoved ⊢
  split_ifs at hmoved ⊢ with hkept hrefused
  cases hrelease : releaseWorld p world realm with
  | none =>
      rw [hrelease] at hmoved
      cases hmoved
  | some next => exact promote_result hat.getGuild hat.getWorld hrelease

/-- In a guild world, `transfer_world` between two players for whom `mod_trade`
admits the guild key does not cancel exactly when the seller stands in the list
of the world's guild as its leader and belongs to it and the buyer is in no
guild; it cancels whenever the test of `mod_trade` itself is passed.  And when it
completes, the member list is right exactly when every name stood once in it, the
buyer's did not, and nobody but the former owner was a leader. -/
theorem transfer_right_iff (hat : GuildWorld realm w p q g world seller buyer guild) :
    (∀ count, Sale realm p q world seller count →
      ((transferWorld env now w p q realm).1 ≠ .cancelled ↔
        (transferable env world = true →
          3 ≤ exactRank guild.guildMembers seller.tankIDName ∧
            seller.guildId = world.guildId ∧ buyer.guildId = 0)) ∧
      (transferable env world = true →
        leavesSearch seller buyer world 5816 count false = false →
        (transferWorld env now w p q realm).1 = .cancelled)) ∧
    ((transferWorld env now w p q realm).1 = .moved →
      ∃ after owned,
        ((transferWorld env now w p q realm).2.guilds[g]?) = some after ∧
        ((transferWorld env now w p q realm).2.worlds[w]?) = some owned ∧
        (RightRoles world.ownerName owned.ownerName guild.guildMembers
            after.guildMembers ↔
          (guild.guildMembers.map GuildMember.memberName).Nodup ∧
            (∀ member ∈ guild.guildMembers,
              member.memberName ≠ buyer.tankIDName) ∧
            ∀ member ∈ guild.guildMembers, member.roleId = 3 →
              member.memberName = world.ownerName)) := by
  have hcancelled := @transferWorld_cancelled_iff env now realm w p q g world
    seller buyer guild hat
  refine ⟨fun count _ => ⟨?_, fun htransferable hstays => ?_⟩, fun hmoved => ?_⟩
  · rw [Ne, hcancelled, not_and]
    simp only [not_or, UInt8.not_lt, ne_eq, not_not]
  · refine hcancelled.mpr ⟨htransferable, Or.inr (Or.inr fun hzero => ?_)⟩
    simp [leavesSearch, hzero] at hstays
  · obtain ⟨hmembers, howner⟩ := transferWorld_moved hat hmoved
    obtain ⟨after, hafter, hlist⟩ := Option.map_eq_some_iff.mp hmembers
    obtain ⟨owned, howned, hname⟩ := Option.map_eq_some_iff.mp howner
    refine ⟨after, owned, hafter, howned, ?_⟩
    rw [hlist, hname]
    exact handOver_right_iff

/-- A table in which the guild lock is a lock. -/
def lockEnv : Env where
  items := ⟨10000, fun id => if id = 5814 then { blockType := .lock } else {}⟩

/-- The owner of a guild world, who has a guild key, trades with a player of a
guild or of none. -/
def ownerAndBuyer (buyerGuild : Int) (others : List GuildMember) : Realm where
  players :=
    [{ netID := 1, tankIDName := "Owner", world := "START", guildId := 1
       inv := [(5816, 1)], trading := { tradingWith := 2 } },
     { netID := 2, tankIDName := "Buyer", world := "START"
       guildId := buyerGuild, trading := { tradingWith := 1 } }]
  worlds := [{ name := "START", ownerName := "Owner", guildId := 1
               blocks := { fg := 5814 } :: List.replicate 99 {} }]
  guilds := [{ guildId := 1
               guildMembers := { roleId := 3, memberName := "Owner" } :: others }]

theorem ownerAndBuyer_guildWorld (buyerGuild : Int) (others : List GuildMember) :
    GuildWorld (ownerAndBuyer buyerGuild others) 0 0 1 0
      { name := "START", ownerName := "Owner", guildId := 1
        blocks := { fg := 5814 } :: List.replicate 99 {} }
      { netID := 1, tankIDName := "Owner", world := "START", guildId := 1
        inv := [(5816, 1)], trading := { tradingWith := 2 } }
      { netID := 2, tankIDName := "Buyer", world := "START"
        guildId := buyerGuild, trading := { tradingWith := 1 } }
      { guildId := 1
        guildMembers := { roleId := 3, memberName := "Owner" } :: others } :=
  ⟨rfl, by decide, rfl, rfl, rfl, rfl⟩

/-- `mod_trade` admits the guild key for a buyer of the same guild, and
`transfer_world` cancels the sale because the buyer is in a guild. -/
theorem member_cannot_buy :
    ¬ ∀ (env : Env) (now : Int) (realm : Realm) (w p q g : Nat) (world : World)
      (seller buyer : Player) (guild : Guild) (count : Int),
      GuildWorld realm w p q g world seller buyer guild →
      Sale realm p q world seller count →
      (transferWorld env now w p q realm).1 ≠ .cancelled := by
  intro hall
  refine hall lockEnv 0 (ownerAndBuyer 1 [{ memberName := "Buyer" }]) 0 0 1 0
    _ _ _ _ 1 (ownerAndBuyer_guildWorld 1 _) ⟨rfl, rfl, by decide, ?_⟩ (by decide +kernel)
  exact ⟨_, 1, rfl, by decide +kernel⟩

/-- A buyer of no guild takes over the guild. -/
theorem outsider_buys :
    (transferWorld lockEnv 5 0 0 1 (ownerAndBuyer 0 [])).1 = .moved ∧
      ∃ after owned,
        (transferWorld lockEnv 5 0 0 1 (ownerAndBuyer 0 [])).2.guilds[0]? =
            some after ∧
        (transferWorld lockEnv 5 0 0 1 (ownerAndBuyer 0 [])).2.worlds[0]? =
            some owned ∧
        RightRoles "Owner" owned.ownerName
          [{ roleId := 3, memberName := "Owner" }] after.guildMembers := by
  have hmoved :
      (transferWorld lockEnv 5 0 0 1 (ownerAndBuyer 0 [])).1 = .moved := by
    decide +kernel
  obtain ⟨after, owned, hafter, howned, hright⟩ :=
    (transfer_right_iff (ownerAndBuyer_guildWorld 0 [])).2 hmoved
  exact ⟨hmoved, after, owned, hafter, howned, hright.mpr (by decide)⟩

end Transfers

end GuildTransfer

end NopyServer
