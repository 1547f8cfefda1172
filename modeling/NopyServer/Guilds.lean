/-
Guilds, and who may touch a block.  A guild lists its members with their roles;
a player carries the id of a guild.  `block_access` is the check behind every
dialog of a block.
-/
import NopyServer.Server

namespace NopyServer

/-- An entry of `guild_members`: role 3 is the leader, role 2 a co-leader. -/
structure GuildMember where
  roleId : UInt8 := 0
  memberName : String := ""
  displayName : String := ""
  lastOnline : Int := 0
  publicLocation : Bool := true
  showNotifications : Bool := true
deriving DecidableEq

/-- An entry of `guild_logs`. -/
structure GuildLog where
  info : String := ""
  displayId : UInt16 := 0
  date : Int := 0
deriving DecidableEq

structure Guild where
  guildId : Int := 0
  guildXp : UInt32 := 0
  guildSettings : Int := 0
  guildName : String := ""
  guildWorld : String := ""
  guildLevel : UInt16 := 1
  guildNotebook : String := ""
  unlockedMascot : Bool := true
  guildDescription : String := ""
  guildLogs : List GuildLog := []
  guildMembers : List GuildMember := []
  guildMascot : List UInt16 := [0, 0]
deriving DecidableEq

/-- `guilds`, searched by id. -/
def findGuild (guilds : List Guild) (guildId : Int) : Option Guild :=
  guilds.find? fun guild => guild.guildId == guildId

/-- The role of the first member of a name, letter case aside. -/
def memberRank (members : List GuildMember) (name : String) : UInt8 :=
  match members.find? fun member => iequals member.memberName name with
  | some member => member.roleId
  | none => 0

/-- `guild_access`. -/
def guildAccess (guilds : List Guild) (pl : Player) (guildId : Int) : Bool :=
  if guildId = 0 ∨ pl.guildId = 0 ∨ pl.guildId ≠ guildId then false
  else
    match findGuild guilds guildId with
    | none => false
    | some guild =>
        let myRank := memberRank guild.guildMembers pl.tankIDName
        if myRank = 3 then false
        else
          flagSet guild.guildSettings 2 ||
            (flagSet guild.guildSettings 4 && 1 ≤ myRank) ||
            (flagSet guild.guildSettings 8 && myRank == 2)

/-- The flags of `block_access`. -/
structure AccessFlags where
  vend : Bool := false
  adminAccess : Bool := false
  lockAccess : Bool := false
  publicWorld : Bool := false

/-- `block_access`. -/
def blockAccess (env : Env) (guilds : List Guild) (pl : Player)
    (world : World) (block : WorldBlock) (flags : AccessFlags) : Bool :=
  let name := toLower pl.tankIDName
  let origin := world.blocks[block.lockOrigin.toNat]?
  iequals world.ownerName pl.tankIDName ||
    (pl.hasConfigAccess && world.name != "GROWCH") ||
    env.worldAccessBypass pl ||
    (world.name == "GROWCH" && block.fg == 3200 && pl.hand == 3206) ||
    if flags.vend then
      (flagSet world.worldSettings 8 && !flags.publicWorld &&
        !block.locked && world.admins.contains name) ||
        if block.locked then
          origin.any fun origin => iequals origin.ownerName pl.tankIDName
        else world.ownerName == "" && !flags.publicWorld
    else if block.locked then
      origin.any fun origin =>
        (!flags.lockAccess && origin.admins.contains name) ||
          iequals origin.ownerName pl.tankIDName ||
          (!flags.publicWorld && origin.spin)
    else
      (!flags.publicWorld && (world.ownerName == "" ||
        flagSet world.worldSettings 16 ||
        guildAccess guilds pl world.guildId)) ||
        (!flags.adminAccess && world.admins.contains name)

/-- `SETTINGS_0` of a guild asks for it to be saved. -/
def Guild.toSave (guild : Guild) : Guild :=
  { guild with
    guildSettings :=
      if flagSet guild.guildSettings 1 then guild.guildSettings
      else guild.guildSettings + 1 }

/-- `update_guild_name`. -/
def updateGuildName (guilds : List Guild) (guildWorld : String) (world : World)
    (pl : Player) : Player :=
  if pl.world ≠ guildWorld ∨ guildWorld = "" ∨
      pl.account.role.moderator = true then pl
  else if iequals world.ownerName pl.tankIDName then
    { pl with nameColor := "`2" }
  else if guildAccess guilds pl pl.guildId = false ∧
      world.admins.contains (toLower pl.tankIDName) = false then
    { pl with nameColor := "`0" }
  else { pl with nameColor := "`^" }

/-- What the file of a player holds of it. -/
structure PlayerFile where
  name : String
  guildId : Int := 0
  worldsOwned : List String := []
deriving DecidableEq

/-- The server with its guilds and the files of its players. -/
structure Realm extends Server where
  guilds : List Guild := []
  files : List PlayerFile := []

namespace Realm

/-- A change of one connected player. -/
def mapPlayer (p : Nat) (f : Player → Player) (realm : Realm) : Realm :=
  { realm with players := realm.players.modify p f }

/-- A change of one guild. -/
def mapGuild (g : Nat) (f : Guild → Guild) (realm : Realm) : Realm :=
  { realm with guilds := realm.guilds.modify g f }

/-- `guilds`, searched by id, as an index. -/
def guildIdx (realm : Realm) (guildId : Int) : Option Nat :=
  realm.guilds.findIdx? fun guild => guild.guildId == guildId

/-- A file is written. -/
def writeFile (file : PlayerFile) (realm : Realm) : Realm :=
  { realm with
    files := file :: realm.files.filter fun old => old.name != file.name }

/-- `SaveDatabase::Players`: the player keeps the last five hundred worlds and
is written to its file. -/
def savePlayer (p : Nat) (realm : Realm) : Realm :=
  match realm.players[p]? with
  | none => realm
  | some pl =>
      if pl.tankIDName = "" then realm
      else
        let owned := pl.worldsOwned.drop (pl.worldsOwned.length - 500)
        (realm.mapPlayer p fun pl => { pl with worldsOwned := owned }).writeFile
          ⟨pl.tankIDName, pl.guildId, owned⟩

/-- Saving a player leaves guilds and worlds alone. -/
theorem savePlayer_frame (p : Nat) (realm : Realm) :
    (realm.savePlayer p).guilds = realm.guilds ∧
      (realm.savePlayer p).worlds = realm.worlds := by
  unfold savePlayer
  split
  · exact ⟨rfl, rfl⟩
  · split <;> exact ⟨rfl, rfl⟩

end Realm

end NopyServer
