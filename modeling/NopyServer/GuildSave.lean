/-
The files of the guilds: `save_guilds`, `create_guild_log` and the reading of a
file at the start of the server.  `SETTINGS_0` marks a guild that has to be
written.  The loop of `save_guilds` runs over copies, so the mark is taken off
the copy that goes to the file and stays on the guild itself.
-/
import NopyServer.Guilds
import NopyServer.Lib.Json

namespace NopyServer

open Json Codec

def GuildMember.toJson (p : GuildMember) : Json :=
  .obj [("member_name", ofStr.write p.memberName),
    ("role_id", ofUInt8.write p.roleId),
    ("public_location", ofBool.write p.publicLocation),
    ("show_notifications", ofBool.write p.showNotifications),
    ("last_online", ofInt.write p.lastOnline)]

def GuildMember.fromJson (j : Json) : Option GuildMember := do
  return {
    memberName := ← j.member "member_name" ofStr.read
    roleId := ← j.member "role_id" ofUInt8.read
    publicLocation := ← j.member "public_location" ofBool.read
    showNotifications := ← j.member "show_notifications" ofBool.read
    lastOnline := ← j.member "last_online" ofInt.read }

/-- The name a member is shown under is not written. -/
def GuildMember.saved (p : GuildMember) : GuildMember :=
  { p with displayName := "" }

theorem GuildMember.fromJson_toJson (p : GuildMember) :
    fromJson p.toJson = some p.saved := by
  simp [fromJson, toJson, saved, member, find, List.lookup_cons,
    ofStr_faithful.read_write, ofUInt8_faithful.read_write,
    ofBool_faithful.read_write, ofInt_faithful.read_write]

def GuildMember.codec : Codec GuildMember where
  write := toJson
  read := fromJson
  ok _ := True
  kept := saved
  read_write p _ := fromJson_toJson p
  read_write_none _ hnot := (hnot trivial).elim

def GuildLog.toJson (p : GuildLog) : Json :=
  .obj [("info", ofStr.write p.info), ("display_id", ofUInt16.write p.displayId),
    ("date", ofInt.write p.date)]

def GuildLog.fromJson (j : Json) : Option GuildLog := do
  return {
    info := ← j.member "info" ofStr.read
    displayId := ← j.member "display_id" ofUInt16.read
    date := ← j.member "date" ofInt.read }

theorem GuildLog.fromJson_toJson (p : GuildLog) : fromJson p.toJson = some p := by
  simp [fromJson, toJson, member, find, List.lookup_cons,
    ofStr_faithful.read_write, ofUInt16_faithful.read_write,
    ofInt_faithful.read_write]

def GuildLog.codec : Codec GuildLog := total toJson fromJson fromJson_toJson

namespace Guild

/-- `guild_settings & SETTINGS_0`. -/
def dirty (guild : Guild) : Bool := flagSet guild.guildSettings 1

/-- `guild_settings &= ~SETTINGS_0`. -/
def clean (guild : Guild) : Guild :=
  { guild with
    guildSettings :=
      if flagSet guild.guildSettings 1 then guild.guildSettings - 1
      else guild.guildSettings }

/-- The value that `save_guilds` writes. -/
def toJson (guild : Guild) : Json :=
  .obj [("guild_level", ofUInt16.write guild.guildLevel),
    ("guild_xp", ofUInt32.write guild.guildXp),
    ("guild_id", ofInt.write guild.guildId),
    ("guild_name", ofStr.write guild.guildName),
    ("guild_description", ofStr.write guild.guildDescription),
    ("guild_mascot", ofUInt16.list.write guild.guildMascot),
    ("guild_world", ofStr.write guild.guildWorld),
    ("guild_members", GuildMember.codec.list.write guild.guildMembers),
    ("guild_logs", GuildLog.codec.list.write guild.guildLogs),
    ("guild_notebook", ofStr.write guild.guildNotebook),
    ("guild_settings", ofInt.write guild.guildSettings)]

/-- The guild that the start of the server makes of a file. -/
def fromJson (j : Json) : Option Guild := do
  return {
    guildId := ← j.member "guild_id" ofInt.read
    guildName := ← j.member "guild_name" ofStr.read
    guildDescription := ← j.member "guild_description" ofStr.read
    guildNotebook := ← j.member "guild_notebook" ofStr.read
    guildMascot := ← j.member "guild_mascot" ofUInt16.list.read
    guildLevel := ← j.member "guild_level" ofUInt16.read
    guildXp := ← j.member "guild_xp" ofUInt32.read
    guildWorld := ← j.member "guild_world" ofStr.read
    guildMembers := ← j.member "guild_members" GuildMember.codec.list.read
    guildLogs := ← j.member "guild_logs" GuildLog.codec.list.read
    guildSettings := ← j.value "guild_settings" 0 ofInt.read }

/-- What a file keeps of a guild. -/
def saved (guild : Guild) : Guild :=
  { guild with
    unlockedMascot := true
    guildMembers := guild.guildMembers.map GuildMember.saved }

theorem fromJson_toJson (guild : Guild) :
    fromJson guild.toJson = some guild.saved := by
  have hmascot : ofUInt16.list.read (ofUInt16.list.write guild.guildMascot) =
      some guild.guildMascot := ofUInt16_faithful.list.read_write _
  have hlogs : GuildLog.codec.list.read
      (GuildLog.codec.list.write guild.guildLogs) = some guild.guildLogs :=
    (total_faithful _ _ GuildLog.fromJson_toJson).list.read_write _
  have hmembers : GuildMember.codec.list.read
      (GuildMember.codec.list.write guild.guildMembers) =
        some (guild.guildMembers.map GuildMember.saved) :=
    GuildMember.codec.list.read_write _ fun _ _ => trivial
  simp [fromJson, toJson, saved, member, value, find, List.lookup_cons, hmascot,
    hlogs, hmembers, ofStr_faithful.read_write, ofUInt16_faithful.read_write,
    ofUInt32_faithful.read_write, ofInt_faithful.read_write]

@[simp] theorem dirty_clean (guild : Guild) : guild.clean.dirty = false := by
  unfold clean dirty flagSet
  split_ifs with hset
  · simp only [Int.ediv_one, beq_iff_eq] at hset
    simp only [Int.ediv_one, beq_eq_false_iff_ne]
    omega
  · simpa using hset

@[simp] theorem dirty_toSave (guild : Guild) : guild.toSave.dirty = true := by
  unfold toSave dirty flagSet
  split_ifs with hset
  · simpa using hset
  · simp only [Int.ediv_one, beq_iff_eq] at hset ⊢
    omega

/-- `create_guild_log`: ten entries are kept. -/
def createGuildLog (guild : Guild) (logText : String) (logDisplay : Int)
    (now : Int) : Guild :=
  let logs := guild.guildLogs ++ [⟨logText, UInt16.ofInt logDisplay, now⟩]
  { guild.toSave with guildLogs := if 10 < logs.length then logs.drop 1 else logs }

theorem dirty_createGuildLog (guild : Guild) (logText : String)
    (logDisplay now : Int) :
    (guild.createGuildLog logText logDisplay now).dirty = true :=
  dirty_toSave guild

end Guild

/-- The directory of the guilds. -/
structure GuildFiles where
  /-- Whether a stream on the file of a guild of this name opens. -/
  opens : String → Bool
  files : String → Option Json := fun _ => none
  /-- The guilds as they were written, the latest last. -/
  written : List Guild := []

/-- `w_ << save_`. -/
def GuildFiles.write (disk : GuildFiles) (guild : Guild) : GuildFiles :=
  { disk with
    files := Function.update disk.files guild.guildName (some guild.toJson)
    written := disk.written ++ [guild] }

/-- The body of the loop of `save_guilds`; `toSave` is a copy. -/
def GuildFiles.saveGuild (disk : GuildFiles) (toSave : Guild) : GuildFiles :=
  if flagSet toSave.guildSettings 1 then
    let toSave := toSave.clean
    if disk.opens toSave.guildName then disk.write toSave else disk
  else disk

/-- The guilds of the server and their files. -/
structure GuildStore where
  guilds : List Guild
  disk : GuildFiles

namespace GuildStore

/-- `save_guilds`. -/
def saveGuilds (store : GuildStore) : GuildStore :=
  { store with disk := store.guilds.foldl GuildFiles.saveGuild store.disk }

/-- A guild that `save_guilds` writes. -/
def saves (store : GuildStore) (guild : Guild) : Bool :=
  guild.dirty && store.disk.opens guild.guildName

/-- What `save_guilds` does when it does what it is for. -/
structure SavesOnce (store : GuildStore) : Prop where
  cleaned : ∀ (i : Nat) (guild : Guild), store.guilds[i]? = some guild →
    guild.dirty = true → store.disk.opens guild.guildName = true →
    store.saveGuilds.guilds[i]? = some guild.clean
  onlyDirty : ∃ new : List Guild,
    store.saveGuilds.disk.written = store.disk.written ++ new ∧
      ∀ file ∈ new, ∃ guild ∈ store.guilds,
        guild.dirty = true ∧ file = guild.clean
  once : store.saveGuilds.saveGuilds.disk.written = store.saveGuilds.disk.written

theorem saveGuild_foldl (disk : GuildFiles) (guilds : List Guild) :
    (guilds.foldl GuildFiles.saveGuild disk).opens = disk.opens ∧
      (guilds.foldl GuildFiles.saveGuild disk).written = disk.written ++
        (guilds.filter fun guild =>
          guild.dirty && disk.opens guild.guildName).map Guild.clean := by
  induction guilds generalizing disk with
  | nil => simp
  | cons guild rest ih =>
      obtain ⟨hopens, hwritten⟩ := ih (disk.saveGuild guild)
      rw [List.foldl_cons, hopens, hwritten]
      by_cases hdirty : guild.dirty = true
      · have hset : flagSet guild.guildSettings 1 = true := hdirty
        by_cases hopen : disk.opens guild.guildName = true
        · have hopen' : disk.opens guild.clean.guildName = true := hopen
          simp [GuildFiles.saveGuild, GuildFiles.write, hset, hdirty, hopen,
            hopen']
        · have hopen' : ¬ disk.opens guild.clean.guildName = true := hopen
          simp [GuildFiles.saveGuild, hset, hdirty, hopen, hopen']
      · have hset : ¬ flagSet guild.guildSettings 1 = true := hdirty
        simp [GuildFiles.saveGuild, hset, hdirty]

@[simp] theorem guilds_saveGuilds (store : GuildStore) :
    store.saveGuilds.guilds = store.guilds := rfl

@[simp] theorem opens_saveGuilds (store : GuildStore) :
    store.saveGuilds.disk.opens = store.disk.opens :=
  (saveGuild_foldl store.disk store.guilds).1

theorem written_saveGuilds (store : GuildStore) :
    store.saveGuilds.disk.written =
      store.disk.written ++ (store.guilds.filter store.saves).map Guild.clean :=
  (saveGuild_foldl store.disk store.guilds).2

/-- `save_guilds` does its work exactly when there is none to do. -/
theorem savesOnce_iff (store : GuildStore) :
    store.SavesOnce ↔ ∀ guild ∈ store.guilds, guild.dirty = true →
      store.disk.opens guild.guildName = false := by
  constructor
  · intro hsaves guild hmem hdirty
    by_contra hopen
    rw [Bool.not_eq_false] at hopen
    obtain ⟨i, hi⟩ := List.mem_iff_getElem?.mp hmem
    have hsame := hsaves.cleaned i guild hi hdirty hopen
    rw [guilds_saveGuilds, hi, Option.some_inj] at hsame
    have hclean := guild.dirty_clean
    rw [← hsame, hdirty] at hclean
    cases hclean
  · intro hnone
    have hnothing : store.guilds.filter store.saves = [] := by
      rw [List.filter_eq_nil_iff]
      intro guild hmem hsave
      rw [saves, Bool.and_eq_true] at hsave
      exact absurd hsave.2 (by simp [hnone guild hmem hsave.1])
    constructor
    · intro i guild hi hdirty hopen
      rw [hnone guild (List.mem_of_getElem? hi) hdirty] at hopen
      cases hopen
    · exact ⟨[], by simp [written_saveGuilds, hnothing], by simp⟩
    · rw [written_saveGuilds store.saveGuilds, guilds_saveGuilds]
      have hsaves : store.saveGuilds.saves = store.saves := by
        funext guild
        simp [saves]
      rw [hsaves, hnothing]
      simp

/-- A guild whose name was changed, in a directory that can be written. -/
theorem renamed_guild_stays_dirty :
    ¬ (⟨[{ guildId := 1, guildSettings := 1, guildName := "Nopy" }],
      { opens := fun _ => true }⟩ : GuildStore).SavesOnce := by
  intro hsaves
  have hsame := hsaves.cleaned 0
    { guildId := 1, guildSettings := 1, guildName := "Nopy" } rfl (by decide) rfl
  rw [guilds_saveGuilds] at hsame
  exact absurd (Option.some_inj.mp hsame) (by decide)

/-- What happens to the guilds between two starts of the server. -/
inductive GuildOp where
  | save
  | log (g : Nat) (logText : String) (logDisplay now : Int)

def apply (store : GuildStore) : GuildOp → GuildStore
  | .save => store.saveGuilds
  | .log g logText logDisplay now =>
      { store with
        guilds := store.guilds.modify g fun guild =>
          guild.createGuildLog logText logDisplay now }

/-- Once a guild is marked it stays marked. -/
theorem dirty_foldl_apply {store : GuildStore} {g : Nat} {guild : Guild}
    (hguild : store.guilds[g]? = some guild) (hdirty : guild.dirty = true)
    (ops : List GuildOp) :
    ∃ later, (ops.foldl apply store).guilds[g]? = some later ∧
      later.dirty = true ∧ later.guildName = guild.guildName := by
  induction ops generalizing store guild with
  | nil => exact ⟨guild, hguild, hdirty, rfl⟩
  | cons op rest ih =>
      cases op with
      | save =>
          have hkept : store.saveGuilds.guilds[g]? = some guild := hguild
          exact ih hkept hdirty
      | log i logText logDisplay now =>
          by_cases hsame : i = g
          · subst hsame
            have hlogged :
                (store.apply (.log i logText logDisplay now)).guilds[i]? =
                  some (guild.createGuildLog logText logDisplay now) := by
              simp [apply, hguild]
            have hlater :=
              ih hlogged (guild.dirty_createGuildLog logText logDisplay now)
            exact hlater
          · have hkept :
                (store.apply (.log i logText logDisplay now)).guilds[g]? =
                  some guild := by
              simp [apply, hguild, hsame]
            exact ih hkept hdirty

/-- Every later `save_guilds` writes a marked guild again. -/
theorem written_again {store : GuildStore} {g : Nat} {guild : Guild}
    (hguild : store.guilds[g]? = some guild) (hdirty : guild.dirty = true)
    (ops : List GuildOp)
    (hopen : (ops.foldl apply store).disk.opens guild.guildName = true) :
    ∃ later : Guild, later.guildName = guild.guildName ∧
      later.clean ∈ ((ops.foldl apply store).guilds.filter
        (ops.foldl apply store).saves).map Guild.clean := by
  obtain ⟨later, hlater, hstill, hname⟩ := dirty_foldl_apply hguild hdirty ops
  refine ⟨later, hname, List.mem_map_of_mem ?_⟩
  rw [List.mem_filter, saves, hstill, hname, hopen]
  exact ⟨List.mem_of_getElem? hlater, rfl⟩

end GuildStore

end NopyServer
