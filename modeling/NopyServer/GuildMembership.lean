/-
Leaving a guild and being removed from it: `leave_guild` and the dialog
`guild_member_remove`.  Membership is kept twice, in the guild's list and in the
player, who is connected or only a file; the functions here and `transfer_world`
keep the two in agreement, apart from two slips.  The only member of a guild who
is its leader can leave and stays in the list, and somebody who is not connected
is looked up by the text of the dialog instead of the member's name.
-/
import NopyServer.GuildTransfer
import NopyServer.Lib.Ledger

namespace NopyServer

open Ledger

namespace GuildMembership

/-- The second loop of `leave_guild`: an erased entry makes the loop step over
the next one, and a leader ends it. -/
def leaveLoop (name : String) : List GuildMember → List GuildMember
  | [] => []
  | member :: rest =>
      if iequals member.memberName name then
        if member.roleId = 3 then member :: rest
        else
          match rest with
          | [] => []
          | skipped :: rest => skipped :: leaveLoop name rest
      else member :: leaveLoop name rest

/-- The loop in a guild; `create_guild_log` marks the guild where an entry is erased. -/
def takeOff (name : String) (guild : Guild) : Guild :=
  let members := leaveLoop name guild.guildMembers
  let left := { guild with guildMembers := members }
  if members.length < guild.guildMembers.length then left.toSave else left

theorem takeOff_id (name : String) (guild : Guild) :
    (takeOff name guild).guildId = guild.guildId := by
  unfold takeOff
  dsimp only
  split_ifs <;> rfl

theorem takeOff_members (name : String) (guild : Guild) :
    (takeOff name guild).guildMembers = leaveLoop name guild.guildMembers := by
  unfold takeOff
  dsimp only
  split_ifs <;> rfl

/-- The guild that a player leaves, when `leave_guild` does not return before:
a leader may leave only alone. -/
def leaves (p : Nat) (realm : Realm) : Option (Player × Nat × Guild) :=
  match realm.players[p]? with
  | none => none
  | some pl =>
      if pl.guildId = 0 then none
      else
        match realm.guildIdx pl.guildId with
        | none => none
        | some g =>
            match realm.guilds[g]? with
            | none => none
            | some guild =>
                if guild.guildMembers.any (fun member =>
                      iequals member.memberName pl.tankIDName &&
                        member.roleId == 3) = true ∧
                    guild.guildMembers.length ≠ 1 then none
                else some (pl, g, guild)

/-- `leave_guild`. -/
def leaveGuild (p : Nat) (realm : Realm) : Realm :=
  match leaves p realm with
  | none => realm
  | some (pl, g, _) =>
      ((realm.mapPlayer p fun pl => { pl with guildId := 0 }).savePlayer p).mapGuild
        g (takeOff pl.tankIDName)

/-- `my_rank` of `guild_member_remove`: the role of the last member of the
name. -/
def lastRank (members : List GuildMember) (name : String) : UInt8 :=
  memberRank members.reverse name

/-- The guild and the index of the member that a message removes, with the name
in the message. -/
def removes (cch : String) (p : Nat) (realm : Realm) :
    Option (String × Nat × Guild × Nat) :=
  if TextScanner.tryGet cch "buttonClicked" ≠ some "remove" then none
  else
    match realm.players[p]? with
    | none => none
    | some pl =>
        match realm.guildIdx pl.guildId with
        | none => none
        | some g =>
            match realm.guilds[g]? with
            | none => none
            | some guild =>
                let name := getEmbed cch "guildmembername"
                let myRank := lastRank guild.guildMembers pl.tankIDName
                match guild.guildMembers.findIdx? fun member =>
                    iequals member.memberName name with
                | none => none
                | some i =>
                    if (guild.guildMembers[i]?).any fun member =>
                        1 ≤ myRank && member.roleId < myRank then
                      some (name, g, guild, i)
                    else none

/-- A removed player who is connected belongs to no guild any more. -/
def expel (guilds : List Guild) (worlds : List World) (guild : Guild)
    (name : String) (pl : Player) : Player :=
  if iequals pl.tankIDName name then
    let pl := { pl with guildId := 0 }
    match worlds.find? fun world => world.name == pl.world with
    | some world => updateGuildName guilds guild.guildWorld world pl
    | none => pl
  else pl

/-- The file of a removed player who is not connected. -/
def expelFile (name : String) (file : PlayerFile) : PlayerFile :=
  if file.name = name then { file with guildId := 0 } else file

/-- `guild_member_remove`. -/
def guildMemberRemove (cch : String) (p : Nat) (realm : Realm) : Realm :=
  match removes cch p realm with
  | none => realm
  | some (name, g, guild, i) =>
      let online := realm.players.any fun cp => iequals cp.tankIDName name
      let realm :=
        { realm with
          players := realm.players.map
            (expel realm.guilds realm.worlds guild name)
          files :=
            if online then realm.files else realm.files.map (expelFile name) }
      realm.mapGuild g fun guild =>
        { guild with guildMembers := guild.guildMembers.eraseIdx i }.toSave

/-- How often a guild lists a player. -/
def listings (name : String) (guild : Guild) : Nat :=
  guild.guildMembers.countP fun member => iequals member.memberName name

/-- The id names the guild that lists the player, once; the id of a player in no
list is zero. -/
structure Agrees (guilds : List Guild) (name : String) (guildId : Int) :
    Prop where
  once : ∀ guild ∈ guilds,
    listings name guild = if guild.guildId = guildId then 1 else 0
  named : guildId = 0 ∨ guildId ∈ guilds.map Guild.guildId

instance (guilds : List Guild) (name : String) (guildId : Int) :
    Decidable (Agrees guilds name guildId) :=
  decidable_of_iff
    ((∀ guild ∈ guilds,
        listings name guild = if guild.guildId = guildId then 1 else 0) ∧
      (guildId = 0 ∨ guildId ∈ guilds.map Guild.guildId))
    ⟨fun hagrees => ⟨hagrees.1, hagrees.2⟩,
      fun hagrees => ⟨hagrees.once, hagrees.named⟩⟩

/-- Players and guilds agree, for connected players and for those of whom there
is only a file.  Ids tell guilds apart, and names tell connected players apart,
letter case aside. -/
structure Agreement (realm : Realm) : Prop where
  ids : (realm.guilds.map Guild.guildId).Nodup
  nonzero : ∀ guild ∈ realm.guilds, guild.guildId ≠ 0
  names : (realm.players.map fun pl => toLower pl.tankIDName).Nodup
  online : ∀ pl ∈ realm.players, Agrees realm.guilds pl.tankIDName pl.guildId
  offline : ∀ file ∈ realm.files,
    (∀ pl ∈ realm.players, iequals pl.tankIDName file.name = false) →
    Agrees realm.guilds file.name file.guildId

section Lists

variable {name other : String} {members : List GuildMember} {guild : Guild}

theorem iequals_comm (left right : String) : iequals left right = iequals right left := by
  unfold iequals
  exact Bool.beq_comm

/-- An entry of the one name is none of the other. -/
theorem iequals_false_of_left {left : String} (hleft : iequals left name = true)
    (hother : iequals other name = false) : iequals left other = false := by
  have hsame : toLower left = toLower name := by simpa [iequals] using hleft
  unfold iequals at hother ⊢
  rw [hsame]
  exact Bool.beq_comm.trans hother

theorem listings_congr (hsame : iequals other name = true) (guild : Guild) :
    listings other guild = listings name guild := by
  have hlower : toLower other = toLower name := by simpa [iequals] using hsame
  simp only [listings, iequals, hlower]

/-- The loop of `leave_guild` only removes entries. -/
theorem leaveLoop_sublist (name : String) (members : List GuildMember) :
    (leaveLoop name members).Sublist members := by
  fun_induction leaveLoop name members with
  | case1 => exact List.Sublist.refl _
  | case2 member rest hname hleader => exact List.Sublist.refl _
  | case3 member hname hleader => exact List.nil_sublist _
  | case4 member hname hleader skipped rest ih =>
      exact ((ih.cons_cons skipped).cons member)
  | case5 member rest hname ih => exact ih.cons_cons member

/-- Whoever leaves, the others are listed as often as before. -/
theorem leaveLoop_others (hother : iequals other name = false)
    (members : List GuildMember) :
    (leaveLoop name members).countP (fun member => iequals member.memberName other) =
      members.countP fun member => iequals member.memberName other := by
  fun_induction leaveLoop name members with
  | case1 => rfl
  | case2 member rest hname hleader => rfl
  | case3 member hname hleader =>
      simp [iequals_false_of_left hname hother]
  | case4 member hname hleader skipped rest ih =>
      simp [List.countP_cons, iequals_false_of_left hname hother, ih]
  | case5 member rest hname ih => simp [List.countP_cons, ih]

/-- A member listed once who is no leader is listed no more. -/
theorem leaveLoop_self
    (honce : members.countP (fun member => iequals member.memberName name) ≤ 1)
    (hrole : ∀ member ∈ members, iequals member.memberName name = true →
      member.roleId ≠ 3) :
    (leaveLoop name members).countP
      (fun member => iequals member.memberName name) = 0 := by
  fun_induction leaveLoop name members with
  | case1 => rfl
  | case2 member rest hname hleader =>
      exact absurd hleader (hrole member List.mem_cons_self hname)
  | case3 member hname hleader => rfl
  | case4 member hname hleader skipped rest ih =>
      simp only [List.countP_cons (a := member), hname, if_true] at honce
      have hrest := Nat.le_of_succ_le_succ honce
      have hsub := ((leaveLoop_sublist name rest).cons_cons skipped).countP_le
        (p := fun member => iequals member.memberName name)
      exact Nat.le_zero.mp (hsub.trans hrest)
  | case5 member rest hname ih =>
      simp only [List.countP_cons, hname, Bool.false_eq_true, if_false,
        Nat.add_zero] at honce ⊢
      exact ih honce fun member hmember =>
        hrole member (List.mem_cons_of_mem _ hmember)

/-- An erased entry of a name costs that name one listing and no other any. -/
theorem countP_eraseIdx {p : GuildMember → Bool} {i : Nat} {member : GuildMember}
    (hmember : members[i]? = some member) :
    members.countP p = (members.eraseIdx i).countP p + if p member then 1 else 0 := by
  induction members generalizing i with
  | nil => cases hmember
  | cons first rest ih =>
      cases i with
      | zero =>
          cases hmember
          rw [List.eraseIdx_zero, List.tail_cons, List.countP_cons]
      | succ i =>
          rw [List.eraseIdx_cons_succ, List.countP_cons, List.countP_cons,
            ih hmember]
          exact Nat.add_right_comm _ _ _

end Lists

section Regrouping

variable {guilds : List Guild} {guild changed : Guild} {g : Nat}
  {name other : String} {id newId : Int} {realm next : Realm}

theorem Agrees.congr_name (hagrees : Agrees guilds name id)
    (hsame : iequals other name = true) : Agrees guilds other id := by
  refine ⟨fun guild hguild => ?_, hagrees.named⟩
  rw [listings_congr hsame]
  exact hagrees.once guild hguild

/-- A guild of the list after one guild was changed is the changed one or has
another id. -/
theorem mem_changed (hids : (guilds.map Guild.guildId).Nodup)
    (hguild : guilds[g]? = some guild) {member : Guild}
    (hmem : member ∈ guilds.set g changed) :
    member = changed ∨ member ∈ guilds ∧ member.guildId ≠ guild.guildId := by
  obtain ⟨i, hi⟩ := List.mem_iff_getElem?.mp hmem
  by_cases hig : g = i
  · subst hig
    rw [List.getElem?_set_self (List.getElem?_eq_some_iff.mp hguild).1] at hi
    exact Or.inl (Option.some.inj hi).symm
  · rw [List.getElem?_set_ne hig] at hi
    refine Or.inr ⟨List.mem_of_getElem? hi, fun hsame => hig ?_⟩
    have hg : (guilds.map Guild.guildId)[g]? = some guild.guildId := by
      rw [List.getElem?_map, hguild, Option.map_some]
    have hother : (guilds.map Guild.guildId)[i]? = some guild.guildId := by
      rw [List.getElem?_map, hi, Option.map_some, hsame]
    exact (List.getElem?_inj (List.getElem?_eq_some_iff.mp hg).1 hids).mp
      (hg.trans hother.symm)

theorem ids_changed (hguild : guilds[g]? = some guild)
    (hid : changed.guildId = guild.guildId) :
    (guilds.set g changed).map Guild.guildId = guilds.map Guild.guildId := by
  obtain ⟨hlt, rfl⟩ := List.getElem?_eq_some_iff.mp hguild
  rw [List.map_set, hid, ← List.getElem_map Guild.guildId (h := by simpa using hlt)]
  exact List.set_getElem_self _

/-- A player of whom the changed guild has as many entries as before. -/
theorem Agrees.kept (hids : (guilds.map Guild.guildId).Nodup)
    (hguild : guilds[g]? = some guild) (hid : changed.guildId = guild.guildId)
    (hlistings : listings other changed = listings other guild)
    (hagrees : Agrees guilds other id) :
    Agrees (guilds.set g changed) other id := by
  refine ⟨fun member hmember => ?_, ?_⟩
  · rcases mem_changed hids hguild hmember with rfl | ⟨hold, -⟩
    · rw [hlistings, hid]
      exact hagrees.once guild (List.mem_of_getElem? hguild)
    · exact hagrees.once member hold
  · rw [ids_changed hguild hid]
    exact hagrees.named

/-- A player who is removed from the list of its guild belongs to none. -/
theorem Agrees.removed (hids : (guilds.map Guild.guildId).Nodup)
    (hnonzero : ∀ guild ∈ guilds, guild.guildId ≠ 0)
    (hguild : guilds[g]? = some guild) (hid : changed.guildId = guild.guildId)
    (hlisted : listings name guild ≠ 0) (hlistings : listings name changed = 0)
    (hagrees : Agrees guilds name id) :
    Agrees (guilds.set g changed) name 0 := by
  have hmine : guild.guildId = id := by
    have honce := hagrees.once guild (List.mem_of_getElem? hguild)
    by_contra hne
    rw [if_neg hne] at honce
    exact hlisted honce
  refine ⟨fun member hmember => ?_, Or.inl rfl⟩
  rcases mem_changed hids hguild hmember with rfl | ⟨hold, hne⟩
  · rw [if_neg (by rw [hid]; exact hnonzero guild (List.mem_of_getElem? hguild))]
    exact hlistings
  · rw [if_neg (hnonzero member hold), hagrees.once member hold,
      if_neg (by rw [← hmine]; exact hne)]

/-- A player of no guild who is entered into a list belongs to that guild. -/
theorem Agrees.entered (hids : (guilds.map Guild.guildId).Nodup)
    (hnonzero : ∀ guild ∈ guilds, guild.guildId ≠ 0)
    (hguild : guilds[g]? = some guild) (hid : changed.guildId = guild.guildId)
    (hlistings : listings name changed = listings name guild + 1)
    (hagrees : Agrees guilds name 0) :
    Agrees (guilds.set g changed) name guild.guildId := by
  have hmem := List.mem_of_getElem? hguild
  refine ⟨fun member hmember => ?_, Or.inr ?_⟩
  · rcases mem_changed hids hguild hmember with rfl | ⟨hold, hne⟩
    · rw [hlistings, hagrees.once guild hmem, if_neg (hnonzero guild hmem),
        if_pos hid]
    · rw [if_neg hne, hagrees.once member hold, if_neg (hnonzero member hold)]
  · rw [ids_changed hguild hid]
    exact List.mem_map_of_mem hmem

/-- The name and the guild of a connected player. -/
def card (pl : Player) : String × Int := (pl.tankIDName, pl.guildId)

/-- A player of a name changes guild. -/
def moved (name : String) (newId : Int) (old : String × Int) : String × Int :=
  if iequals old.1 name then (old.1, newId) else old

theorem moved_same {pl : Player} (hname : iequals pl.tankIDName name = true) :
    moved name newId (card pl) = (pl.tankIDName, newId) :=
  if_pos hname

theorem moved_other {pl : Player} (hname : iequals pl.tankIDName name = false) :
    moved name newId (card pl) = card pl :=
  if_neg (ne_true_of_eq_false hname)

/-- One guild changes its list in what concerns one player, and that player
changes guild, connected or on file. -/
structure Regroup (realm next : Realm) (name : String) (newId : Int) (g : Nat)
    (guild changed : Guild) : Prop where
  before : realm.guilds[g]? = some guild
  after : next.guilds = realm.guilds.set g changed
  sameId : changed.guildId = guild.guildId
  others : ∀ other, iequals other name = false →
    listings other changed = listings other guild
  self : ∀ id, Agrees realm.guilds name id → Agrees next.guilds name newId
  players : next.players.map card =
    (realm.players.map card).map (moved name newId)
  files : ∀ file ∈ next.files,
    (∃ pl ∈ next.players, iequals pl.tankIDName file.name = true) ∨
      if iequals file.name name then
        file.guildId = newId ∧ ∃ old ∈ realm.files, old.name = file.name
      else file ∈ realm.files

/-- A list of players in which one changes guild has the same names. -/
theorem names_of_moved {left right : List Player}
    (hcards : left.map card = (right.map card).map (moved name newId)) :
    left.map Player.tankIDName = right.map Player.tankIDName := by
  have hfirst := congrArg (List.map Prod.fst) hcards
  rw [List.map_map, List.map_map, List.map_map] at hfirst
  refine hfirst.trans (List.map_congr_left fun pl _ => ?_)
  dsimp only [Function.comp, moved]
  split <;> rfl

theorem lower_names {left right : List Player}
    (hnames : left.map Player.tankIDName = right.map Player.tankIDName) :
    (left.map fun pl => toLower pl.tankIDName) =
      right.map fun pl => toLower pl.tankIDName := by
  have hlower := congrArg (List.map toLower) hnames
  rwa [List.map_map, List.map_map] at hlower

theorem mem_of_names {left right : List Player} {pl : Player}
    (hnames : left.map Player.tankIDName = right.map Player.tankIDName)
    (hpl : pl ∈ right) : ∃ same ∈ left, same.tankIDName = pl.tankIDName := by
  have hmem : pl.tankIDName ∈ left.map Player.tankIDName := by
    rw [hnames]
    exact List.mem_map_of_mem hpl
  exact List.mem_map.mp hmem

/-- The player who changes guild agrees with the new one. -/
theorem Regroup.agrees_self
    (hregroup : Regroup realm next name newId g guild changed) {other : String}
    {id : Int} (hname : iequals other name = true)
    (hagrees : Agrees realm.guilds other id) : Agrees next.guilds other newId := by
  have hback : iequals name other = true := by
    rw [iequals_comm]
    exact hname
  exact (hregroup.self _ (hagrees.congr_name hback)).congr_name hname

theorem Regroup.agrees_other
    (hregroup : Regroup realm next name newId g guild changed)
    (hids : (realm.guilds.map Guild.guildId).Nodup) {other : String} {id : Int}
    (hname : iequals other name = false) (hagrees : Agrees realm.guilds other id) :
    Agrees next.guilds other id := by
  rw [hregroup.after]
  exact hagrees.kept hids hregroup.before hregroup.sameId
    (hregroup.others other hname)

theorem Agreement.regroup_online (hagreement : Agreement realm)
    (hregroup : Regroup realm next name newId g guild changed) :
    ∀ pl ∈ next.players, Agrees next.guilds pl.tankIDName pl.guildId := by
  intro pl hpl
  have hcard : card pl ∈ next.players.map card := List.mem_map_of_mem hpl
  rw [hregroup.players, List.map_map] at hcard
  obtain ⟨old, hold, hcard⟩ := List.mem_map.mp hcard
  rw [Function.comp_apply] at hcard
  have hagrees := hagreement.online old hold
  cases hname : iequals old.tankIDName name with
  | true =>
      rw [moved_same hname] at hcard
      obtain ⟨htank, hguildId⟩ := Prod.mk.inj hcard
      rw [← htank, ← hguildId]
      exact hregroup.agrees_self hname hagrees
  | false =>
      rw [moved_other hname] at hcard
      obtain ⟨htank, hguildId⟩ := Prod.mk.inj hcard
      rw [← htank, ← hguildId]
      exact hregroup.agrees_other hagreement.ids hname hagrees

theorem Agreement.regroup_offline (hagreement : Agreement realm)
    (hregroup : Regroup realm next name newId g guild changed) :
    ∀ file ∈ next.files,
      (∀ pl ∈ next.players, iequals pl.tankIDName file.name = false) →
      Agrees next.guilds file.name file.guildId := by
  intro file hfile halone
  have hbefore : ∀ pl ∈ realm.players, iequals pl.tankIDName file.name = false := by
    intro pl hpl
    obtain ⟨same, hsame, htank⟩ :=
      mem_of_names (names_of_moved hregroup.players) hpl
    rw [← htank]
    exact halone same hsame
  rcases hregroup.files file hfile with ⟨pl, hpl, hname⟩ | hcase
  · rw [halone pl hpl] at hname
    cases hname
  · cases hname : iequals file.name name with
    | true =>
        rw [hname, if_pos rfl] at hcase
        obtain ⟨hguildId, old, hold, hsame⟩ := hcase
        have hagrees := hagreement.offline old hold (by rw [hsame]; exact hbefore)
        rw [hsame] at hagrees
        rw [hguildId]
        exact hregroup.agrees_self hname hagrees
    | false =>
        rw [hname, if_neg Bool.false_ne_true] at hcase
        exact hregroup.agrees_other hagreement.ids hname
          (hagreement.offline file hcase hbefore)

/-- Players and guilds agree after a change of one guild and one player. -/
theorem Agreement.regroup (hagreement : Agreement realm)
    (hregroup : Regroup realm next name newId g guild changed) :
    Agreement next where
  ids := by
    rw [hregroup.after, ids_changed hregroup.before hregroup.sameId]
    exact hagreement.ids
  nonzero member hmember := by
    rw [hregroup.after] at hmember
    rcases mem_changed hagreement.ids hregroup.before hmember with rfl | ⟨hold, -⟩
    · rw [hregroup.sameId]
      exact hagreement.nonzero guild (List.mem_of_getElem? hregroup.before)
    · exact hagreement.nonzero member hold
  names := by
    rw [lower_names (names_of_moved hregroup.players)]
    exact hagreement.names
  online := hagreement.regroup_online hregroup
  offline := hagreement.regroup_offline hregroup

end Regrouping

section Cards

variable {players : List Player} {pl : Player} {p : Nat} {f : Player → Player}
  {newId : Int} {realm : Realm}

theorem card_updateGuildName (guilds : List Guild) (guildWorld : String)
    (world : World) (pl : Player) :
    card (updateGuildName guilds guildWorld world pl) = card pl := by
  unfold updateGuildName
  split
  · rfl
  · split
    · rfl
    · split <;> rfl

theorem cards_modify (hkeeps : ∀ pl, card (f pl) = card pl)
    (players : List Player) (p : Nat) :
    (players.modify p f).map card = players.map card :=
  map_modify_kept fun pl _ => hkeeps pl

/-- The guild of one player changes, whom the name tells from all others. -/
theorem cards_named
    (hnames : (players.map fun pl => toLower pl.tankIDName).Nodup)
    (hpl : players[p]? = some pl)
    (hchange : ∀ pl, card (f pl) = (pl.tankIDName, newId)) :
    (players.modify p f).map card =
      (players.map card).map (moved pl.tankIDName newId) := by
  refine List.ext_getElem? fun i => ?_
  rw [List.getElem?_map, List.getElem?_map, List.getElem?_map,
    List.getElem?_modify]
  cases hi : players[i]? with
  | none => rfl
  | some cp =>
      dsimp only [Option.map_some]
      by_cases hip : p = i
      · subst hip
        rw [← Option.some.inj (hpl.symm.trans hi)]
        have hself : iequals pl.tankIDName pl.tankIDName = true := by
          simp [iequals]
        simp [hchange, moved_same hself]
      · have hother : iequals cp.tankIDName pl.tankIDName = false := by
          rw [iequals, beq_eq_false_iff_ne]
          intro hsame
          refine hip ((List.getElem?_inj ?_ hnames).mp ?_)
          · rw [List.length_map]
            exact (List.getElem?_eq_some_iff.mp hpl).1
          · rw [List.getElem?_map, List.getElem?_map, hpl, hi, Option.map_some,
              Option.map_some, hsame]
        simp [hip, moved_other hother]

/-- Saving a player writes a file of its name and keeps its guild. -/
theorem savePlayer_cards (p : Nat) (realm : Realm) :
    (realm.savePlayer p).players.map card = realm.players.map card ∧
      ∀ file ∈ (realm.savePlayer p).files, file ∈ realm.files ∨
        ∃ pl ∈ realm.players, file.name = pl.tankIDName := by
  unfold Realm.savePlayer
  split
  · exact ⟨rfl, fun file hfile => Or.inl hfile⟩
  next pl hpl =>
    split
    · exact ⟨rfl, fun file hfile => Or.inl hfile⟩
    · constructor
      · dsimp only [Realm.writeFile, Realm.mapPlayer]
        apply cards_modify
        intro pl
        simp only [card]
      · intro file hfile
        rcases List.mem_cons.mp hfile with rfl | hold
        · exact Or.inr ⟨pl, List.mem_of_getElem? hpl, rfl⟩
        · exact Or.inl (List.mem_filter.mp hold).1

/-- A player changes guild and is saved: its file is written, and nothing else
changes. -/
theorem saved_cards
    (hnames : (realm.players.map fun pl => toLower pl.tankIDName).Nodup)
    (hpl : realm.players[p]? = some pl) (newId : Int) :
    let saved := (realm.mapPlayer p fun pl => { pl with guildId := newId }).savePlayer p
    saved.guilds = realm.guilds ∧
      saved.players.map card =
        (realm.players.map card).map (moved pl.tankIDName newId) ∧
      ∀ file ∈ saved.files, file ∈ realm.files ∨
        ∃ pl ∈ realm.players, file.name = pl.tankIDName := by
  intro saved
  obtain ⟨hcards, hfiles⟩ := savePlayer_cards p
    (realm.mapPlayer p fun pl => { pl with guildId := newId })
  have hmoved : ((realm.mapPlayer p fun pl =>
        { pl with guildId := newId }).players.map card) =
      (realm.players.map card).map (moved pl.tankIDName newId) :=
    cards_named hnames hpl fun _ => rfl
  refine ⟨(Realm.savePlayer_frame p _).1, hcards.trans hmoved, ?_⟩
  intro file hfile
  rcases hfiles file hfile with hold | ⟨cp, hcp, hname⟩
  · exact Or.inl hold
  · obtain ⟨same, hsame, htank⟩ := mem_of_names (names_of_moved hmoved).symm hcp
    exact Or.inr ⟨same, hsame, hname.trans htank.symm⟩

theorem names_of_cards {left right : List Player}
    (hcards : left.map card = right.map card) :
    left.map Player.tankIDName = right.map Player.tankIDName := by
  have hfirst := congrArg (List.map Prod.fst) hcards
  rwa [List.map_map, List.map_map] at hfirst

theorem modify_eq_set {guilds : List Guild} {g : Nat} {guild : Guild}
    (hguild : guilds[g]? = some guild) (f : Guild → Guild) :
    guilds.modify g f = guilds.set g (f guild) := by
  rw [List.modify_eq_set_getElem?, hguild]
  rfl

theorem guildIdx_id {realm : Realm} {id : Int} {g : Nat} {guild : Guild}
    (hidx : realm.guildIdx id = some g) (hguild : realm.guilds[g]? = some guild) :
    guild.guildId = id := by
  obtain ⟨hlt, hfound, -⟩ := List.findIdx?_eq_some_iff_getElem.mp hidx
  rw [(List.getElem?_eq_some_iff.mp hguild).2] at hfound
  exact eq_of_beq hfound

end Cards

section Steps

variable {env : Env} {realm next : Realm} {p q w g i : Nat} {cch name : String}
  {pl : Player} {guild : Guild} {now : Int}

/-- The only member of a guild is a leader and calls `leave_guild`. -/
def LeaderAlone (p : Nat) (realm : Realm) : Prop :=
  ∃ pl guild, realm.players[p]? = some pl ∧ guild ∈ realm.guilds ∧
    guild.guildId = pl.guildId ∧ guild.guildMembers.length = 1 ∧
    memberRank guild.guildMembers pl.tankIDName = 3

/-- The member named in a message is connected, or its file has this name to the
letter. -/
def Reached (cch : String) (realm : Realm) : Prop :=
  let name := getEmbed cch "guildmembername"
  (∃ pl ∈ realm.players, iequals pl.tankIDName name = true) ∨
    ∀ file ∈ realm.files, iequals file.name name = true → file.name = name

theorem leaves_some (hleaves : leaves p realm = some (pl, g, guild)) :
    realm.players[p]? = some pl ∧ realm.guilds[g]? = some guild ∧
      guild.guildId = pl.guildId ∧
      (guild.guildMembers.any (fun member =>
          iequals member.memberName pl.tankIDName && member.roleId == 3) = true →
        guild.guildMembers.length = 1) := by
  unfold leaves at hleaves
  split at hleaves
  · cases hleaves
  next hpl =>
    split at hleaves
    · cases hleaves
    · split at hleaves
      · cases hleaves
      next hidx =>
        split at hleaves
        · cases hleaves
        next hguild =>
          split_ifs at hleaves with hleader
          obtain ⟨rfl, rfl, rfl⟩ := Option.some.inj hleaves
          refine ⟨hpl, hguild, guildIdx_id hidx hguild, fun hany => ?_⟩
          by_contra hlength
          exact hleader ⟨hany, hlength⟩

/-- Whoever leaves without being a leader alone is no leader. -/
theorem leaves_role (hleaves : leaves p realm = some (pl, g, guild))
    (halone : ¬ LeaderAlone p realm) :
    ∀ member ∈ guild.guildMembers,
      iequals member.memberName pl.tankIDName = true → member.roleId ≠ 3 := by
  intro member hmember hname hrole
  obtain ⟨hpl, hguild, hid, hlength⟩ := leaves_some hleaves
  have hone := hlength (List.any_eq_true.mpr
    ⟨member, hmember, by rw [hname, hrole]; rfl⟩)
  refine halone ⟨pl, guild, hpl, List.mem_of_getElem? hguild, hid, hone, ?_⟩
  obtain ⟨only, honly⟩ := List.length_eq_one_iff.mp hone
  rw [honly] at hmember ⊢
  rw [List.mem_singleton] at hmember
  subst hmember
  simp [memberRank, hname, hrole]

/-- The files after a step that writes files of connected players only, one of
whom changes guild. -/
theorem files_connected
    (hnames : next.players.map Player.tankIDName =
      realm.players.map Player.tankIDName)
    (hpl : pl ∈ realm.players)
    (hfiles : ∀ file ∈ next.files, file ∈ realm.files ∨
      ∃ pl ∈ realm.players, file.name = pl.tankIDName) (newId : Int) :
    ∀ file ∈ next.files,
      (∃ pl ∈ next.players, iequals pl.tankIDName file.name = true) ∨
        if iequals file.name pl.tankIDName then
          file.guildId = newId ∧ ∃ old ∈ realm.files, old.name = file.name
        else file ∈ realm.files := by
  intro file hfile
  rcases hfiles file hfile with hold | ⟨cp, hcp, hname⟩
  · cases hname : iequals file.name pl.tankIDName with
    | true =>
        obtain ⟨same, hsame, htank⟩ := mem_of_names hnames hpl
        refine Or.inl ⟨same, hsame, ?_⟩
        rw [htank, iequals_comm]
        exact hname
    | false => exact Or.inr hold
  · obtain ⟨same, hsame, htank⟩ := mem_of_names hnames hcp
    exact Or.inl ⟨same, hsame, by simp [iequals, hname, htank]⟩

/-- What `leave_guild` changes. -/
theorem leaveGuild_regroup (hagreement : Agreement realm)
    (halone : ¬ LeaderAlone p realm)
    (hleaves : leaves p realm = some (pl, g, guild)) :
    Regroup realm (leaveGuild p realm) pl.tankIDName 0 g guild
      (takeOff pl.tankIDName guild) := by
  obtain ⟨hpl, hguild, hid, -⟩ := leaves_some hleaves
  have hmem := List.mem_of_getElem? hpl
  have hlisted := (hagreement.online pl hmem).once guild
    (List.mem_of_getElem? hguild)
  rw [if_pos hid] at hlisted
  obtain ⟨hguilds, hcards, hfiles⟩ := saved_cards hagreement.names hpl 0
  unfold leaveGuild
  rw [hleaves]
  dsimp only
  generalize Realm.savePlayer p _ = saved at hguilds hcards hfiles ⊢
  have hafter : saved.guilds.modify g (takeOff pl.tankIDName) =
      realm.guilds.set g (takeOff pl.tankIDName guild) := by
    rw [hguilds]
    exact modify_eq_set hguild _
  constructor
  case before => exact hguild
  case after => exact hafter
  case sameId => exact takeOff_id _ _
  case others =>
    intro other hother
    have hlists := leaveLoop_others hother guild.guildMembers
    unfold listings
    rw [takeOff_members]
    exact hlists
  case self =>
    intro id hagrees
    dsimp only [Realm.mapGuild]
    rw [hafter]
    refine hagrees.removed hagreement.ids hagreement.nonzero hguild (takeOff_id _ _) ?_ ?_
    · rw [hlisted]
      exact Nat.one_ne_zero
    · have hself := leaveLoop_self (Nat.le_of_eq hlisted) (leaves_role hleaves halone)
      unfold listings
      rw [takeOff_members]
      exact hself
  case players => exact hcards
  case files => exact files_connected (names_of_moved hcards) hmem hfiles 0

theorem leaveGuild_agreement (hagreement : Agreement realm)
    (halone : ¬ LeaderAlone p realm) : Agreement (leaveGuild p realm) := by
  cases hleaves : leaves p realm with
  | none =>
      unfold leaveGuild
      rw [hleaves]
      exact hagreement
  | some found =>
      exact hagreement.regroup (leaveGuild_regroup hagreement halone hleaves)

theorem removes_some (hremoves : removes cch p realm = some (name, g, guild, i)) :
    name = getEmbed cch "guildmembername" ∧ realm.guilds[g]? = some guild ∧
      ∃ member, guild.guildMembers[i]? = some member ∧
        iequals member.memberName name = true := by
  unfold removes at hremoves
  split_ifs at hremoves with hbutton
  split at hremoves
  · cases hremoves
  · split at hremoves
    · cases hremoves
    · split at hremoves
      · cases hremoves
      next hguild =>
        dsimp only at hremoves
        split at hremoves
        · cases hremoves
        next hfound =>
          split_ifs at hremoves
          simp only [Option.some.injEq, Prod.mk.injEq] at hremoves
          obtain ⟨hname, rfl, rfl, rfl⟩ := hremoves
          rw [hname] at hfound
          obtain ⟨hlt, hmember, -⟩ := List.findIdx?_eq_some_iff_getElem.mp hfound
          exact ⟨hname.symm, hguild, _, List.getElem?_eq_getElem hlt, hmember⟩

theorem card_expel (guilds : List Guild) (worlds : List World) (guild : Guild)
    (name : String) (pl : Player) :
    card (expel guilds worlds guild name pl) = moved name 0 (card pl) := by
  unfold expel moved card
  split
  · dsimp only
    split
    · exact card_updateGuildName _ _ _ _
    · rfl
  · rfl

/-- The files after a removal. -/
theorem files_expelled
    (hreached : (∃ pl ∈ realm.players, iequals pl.tankIDName name = true) ∨
      ∀ file ∈ realm.files, iequals file.name name = true → file.name = name) :
    ∀ file ∈ (if realm.players.any (fun cp => iequals cp.tankIDName name) = true then
        realm.files else realm.files.map (expelFile name)),
      (∃ pl ∈ realm.players, iequals pl.tankIDName file.name = true) ∨
        if iequals file.name name then
          file.guildId = 0 ∧ ∃ old ∈ realm.files, old.name = file.name
        else file ∈ realm.files := by
  intro file hfile
  split_ifs at hfile with hany
  · obtain ⟨pl, hpl, hname⟩ := List.any_eq_true.mp hany
    cases hsame : iequals file.name name with
    | true =>
        have hlower : toLower file.name = toLower name := by
          simpa [iequals] using hsame
        refine Or.inl ⟨pl, hpl, ?_⟩
        rwa [iequals, hlower]
    | false => exact Or.inr hfile
  · obtain ⟨old, hold, rfl⟩ := List.mem_map.mp hfile
    rcases hreached with ⟨pl, hpl, hname⟩ | hspelled
    · exact absurd (List.any_eq_true.mpr ⟨pl, hpl, hname⟩) hany
    · right
      unfold expelFile
      by_cases hname : old.name = name
      · rw [if_pos hname]
        have hself : iequals name name = true := by simp [iequals]
        rw [if_pos (by rw [hname]; exact hself)]
        exact ⟨rfl, old, hold, rfl⟩
      · rw [if_neg hname, if_neg (fun hsame => hname (hspelled old hold hsame))]
        exact hold

/-- What `guild_member_remove` changes. -/
theorem guildMemberRemove_regroup (hagreement : Agreement realm)
    (hreached : Reached cch realm)
    (hremoves : removes cch p realm = some (name, g, guild, i)) :
    Regroup realm (guildMemberRemove cch p realm) name 0 g guild
      { guild with guildMembers := guild.guildMembers.eraseIdx i }.toSave := by
  obtain ⟨hname, hguild, member, hmember, hsame⟩ := removes_some hremoves
  have hfiles := @files_expelled realm name (by rw [hname]; exact hreached)
  have hafter : realm.guilds.modify g (fun guild =>
        { guild with guildMembers := guild.guildMembers.eraseIdx i }.toSave) =
      realm.guilds.set g
        { guild with guildMembers := guild.guildMembers.eraseIdx i }.toSave :=
    modify_eq_set hguild _
  have hcards : (realm.players.map (expel realm.guilds realm.worlds guild name)).map
        card =
      (realm.players.map card).map (moved name 0) := by
    rw [List.map_map, List.map_map]
    exact List.map_congr_left fun pl _ => card_expel _ _ _ _ pl
  unfold guildMemberRemove
  rw [hremoves]
  constructor
  case before => exact hguild
  case after => exact hafter
  case sameId => rfl
  case others =>
    intro other hother
    have herase := @countP_eraseIdx guild.guildMembers
      (fun member => iequals member.memberName other) i member hmember
    rw [iequals_false_of_left hsame hother] at herase
    exact herase.symm
  case self =>
    intro id hagrees
    have herase := @countP_eraseIdx guild.guildMembers
      (fun member => iequals member.memberName name) i member hmember
    rw [hsame, if_pos rfl] at herase
    have hlisted := hagrees.once guild (List.mem_of_getElem? hguild)
    have hone : listings name guild ≤ 1 := by
      rw [hlisted]
      split <;> decide
    change Agrees (realm.guilds.modify g _) name 0
    rw [hafter]
    refine hagrees.removed hagreement.ids hagreement.nonzero hguild rfl ?_ ?_
    · unfold listings
      rw [herase]
      exact Nat.succ_ne_zero _
    · unfold listings at hone ⊢
      rw [herase] at hone
      exact Nat.le_zero.mp (Nat.le_of_succ_le_succ hone)
  case players => exact hcards
  case files =>
    intro file hfile
    rcases hfiles file hfile with ⟨pl, hpl, hconnected⟩ | hcase
    · obtain ⟨same, hmem, htank⟩ := mem_of_names (names_of_moved hcards) hpl
      exact Or.inl ⟨same, hmem, by rw [htank]; exact hconnected⟩
    · exact Or.inr hcase

theorem guildMemberRemove_agreement (hagreement : Agreement realm)
    (hreached : Reached cch realm) :
    Agreement (guildMemberRemove cch p realm) := by
  cases hremoves : removes cch p realm with
  | none =>
      unfold guildMemberRemove
      rw [hremoves]
      exact hagreement
  | some found =>
      exact hagreement.regroup
        (guildMemberRemove_regroup hagreement hreached hremoves)

/-- A step that changes no guild and nobody's guild. -/
theorem Agreement.same (hagreement : Agreement realm)
    (hguilds : next.guilds = realm.guilds)
    (hcards : next.players.map card = realm.players.map card)
    (hfiles : next.files = realm.files) : Agreement next := by
  have hnames := names_of_cards hcards
  refine ⟨?_, ?_, ?_, ?_, ?_⟩
  · rw [hguilds]
    exact hagreement.ids
  · rw [hguilds]
    exact hagreement.nonzero
  · rw [lower_names hnames]
    exact hagreement.names
  · intro pl hpl
    have hmem : card pl ∈ next.players.map card := List.mem_map_of_mem hpl
    rw [hcards] at hmem
    obtain ⟨old, hold, hcard⟩ := List.mem_map.mp hmem
    obtain ⟨htank, hguildId⟩ := Prod.mk.inj hcard
    rw [hguilds, ← htank, ← hguildId]
    exact hagreement.online old hold
  · intro file hfile halone
    rw [hfiles] at hfile
    rw [hguilds]
    refine hagreement.offline file hfile fun pl hpl => ?_
    obtain ⟨same, hsame, htank⟩ := mem_of_names hnames hpl
    rw [← htank]
    exact halone same hsame

theorem cancelTrade_cards (p : Nat) (server : Server) :
    (Trade.cancelTrade p server).players.map card = server.players.map card := by
  have htrading : ∀ (q : Nat) (f : Trading → Trading) (server : Server),
      (Trade.mapTrading q f server).players.map card =
        server.players.map card := by
    intro q f server
    apply cards_modify
    intro pl
    simp only [card]
  unfold Trade.cancelTrade
  dsimp only
  rw [htrading]
  split
  · rw [htrading]
  · rfl

theorem releaseWorld_cards {world : World}
    (hrelease : GuildTransfer.releaseWorld p world realm = some next) :
    next.players.map card = realm.players.map card ∧
      next.files = realm.files := by
  rcases GuildTransfer.releaseWorld_cases hrelease with rfl | ⟨owner, rfl⟩
  · exact ⟨rfl, rfl⟩
  · refine ⟨?_, rfl⟩
    apply cards_modify
    intro pl
    simp only [card]

theorem giveWorld_cards (w q : Nat) (world : World) (buyer : Player)
    (realm : Realm) :
    (GuildTransfer.giveWorld w q world buyer realm).players.map card =
      realm.players.map card := by
  apply cards_modify
  intro pl
  simp only [card]

/-- A sale adds the buyer to the list. -/
theorem listings_handOver (beforeName buyer other : String) (now : Int)
    (guild : Guild) :
    listings other { guild with
        guildMembers := GuildTransfer.handOver beforeName buyer now
          guild.guildMembers }.toSave =
      listings other guild + if iequals buyer other then 1 else 0 := by
  have hnames : ∀ members : List GuildMember,
      members.countP (fun member => iequals member.memberName other) =
        (members.map GuildMember.memberName).countP fun name =>
          iequals name other := by
    intro members
    rw [List.countP_map]
    rfl
  unfold listings
  rw [hnames, hnames]
  dsimp only [Guild.toSave]
  rw [GuildTransfer.handOver_names, List.countP_append, List.countP_singleton]

/-- A sale of a guild world as it changes the realm in which the world has
passed to the buyer. -/
theorem promote_cards {given : Realm} {world : World} {buyer : Player}
    (hgiven : given.players.map card = realm.players.map card)
    (hnames : (realm.players.map fun pl => toLower pl.tankIDName).Nodup)
    (hbuyer : realm.players[q]? = some buyer)
    (hguilds : given.guilds = realm.guilds)
    (hguild : realm.guilds[g]? = some guild)
    (hfiles : given.files = realm.files) :
    let after := GuildTransfer.promote now w p q g world buyer given
    after.guilds = realm.guilds.set g
        { guild with
          guildMembers := GuildTransfer.handOver world.ownerName
            buyer.tankIDName now guild.guildMembers }.toSave ∧
      after.players.map card =
        (realm.players.map card).map (moved buyer.tankIDName world.guildId) ∧
      ∀ file ∈ after.files, file ∈ realm.files ∨
        ∃ pl ∈ realm.players, file.name = pl.tankIDName := by
  have hcard : (given.players.map card)[q]? = some (card buyer) := by
    rw [hgiven, List.getElem?_map, hbuyer, Option.map_some]
  rw [List.getElem?_map] at hcard
  obtain ⟨same, hsame, hsameCard⟩ := Option.map_eq_some_iff.mp hcard
  have htank : same.tankIDName = buyer.tankIDName := (Prod.mk.inj hsameCard).1
  have hgivenNames := names_of_cards hgiven
  rw [← lower_names hgivenNames] at hnames
  have hsaved := @saved_cards same q
    (given.mapGuild g fun guild =>
      { guild with
        guildMembers := GuildTransfer.handOver world.ownerName buyer.tankIDName
          now guild.guildMembers }.toSave) hnames hsame world.guildId
  dsimp only at hsaved
  rw [htank] at hsaved
  obtain ⟨hsavedGuilds, hsavedCards, hsavedFiles⟩ := hsaved
  unfold GuildTransfer.promote
  dsimp only
  generalize Realm.savePlayer q _ = saved at hsavedGuilds hsavedCards hsavedFiles ⊢
  refine ⟨?_, ?_, ?_⟩
  · dsimp only [Realm.mapPlayer]
    rw [hsavedGuilds]
    dsimp only [Realm.mapGuild]
    rw [hguilds]
    exact modify_eq_set hguild _
  · dsimp only [Realm.mapPlayer]
    rw [cards_modify (card_updateGuildName _ _ _),
      cards_modify (card_updateGuildName _ _ _), hsavedCards]
    dsimp only [Realm.mapGuild]
    rw [hgiven]
  · intro file hfile
    rcases hsavedFiles file hfile with hold | ⟨pl, hpl, hname⟩
    · dsimp only [Realm.mapGuild] at hold
      rw [hfiles] at hold
      exact Or.inl hold
    · obtain ⟨cp, hcp, hcpName⟩ := mem_of_names hgivenNames.symm hpl
      exact Or.inr ⟨cp, hcp, hname.trans hcpName.symm⟩

/-- What a sale of a guild world changes. -/
theorem promote_regroup {world : World} {buyer : Player}
    (hagreement : Agreement realm)
    (hbuyer : realm.players[q]? = some buyer) (hnone : buyer.guildId = 0)
    (hguild : realm.guilds[g]? = some guild)
    (hid : guild.guildId = world.guildId)
    (hrelease : GuildTransfer.releaseWorld p world realm = some next) :
    Regroup realm
      (GuildTransfer.promote now w p q g world buyer
        (GuildTransfer.giveWorld w q world buyer next))
      buyer.tankIDName world.guildId g guild
      { guild with
        guildMembers := GuildTransfer.handOver world.ownerName buyer.tankIDName
          now guild.guildMembers }.toSave := by
  have hmem := List.mem_of_getElem? hbuyer
  have hbefore := hagreement.online buyer hmem
  rw [hnone] at hbefore
  obtain ⟨hreleased, hreleasedFiles⟩ := releaseWorld_cards hrelease
  obtain ⟨hreleasedGuilds, -⟩ := GuildTransfer.releaseWorld_frame hrelease
  have hgiven := (giveWorld_cards w q world buyer next).trans hreleased
  obtain ⟨hafter, hcards, hfiles⟩ := @promote_cards realm p q w g guild now
    (GuildTransfer.giveWorld w q world buyer next) world buyer hgiven
    hagreement.names hbuyer hreleasedGuilds hguild hreleasedFiles
  generalize GuildTransfer.promote now w p q g world buyer _ = after
    at hafter hcards hfiles ⊢
  constructor
  case before => exact hguild
  case after => exact hafter
  case sameId => rfl
  case others =>
    intro other hother
    rw [listings_handOver, iequals_comm, hother]
    rfl
  case self =>
    intro id _
    rw [hafter, ← hid]
    refine hbefore.entered hagreement.ids hagreement.nonzero hguild rfl ?_
    rw [listings_handOver]
    simp [iequals]
  case players => exact hcards
  case files =>
    exact files_connected (names_of_moved hcards) hmem hfiles world.guildId

/-- `transfer_world` keeps players and guilds in agreement. -/
theorem transferWorld_agreement (hagreement : Agreement realm) :
    Agreement (GuildTransfer.transferWorld env now w p q realm).2 := by
  unfold GuildTransfer.transferWorld
  split
  next world seller buyer hworld hseller hbuyer =>
    split
    · exact hagreement
    · split
      next hlocked =>
        split
        · exact hagreement
        next g hidx =>
          dsimp only
          split
          · exact hagreement.same rfl (cancelTrade_cards p realm.toServer) rfl
          next hallowed =>
            split
            · exact hagreement
            next released hrelease =>
              obtain ⟨hlt, -, -⟩ := List.findIdx?_eq_some_iff_getElem.mp hidx
              have hguild := List.getElem?_eq_getElem hlt
              have hnone : buyer.guildId = 0 := by
                by_contra hne
                exact hallowed (Or.inr (Or.inr hne))
              exact hagreement.regroup (promote_regroup hagreement hbuyer hnone
                hguild (guildIdx_id hidx hguild) hrelease)
      next =>
        split
        · exact hagreement
        next released hrelease =>
          obtain ⟨hreleased, hfiles⟩ := releaseWorld_cards hrelease
          exact hagreement.same (GuildTransfer.releaseWorld_frame hrelease).1
            ((giveWorld_cards w q world buyer released).trans hreleased) hfiles
  next => exact hagreement

end Steps

section Runs

variable {env : Env} {start realm next : Realm}

/-- The calls of a run. -/
inductive Call where
  | leave (p : Nat)
  | remove (p : Nat) (cch : String)
  | transfer (now : Int) (w p q : Nat)

/-- What a call does. -/
def Call.apply (env : Env) : Call → Realm → Realm
  | .leave p, realm => leaveGuild p realm
  | .remove p cch, realm => guildMemberRemove cch p realm
  | .transfer now w p q, realm =>
      (GuildTransfer.transferWorld env now w p q realm).2

/-- The calls that meet neither slip. -/
def Call.Sound : Call → Realm → Prop
  | .leave p, realm => ¬ LeaderAlone p realm
  | .remove _ cch, realm => Reached cch realm
  | .transfer _ _ _ _, _ => True

def Step (env : Env) (realm next : Realm) : Prop :=
  ∃ call : Call, next = call.apply env realm

def SoundStep (env : Env) (realm next : Realm) : Prop :=
  ∃ call : Call, call.Sound realm ∧ next = call.apply env realm

theorem step_agreement (hagreement : Agreement realm)
    (hstep : SoundStep env realm next) : Agreement next := by
  obtain ⟨call, hsound, rfl⟩ := hstep
  cases call with
  | leave p => exact leaveGuild_agreement hagreement hsound
  | remove p cch => exact guildMemberRemove_agreement hagreement hsound
  | transfer now w p q => exact transferWorld_agreement hagreement

/-- Over every run of `leave_guild`, `guild_member_remove` and `transfer_world` in
which no leader leaves as the only member, and in which a removed member is
connected or named in the message as in its file, players and guilds agree after
every step. -/
theorem agreement_along_runs (hagreement : Agreement start)
    (hrun : Relation.ReflTransGen (SoundStep env) start realm) :
    Agreement realm := by
  induction hrun with
  | refl => exact hagreement
  | tail _ hstep ih => exact step_agreement ih hstep

/-- A guild of connected players, the first of whom leads it. -/
def guildOf (names : List String) : Realm where
  players := names.map fun name => { tankIDName := name, guildId := 1 }
  guilds := [{ guildId := 1, guildMembers :=
    names.mapIdx fun i name =>
      { roleId := if i = 0 then 3 else 0, memberName := name } }]

theorem guildOf_leader : Agreement (guildOf ["Leader"]) :=
  ⟨by decide, by decide, by decide +kernel, by decide +kernel, by decide +kernel⟩

theorem guildOf_two : Agreement (guildOf ["Leader", "Member"]) :=
  ⟨by decide, by decide, by decide +kernel, by decide +kernel, by decide +kernel⟩

/-- A leader who is the only member leaves and stays in the list. -/
theorem sole_leader_stays_listed :
    ¬ ∀ (env : Env) (start realm : Realm), Agreement start →
      Relation.ReflTransGen (Step env) start realm → Agreement realm := by
  intro hall
  have hagreement := hall { items := ⟨0, fun _ => {}⟩ } (guildOf ["Leader"]) _
    guildOf_leader (.single ⟨.leave 0, rfl⟩)
  exact absurd hagreement.online (by decide +kernel)

/-- A member leaves. -/
theorem member_leaves :
    Agreement (leaveGuild 1 (guildOf ["Leader", "Member"])) ∧
      ((leaveGuild 1 (guildOf ["Leader", "Member"])).guilds.map
          Guild.guildMembers = [[{ roleId := 3, memberName := "Leader" }]]) ∧
      (leaveGuild 1 (guildOf ["Leader", "Member"])).players.map Player.guildId =
        [1, 0] := by
  refine ⟨@agreement_along_runs { items := ⟨0, fun _ => {}⟩ } _ _ guildOf_two
    (.single ⟨.leave 1, ?_, rfl⟩), by decide +kernel, by decide +kernel⟩
  rintro ⟨pl, guild, -, hguild, -, hlength, -⟩
  rw [List.mem_singleton.mp hguild] at hlength
  exact absurd hlength (by decide)

end Runs

end GuildMembership

end NopyServer
