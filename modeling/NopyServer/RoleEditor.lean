/-
The levels of the commands and the dialogs that edit them.  `commandMap` holds
the level that a command asks for, `commandLevelOverrides` the levels that the
role editor has set.  The dialogs copy the second into the first; at a start of
the server the commands are registered with their entry, the emotes are not.
-/
import NopyServer.Text
import Mathlib.Logic.Function.Basic
import Mathlib.Tactic.SplitIfs

namespace NopyServer

/-- The commands that `Commands::Command` registers before the emotes, with the
default of `LVL_ROLE_EDIT`. -/
def leadingCommands : List (String × Int) :=
  [("/editrole", 999), ("/setshop", 13), ("/startdonationevent", 999),
   ("/stopdonationevent", 999), ("/donate", 0), ("/editcommand", 999),
   ("/buy", 0), ("/autocv", 0), ("/cv", 0), ("/playsound", 0), ("/playsong", 0),
   ("/setsound", 0), ("/autoptht", 0), ("/infinite", 999), ("/exchangenew", 0),
   ("/setexchangenew", 999), ("/setconsum", 999), ("/sawit", 0), ("/ustadz", 0),
   ("/editdrop", 999), ("/e", 0), ("/pair", 0), ("/leaderboardpair", 0),
   ("/setrecipe", 999), ("/autosellfish", 0), ("/particle", 0),
   ("/config", 999), ("/cekalt", 13), ("/help", 0), ("/?", 0)]

def emotes : List String :=
  ["/wave", "/dance", "/love", "/sleep", "/facepalm", "/fp", "/smh", "/yes",
   "/no", "/cheer", "/wink", "/troll", "/shower", "/mad", "/omg", "/lol",
   "/laugh", "/cry", "/sad", "/idk", "/shrug", "/furious", "/rolleyes", "/dab",
   "/sassy", "/dance2", "/march", "/favrm", "/grumpy", "/shy", "/foldarms",
   "/fold", "/fa", "/stubborn"]

/-- The commands that follow the emotes. -/
def otherCommands : List (String × Int) :=
  [("/ghistory", 0), ("/casinolist", 0), ("/reqverifycsn", 0),
   ("/takeworld", 13), ("/findid", 8), ("/dialogtest", 0), ("/addspotify", 0),
   ("/pos", 0), ("/daily", 0), ("/ctitle", 0), ("/setdaily", 999),
   ("/resetdaily", 999), ("/setexchange", 999), ("/setshop", 999),
   ("/theworld", 13), ("/chatallworld", 2), ("/surgerystats", 2), ("/shop", 0),
   ("/hideui", 0), ("/status", 0), ("/sdb", 0), ("/stats", 0), ("/top", 0),
   ("/time", 0), ("/who", 0), ("/radio", 0), ("/mods", 0), ("/uba", 0),
   ("/go", 0), ("/rgo", 0), ("/hub", 0), ("/kickall", 0), ("/unaccess", 0),
   ("/report", 0), ("/reportbug", 0), ("/secureaccount", 0), ("/gwarp", 0),
   ("/guild", 0), ("/guildclash", 0), ("/clash", 0), ("/roles", 0), ("/fav", 0),
   ("/favlist", 0), ("/home", 0), ("/gethome", 0), ("/sethome", 0),
   ("/janeway", 0), ("/growpass", 0), ("/respawn", 0), ("/tradescan", 0),
   ("/tips", 0), ("/event", 0), ("/vips", 0), ("/deposit", 0), ("/modrules", 3),
   ("/csnrules", 0), ("/rules", 0), ("/news", 0), ("/howgay", 0),
   ("/khodam", 0), ("/wipeworlds", 0), ("/spotify", 0), ("/clearchat", 0),
   ("/pets", 0), ("/lock", 0), ("/fixmygems", 0), ("/dpwl", 0), ("/dpdl", 0),
   ("/dpbgl", 0), ("/dpsgl", 0), ("/dpmgl", 0), ("/dpggl", 0), ("/dpigl", 0),
   ("/dpgems", 0), ("/wdwl", 0), ("/wddl", 0), ("/wdbgl", 0), ("/wdsgl", 0),
   ("/wdmgl", 0), ("/wdggl", 0), ("/wdigl", 0), ("/wdgems", 0), ("/msg", 0),
   ("/bc", 0), ("/sb", 0), ("/ignore", 0), ("/me", 0), ("/r", 0), ("/pull", 0),
   ("/rpull", 0), ("/kick", 0), ("/kick", 0), ("/ultimate", 999), ("/ban", 0),
   ("/trade", 0), ("/rate", 0), ("/gc", 0), ("/a", 0), ("/fc", 0),
   ("/cheats", 1), ("/c", 1), ("/hidestatus", 2), ("/v", 2), ("/info", 2),
   ("/infowl", 0), ("/removeid", 999), ("/warp", 4), ("/warpto", 10),
   ("/vsb", 2), ("/searchuser", 2), ("/setclist", 999), ("/clist", 13),
   ("/stop_server", 999), ("/setevent", 999), ("/wotd", 13), ("/wotw", 13),
   ("/maintenance", 999), ("/setrcode", 999), ("/setnewget", 999),
   ("/newget", 0), ("/setgiveaway", 999), ("/setworld", 999),
   ("/giveaway", 999), ("/reset_leaderboard", 999), ("/editstorestock", 999),
   ("/give", 999), ("/addpscan", 999), ("/deleteworld", 999),
   ("/deleteacc", 999), ("/checkpass", 999), ("/grole", 999), ("/gassets", 999),
   ("/gwrench", 13), ("/setworldmenu", 999), ("/spawndropgrowch", 13),
   ("/removebank", 999), ("/addpbuy", 999), ("/getitem", 999),
   ("/edititem", 999), ("/additemtonpc", 999), ("/takeworld", 999),
   ("/clearworld", 13), ("/spawnevent", 11), ("/online", 13),
   ("/fakeonline", 11), ("/setfakeonline", 11), ("/verifycsn", 999),
   ("/removereqcsn", 999), ("/reset_rolequest", 13), ("/drop", 999),
   ("/drop5k", 999), ("/wl", 0), ("/dl", 0), ("/bgl", 0), ("/sgl", 0),
   ("/mgl", 0), ("/igl", 0), ("/tpap", 13), ("/reset", 999), ("/osb", 11),
   ("/unsafeedit", 999), ("/weather", 13), ("/gtoken", 999), ("/gseal", 999),
   ("/ipcheck", 11), ("/ggxp", 11), ("/removelogs", 999), ("/ggems", 999),
   ("/givegems", 999), ("/glevel", 13), ("/setmag", 999), ("/setmagseed", 999),
   ("/setvend", 999), ("/find", 8), ("/setfind", 13), ("/clearvend", 999),
   ("/collectvends", 0), ("/collectwl", 0), ("/clearmag", 999),
   ("/clearmagseed", 999), ("/onlined", 11), ("/removedrop", 13),
   ("/cleardrop", 0), ("/rpl", 999), ("/spl", 999), ("/sdrop", 999),
   ("/growall", 13), ("/gsm", 999), ("/spk", 13), ("/asb", 11), ("/infoex", 11),
   ("/banrid", 10), ("/banip", 10), ("/checkplaymods", 10), ("/freezeall", 10),
   ("/ghost", 0), ("/setmusic", 0), ("/pghost", 0), ("/banall", 4),
   ("/1hit", 4), ("/pullall", 4), ("/dsummon", 10), ("/logs", 11),
   ("/reports", 4), ("/playerreport", 10), ("/uncurseall", 11), ("/color", 4),
   ("/checkid", 10), ("/nick", 11), ("/settitle", 11), ("/fakeban", 4),
   ("/fakewarn", 4), ("/flag", 4), ("/scan", 4), ("/checkping", 4),
   ("/destructo", 11), ("/fixworld", 10), ("/sizeworld", 13), ("/banworld", 11),
   ("/hide", 3), ("/radio2", 3), ("/togglemods", 3), ("/skin", 3),
   ("/invis", 10), ("/customdrop", 999), ("/magic", 3), ("/nohands", 4),
   ("/nobody", 4), ("/unequip", 4), ("/dropall", 999), ("/noclip", 10),
   ("/ai", 0), ("/summon", 11), ("/freeze", 11), ("/p", 3), ("/nuke", 10),
   ("/lockworld", 999), ("/note", 3), ("/notes", 3), ("/mute", 10),
   ("/curse", 10), ("/banp", 10), ("/unban", 10), ("/dsb", 5), ("/ssb", 2),
   ("/curseap", 13), ("/unmute", 11), ("/uncurse", 11), ("/copyset", 11),
   ("/msb", 3), ("/m", 3), ("/warn", 4), ("/eff", 4), ("/eff2", 4),
   ("/pban", 4), ("/givd", 999), ("/giveawayrole", 999), ("/setcsn", 999),
   ("/get", 999), ("/extranuke", 999), ("/unblacklist", 13),
   ("/setclaimrole", 999), ("/sellfish", 0), ("/sellcrystal", 0),
   ("/setcustomexchange", 999), ("/exchangeevent", 0), ("/qsb", 13),
   ("/forcecmd", 999), ("/giveaccfull", 13), ("/claim", 0), ("/sellghost", 0),
   ("/setsellghost", 999), ("/control", 999), ("/setcolorchat", 2),
   ("/removeitem", 13), ("/dropallgacha", 9), ("/setdropallgacha", 999),
   ("/setmaxip", 999), ("/setlive", 9), ("/tf", 0), ("/live", 9), ("/ysb", 11),
   ("/setpricevend", 999), ("/listmathreward", 0), ("/math", 0),
   ("/addbank", 999), ("/copyworld", 13), ("/backpack", 0), ("/gacha", 0),
   ("/banners", 0), ("/seteventexchange", 999), ("/askall", 999), ("/a", 0),
   ("/ans", 0), ("/answer", 0), ("/blastdesigner", 999), ("/exchange", 0),
   ("/register", 0)]

/-- `Commands::BUILTIN_ROLES`. -/
def builtinRoles : List (String × Int) :=
  [("Player", 0), ("VIP", 2), ("Moderator", 3), ("Administrator", 4),
   ("Developer", 5), ("Donatur", 6), ("God", 7), ("Unlimited", 8),
   ("Streamers", 9), ("Staff", 10), ("Owner", 11), ("Coder", 12),
   ("Clist", 13), ("Config", 999)]

structure CustomRoleEntry where
  name : String
  level : Int := 0
  prefix_ : String := ""
  commands : List String := []
  canAccessWorld : Bool := false
  canPunish : Bool := false
deriving DecidableEq

/-- The tables behind the role editor.  Of `commandMap` the levels matter. -/
structure RoleTables where
  commandMap : String → Option Int := fun _ => none
  commandLevelOverrides : String → Option Int := fun _ => none
  customRoles : List CustomRoleEntry := []
  builtinStringOverrides : String → Option String := fun _ => none

/-- `str.substr(0, start.size()) == start`. -/
def beginsWith (start str : String) : Bool :=
  start.toList.isPrefixOf str.toList

/-- The number that follows `start` in the name of a button. -/
def buttonIndex (start btn : String) : Option Int :=
  if start.length < btn.length ∧ beginsWith start btn then
    stoi (String.ofList (btn.toList.drop start.length))
  else none

/-- `Commands::parse_cmd_list`. -/
def parseCmdList (s : String) : List String :=
  let blank := fun c : Char => c = ' ' || c = '\t'
  let trimmed := (s.toList.splitOn ',').map fun tok =>
    ((tok.dropWhile blank).reverse.dropWhile blank).reverse
  (trimmed.filter (· ≠ [])).map String.ofList

namespace RoleTables

/-- The level with which a line of `Commands::Command` registers its command: the
entry in `commandLevelOverrides` or the default, and 0 for an emote. -/
def registeredLevel (overrides : String → Option Int)
    (entry : String × Option Int) : Int :=
  match entry.2 with
  | some level => (overrides entry.1).getD level
  | none => 0

def register (overrides : String → Option Int) (commandMap : String → Option Int)
    (entry : String × Option Int) : String → Option Int :=
  Function.update commandMap entry.1 (some (registeredLevel overrides entry))

def registrations : List (String × Option Int) :=
  leadingCommands.map (fun entry => (entry.1, some entry.2)) ++
    emotes.map (fun name => (name, none)) ++
    otherCommands.map fun entry => (entry.1, some entry.2)

/-- `Commands::Command`.  `LoadCmdLevelOverrides` runs before the first command is
registered, so it has no level to correct in `commandMap`. -/
def startup (overrides : String → Option Int) (roles : List CustomRoleEntry)
    (strings : String → Option String) : RoleTables where
  commandMap := registrations.foldl (register overrides) fun _ => none
  commandLevelOverrides := overrides
  customRoles := roles
  builtinStringOverrides := strings

/-- The loops of the role dialogs when a role moves from the level `old` to
`new`.  The dialogs differ in the entries that the first loop skips and in those
that the last one copies. -/
def relevel (skip copied : String → Bool) (old new : Int) (s : RoleTables) :
    RoleTables :=
  let moved := fun cmd => (s.commandLevelOverrides cmd).map fun ovr =>
    if !skip cmd && ovr = old then new else ovr
  let filled := fun cmd =>
    match moved cmd with
    | some ovr => some ovr
    | none => if s.commandMap cmd = some old then some new else none
  { s with
    commandLevelOverrides := filled
    commandMap := fun cmd => (s.commandMap cmd).map fun val =>
      match filled cmd with
      | some ovr => if copied cmd then ovr else val
      | none => val }

def skipBuiltin (cmd : String) : Bool :=
  beginsWith "__builtin_level_" cmd || beginsWith "__builtin_access_world_" cmd ||
    beginsWith "__builtin_punish_" cmd

def copiedBuiltin (cmd : String) : Bool := !beginsWith "__" cmd

def skipCustom (cmd : String) : Bool := 2 ≤ cmd.length && beginsWith "__" cmd

def copiedCustom (cmd : String) : Bool :=
  2 ≤ cmd.length && !beginsWith "__" cmd

/-- What the dialog of a builtin role submits. -/
structure BuiltinForm where
  idx : Fin builtinRoles.length
  name : String
  prefix_ : String
  level : Int
  cmds : String

/-- The checks of `editrole_edit_builtin`. -/
def builtinForm (cch : String) : Option BuiltinForm := do
  let btn ← TextScanner.tryGet cch "buttonClicked"
  let idx ← buttonIndex "editrole_builtin_save_" btn
  if hidx : 0 ≤ idx ∧ idx.toNat < builtinRoles.length then
    let name := TextScanner.get cch "builtin_name"
    let level := (stoi (TextScanner.get cch "builtin_level")).getD 0
    if name = "" ∨ level < 0 ∨ 999 < level then none
    else some {
      idx := ⟨idx.toNat, hidx.2⟩
      name := name
      prefix_ := TextScanner.get cch "builtin_prefix"
      level := level
      cmds := TextScanner.get cch "builtin_cmds" }
  else none

def levelKey (idx : Fin builtinRoles.length) : String :=
  "__builtin_level_" ++ builtinRoles[idx].1

/-- The level of a builtin role. -/
def builtinLevel (s : RoleTables) (idx : Fin builtinRoles.length) : Int :=
  (s.commandLevelOverrides (levelKey idx)).getD builtinRoles[idx].2

def saveBuiltin (s : RoleTables) (form : BuiltinForm) : RoleTables :=
  let base := builtinRoles[form.idx].1
  let oldLevel := s.builtinLevel form.idx
  let releveled :=
    if oldLevel ≠ form.level then
      s.relevel skipBuiltin copiedBuiltin oldLevel form.level
    else s
  let strings := Function.update releveled.builtinStringOverrides
    ("__builtin_name_" ++ base) (some form.name)
  let strings := Function.update strings ("__builtin_prefix_" ++ base)
    (some form.prefix_)
  { releveled with
    commandLevelOverrides := Function.update releveled.commandLevelOverrides
      (levelKey form.idx) (some form.level)
    builtinStringOverrides := Function.update strings ("__builtin_cmds_" ++ base)
      (some form.cmds) }

/-- What the dialog of a custom role submits; `idx` is checked later. -/
structure RoleForm where
  idx : Int
  name : String
  prefix_ : String
  level : Int
  commands : List String

/-- The checks of `editrole_edit_form`. -/
def roleForm (cch : String) : Option RoleForm := do
  let btn ← TextScanner.tryGet cch "buttonClicked"
  let idx ← buttonIndex "editrole_edit_submit_" btn
  let name := TextScanner.get cch "role_name"
  let level := (stoi (TextScanner.get cch "role_level")).getD 0
  if name = "" ∨ level < 1 ∨ 999 < level then none
  else some {
    idx := idx
    name := name
    prefix_ := TextScanner.get cch "role_prefix"
    level := level
    commands := parseCmdList (TextScanner.get cch "role_commands") }

/-- A custom role behind an index that the source checks. -/
def customRole (s : RoleTables) (idx : Int) : Option CustomRoleEntry :=
  if 0 ≤ idx then s.customRoles[idx.toNat]? else none

def saveRole (s : RoleTables) (form : RoleForm) : RoleTables :=
  match s.customRole form.idx with
  | none => s
  | some role =>
      let edited := { s with
        customRoles := s.customRoles.set form.idx.toNat { role with
          name := form.name
          prefix_ := form.prefix_
          level := form.level
          commands := form.commands } }
      if role.level ≠ form.level then
        edited.relevel skipCustom copiedCustom role.level form.level
      else edited

/-- `editrole_set_cmd_level`. -/
def setCmdLevel (s : RoleTables) (cch : String) : RoleTables :=
  match TextScanner.tryGet cch "buttonClicked" with
  | none => s
  | some btn =>
      let cmdName := TextScanner.get cch "cmd_name"
      if btn ≠ "cmdlvl_save" ∨ cmdName = "" ∨ s.commandMap cmdName = none then s
      else
        let level := min (max ((stoi (TextScanner.get cch "new_level")).getD 0) 0) 999
        { s with
          commandLevelOverrides :=
            Function.update s.commandLevelOverrides cmdName (some level)
          commandMap := Function.update s.commandMap cmdName (some level) }

/-- `editrole_add_dialog`. -/
def addDialog (s : RoleTables) (cch : String) : RoleTables :=
  let name := TextScanner.get cch "role_name"
  let level := (stoi (TextScanner.get cch "role_level")).getD 0
  if TextScanner.tryGet cch "buttonClicked" ≠ some "editrole_add_submit" ∨
      name = "" ∨ level < 1 ∨ 999 < level ∨
      s.customRoles.any (fun role => toLower role.name == toLower name) then s
  else { s with
    customRoles := s.customRoles ++
      [{ name := name, level := level
         prefix_ := TextScanner.get cch "role_prefix"
         commands := parseCmdList (TextScanner.get cch "role_commands") }] }

/-- `editrole_confirm_del`. -/
def confirmDel (s : RoleTables) (cch : String) : RoleTables :=
  match (TextScanner.tryGet cch "buttonClicked").bind
      (buttonIndex "confirm_del_") with
  | none => s
  | some idx =>
      if (s.customRole idx).isNone then s
      else { s with customRoles := s.customRoles.eraseIdx idx.toNat }

/-- What `editrole_access_world_list` and `editrole_punish_list` have in common:
the right is taken from every role and given to the one of the button. -/
def rightList (key button : String)
    (setRight : Bool → CustomRoleEntry → CustomRoleEntry) (s : RoleTables)
    (cch : String) : RoleTables :=
  match TextScanner.tryGet cch "buttonClicked" with
  | none => s
  | some btn =>
      if btn = "editrole_main_back" then s
      else
        let cleared := { s with
          commandLevelOverrides := builtinRoles.foldl (fun overrides role =>
            Function.update overrides (key ++ role.1) none) s.commandLevelOverrides
          customRoles := s.customRoles.map (setRight false) }
        match buttonIndex (button ++ "_builtin_") btn with
        | some idx =>
            if 0 ≤ idx ∧ idx.toNat < builtinRoles.length then { cleared with
              commandLevelOverrides := Function.update
                cleared.commandLevelOverrides
                (key ++ (builtinRoles.getD idx.toNat ("", 0)).1) (some 1) }
            else cleared
        | none =>
            match buttonIndex (button ++ "_custom_") btn with
            | some idx =>
                if 0 ≤ idx then { cleared with
                  customRoles := cleared.customRoles.modify idx.toNat
                    (setRight true) }
                else cleared
            | none => cleared

def accessWorldList : RoleTables → String → RoleTables :=
  rightList "__builtin_access_world_" "acworld" fun given role =>
    { role with canAccessWorld := given }

def punishList : RoleTables → String → RoleTables :=
  rightList "__builtin_punish_" "punish" fun given role =>
    { role with canPunish := given }

end RoleTables

/-- The dialogs of the role editor that change a table. -/
inductive RoleDialog where
  | editBuiltin | editForm | setCmdLevel | addDialog | confirmDel
  | accessWorldList | punishList
deriving DecidableEq

/-- A dialog that a player sends back. -/
structure RoleReturn where
  tankIDName : String
  dialog : RoleDialog
  cch : String

namespace RoleTables

/-- A player who is not on the list changes nothing. -/
def apply (clist : List String) (s : RoleTables) (r : RoleReturn) : RoleTables :=
  if clist.contains r.tankIDName then
    match r.dialog with
    | .editBuiltin =>
        match builtinForm r.cch with
        | some form => s.saveBuiltin form
        | none => s
    | .editForm =>
        match roleForm r.cch with
        | some form => s.saveRole form
        | none => s
    | .setCmdLevel => s.setCmdLevel r.cch
    | .addDialog => s.addDialog r.cch
    | .confirmDel => s.confirmDel r.cch
    | .accessWorldList => s.accessWorldList r.cch
    | .punishList => s.punishList r.cch
  else s

def run (clist : List String) (s : RoleTables) (returns : List RoleReturn) :
    RoleTables :=
  returns.foldl (apply clist) s

/-- The level stored for a command is its entry, where it has one. -/
def InSync (s : RoleTables) : Prop :=
  ∀ cmd ovr level, s.commandLevelOverrides cmd = some ovr →
    s.commandMap cmd = some level → level = ovr

/-- The levels between which a dialog moves a role. -/
def levelChange (clist : List String) (s : RoleTables) (r : RoleReturn) :
    Option (Int × Int) :=
  if clist.contains r.tankIDName then
    match r.dialog with
    | .editBuiltin => (builtinForm r.cch).map fun form =>
        (s.builtinLevel form.idx, form.level)
    | .editForm => (roleForm r.cch).bind fun form =>
        (s.customRole form.idx).map fun role => (role.level, form.level)
    | _ => none
  else none

/-- The commands of the level `old` have the level `new` now, the others have
the level they had. -/
def MovesExactly (old new : Int) (s s' : RoleTables) : Prop :=
  ∀ cmd, s'.commandMap cmd =
    if s.commandMap cmd = some old then some new else s.commandMap cmd

/-- What the dialogs keep.  The names of the commands are not taken for keys of
roles by any of the filters. -/
structure Kept (s : RoleTables) : Prop where
  named : ∀ cmd, s.commandMap cmd ≠ none →
    2 ≤ cmd.length ∧ beginsWith "__" cmd = false
  inSync : s.InSync

end RoleTables

theorem beginsWith_of_append {start rest str : String}
    (h : beginsWith (start ++ rest) str = true) : beginsWith start str = true := by
  rw [beginsWith, List.isPrefixOf_iff_prefix] at *
  rw [String.toList_append] at h
  exact (List.prefix_append _ _).trans h

theorem beginsWith_append (start rest tail : String) :
    beginsWith start (start ++ rest ++ tail) = true := by
  rw [beginsWith, List.isPrefixOf_iff_prefix, String.toList_append,
    String.toList_append, List.append_assoc]
  exact List.prefix_append _ _

namespace RoleTables

theorem beginsWith_levelKey (idx : Fin builtinRoles.length) :
    beginsWith "__" (levelKey idx) = true :=
  beginsWith_append "__" "builtin_level_" _

theorem not_skipBuiltin {cmd : String} (h : beginsWith "__" cmd = false) :
    skipBuiltin cmd = false := by
  have hnot : ∀ rest, beginsWith ("__" ++ rest) cmd = false := by
    intro rest
    by_contra hbegins
    rw [beginsWith_of_append (by simpa using hbegins)] at h
    cases h
  have hlevel := hnot "builtin_level_"
  have haccess := hnot "builtin_access_world_"
  have hpunish := hnot "builtin_punish_"
  simp only [skipBuiltin, Bool.or_eq_false_iff]
  exact ⟨⟨hlevel, haccess⟩, hpunish⟩

section Relevel

variable {skip copied : String → Bool} {s : RoleTables} (old new : Int)

/-- What the first two loops leave as the entry of a command. -/
theorem relevel_override (cmd : String) :
    (s.relevel skip copied old new).commandLevelOverrides cmd =
      match s.commandLevelOverrides cmd with
      | some ovr => some (if !skip cmd && ovr = old then new else ovr)
      | none => if s.commandMap cmd = some old then some new else none := by
  cases hovr : s.commandLevelOverrides cmd <;> simp [relevel, hovr]

theorem relevel_commandMap (cmd : String) :
    (s.relevel skip copied old new).commandMap cmd =
      (s.commandMap cmd).map fun val =>
        match (s.relevel skip copied old new).commandLevelOverrides cmd with
        | some ovr => if copied cmd then ovr else val
        | none => val :=
  rfl

/-- In tables that are in sync the loops move the commands of the one level, and
no other command. -/
theorem relevel_movesExactly (hkept : s.Kept)
    (hskip : ∀ cmd, s.commandMap cmd ≠ none → skip cmd = false)
    (hcopied : ∀ cmd, s.commandMap cmd ≠ none → copied cmd = true) :
    MovesExactly old new s (s.relevel skip copied old new) := by
  intro cmd
  rw [relevel_commandMap, relevel_override]
  cases hlevel : s.commandMap cmd with
  | none => rfl
  | some level =>
      have hregistered : s.commandMap cmd ≠ none := by simp [hlevel]
      have hfilter := hskip cmd hregistered
      have hcopy := hcopied cmd hregistered
      cases hovr : s.commandLevelOverrides cmd with
      | none => by_cases hold : level = old <;> simp [hcopy, hold]
      | some ovr =>
          have heq := hkept.inSync cmd ovr level hovr hlevel
          by_cases hold : ovr = old <;> simp [hfilter, hcopy, heq, hold]

theorem kept_relevel (skip : String → Bool) (hkept : s.Kept)
    (hcopied : ∀ cmd, s.commandMap cmd ≠ none → copied cmd = true) :
    (s.relevel skip copied old new).Kept := by
  have hregistered : ∀ cmd, (s.relevel skip copied old new).commandMap cmd ≠ none →
      s.commandMap cmd ≠ none := by
    intro cmd hne hnone
    apply hne
    rw [relevel_commandMap, hnone]
    rfl
  constructor
  · intro cmd hne
    exact hkept.named cmd (hregistered cmd hne)
  · intro cmd ovr level hovr hlevel
    have hcopy := hcopied cmd (hregistered cmd (by simp [hlevel]))
    rw [relevel_commandMap, hovr] at hlevel
    obtain ⟨val, -, hval⟩ := Option.map_eq_some_iff.mp hlevel
    simpa [hcopy] using hval.symm

end Relevel

/-- Entries under a key of a role do not matter for the commands. -/
theorem Kept.of_override {s s' : RoleTables} (hkept : s.Kept)
    (hmap : s'.commandMap = s.commandMap)
    (hovr : ∀ cmd, beginsWith "__" cmd = false →
      s'.commandLevelOverrides cmd = s.commandLevelOverrides cmd) : s'.Kept := by
  constructor
  · rw [hmap]
    exact hkept.named
  · intro cmd ovr level hentry hlevel
    rw [hmap] at hlevel
    rw [hovr cmd (hkept.named cmd (by simp [hlevel])).2] at hentry
    exact hkept.inSync cmd ovr level hentry hlevel

theorem update_of_key {β : Type} {overrides : String → β} {key : String}
    (hkey : beginsWith "__" key = true) (value : β) {cmd : String}
    (hcmd : beginsWith "__" cmd = false) :
    Function.update overrides key value cmd = overrides cmd := by
  apply Function.update_of_ne
  rintro rfl
  rw [hkey] at hcmd
  cases hcmd

theorem saveBuiltin_spec {s : RoleTables} (hkept : s.Kept) (form : BuiltinForm) :
    (s.saveBuiltin form).Kept ∧
      MovesExactly (s.builtinLevel form.idx) form.level s (s.saveBuiltin form) := by
  have hskip : ∀ cmd, s.commandMap cmd ≠ none → skipBuiltin cmd = false :=
    fun cmd hne => not_skipBuiltin (hkept.named cmd hne).2
  have hcopied : ∀ cmd, s.commandMap cmd ≠ none → copiedBuiltin cmd = true := by
    intro cmd hne
    simp [copiedBuiltin, (hkept.named cmd hne).2]
  have hkey := beginsWith_levelKey form.idx
  by_cases hsame : s.builtinLevel form.idx = form.level
  · have hmap : (s.saveBuiltin form).commandMap = s.commandMap := by
      simp [saveBuiltin, hsame]
    constructor
    · apply hkept.of_override hmap
      intro cmd hcmd
      simpa [saveBuiltin, hsame] using update_of_key hkey (some form.level) hcmd
    · intro cmd
      rw [hmap, hsame]
      by_cases hlevel : s.commandMap cmd = some form.level <;> simp [hlevel]
  · have hreleveled := relevel_movesExactly (s.builtinLevel form.idx) form.level
      hkept hskip hcopied
    have hkept' := kept_relevel (s.builtinLevel form.idx) form.level skipBuiltin
      hkept hcopied
    have hmap : (s.saveBuiltin form).commandMap =
        (s.relevel skipBuiltin copiedBuiltin (s.builtinLevel form.idx)
          form.level).commandMap := by
      simp [saveBuiltin, hsame]
    constructor
    · apply hkept'.of_override hmap
      intro cmd hcmd
      simpa [saveBuiltin, hsame] using update_of_key hkey (some form.level) hcmd
    · intro cmd
      rw [hmap]
      exact hreleveled cmd

theorem saveRole_spec {s : RoleTables} (hkept : s.Kept) {form : RoleForm}
    {role : CustomRoleEntry} (hrole : s.customRole form.idx = some role) :
    (s.saveRole form).Kept ∧
      MovesExactly role.level form.level s (s.saveRole form) := by
  have hskip : ∀ cmd, s.commandMap cmd ≠ none → skipCustom cmd = false := by
    intro cmd hne
    simp [skipCustom, (hkept.named cmd hne).2]
  have hcopied : ∀ cmd, s.commandMap cmd ≠ none → copiedCustom cmd = true := by
    intro cmd hne
    simp [copiedCustom, hkept.named cmd hne]
  simp only [saveRole, hrole]
  split_ifs with hsame
  · constructor
    · exact kept_relevel role.level form.level skipCustom
        (hkept.of_override rfl fun _ _ => rfl) hcopied
    · exact relevel_movesExactly (s := { s with customRoles := _ }) role.level
        form.level (hkept.of_override rfl fun _ _ => rfl) hskip hcopied
  · rw [not_not] at hsame
    constructor
    · exact hkept.of_override rfl fun _ _ => rfl
    · intro cmd
      rw [hsame]
      by_cases hlevel : s.commandMap cmd = some form.level <;> simp [hlevel]

theorem kept_setCmdLevel {s : RoleTables} (hkept : s.Kept) (cch : String) :
    (s.setCmdLevel cch).Kept := by
  unfold setCmdLevel
  split
  · exact hkept
  · simp only
    split_ifs with hrejected
    · exact hkept
    · simp only [not_or] at hrejected
      generalize TextScanner.get cch "cmd_name" = name at *
      constructor
      · intro cmd hne
        by_cases hcmd : cmd = name
        · exact hkept.named cmd (hcmd ▸ hrejected.2.2)
        · apply hkept.named cmd
          simpa only [Function.update_of_ne hcmd] using hne
      · intro cmd ovr level hovr hlevel
        by_cases hcmd : cmd = name
        · subst hcmd
          simp only [Function.update_self, Option.some.injEq] at hovr hlevel
          exact hlevel.symm.trans hovr
        · simp only [Function.update_of_ne hcmd] at hovr hlevel
          exact hkept.inSync cmd ovr level hovr hlevel

theorem foldl_update_of_key {key : String} (hkey : ∀ name,
    beginsWith "__" (key ++ name) = true) (roles : List (String × Int))
    (overrides : String → Option Int) {cmd : String}
    (hcmd : beginsWith "__" cmd = false) :
    roles.foldl (fun overrides role =>
      Function.update overrides (key ++ role.1) none) overrides cmd =
      overrides cmd := by
  induction roles generalizing overrides with
  | nil => rfl
  | cons role roles ih =>
      rw [List.foldl_cons, ih]
      exact update_of_key (hkey role.1) none hcmd

theorem kept_rightList {s : RoleTables} (hkept : s.Kept) {key : String}
    (hkey : ∀ name, beginsWith "__" (key ++ name) = true) (button : String)
    (setRight : Bool → CustomRoleEntry → CustomRoleEntry) (cch : String) :
    (rightList key button setRight s cch).Kept := by
  have hcleared : ∀ cmd, beginsWith "__" cmd = false →
      builtinRoles.foldl (fun overrides role =>
        Function.update overrides (key ++ role.1) none) s.commandLevelOverrides cmd =
      s.commandLevelOverrides cmd := fun cmd hcmd =>
    foldl_update_of_key hkey builtinRoles _ hcmd
  unfold rightList
  generalize builtinRoles.foldl (fun overrides role =>
    Function.update overrides (key ++ role.1) none) s.commandLevelOverrides =
      cleared at *
  split
  · exact hkept
  · simp only
    split_ifs
    · exact hkept
    · split
      · split_ifs
        · refine hkept.of_override rfl fun cmd hcmd => ?_
          rw [← hcleared cmd hcmd]
          exact update_of_key (hkey _) _ hcmd
        · exact hkept.of_override rfl hcleared
      · split
        · split_ifs <;> exact hkept.of_override rfl hcleared
        · exact hkept.of_override rfl hcleared

theorem kept_apply (clist : List String) {s : RoleTables} (hkept : s.Kept)
    (r : RoleReturn) : (s.apply clist r).Kept := by
  unfold apply
  split_ifs
  · split
    · split
      · exact (saveBuiltin_spec hkept _).1
      · exact hkept
    · split
      · rename_i form _
        cases hrole : s.customRole form.idx with
        | none => simpa [saveRole, hrole] using hkept
        | some role => exact (saveRole_spec hkept hrole).1
      · exact hkept
    · exact kept_setCmdLevel hkept r.cch
    · unfold addDialog
      simp only
      split_ifs <;> exact hkept.of_override rfl fun _ _ => rfl
    · unfold confirmDel
      split
      · exact hkept
      · split_ifs <;> exact hkept.of_override rfl fun _ _ => rfl
    · exact kept_rightList hkept (beginsWith_append "__" "builtin_access_world_")
        _ _ r.cch
    · exact kept_rightList hkept (beginsWith_append "__" "builtin_punish_") _ _
        r.cch
  · exact hkept

/-- A dialog that moves a role moves the commands of its level. -/
theorem movesExactly_apply {clist : List String} {s : RoleTables}
    (hkept : s.Kept) {r : RoleReturn} {old new : Int}
    (hchange : levelChange clist s r = some (old, new)) :
    MovesExactly old new s (s.apply clist r) := by
  unfold levelChange at hchange
  unfold apply
  split_ifs at hchange ⊢
  cases hdialog : r.dialog <;> simp only [hdialog] at hchange ⊢ <;> try cases hchange
  · obtain ⟨form, hform, heq⟩ := Option.map_eq_some_iff.mp hchange
    obtain ⟨rfl, rfl⟩ := Prod.mk.inj heq
    rw [hform]
    exact (saveBuiltin_spec hkept form).2
  · obtain ⟨form, hform, hrest⟩ := Option.bind_eq_some_iff.mp hchange
    obtain ⟨role, hrole, heq⟩ := Option.map_eq_some_iff.mp hrest
    obtain ⟨rfl, rfl⟩ := Prod.mk.inj heq
    rw [hform]
    exact (saveRole_spec hkept hrole).2

theorem kept_run (clist : List String) {s : RoleTables} (hkept : s.Kept)
    (returns : List RoleReturn) : (s.run clist returns).Kept := by
  induction returns generalizing s with
  | nil => exact hkept
  | cons r returns ih => exact ih (kept_apply clist hkept r)

/-! The start of the server. -/

theorem foldl_register {overrides : String → Option Int} {cmd : String}
    {level : Int} {entries : List (String × Option Int)}
    (hlevel : ∀ entry ∈ entries, entry.1 = cmd →
      registeredLevel overrides entry = level) (commandMap : String → Option Int) :
    entries.foldl (register overrides) commandMap cmd =
      if cmd ∈ entries.map Prod.fst then some level else commandMap cmd := by
  induction entries generalizing commandMap with
  | nil => simp
  | cons entry entries ih =>
      rw [List.foldl_cons, ih fun other hother =>
        hlevel other (List.mem_cons_of_mem _ hother)]
      by_cases hlater : cmd ∈ entries.map Prod.fst
      · simp [hlater]
      · by_cases hhere : entry.1 = cmd
        · have hvalue := hlevel entry List.mem_cons_self hhere
          simp [← hhere, register, hvalue]
        · have hnow : register overrides commandMap entry cmd = commandMap cmd :=
            Function.update_of_ne (fun heq => hhere heq.symm) _ _
          simp [hnow, hlater, Ne.symm hhere]

/-- A name of a command: a slash and at least one more character. -/
theorem named_slash {c : Char} {cs : List Char} :
    2 ≤ (String.ofList ('/' :: c :: cs)).length ∧
      beginsWith "__" (String.ofList ('/' :: c :: cs)) = false := by
  constructor
  · rw [String.length_ofList]
    exact Nat.le_add_left 2 cs.length
  · rw [beginsWith, String.toList_ofList, String.toList_ofList]
    rfl

/-- Every line registers a name that no filter of the dialogs takes for a key. -/
theorem registrations_named : ∀ entry ∈ registrations,
    2 ≤ entry.1.length ∧ beginsWith "__" entry.1 = false := by
  rw [registrations, List.forall_mem_append, List.forall_mem_append,
    List.forall_mem_map, List.forall_mem_map, List.forall_mem_map]
  refine ⟨⟨?_, ?_⟩, ?_⟩
  · rw [leadingCommands]
    repeat refine List.forall_mem_cons.mpr ⟨named_slash, ?_⟩
    exact List.forall_mem_nil _
  · rw [emotes]
    repeat refine List.forall_mem_cons.mpr ⟨named_slash, ?_⟩
    exact List.forall_mem_nil _
  · rw [otherCommands]
    repeat refine List.forall_mem_cons.mpr ⟨named_slash, ?_⟩
    exact List.forall_mem_nil _

theorem emotes_registered_once : ∀ entry ∈ registrations,
    entry.1 ∈ emotes → entry.2 = none := by
  decide +kernel

theorem mem_emotes {entry : String × Option Int} (h : entry ∈ registrations)
    (hnone : entry.2 = none) : entry.1 ∈ emotes := by
  simp only [registrations, List.mem_append, List.mem_map] at h
  rcases h with (⟨other, -, rfl⟩ | ⟨name, hname, rfl⟩) | ⟨other, -, rfl⟩
  · cases hnone
  · exact hname
  · cases hnone

/-- The entries of the emotes that the server finds at its start are 0, the level
with which it registers them. -/
def EmotesFree (overrides : String → Option Int) : Prop :=
  ∀ cmd ∈ emotes, ∀ ovr, overrides cmd = some ovr → ovr = 0

theorem startup_commandMap {overrides : String → Option Int}
    {roles : List CustomRoleEntry} {strings : String → Option String}
    {cmd : String} {level : Int}
    (hlevel : ∀ entry ∈ registrations, entry.1 = cmd →
      registeredLevel overrides entry = level) :
    (startup overrides roles strings).commandMap cmd =
      if cmd ∈ registrations.map Prod.fst then some level else none := by
  simp only [startup]
  rw [foldl_register hlevel]

theorem startup_registered {overrides : String → Option Int}
    {roles : List CustomRoleEntry} {strings : String → Option String}
    {cmd : String} (h : (startup overrides roles strings).commandMap cmd ≠ none) :
    cmd ∈ registrations.map Prod.fst := by
  by_contra hnot
  apply h
  have hnone : ∀ entry ∈ registrations, entry.1 = cmd →
      registeredLevel overrides entry = 0 := by
    intro entry hentry heq
    exact absurd (List.mem_map.mpr ⟨entry, hentry, heq⟩) hnot
  rw [startup_commandMap hnone, if_neg hnot]

theorem kept_startup {overrides : String → Option Int}
    (hfree : EmotesFree overrides) (roles : List CustomRoleEntry)
    (strings : String → Option String) :
    (startup overrides roles strings).Kept := by
  constructor
  · intro cmd hne
    obtain ⟨entry, hentry, rfl⟩ := List.mem_map.mp (startup_registered hne)
    exact registrations_named entry hentry
  · intro cmd ovr level hovr hlevel
    change overrides cmd = some ovr at hovr
    have hvalue : ∀ entry ∈ registrations, entry.1 = cmd →
        registeredLevel overrides entry = ovr := by
      rintro ⟨name, level'⟩ hentry rfl
      cases level' with
      | some level' => simp [registeredLevel, hovr]
      | none => exact (hfree name (mem_emotes hentry rfl) ovr hovr).symm
    have hin : cmd ∈ registrations.map Prod.fst :=
      startup_registered (by rw [hlevel]; simp)
    rw [startup_commandMap hvalue, if_pos hin] at hlevel
    exact (Option.some.inj hlevel).symm

theorem startup_emote {cmd : String} (hcmd : cmd ∈ emotes)
    (overrides : String → Option Int) (roles : List CustomRoleEntry)
    (strings : String → Option String) :
    (startup overrides roles strings).commandMap cmd = some 0 := by
  have hzero : ∀ entry ∈ registrations, entry.1 = cmd →
      registeredLevel overrides entry = 0 := by
    rintro ⟨name, level⟩ hentry rfl
    have hnone := emotes_registered_once _ hentry hcmd
    simp only at hnone
    simp [registeredLevel, hnone]
  have hin : cmd ∈ registrations.map Prod.fst := by
    apply List.mem_map.mpr
    refine ⟨(cmd, none), ?_, rfl⟩
    simp [registrations, hcmd]
  rw [startup_commandMap hzero, if_pos hin]

/-- In every run of the dialogs the levels follow the entries, and a role that
moves takes along the commands of its level and no other. -/
def LevelsFollow (clist : List String) (s : RoleTables) : Prop :=
  ∀ returns : List RoleReturn,
    (s.run clist returns).InSync ∧
    ∀ r old new, levelChange clist (s.run clist returns) r = some (old, new) →
      MovesExactly old new (s.run clist returns) (s.run clist (returns ++ [r]))

/-- The levels follow the entries in every run exactly when the server has
started without an entry for an emote that says something else than 0. -/
theorem levels_follow_iff (clist : List String) (overrides : String → Option Int)
    (roles : List CustomRoleEntry) (strings : String → Option String) :
    LevelsFollow clist (startup overrides roles strings) ↔
      EmotesFree overrides := by
  constructor
  · intro hfollow cmd hcmd ovr hovr
    have hsync := (hfollow []).1
    exact (hsync cmd ovr 0 hovr (startup_emote hcmd overrides roles strings)).symm
  · intro hfree returns
    have hkept := kept_run clist (kept_startup hfree roles strings) returns
    constructor
    · exact hkept.inSync
    · intro r old new hchange
      have hmoves := movesExactly_apply hkept hchange
      simpa [run] using hmoves

/-- The level of an emote as the role editor saved it before the server was
started again. -/
def savedWave (cmd : String) : Option Int :=
  if cmd = "/wave" then some 5 else none

/-- After a dialog about another command the emote has the entry 5 and still the
level 0. -/
theorem emote_keeps_level_zero :
    let start := startup savedWave [] fun _ => none
    let setWho : RoleReturn := ⟨"ann", .setCmdLevel,
      "buttonClicked|cmdlvl_save\ncmd_name|/who\nnew_level|2\n"⟩
    (start.run ["ann"] [setWho]).commandLevelOverrides "/wave" = some 5 ∧
      (start.run ["ann"] [setWho]).commandMap "/wave" = some 0 ∧
      ¬LevelsFollow ["ann"] start := by
  have hsaved : savedWave "/wave" = some 5 := by decide
  refine ⟨by decide +kernel, by decide +kernel, ?_⟩
  intro hfollow
  have hsync := (hfollow []).1 "/wave" 5 0 hsaved
    (startup_emote (by decide +kernel) _ _ _)
  cases hsync

end RoleTables

end NopyServer
