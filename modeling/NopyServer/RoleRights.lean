/-
The dialogs that give a right to one role: `editrole_access_world_list` and
`editrole_punish_list`.  The tables of the role editor stand beside what is saved of
them.  Both dialogs take the right from every role, and save the custom roles, before
they look at the button; a button that names no role leaves it so, with the entries of
the builtin roles gone from the table and still in the file.
-/
import NopyServer.RoleEditor

namespace NopyServer

/-- The rights that a role can have besides its level. -/
inductive RoleRight where
  | accessWorld | punish
deriving DecidableEq

namespace RoleRight

def key : RoleRight → String
  | .accessWorld => "__builtin_access_world_"
  | .punish => "__builtin_punish_"

def button : RoleRight → String
  | .accessWorld => "acworld"
  | .punish => "punish"

def has : RoleRight → CustomRoleEntry → Bool
  | .accessWorld, role => role.canAccessWorld
  | .punish, role => role.canPunish

def set : RoleRight → Bool → CustomRoleEntry → CustomRoleEntry
  | .accessWorld, given, role => { role with canAccessWorld := given }
  | .punish, given, role => { role with canPunish := given }

@[simp] theorem has_set (right : RoleRight) (given : Bool) (role : CustomRoleEntry) :
    right.has (right.set given role) = given := by
  cases right <;> rfl

end RoleRight

/-- The saved tables: the keys `commands` and `roles`. -/
structure RoleFiles where
  commands : String → Option Int := fun _ => none
  roles : List CustomRoleEntry := []

structure RoleStore where
  tables : RoleTables := {}
  files : RoleFiles := {}

namespace RoleStore

open RoleTables

section Definitions

variable (st : RoleStore) (right : RoleRight)

/-- `SaveCmdLevelOverrides`. -/
def saveCmdLevelOverrides : RoleStore :=
  { st with files := { st.files with commands := st.tables.commandLevelOverrides } }

/-- `SaveCustomRoles`. -/
def saveCustomRoles : RoleStore :=
  { st with files := { st.files with roles := st.tables.customRoles } }

/-- The right is taken from every role. -/
def clear : RoleStore :=
  { st with
    tables := { st.tables with
      commandLevelOverrides := builtinRoles.foldl (fun overrides role =>
        Function.update overrides (right.key ++ role.1) none)
          st.tables.commandLevelOverrides
      customRoles := st.tables.customRoles.map (right.set false) } }

def giveBuiltin (i : Nat) : RoleStore :=
  { st with
    tables := { st.tables with
      commandLevelOverrides := Function.update st.tables.commandLevelOverrides
        (right.key ++ (builtinRoles.getD i ("", 0)).1) (some 1) } }

def giveCustom (i : Nat) : RoleStore :=
  { st with
    tables := { st.tables with
      customRoles := st.tables.customRoles.modify i (right.set true) } }

/-- What the two dialogs do with their button. -/
def press (btn : String) : RoleStore :=
  if btn = "editrole_main_back" then st
  else
    let cleared := (st.clear right).saveCustomRoles
    if btn = right.button ++ "_none" then cleared.saveCmdLevelOverrides
    else
      match buttonIndex (right.button ++ "_builtin_") btn with
      | some i =>
          if i < 0 ∨ (builtinRoles.length : Int) ≤ i then cleared
          else (cleared.giveBuiltin right i.toNat).saveCmdLevelOverrides
      | none =>
          match buttonIndex (right.button ++ "_custom_") btn with
          | some i =>
              if i < 0 ∨ (cleared.tables.customRoles.length : Int) ≤ i then cleared
              else (cleared.giveCustom right i.toNat).saveCustomRoles.saveCmdLevelOverrides
          | none => cleared

def rightDialog (clist : List String) (tankIDName cch : String) : RoleStore :=
  if clist.contains tankIDName then
    match TextScanner.tryGet cch "buttonClicked" with
    | none => st
    | some btn => st.press right btn
  else st

/-- `editrole_access_world_list`. -/
def editroleAccessWorldList (clist : List String) (tankIDName cch : String) : RoleStore :=
  st.rightDialog .accessWorld clist tankIDName cch

/-- `editrole_punish_list`. -/
def editrolePunishList (clist : List String) (tankIDName cch : String) : RoleStore :=
  st.rightDialog .punish clist tankIDName cch

end Definitions

section Settings

/-- The entries of the builtin roles for a right and the flags of the custom ones. -/
structure Settings where
  builtin : List (Option Int)
  custom : List Bool
deriving DecidableEq

def settings (right : RoleRight) (overrides : String → Option Int)
    (roles : List CustomRoleEntry) : Settings where
  builtin := builtinRoles.map fun role => overrides (right.key ++ role.1)
  custom := roles.map right.has

def memory (st : RoleStore) (right : RoleRight) : Settings :=
  settings right st.tables.commandLevelOverrides st.tables.customRoles

def disk (st : RoleStore) (right : RoleRight) : Settings :=
  settings right st.files.commands st.files.roles

/-- To whom a right is given. -/
inductive Holder where
  | nobody
  | builtin (i : Nat)
  | custom (i : Nat)
deriving DecidableEq

/-- The settings where one holder has the right and nobody else. -/
def only (count : Nat) (holder : Holder) : Settings where
  builtin := (List.range builtinRoles.length).map fun i =>
    if holder = .builtin i then some 1 else none
  custom := (List.range count).map fun i => decide (holder = .custom i)

/-- Whom a button names, among so many custom roles. -/
def named (right : RoleRight) (count : Nat) (btn : String) : Option Holder :=
  if btn = right.button ++ "_none" then some .nobody
  else
    match buttonIndex (right.button ++ "_builtin_") btn with
    | some i => if i < 0 ∨ (builtinRoles.length : Int) ≤ i then none else some (.builtin i.toNat)
    | none =>
        match buttonIndex (right.button ++ "_custom_") btn with
        | some i => if i < 0 ∨ (count : Int) ≤ i then none else some (.custom i.toNat)
        | none => none

/-- Whoever the button names has the right afterwards and nobody else; where it names
nobody the settings are as before, in memory and on disk. -/
def Obeys (st : RoleStore) (right : RoleRight) (btn : String) (after : RoleStore) : Prop :=
  match named right st.tables.customRoles.length btn with
  | some holder =>
      after.memory right = only st.tables.customRoles.length holder ∧
        after.disk right = only st.tables.customRoles.length holder
  | none => after.memory right = st.memory right ∧ after.disk right = st.disk right

end Settings

section Pressing

variable {st : RoleStore} {right : RoleRight} {i : Nat} {btn : String}

theorem foldl_erase (roles : List (String × Int)) (overrides : String → Option Int)
    (key cmd : String) :
    roles.foldl (fun overrides role => Function.update overrides (key ++ role.1) none)
        overrides cmd =
      if cmd ∈ roles.map (fun role => key ++ role.1) then none else overrides cmd := by
  induction roles generalizing overrides with
  | nil => simp
  | cons role roles ih =>
      rw [List.foldl_cons, ih, List.map_cons]
      by_cases hlater : cmd ∈ roles.map fun role => key ++ role.1
      · rw [if_pos hlater, if_pos (List.mem_cons_of_mem _ hlater)]
      · rw [if_neg hlater]
        by_cases hhere : cmd = key ++ role.1
        · rw [if_pos (hhere ▸ List.mem_cons_self), hhere, Function.update_self]
        · rw [Function.update_of_ne hhere, if_neg fun hmem => ?_]
          rcases List.mem_cons.mp hmem with h | h
          · exact hhere h
          · exact hlater h

theorem builtin_names_nodup : (builtinRoles.map Prod.fst).Nodup := by decide

theorem key_append_inj {key left right : String} : key ++ left = key ++ right ↔ left = right := by
  constructor
  · intro h
    have hlists := congrArg String.toList h
    rw [String.toList_append, String.toList_append] at hlists
    exact String.toList_inj.mp (List.append_cancel_left hlists)
  · rintro rfl
    rfl

@[simp] theorem length_clear :
    (st.clear right).tables.customRoles.length = st.tables.customRoles.length :=
  List.length_map _

/-- The entry of a builtin role when all of them are erased. -/
theorem clear_entry {role : String × Int} (hrole : role ∈ builtinRoles) :
    (st.clear right).tables.commandLevelOverrides (right.key ++ role.1) = none := by
  refine (foldl_erase builtinRoles _ right.key _).trans (if_pos ?_)
  exact List.mem_map_of_mem (f := fun role => right.key ++ role.1) hrole

theorem clear_memory :
    (st.clear right).memory right = only st.tables.customRoles.length .nobody := by
  unfold memory settings only
  rw [Settings.mk.injEq]
  constructor
  · refine List.ext_getElem (by simp) fun j hj _ => ?_
    have hinside : j < builtinRoles.length := by simpa using hj
    rw [List.getElem_map, List.getElem_map, clear_entry (List.getElem_mem hinside)]
    rfl
  · refine List.ext_getElem (by simp) fun j _ _ => ?_
    simp [clear]

theorem giveBuiltin_memory (hi : i < builtinRoles.length) :
    ((st.clear right).giveBuiltin right i).memory right =
      only st.tables.customRoles.length (.builtin i) := by
  have hcleared := @clear_memory st right
  unfold memory settings only at hcleared ⊢
  rw [Settings.mk.injEq] at hcleared ⊢
  refine ⟨List.ext_getElem (by simp) fun j hj _ => ?_, ?_⟩
  · have hjlt : j < builtinRoles.length := by simpa using hj
    have hnames : (builtinRoles.getD i ("", 0)).1 = builtinRoles[i].1 := by
      rw [List.getD_eq_getElem?_getD, List.getElem?_eq_getElem hi]
      rfl
    rw [List.getElem_map, List.getElem_map, List.getElem_range]
    change Function.update _ _ _ _ = _
    rw [hnames]
    by_cases hsame : i = j
    · subst hsame
      rw [Function.update_self, if_pos rfl]
    · have hdiffer : right.key ++ builtinRoles[j].1 ≠ right.key ++ builtinRoles[i].1 := by
        intro h
        have hname := key_append_inj.mp h
        have hnames : (builtinRoles.map Prod.fst)[j]? = (builtinRoles.map Prod.fst)[i]? := by
          simp [hi, hjlt, hname]
        exact hsame ((List.getElem?_inj (by simpa using hjlt) builtin_names_nodup).mp
          hnames).symm
      rw [Function.update_of_ne hdiffer, if_neg (by simpa using hsame)]
      exact clear_entry (List.getElem_mem hjlt)
  · exact hcleared.2

theorem giveCustom_memory :
    ((st.clear right).giveCustom right i).memory right =
      only st.tables.customRoles.length (.custom i) := by
  have hcleared := @clear_memory st right
  unfold memory settings only at hcleared ⊢
  rw [Settings.mk.injEq] at hcleared ⊢
  refine ⟨hcleared.1, List.ext_getElem (by simp [giveCustom]) fun j hj _ => ?_⟩
  simp only [List.getElem_map, List.getElem_range, giveCustom, List.getElem_modify]
  by_cases hsame : i = j
  · simp [hsame]
  · simp [clear, hsame]

/-- A button that names somebody is obeyed. -/
theorem press_named {holder : Holder}
    (hnamed : named right st.tables.customRoles.length btn = some holder) :
    (st.press right btn).memory right = only st.tables.customRoles.length holder ∧
      (st.press right btn).disk right = only st.tables.customRoles.length holder := by
  have hback : btn ≠ "editrole_main_back" := by
    rintro rfl
    cases right <;> cases hnamed
  have hcount : (st.clear right).saveCustomRoles.tables.customRoles.length =
      st.tables.customRoles.length := length_clear
  unfold named at hnamed
  unfold press
  rw [if_neg hback]
  dsimp only
  rw [hcount]
  by_cases hnone : btn = right.button ++ "_none"
  · rw [if_pos hnone] at hnamed ⊢
    cases hnamed
    exact ⟨clear_memory, clear_memory⟩
  · rw [if_neg hnone] at hnamed ⊢
    cases hbuiltin : buttonIndex (right.button ++ "_builtin_") btn with
    | some i =>
        rw [hbuiltin] at hnamed
        dsimp only at hnamed ⊢
        split_ifs at hnamed ⊢ with hrange
        cases hnamed
        have hlt : i.toNat < builtinRoles.length := by omega
        exact ⟨giveBuiltin_memory hlt, giveBuiltin_memory hlt⟩
    | none =>
        rw [hbuiltin] at hnamed
        cases hcustom : buttonIndex (right.button ++ "_custom_") btn with
        | none =>
            rw [hcustom] at hnamed
            cases hnamed
        | some i =>
            rw [hcustom] at hnamed
            dsimp only at hnamed ⊢
            split_ifs at hnamed ⊢ with hrange
            cases hnamed
            exact ⟨giveCustom_memory, giveCustom_memory⟩

/-- Any other button takes the right from everybody. -/
theorem press_unnamed (hback : btn ≠ "editrole_main_back")
    (hnamed : named right st.tables.customRoles.length btn = none) :
    st.press right btn = (st.clear right).saveCustomRoles := by
  have hcount : (st.clear right).saveCustomRoles.tables.customRoles.length =
      st.tables.customRoles.length := length_clear
  unfold named at hnamed
  unfold press
  rw [if_neg hback]
  dsimp only
  rw [hcount]
  by_cases hnone : btn = right.button ++ "_none"
  · rw [if_pos hnone] at hnamed
    cases hnamed
  · rw [if_neg hnone] at hnamed ⊢
    cases hbuiltin : buttonIndex (right.button ++ "_builtin_") btn with
    | some i =>
        rw [hbuiltin] at hnamed
        dsimp only at hnamed ⊢
        split_ifs at hnamed ⊢ with hrange
        rfl
    | none =>
        rw [hbuiltin] at hnamed
        cases hcustom : buttonIndex (right.button ++ "_custom_") btn with
        | none => rfl
        | some i =>
            rw [hcustom] at hnamed
            dsimp only at hnamed ⊢
            split_ifs at hnamed ⊢ with hrange
            rfl

/-- Nobody has the right, neither in memory nor among the saved custom roles. -/
def Unheld (st : RoleStore) (right : RoleRight) : Prop :=
  st.memory right = only st.tables.customRoles.length .nobody ∧
    (st.disk right).custom = (only st.tables.customRoles.length .nobody).custom

theorem press_obeys_iff :
    Obeys st right btn (st.press right btn) ↔
      btn = "editrole_main_back" ∨
        named right st.tables.customRoles.length btn ≠ none ∨ st.Unheld right := by
  cases hnamed : named right st.tables.customRoles.length btn with
  | some holder =>
      refine iff_of_true ?_ (Or.inr (Or.inl (Option.some_ne_none _)))
      unfold Obeys
      rw [hnamed]
      exact press_named hnamed
  | none =>
      unfold Obeys
      rw [hnamed]
      dsimp only
      by_cases hback : btn = "editrole_main_back"
      · refine iff_of_true ?_ (Or.inl hback)
        unfold press
        rw [if_pos hback]
        exact ⟨rfl, rfl⟩
      · rw [press_unnamed hback hnamed]
        have hmemory : (st.clear right).saveCustomRoles.memory right =
            only st.tables.customRoles.length .nobody := clear_memory
        have hdisk : (st.clear right).saveCustomRoles.disk right =
            { st.disk right with
              custom := (only st.tables.customRoles.length .nobody).custom } := by
          have hcustom := congrArg Settings.custom (@clear_memory st right)
          exact congrArg (Settings.mk _) hcustom
        rw [hmemory, hdisk]
        constructor
        · rintro ⟨hsame, hfile⟩
          exact Or.inr (Or.inr ⟨hsame.symm, (congrArg Settings.custom hfile).symm⟩)
        · rintro (h | h | ⟨hsame, hfile⟩)
          · exact absurd h hback
          · exact absurd rfl h
          · rw [← hfile]
            exact ⟨hsame.symm, rfl⟩

end Pressing

section Dialogs

variable {st : RoleStore} {right : RoleRight} {clist : List String}
  {tankIDName cch btn : String}

theorem rightDialog_listed (hlisted : clist.contains tankIDName = true)
    (hbtn : TextScanner.tryGet cch "buttonClicked" = some btn) :
    st.rightDialog right clist tankIDName cch = st.press right btn := by
  unfold rightDialog
  rw [if_pos hlisted, hbtn]

/-- On the tables the dialogs are those of the role editor. -/
theorem rightDialog_tables (hlisted : clist.contains tankIDName = true) :
    (st.rightDialog right clist tankIDName cch).tables =
      rightList right.key right.button right.set st.tables cch := by
  unfold rightDialog rightList
  rw [if_pos hlisted]
  cases hbtn : TextScanner.tryGet cch "buttonClicked" with
  | none => rfl
  | some btn =>
      dsimp only
      unfold press
      by_cases hback : btn = "editrole_main_back"
      · rw [if_pos hback, if_pos hback]
      · rw [if_neg hback, if_neg hback]
        dsimp only
        by_cases hnone : btn = right.button ++ "_none"
        · -- the name of this button is no number of a role
          subst hnone
          rw [if_pos rfl]
          cases right <;> rfl
        · rw [if_neg hnone]
          cases buttonIndex (right.button ++ "_builtin_") btn with
          | some i =>
              dsimp only
              split_ifs
              all_goals first
                | rfl
                | omega
          | none =>
              cases buttonIndex (right.button ++ "_custom_") btn with
              | none => rfl
              | some i =>
                  dsimp only
                  split_ifs with hrange hpos hpos
                  · refine congrArg (fun roles => ({ (st.clear right).tables with
                      customRoles := roles } : RoleTables)) (List.modify_eq_self ?_).symm
                    change i < 0 ∨ ((st.clear right).tables.customRoles.length : Int) ≤ i
                      at hrange
                    change (st.clear right).tables.customRoles.length ≤ i.toNat
                    omega
                  · rfl
                  · rfl
                  · omega

/-- A right goes to whom the button names and otherwise stays as it was exactly when the
button is the one back, or names somebody, or nobody has the right. -/
theorem rights_obeyed_iff (hlisted : clist.contains tankIDName = true)
    (hbtn : TextScanner.tryGet cch "buttonClicked" = some btn) :
    (Obeys st .accessWorld btn (st.editroleAccessWorldList clist tankIDName cch) ↔
        btn = "editrole_main_back" ∨
          named .accessWorld st.tables.customRoles.length btn ≠ none ∨
          st.Unheld .accessWorld) ∧
      (Obeys st .punish btn (st.editrolePunishList clist tankIDName cch) ↔
        btn = "editrole_main_back" ∨
          named .punish st.tables.customRoles.length btn ≠ none ∨ st.Unheld .punish) := by
  unfold editroleAccessWorldList editrolePunishList
  rw [rightDialog_listed hlisted hbtn, rightDialog_listed hlisted hbtn]
  exact ⟨press_obeys_iff, press_obeys_iff⟩

/-- The VIPs have access to every world. -/
def vipAccess (cmd : String) : Option Int :=
  if cmd = "__builtin_access_world_VIP" then some 1 else none

def vipStore : RoleStore where
  tables := { commandLevelOverrides := vipAccess }
  files := { commands := vipAccess }

/-- The third builtin role is given the access. -/
theorem moderators_get_access :
    Obeys vipStore .accessWorld "acworld_builtin_2"
      (vipStore.editroleAccessWorldList ["ann"] "ann" "buttonClicked|acworld_builtin_2") := by
  rw [(rights_obeyed_iff (by decide) (by decide)).1]
  exact Or.inr (Or.inl (by decide +kernel))

/-- A button with the number of no role takes the access from the VIPs. -/
theorem wrong_number_takes_access :
    ¬ ∀ (st : RoleStore) (clist : List String) (tankIDName cch btn : String),
      clist.contains tankIDName = true →
      TextScanner.tryGet cch "buttonClicked" = some btn →
      Obeys st .accessWorld btn (st.editroleAccessWorldList clist tankIDName cch) := by
  intro hclaim
  have hobeys := hclaim vipStore ["ann"] "ann" "buttonClicked|acworld_builtin_99"
    "acworld_builtin_99" (by decide) (by decide +kernel)
  have hnamed : named .accessWorld vipStore.tables.customRoles.length "acworld_builtin_99" =
      none := by decide +kernel
  unfold Obeys at hobeys
  rw [hnamed] at hobeys
  exact absurd hobeys.1 (by decide +kernel)

end Dialogs

end RoleStore

end NopyServer
