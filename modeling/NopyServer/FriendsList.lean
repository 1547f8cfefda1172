/-
`remove_friend`.  A friendship is kept twice: in the list of the player and in the list
of the friend, who is connected or has only a file.  The player's list is erased from
while an index walks over it; for each entry that goes, one entry of the friend's list
goes, and the file is looked for under the name as it was typed.

So the friendship is gone on both sides, and no other one, when the player's list has
no two entries of the friend side by side, and the friend's list has no more entries of
the player than that; for a file moreover when it is found, and when its entries have
the player's name letter by letter.
-/
import NopyServer.Lib.EraseLoop
import NopyServer.Lib.Json
import NopyServer.Server

namespace NopyServer

/-- `to_json` of an entry of the list of friends. -/
def Friend.toJson (friend : Friend) : Json :=
  .obj [("name", .str friend.name), ("mute", .bool friend.mute),
    ("block_trade", .bool friend.blockTrade), ("last_seen", .int friend.lastSeen)]

namespace Friends

open EraseLoop

section Definitions

/-- What becomes of a file when it is opened and parsed. -/
inductive FileText where
  | locked
  | garbled
  | json (value : Json)

structure PlayerFile where
  name : String
  text : FileText

/-- The connected players and the files of players. -/
structure Realm where
  players : List Player := []
  files : List PlayerFile := []

/-- An entry has somebody's name, whatever the case of its letters. -/
def named (name : String) (friend : Friend) : Bool := iequals friend.name name

/-- The search in the friends of a file for the entry to erase.  Asking an entry for a
member it lacks adds the member; `none` is an exception. -/
def eraseEntry (name : String) : List Json → Option (List Json)
  | [] => some []
  | .obj members :: rest =>
      match members.lookup "name" with
      | some (.str other) =>
          if other = name then some rest
          else (eraseEntry name rest).map (.obj members :: ·)
      | some _ => (eraseEntry name rest).map (.obj members :: ·)
      | none =>
          (eraseEntry name rest).map (.obj (Json.setKey "name" .null members) :: ·)
  | .null :: rest => (eraseEntry name rest).map (.obj [("name", .null)] :: ·)
  | _ :: _ => none

/-- The file of a player without one entry of a name. -/
def eraseFromFile (name : String) : Json → Option Json
  | .obj members =>
      match members.lookup "friends" with
      | none => some (.obj (Json.setKey "friends" .null members))
      | some .null | some (.obj []) => some (.obj members)
      | some (.arr entries) =>
          (eraseEntry name entries).map fun left =>
            .obj (Json.setKey "friends" (.arr left) members)
      | some _ => none
  | .null => some (.obj [("friends", .null)])
  | _ => none

variable (alike : String → String → Bool)

/-- The connected player of a name. -/
def online (realm : Realm) (name_ : String) : Option Nat :=
  realm.players.findIdx? fun pl => iequals pl.tankIDName name_

/-- The file that is opened for a name; `alike` says which names of files are the same to
the system. -/
def onDisk (realm : Realm) (name_ : String) : Option Nat :=
  realm.files.findIdx? fun file => alike file.name name_

/-- The friend's side; `none` where `remove_friend` returns. -/
def removeFromPartner (tankIDName name_ : String) (realm : Realm) : Option Realm :=
  match online realm name_ with
  | some b =>
      some { realm with players := realm.players.modify b fun pl =>
        { pl with friends := pl.friends.eraseP (named tankIDName) } }
  | none =>
      match onDisk alike realm name_ with
      | none => some realm
      | some k =>
          match realm.files[k]?.map PlayerFile.text with
          | some (.json value) =>
              (eraseFromFile tankIDName value).map fun left =>
                { realm with files := realm.files.modify k fun file =>
                  { file with text := .json left } }
          | some .locked => none
          | _ => some realm

/-- A change of a player's list of friends. -/
def mapFriends (a : Nat) (f : List Friend → List Friend) (realm : Realm) : Realm :=
  { realm with players := realm.players.modify a fun pl => { pl with friends := f pl.friends } }

/-- The walk over the player's list from the index `c_` on. -/
def removeFrom (a : Nat) (name_ : String) : Nat → Nat → Realm → Realm
  | 0, _, realm => realm
  | fuel + 1, c_, realm =>
      match realm.players[a]? with
      | none => realm
      | some pl =>
          match pl.friends[c_]? with
          | none => realm
          | some friend =>
              if named name_ friend = true then
                match removeFromPartner alike pl.tankIDName name_ realm with
                | none => realm
                | some realm =>
                    removeFrom a name_ fuel (c_ + 1) (mapFriends a (·.eraseIdx c_) realm)
              else removeFrom a name_ fuel (c_ + 1) realm

/-- `remove_friend`; each step of the walk comes closer to the end of the list. -/
def removeFriend (a : Nat) (name_ : String) (realm : Realm) : Realm :=
  match realm.players[a]? with
  | none => realm
  | some pl => removeFrom alike a name_ pl.friends.length 0 realm

/-- Where the friend is: connected, or only in a file. -/
inductive Partner where
  | online (b : Nat)
  | file (k : Nat)

/-- The name in an entry of a file. -/
def entryNamed (name : String) : Json → Bool
  | .obj members =>
      match members.lookup "name" with
      | some (.str other) => iequals other name
      | _ => false
  | _ => false

/-- A file without all entries of a name. -/
def FileText.without (name : String) : FileText → FileText
  | .json (.obj members) =>
      match members.lookup "friends" with
      | some (.arr entries) =>
          .json (.obj (Json.setKey "friends"
            (.arr (entries.filter fun entry => !entryNamed name entry)) members))
      | _ => .json (.obj members)
  | text => text

/-- The realm without the friendship of a player and his partner. -/
def unfriended (a : Nat) (partner : Partner) (tankIDName name_ : String) (realm : Realm) :
    Realm :=
  let realm := mapFriends a (·.filter fun friend => !named name_ friend) realm
  match partner with
  | .online b => mapFriends b (·.filter fun friend => !named tankIDName friend) realm
  | .file k =>
      { realm with files := realm.files.modify k fun file =>
        { file with text := file.text.without tankIDName } }

/-- The friends in a file of a player. -/
structure Saved (text : FileText) (members : List (String × Json)) (friends : List Friend) :
    Prop where
  text_eq : text = .json (.obj members)
  entries : members.lookup "friends" = some (.arr (friends.map Friend.toJson))

/-- The partner of a name and his friends. -/
def IsPartner (realm : Realm) (name_ : String) (friends : List Friend) : Partner → Prop
  | .online b => online realm name_ = some b ∧
      realm.players[b]?.map Player.friends = some friends
  | .file k => online realm name_ = none ∧
      ∃ file members, realm.files[k]? = some file ∧ iequals file.name name_ = true ∧
        Saved file.text members friends

/-- When the removal does what it should. -/
def Clean (realm : Realm) (pl : Player) (name_ : String) (theirs : List Friend)
    (partner : Partner) : Prop :=
  Apart (named name_) pl.friends ∧
    theirs.countP (named pl.tankIDName) ≤ pl.friends.countP (named name_) ∧
    match partner with
    | .online _ => True
    | .file k => onDisk alike realm name_ = some k ∧
        ∀ friend ∈ theirs, named pl.tankIDName friend = true → friend.name = pl.tankIDName

end Definitions

section Lists

variable {realm : Realm} {pl : Player} {a b : Nat} {f g : List Friend → List Friend}
  {name_ : String}

theorem mapFriends_self (hpl : realm.players[a]? = some pl) :
    (mapFriends a f realm).players[a]? = some { pl with friends := f pl.friends } := by
  unfold mapFriends
  dsimp only
  rw [List.getElem?_modify_eq, hpl]
  rfl

theorem mapFriends_other (hne : a ≠ b) :
    (mapFriends a f realm).players[b]? = realm.players[b]? :=
  List.getElem?_modify_ne _ _ hne

/-- A change counts only on the list that is there. -/
theorem mapFriends_congr (hpl : realm.players[a]? = some pl)
    (hsame : f pl.friends = g pl.friends) : mapFriends a f realm = mapFriends a g realm := by
  have hplayers : (mapFriends a f realm).players = (mapFriends a g realm).players := by
    apply List.ext_getElem?
    intro c
    by_cases hc : a = c
    · subst hc
      rw [mapFriends_self hpl, mapFriends_self hpl, hsame]
    · rw [mapFriends_other hc, mapFriends_other hc]
  exact congrArg (fun players => { realm with players := players }) hplayers

theorem mapFriends_id : mapFriends a (fun friends => friends) realm = realm := by
  unfold mapFriends
  rw [show (fun pl : Player => { pl with friends := pl.friends }) = id from rfl, List.modify_id]

theorem mapFriends_mapFriends :
    mapFriends a g (mapFriends a f realm) = mapFriends a (fun friends => g (f friends)) realm := by
  unfold mapFriends
  dsimp only
  rw [List.modify_modify_eq]
  rfl

theorem mapFriends_comm (hne : a ≠ b) :
    mapFriends b g (mapFriends a f realm) = mapFriends a f (mapFriends b g realm) := by
  unfold mapFriends
  dsimp only
  rw [List.modify_modify_ne _ _ _ hne]

theorem online_congr {next : Realm}
    (hnames : next.players.map Player.tankIDName = realm.players.map Player.tankIDName) :
    online next name_ = online realm name_ := by
  have hby : ∀ realm : Realm, online realm name_ =
      (realm.players.map Player.tankIDName).findIdx? fun other => iequals other name_ := by
    intro realm
    unfold online
    rw [List.findIdx?_map]
    rfl
  rw [hby, hby, hnames]

theorem names_mapFriends :
    (mapFriends a f realm).players.map Player.tankIDName =
      realm.players.map Player.tankIDName :=
  Ledger.map_modify_kept fun _ _ => rfl

theorem online_mapFriends : online (mapFriends a f realm) name_ = online realm name_ :=
  online_congr names_mapFriends

end Lists

section Walk

variable {alike : String → String → Bool} {a : Nat} {tankIDName name_ : String}
  {P : Realm → Prop} {g : Realm → Realm}

/-- What the friend's side does, as long as it does not return. -/
structure Acts (alike : String → String → Bool) (a : Nat) (tankIDName name_ : String)
    (P : Realm → Prop) (g : Realm → Realm) : Prop where
  act : ∀ realm, P realm → removeFromPartner alike tankIDName name_ realm = some (g realm)
  stays : ∀ realm, P realm → P (g realm)
  own : ∀ realm f, P realm → P (mapFriends a f realm)
  player : ∀ realm, (g realm).players[a]? = realm.players[a]?
  commutes : ∀ realm f, g (mapFriends a f realm) = mapFriends a f (g realm)

theorem Acts.iterate (hacts : Acts alike a tankIDName name_ P g) (n : Nat) (realm : Realm)
    (f : List Friend → List Friend) :
    g^[n] (mapFriends a f realm) = mapFriends a f (g^[n] realm) := by
  induction n generalizing realm with
  | zero => rfl
  | succ n ih => rw [Function.iterate_succ_apply, hacts.commutes, ih, Function.iterate_succ_apply]

theorem Acts.iterate_player (hacts : Acts alike a tankIDName name_ P g) (n : Nat)
    (realm : Realm) : (g^[n] realm).players[a]? = realm.players[a]? := by
  induction n generalizing realm with
  | zero => rfl
  | succ n ih => rw [Function.iterate_succ_apply, ih, hacts.player]

/-- The walk ends behind the last entry. -/
theorem removeFrom_end {realm : Realm} {pl : Player} (hpl : realm.players[a]? = some pl)
    {c_ : Nat} (hc : pl.friends.length ≤ c_) (fuel : Nat) :
    removeFrom alike a name_ fuel c_ realm = realm := by
  cases fuel with
  | zero => rfl
  | succ fuel =>
      rw [removeFrom, hpl]
      dsimp only
      rw [List.getElem?_eq_none hc]

/-- The walk is a sweep over the player's list, and each entry that goes is one call on
the friend's side.  More steps than entries change nothing. -/
theorem Acts.removeFrom (hacts : Acts alike a tankIDName name_ P g) (fuel : Nat)
    (before rest : List Friend) (realm : Realm) (pl : Player) (hP : P realm)
    (hpl : realm.players[a]? = some pl) (hname : pl.tankIDName = tankIDName)
    (hfriends : pl.friends = before ++ rest) (hfuel : rest.length ≤ fuel) :
    removeFrom alike a name_ fuel before.length realm =
      mapFriends a (fun _ => before ++ sweep (named name_) false rest)
        (g^[hits (named name_) false rest] realm) := by
  induction fuel generalizing before rest realm pl with
  | zero =>
      have hnil : rest = [] := List.eq_nil_of_length_eq_zero (Nat.le_zero.mp hfuel)
      subst hnil
      rw [Friends.removeFrom, sweep, hits, ← hfriends]
      exact (mapFriends_id.symm.trans (mapFriends_congr hpl rfl))
  | succ fuel ih =>
      cases rest with
      | nil =>
          rw [removeFrom_end hpl (by rw [hfriends, List.append_nil]) _, sweep, hits, ← hfriends]
          exact (mapFriends_id.symm.trans (mapFriends_congr hpl rfl))
      | cons friend rest =>
          have hlookup : pl.friends[before.length]? = some friend := by
            rw [hfriends]
            simp
          rw [List.length_cons] at hfuel
          rw [Friends.removeFrom, hpl]
          dsimp only
          rw [hlookup]
          dsimp only
          by_cases hnamed : named name_ friend = true
          · have herased : (before ++ friend :: rest).eraseIdx before.length = before ++ rest := by
              rw [List.eraseIdx_append_of_length_le (le_refl _)]
              simp
            have hgone : (mapFriends a (·.eraseIdx before.length) (g realm)).players[a]? =
                some { pl with friends := before ++ rest } := by
              rw [mapFriends_self (by rw [hacts.player]; exact hpl), hfriends, herased]
            rw [if_pos hnamed, hname, hacts.act realm hP]
            dsimp only
            rw [sweep, if_pos hnamed, hits, if_pos hnamed, Function.iterate_succ_apply]
            cases rest with
            | nil =>
                -- the erased entry was the last one
                rw [removeFrom_end hgone (by simp), sweep, hits]
                refine @mapFriends_congr (g realm) pl a _ _ (by rw [hacts.player]; exact hpl) ?_
                rw [hfriends, herased]
            | cons next rest =>
                have hlater := ih (before ++ [next]) rest _ _
                  (hacts.own _ _ (hacts.stays _ hP)) hgone hname (by simp)
                  (by rw [List.length_cons] at hfuel; omega)
                rw [List.length_append, List.length_singleton] at hlater
                rw [hlater, hacts.iterate, mapFriends_mapFriends, sweep, hits,
                  List.append_assoc]
                rfl
          · have hlater := ih (before ++ [friend]) rest realm pl hP hpl hname
              (by rw [hfriends]; simp) (by omega)
            rw [List.length_append, List.length_singleton] at hlater
            rw [if_neg hnamed, hlater, sweep, if_neg hnamed, hits, if_neg hnamed,
              List.append_assoc]
            rfl

theorem Acts.removeFriend (hacts : Acts alike a tankIDName name_ P g) {realm : Realm}
    {pl : Player} (hP : P realm) (hpl : realm.players[a]? = some pl)
    (hname : pl.tankIDName = tankIDName) :
    removeFriend alike a name_ realm =
      mapFriends a (sweep (named name_) false)
        (g^[hits (named name_) false pl.friends] realm) := by
  have hwalk := hacts.removeFrom pl.friends.length [] pl.friends realm pl hP hpl hname
    rfl (le_refl _)
  unfold Friends.removeFriend
  rw [hpl]
  exact hwalk.trans (mapFriends_congr (by rw [hacts.iterate_player]; exact hpl) rfl)

end Walk

section Online

variable {alike : String → String → Bool} {realm : Realm} {a b : Nat} {pl : Player}
  {name_ : String} {theirs : List Friend}

theorem acts_online (hne : a ≠ b) (tankIDName : String) :
    Acts alike a tankIDName name_ (fun realm => online realm name_ = some b)
      (mapFriends b (·.eraseP (named tankIDName))) where
  act realm hP := by
    unfold removeFromPartner
    rw [hP]
    rfl
  stays realm hP := by
    rw [online_mapFriends]
    exact hP
  own realm f hP := by
    rw [online_mapFriends]
    exact hP
  player realm := mapFriends_other hne.symm
  commutes realm f := mapFriends_comm hne

theorem iterate_mapFriends (n : Nat) (f : List Friend → List Friend) (realm : Realm) :
    (mapFriends b f)^[n] realm = mapFriends b f^[n] realm := by
  induction n generalizing realm with
  | zero => exact mapFriends_id.symm
  | succ n ih =>
      rw [Function.iterate_succ_apply, ih, mapFriends_mapFriends]
      rfl

/-- The removal of a friend who is connected. -/
theorem removeFriend_online_iff (hpl : realm.players[a]? = some pl)
    (hother : iequals pl.tankIDName name_ = false)
    (hpartner : IsPartner realm name_ theirs (.online b)) :
    removeFriend alike a name_ realm = unfriended a (.online b) pl.tankIDName name_ realm ↔
      Clean alike realm pl name_ theirs (.online b) := by
  obtain ⟨honline, htheirs⟩ := hpartner
  have hne : a ≠ b := by
    rintro rfl
    obtain ⟨hlt, hnamed, -⟩ := List.findIdx?_eq_some_iff_getElem.mp honline
    rw [List.getElem?_eq_getElem hlt, Option.some.injEq] at hpl
    rw [hpl, hother] at hnamed
    cases hnamed
  obtain ⟨partner, hb, rfl⟩ := Option.map_eq_some_iff.mp htheirs
  have hwalk := (@acts_online alike a b name_ hne pl.tankIDName).removeFriend honline hpl rfl
  rw [iterate_mapFriends] at hwalk
  unfold unfriended Clean
  dsimp only
  rw [hwalk, mapFriends_comm hne]
  constructor
  · intro heq
    have hown := congrArg (fun realm : Realm => realm.players[a]?) heq
    rw [mapFriends_self (by rw [mapFriends_other hne.symm]; exact hpl),
      mapFriends_self (by rw [mapFriends_other hne.symm]; exact hpl)] at hown
    have hother := congrArg (fun realm : Realm => realm.players[b]?) heq
    rw [mapFriends_other hne, mapFriends_other hne, mapFriends_self hb,
      mapFriends_self hb] at hother
    have hapart := sweep_eq_filter_iff.mp
      (congrArg Player.friends (Option.some.inj hown))
    have henough := (iterate_eraseP_eq_filter_iff _ _).mp
      (congrArg Player.friends (Option.some.inj hother))
    rw [hits_of_apart hapart] at henough
    exact ⟨hapart, henough, trivial⟩
  · rintro ⟨hapart, henough, -⟩
    rw [← hits_of_apart hapart] at henough
    rw [mapFriends_congr hb ((iterate_eraseP_eq_filter_iff _ _).mpr henough)]
    refine mapFriends_congr (by rw [mapFriends_other hne.symm]; exact hpl) ?_
    exact sweep_eq_filter_iff.mpr hapart

end Online

section Files

variable {alike : String → String → Bool} {realm : Realm} {k : Nat}
  {f g : FileText → FileText} {name name_ : String} {members : List (String × Json)}
  {friends theirs : List Friend}

/-- A change of what is in a file. -/
def mapText (k : Nat) (f : FileText → FileText) (realm : Realm) : Realm :=
  { realm with files := realm.files.modify k fun file => { file with text := f file.text } }

theorem mapText_self {file : PlayerFile} (hfile : realm.files[k]? = some file) :
    (mapText k f realm).files[k]? = some { file with text := f file.text } := by
  unfold mapText
  dsimp only
  rw [List.getElem?_modify_eq, hfile]
  rfl

theorem mapText_congr {file : PlayerFile} (hfile : realm.files[k]? = some file)
    (hsame : f file.text = g file.text) : mapText k f realm = mapText k g realm := by
  have hfiles : (mapText k f realm).files = (mapText k g realm).files := by
    apply List.ext_getElem?
    intro c
    by_cases hc : k = c
    · subst hc
      rw [mapText_self hfile, mapText_self hfile, hsame]
    · unfold mapText
      dsimp only
      rw [List.getElem?_modify_ne _ _ hc, List.getElem?_modify_ne _ _ hc]
  exact congrArg (fun files => { realm with files := files }) hfiles

theorem iterate_mapText (n : Nat) (f : FileText → FileText) (realm : Realm) :
    (mapText k f)^[n] realm = mapText k f^[n] realm := by
  induction n generalizing realm with
  | zero =>
      unfold mapText
      rw [Function.iterate_zero, Function.iterate_zero, id,
        show (fun file : PlayerFile => { file with text := id file.text }) = id from rfl,
        List.modify_id]
  | succ n ih =>
      rw [Function.iterate_succ_apply, ih]
      unfold mapText
      dsimp only
      rw [List.modify_modify_eq]
      rfl

theorem onDisk_congr {next : Realm}
    (hnames : next.files.map PlayerFile.name = realm.files.map PlayerFile.name) :
    onDisk alike next name_ = onDisk alike realm name_ := by
  have hby : ∀ realm : Realm, onDisk alike realm name_ =
      (realm.files.map PlayerFile.name).findIdx? fun other => alike other name_ := by
    intro realm
    unfold onDisk
    rw [List.findIdx?_map]
    rfl
  rw [hby, hby, hnames]

theorem names_mapText :
    (mapText k f realm).files.map PlayerFile.name = realm.files.map PlayerFile.name :=
  Ledger.map_modify_kept fun _ _ => rfl

/-- The file of a player with these friends. -/
def textWith (members : List (String × Json)) (friends : List Friend) : FileText :=
  .json (.obj (Json.setKey "friends" (.arr (friends.map Friend.toJson)) members))

theorem Saved.text_with {text : FileText} (hsaved : Saved text members friends) :
    text = textWith members friends := by
  rw [hsaved.text_eq, textWith, Json.setKey_of_lookup hsaved.entries]

theorem toJson_injective : Function.Injective Friend.toJson := by
  intro first second heq
  obtain ⟨name, blockTrade, mute, lastSeen⟩ := first
  obtain ⟨name', blockTrade', mute', lastSeen'⟩ := second
  simp only [Friend.toJson, Json.obj.injEq, List.cons.injEq, Prod.mk.injEq, Json.str.injEq,
    Json.bool.injEq, Json.int.injEq, true_and, and_true] at heq
  obtain ⟨rfl, rfl, rfl, rfl⟩ := heq
  rfl

theorem textWith_inj (heq : textWith members friends = textWith members theirs) :
    friends = theirs := by
  unfold textWith at heq
  have hlookup := congrArg (fun entries => entries.lookup "friends")
    (Json.obj.inj (FileText.json.inj heq))
  simp only [Json.lookup_setKey, Option.some.injEq, Json.arr.injEq] at hlookup
  exact toJson_injective.list_map hlookup

/-- An entry has somebody's name letter by letter. -/
def exactly (name : String) (friend : Friend) : Bool := friend.name == name

theorem eraseEntry_saved (friends : List Friend) :
    eraseEntry name (friends.map Friend.toJson) =
      some ((friends.eraseP (exactly name)).map Friend.toJson) := by
  induction friends with
  | nil => rfl
  | cons friend rest ih =>
      rw [List.map_cons]
      by_cases hname : friend.name = name
      · have hexact : exactly name friend = true := beq_iff_eq.mpr hname
        rw [List.eraseP_cons_of_pos hexact]
        simp [Friend.toJson, eraseEntry, hname]
      · have hexact : ¬ exactly name friend = true := fun h => hname (beq_iff_eq.mp h)
        rw [List.eraseP_cons_of_neg hexact, List.map_cons, Friend.toJson, eraseEntry,
          List.lookup_cons_self]
        dsimp only
        rw [if_neg hname, ih]
        rfl

/-- The file after one call on the friend's side. -/
def eraseOne (name : String) : FileText → FileText
  | .json value =>
      match eraseFromFile name value with
      | some left => .json left
      | none => .json value
  | text => text

theorem eraseFromFile_textWith (members : List (String × Json)) (friends : List Friend) :
    eraseFromFile name
        (.obj (Json.setKey "friends" (.arr (friends.map Friend.toJson)) members)) =
      some (.obj (Json.setKey "friends"
        (.arr ((friends.eraseP (exactly name)).map Friend.toJson)) members)) := by
  rw [eraseFromFile, Json.lookup_setKey]
  dsimp only
  rw [eraseEntry_saved, Option.map_some, Json.setKey_setKey]

theorem eraseOne_textWith (members : List (String × Json)) (friends : List Friend) :
    eraseOne name (textWith members friends) =
      textWith members (friends.eraseP (exactly name)) := by
  unfold eraseOne textWith
  dsimp only
  rw [eraseFromFile_textWith]

theorem iterate_eraseOne (n : Nat) (members : List (String × Json)) (friends : List Friend) :
    (eraseOne name)^[n] (textWith members friends) =
      textWith members ((List.eraseP (exactly name))^[n] friends) := by
  induction n generalizing friends with
  | zero => rfl
  | succ n ih =>
      rw [Function.iterate_succ_apply, Function.iterate_succ_apply, eraseOne_textWith, ih]

theorem without_textWith (members : List (String × Json)) (friends : List Friend) :
    (textWith members friends).without name =
      textWith members (friends.filter fun friend => !named name friend) := by
  have hentries : (friends.map Friend.toJson).filter (fun entry => !entryNamed name entry) =
      (friends.filter fun friend => !named name friend).map Friend.toJson := by
    rw [List.filter_map]
    rfl
  unfold FileText.without textWith
  dsimp only
  rw [Json.lookup_setKey]
  dsimp only
  rw [hentries, Json.setKey_setKey]

end Files

section Offline

variable {alike : String → String → Bool} {realm : Realm} {a k : Nat} {pl : Player}
  {tankIDName name_ : String} {theirs : List Friend}

/-- The friend has only a file, and the file is found. -/
def Found (alike : String → String → Bool) (name_ : String) (k : Nat) (realm : Realm) : Prop :=
  online realm name_ = none ∧ onDisk alike realm name_ = some k ∧
    ∃ file members friends, realm.files[k]? = some file ∧ file.text = textWith members friends

theorem acts_file (a k : Nat) :
    Acts alike a tankIDName name_ (Found alike name_ k) (mapText k (eraseOne tankIDName)) where
  act realm hfound := by
    obtain ⟨honline, hdisk, file, members, friends, hfile, htext⟩ := hfound
    have hone : mapText k (fun _ => textWith members (friends.eraseP (exactly tankIDName)))
        realm = mapText k (eraseOne tankIDName) realm :=
      mapText_congr hfile (by rw [htext, eraseOne_textWith])
    unfold removeFromPartner
    rw [honline]
    dsimp only
    rw [hdisk]
    dsimp only
    rw [hfile, Option.map_some, htext, textWith]
    dsimp only
    rw [eraseFromFile_textWith, Option.map_some]
    exact congrArg some hone
  stays realm hfound := by
    obtain ⟨honline, hdisk, file, members, friends, hfile, htext⟩ := hfound
    refine ⟨honline, (onDisk_congr names_mapText).trans hdisk, _, members,
      friends.eraseP (exactly tankIDName), mapText_self hfile, ?_⟩
    dsimp only
    rw [htext, eraseOne_textWith]
  own realm f hfound := by
    obtain ⟨honline, hrest⟩ := hfound
    exact ⟨by rw [online_mapFriends]; exact honline, hrest⟩
  player _ := rfl
  commutes _ _ := rfl

/-- A file that is not found stays as it is. -/
theorem removeFrom_files (fuel c_ : Nat) (honline : online realm name_ = none)
    (hdisk : onDisk alike realm name_ ≠ some k) :
    (removeFrom alike a name_ fuel c_ realm).files[k]? = realm.files[k]? := by
  have hpartner : ∀ (realm next : Realm) (name : String), online realm name_ = none →
      onDisk alike realm name_ ≠ some k →
      removeFromPartner alike name name_ realm = some next →
        online next name_ = none ∧ onDisk alike next name_ ≠ some k ∧
          next.files[k]? = realm.files[k]? := by
    intro realm next name honline hdisk hnext
    unfold removeFromPartner at hnext
    rw [honline] at hnext
    dsimp only at hnext
    cases hfound : onDisk alike realm name_ with
    | none =>
        rw [hfound] at hnext hdisk
        obtain rfl := Option.some.inj hnext
        exact ⟨honline, by rw [hfound]; exact hdisk, rfl⟩
    | some other =>
        rw [hfound] at hnext
        dsimp only at hnext
        have hne : other ≠ k := fun h => hdisk (by rw [hfound, h])
        have hothers : ∀ text, online (mapText other text realm) name_ = none ∧
            onDisk alike (mapText other text realm) name_ ≠ some k ∧
              (mapText other text realm).files[k]? = realm.files[k]? := fun text =>
          ⟨honline, by rw [onDisk_congr names_mapText]; exact hdisk,
            List.getElem?_modify_ne _ _ hne⟩
        split at hnext
        · obtain ⟨left, -, rfl⟩ := Option.map_eq_some_iff.mp hnext
          exact hothers fun _ => .json left
        · cases hnext
        · obtain rfl := Option.some.inj hnext
          exact ⟨honline, hdisk, rfl⟩
  induction fuel generalizing c_ realm with
  | zero => rfl
  | succ fuel ih =>
      rw [removeFrom]
      cases realm.players[a]? with
      | none => rfl
      | some pl =>
          dsimp only
          cases pl.friends[c_]? with
          | none => rfl
          | some friend =>
              dsimp only
              split_ifs
              · cases hnext : removeFromPartner alike pl.tankIDName name_ realm with
                | none => rfl
                | some next =>
                    obtain ⟨honline', hdisk', hfile⟩ := hpartner _ _ _ honline hdisk hnext
                    rw [← hfile]
                    exact ih (c_ + 1) (by rw [online_mapFriends]; exact honline') hdisk'
              · exact ih (c_ + 1) honline hdisk

/-- Searches for the exact name erase all entries of a name, whatever the case of their
letters, when they all have the exact name and there are enough searches. -/
theorem iterate_exactly_iff (n : Nat) :
    (List.eraseP (exactly tankIDName))^[n] theirs =
        theirs.filter (fun friend => !named tankIDName friend) ↔
      theirs.countP (named tankIDName) ≤ n ∧
        ∀ friend ∈ theirs, named tankIDName friend = true → friend.name = tankIDName := by
  have hsame (hexact : ∀ friend ∈ theirs, named tankIDName friend = true →
      friend.name = tankIDName) :
      ∀ friend ∈ theirs, named tankIDName friend = exactly tankIDName friend := by
    intro friend hmem
    cases hnamed : named tankIDName friend with
    | true => exact (beq_iff_eq.mpr (hexact friend hmem hnamed)).symm
    | false =>
        by_contra hne
        have heq : friend.name = tankIDName :=
          beq_iff_eq.mp (Bool.eq_true_of_not_eq_false fun h => hne h.symm)
        unfold named iequals at hnamed
        rw [heq, beq_self_eq_true] at hnamed
        cases hnamed
  have hfilter (hexact : ∀ friend ∈ theirs, named tankIDName friend = true →
      friend.name = tankIDName) :
      theirs.filter (fun friend => !named tankIDName friend) =
        theirs.filter (fun friend => !exactly tankIDName friend) :=
    List.filter_congr fun friend hmem => by rw [hsame hexact friend hmem]
  have hcount (hexact : ∀ friend ∈ theirs, named tankIDName friend = true →
      friend.name = tankIDName) :
      theirs.countP (named tankIDName) = theirs.countP (exactly tankIDName) :=
    List.countP_congr fun friend hmem => by rw [hsame hexact friend hmem]
  constructor
  · intro heq
    have hexact : ∀ friend ∈ theirs, named tankIDName friend = true →
        friend.name = tankIDName := by
      intro friend hmem hnamed
      by_contra hne
      have hstays := @mem_iterate_eraseP _ (exactly tankIDName) theirs n friend hmem
        (beq_eq_false_iff_ne.mpr hne)
      rw [heq] at hstays
      exact not_mem_filter hnamed hstays
    rw [hfilter hexact, iterate_eraseP_eq_filter_iff] at heq
    exact ⟨by rw [hcount hexact]; exact heq, hexact⟩
  · rintro ⟨henough, hexact⟩
    rw [hfilter hexact, iterate_eraseP_eq_filter_iff, ← hcount hexact]
    exact henough

/-- The removal of a friend who has only a file. -/
theorem removeFriend_file_iff (hpl : realm.players[a]? = some pl)
    (hpartner : IsPartner realm name_ theirs (.file k))
    (hmutual : ∃ friend ∈ theirs, named pl.tankIDName friend = true) :
    removeFriend alike a name_ realm = unfriended a (.file k) pl.tankIDName name_ realm ↔
      Clean alike realm pl name_ theirs (.file k) := by
  obtain ⟨honline, file, members, hfile, -, hsaved⟩ := hpartner
  have htext := hsaved.text_with
  have hideal : unfriended a (.file k) pl.tankIDName name_ realm =
      mapText k (FileText.without pl.tankIDName)
        (mapFriends a (·.filter fun friend => !named name_ friend) realm) := rfl
  have hidealFile : (unfriended a (.file k) pl.tankIDName name_ realm).files[k]? =
      some ⟨file.name, textWith members
        (theirs.filter fun friend => !named pl.tankIDName friend)⟩ := by
    have hkept : (mapFriends a (·.filter fun friend => !named name_ friend) realm).files[k]? =
        some file := hfile
    rw [hideal, mapText_self hkept, htext, without_textWith]
  by_cases hdisk : onDisk alike realm name_ = some k
  · have hwalk := (@acts_file alike pl.tankIDName name_ a k).removeFriend
      ⟨honline, hdisk, file, members, theirs, hfile, htext⟩ hpl rfl
    rw [iterate_mapText] at hwalk
    have hwalkFile : (removeFriend alike a name_ realm).files[k]? = some ⟨file.name,
        textWith members ((List.eraseP (exactly pl.tankIDName))^[
          hits (named name_) false pl.friends] theirs)⟩ := by
      rw [hwalk]
      show (mapText k _ realm).files[k]? = _
      rw [mapText_self hfile, htext, iterate_eraseOne]
    unfold Clean
    dsimp only
    constructor
    · intro heq
      have hown := congrArg (fun realm : Realm => realm.players[a]?) heq
      rw [hwalk, hideal] at hown
      change (mapFriends a _ realm).players[a]? = (mapFriends a _ realm).players[a]? at hown
      rw [mapFriends_self hpl, mapFriends_self hpl] at hown
      have hapart := sweep_eq_filter_iff.mp (congrArg Player.friends (Option.some.inj hown))
      rw [heq, hidealFile, Option.some.injEq, PlayerFile.mk.injEq] at hwalkFile
      have hleft := (textWith_inj hwalkFile.2).symm
      rw [iterate_exactly_iff, hits_of_apart hapart] at hleft
      exact ⟨hapart, hleft.1, hdisk, hleft.2⟩
    · rintro ⟨hapart, henough, -, hexact⟩
      have hlist := (iterate_exactly_iff _).mpr ⟨henough, hexact⟩
      rw [hwalk, hideal, hits_of_apart hapart]
      show mapText k _ (mapFriends a _ realm) = _
      rw [mapFriends_congr hpl (sweep_eq_filter_iff.mpr hapart)]
      refine @mapText_congr _ k _ _ file hfile ?_
      rw [htext, iterate_eraseOne, without_textWith, hlist]
  · refine iff_of_false (fun heq => ?_) fun h => hdisk h.2.2.1
    have hkept : (removeFriend alike a name_ realm).files[k]? = realm.files[k]? := by
      unfold removeFriend
      rw [hpl]
      exact removeFrom_files _ _ honline hdisk
    obtain ⟨friend, hmem, hnamed⟩ := hmutual
    rw [heq, hidealFile, hfile, Option.some.injEq, PlayerFile.mk.injEq, htext] at hkept
    have hsame := textWith_inj hkept.2
    rw [← hsame] at hmem
    exact not_mem_filter hnamed hmem

end Offline

section Removal

variable {alike : String → String → Bool} {realm : Realm} {a : Nat} {pl : Player}
  {name_ : String} {theirs : List Friend} {partner : Partner}

/-- For players who are friends, `remove_friend` takes exactly their friendship away when
the two lists are in order, and a file is found and has the exact name. -/
theorem removeFriend_iff (alike : String → String → Bool) (hpl : realm.players[a]? = some pl)
    (hother : iequals pl.tankIDName name_ = false)
    (hpartner : IsPartner realm name_ theirs partner)
    (hmutual : ∃ friend ∈ theirs, named pl.tankIDName friend = true) :
    removeFriend alike a name_ realm = unfriended a partner pl.tankIDName name_ realm ↔
      Clean alike realm pl name_ theirs partner := by
  cases partner with
  | online b => exact removeFriend_online_iff hpl hother hpartner
  | file k => exact removeFriend_file_iff hpl hpartner hmutual

/-- A player who names Alice. -/
def bob : Player := { tankIDName := "Bob", friends := [{ name := "Alice" }] }

/-- Alice has only a file, with friends of some names. -/
def bobAndAlice (names : List String) : Realm where
  players := [bob]
  files := [⟨"Alice", .json (.obj
    [("friends", .arr ((names.map fun name => { name := name }).map Friend.toJson))])⟩]

theorem alice_isPartner (names : List String) :
    IsPartner (bobAndAlice names) "ALICE" (names.map fun name => { name := name }) (.file 0) := by
  have honline : online { players := [bob] } "ALICE" = none := by decide
  have hname : iequals "Alice" "ALICE" = true := by decide
  exact ⟨honline, _, _, rfl, hname, rfl, rfl⟩

/-- In a file the player's name is looked for letter by letter. -/
theorem removeFriend_leaves_entry :
    ¬ ∀ (alike : String → String → Bool) (realm : Realm) (a : Nat) (pl : Player)
      (name_ : String) (theirs : List Friend) (partner : Partner),
      realm.players[a]? = some pl → iequals pl.tankIDName name_ = false →
      IsPartner realm name_ theirs partner →
      (∃ friend ∈ pl.friends, named name_ friend = true) →
      (∃ friend ∈ theirs, named pl.tankIDName friend = true) →
        removeFriend alike a name_ realm =
          unfriended a partner pl.tankIDName name_ realm := by
  intro hall
  have hpartner := alice_isPartner ["bob"]
  have hours : ∃ friend ∈ bob.friends, named "ALICE" friend = true := by decide
  have hmutual : ∃ friend ∈ ([{ name := "bob" }] : List Friend),
      named bob.tankIDName friend = true := by decide
  have hremoved := hall iequals (bobAndAlice ["bob"]) 0 bob "ALICE" _ (.file 0) rfl
    (by decide) hpartner hours hmutual
  have hclean := (@removeFriend_file_iff iequals _ 0 0 bob "ALICE" _ rfl hpartner hmutual).mp
    hremoved
  exact absurd (hclean.2.2.2 _ (List.mem_singleton_self _) (by decide)) (by decide)

/-- A name typed in capitals finds the file of its player. -/
theorem removeFriend_from_file :
    removeFriend iequals 0 "ALICE" (bobAndAlice ["Eve", "Bob"]) =
      unfriended 0 (.file 0) "Bob" "ALICE" (bobAndAlice ["Eve", "Bob"]) := by
  have hpartner := alice_isPartner ["Eve", "Bob"]
  have hmutual : ∃ friend ∈ ([{ name := "Eve" }, { name := "Bob" }] : List Friend),
      named bob.tankIDName friend = true := by decide
  have hclean : Clean iequals (bobAndAlice ["Eve", "Bob"]) bob "ALICE"
      [{ name := "Eve" }, { name := "Bob" }] (.file 0) := by
    refine ⟨by decide, by decide, by decide, ?_⟩
    decide
  exact (@removeFriend_iff _ 0 bob "ALICE" _ (.file 0) iequals rfl (by decide) hpartner
    hmutual).mpr hclean

end Removal

end Friends

end NopyServer
