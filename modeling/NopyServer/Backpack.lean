/-
`SaveBackpack` and `LoadBackpack`.  Both work on the file of the player, which
holds the whole record: saving the backpack writes a new file with nothing but
the backpack, and a file that says `null` when the backpack is empty.
-/
import NopyServer.Player
import NopyServer.WorldFile

namespace NopyServer

open Json

/-- The player files by the name in their path; a file holds JSON or a text
that is none. -/
abbrev PlayerFiles := String → Option (Option Json)

/-- The member of a player file under a key. -/
def fileMember (files : PlayerFiles) (name key : String) : Option Json :=
  (files name).join.bind fun json => json.find key

/-- An entry of the array. -/
def writeBackpackItem (it : BackpackItem) : Json :=
  obj [("itemID", Codec.ofInt32.write it.itemID),
    ("amount", Codec.ofInt32.write it.amount)]

/-- The value `SaveBackpack` writes: it stays `null` until the first entry. -/
def writeBackpack : List BackpackItem → Json
  | [] => null
  | first :: rest =>
      obj [("backpack", arr ((first :: rest).map writeBackpackItem))]

/-- `SaveBackpack`. -/
def saveBackpack (info : Player) (files : PlayerFiles) : PlayerFiles :=
  Function.update files info.tankIDName (some (some (writeBackpack info.backpack)))

/-- One entry; `none` where reading it throws. -/
def readBackpackItem (json : Json) : Option BackpackItem := do
  let itemID ← json.member "itemID" Codec.ofInt32.read
  let amount ← json.member "amount" Codec.ofInt32.read
  return ⟨itemID, amount⟩

/-- The loop of `LoadBackpack`: the entries before the first that throws. -/
def readBackpackItems : List Json → List BackpackItem
  | [] => []
  | json :: rest =>
      match readBackpackItem json with
      | some it => it :: readBackpackItems rest
      | none => []

/-- `LoadBackpack`. -/
def loadBackpack (files : PlayerFiles) (info : Player) : Player :=
  match fileMember files info.tankIDName "backpack" with
  | some value => { info with backpack := readBackpackItems (rangeItems value) }
  | none => info

theorem readBackpackItems_written (backpack : List BackpackItem) :
    readBackpackItems (backpack.map writeBackpackItem) = backpack := by
  induction backpack with
  | nil => rfl
  | cons it rest ih =>
      have hid : (writeBackpackItem it).member "itemID" Codec.ofInt32.read =
          some it.itemID := by
        simp [member, writeBackpackItem, find,
          Codec.ofInt32_faithful.read_write]
      have hamount : (writeBackpackItem it).member "amount"
          Codec.ofInt32.read = some it.amount := by
        simp [member, writeBackpackItem, find, List.lookup_cons,
          Codec.ofInt32_faithful.read_write]
      have hread : readBackpackItem (writeBackpackItem it) = some it := by
        rw [readBackpackItem, hid, hamount]
        rfl
      rw [List.map_cons, readBackpackItems, hread, ih]

section SaveLoad

variable {files : PlayerFiles} {info reader : Player}

theorem saveBackpack_self :
    saveBackpack info files info.tankIDName =
      some (some (writeBackpack info.backpack)) :=
  Function.update_self ..

theorem saveBackpack_other {name : String} (hname : name ≠ info.tankIDName) :
    saveBackpack info files name = files name :=
  Function.update_of_ne hname ..

/-- What the new file has under a key. -/
theorem fileMember_saved (key : String) :
    fileMember (saveBackpack info files) info.tankIDName key =
      if key = "backpack" ∧ info.backpack ≠ [] then
        some (arr (info.backpack.map writeBackpackItem))
      else none := by
  rw [fileMember, saveBackpack_self, Option.join_some, Option.bind_some]
  cases hitems : info.backpack with
  | nil => simp [writeBackpack, find]
  | cons first rest =>
      by_cases hkey : key = "backpack"
      · simp [writeBackpack, find, hkey]
      · simp [writeBackpack, find, hkey, List.lookup_cons,
          beq_false_of_ne hkey]

/-- Loading gives the backpack back, or leaves the reader's own alone when the
one that was saved is empty. -/
theorem loadBackpack_saved (hname : reader.tankIDName = info.tankIDName) :
    (loadBackpack (saveBackpack info files) reader).backpack =
      if info.backpack = [] then reader.backpack else info.backpack := by
  have hmember := @fileMember_saved files info "backpack"
  unfold loadBackpack
  rw [hname, hmember]
  by_cases hempty : info.backpack = []
  · simp [hempty]
  · simp only [hempty, ne_eq, not_false_eq_true, and_self, ↓reduceIte,
      rangeItems]
    exact readBackpackItems_written info.backpack

/-- Saving a backpack is a change of one entry of one file: loading gives the
backpack back and whatever else was in the files is still there. -/
structure ChangesEntryOnly (files : PlayerFiles) (info reader : Player) :
    Prop where
  restored :
    (loadBackpack (saveBackpack info files) reader).backpack = info.backpack
  otherKeys : ∀ key, key ≠ "backpack" →
    fileMember (saveBackpack info files) info.tankIDName key =
      fileMember files info.tankIDName key
  otherFiles : ∀ name, name ≠ info.tankIDName →
    saveBackpack info files name = files name

/-- `SaveBackpack` does so exactly when the file held nothing but a backpack,
and the backpack is not empty or the player it is loaded into has none. -/
theorem saveBackpack_changesEntryOnly_iff
    (hname : reader.tankIDName = info.tankIDName) :
    ChangesEntryOnly files info reader ↔
      (info.backpack ≠ [] ∨ reader.backpack = []) ∧
        ∀ key, key ≠ "backpack" →
          fileMember files info.tankIDName key = none := by
  have hload := @loadBackpack_saved files info reader hname
  have hnone : ∀ key, key ≠ "backpack" →
      fileMember (saveBackpack info files) info.tankIDName key = none := by
    intro key hkey
    rw [fileMember_saved, if_neg fun h => hkey h.1]
  constructor
  · intro honly
    refine ⟨?_, fun key hkey => ?_⟩
    · by_cases hempty : info.backpack = []
      · have hrestored := honly.restored
        rw [hload, if_pos hempty, hempty] at hrestored
        exact Or.inr hrestored
      · exact Or.inl hempty
    · rw [← honly.otherKeys key hkey]
      exact hnone key hkey
  · rintro ⟨hitems, hkeys⟩
    refine ⟨?_, fun key hkey => ?_, fun name => saveBackpack_other⟩
    · rw [hload]
      by_cases hempty : info.backpack = []
      · rw [if_pos hempty, hempty]
        exact hitems.resolve_left fun hne => hne hempty
      · exact if_neg hempty
    · rw [hnone key hkey, hkeys key hkey]

/-- A player with a backpack of one item. -/
def oneItemOwner : Player := { tankIDName := "ann", backpack := [⟨2, 7⟩] }

/-- The first file of a player. -/
theorem first_backpack_saved :
    ChangesEntryOnly (fun _ => none) oneItemOwner { tankIDName := "ann" } := by
  have hname : ({ tankIDName := "ann" } : Player).tankIDName =
      oneItemOwner.tankIDName := rfl
  exact (saveBackpack_changesEntryOnly_iff hname).mpr
    ⟨Or.inl (by decide), fun _ _ => rfl⟩

/-- The gems in the file are gone when the backpack is saved. -/
theorem saving_backpack_loses_gems :
    ¬ ∀ (files : PlayerFiles) (info reader : Player),
      reader.tankIDName = info.tankIDName →
      ChangesEntryOnly files info reader := by
  intro hall
  have honly := hall (fun _ => some (some (obj [("gems", int 5)])))
    oneItemOwner { tankIDName := "ann" } rfl
  have hgems := honly.otherKeys "gems" (by decide)
  rw [fileMember_saved, if_neg (by decide)] at hgems
  simp [fileMember, find] at hgems

end SaveLoad

end NopyServer
