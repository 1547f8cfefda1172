/-
Worlds in memory and in their files, with the four threads that move them: the one that
serves players loads, changes, unloads and saves worlds and swaps the names of two of
them; `AsyncWriter` writes what `save_world` has pushed; another thread writes what
`exit_` has queued; and one saves all worlds every minute, each in two steps.  A step is
what a thread does while it holds a lock, or one file operation.
-/
import NopyServer.Lib.LateWrites
import NopyServer.InventoryInvariant
import NopyServer.WorldSaveLoad
import NopyServer.WorldStoreNames

namespace NopyServer

namespace WorldSaves

open Inventory LateWrites Function

/-- `transform(…, ::toupper)`. -/
def toUpper (str : String) : String := String.ofList (str.toList.map toUpperChar)

/-- What no thread changes. -/
structure Config where
  worldEnv : WorldEnv
  env : Env
  swearWords : List String := []

/-- How far `create_address_world` has come. -/
inductive Address where
  | idle
  /-- The queue holds no save of either world. -/
  | drained (peer : Nat) (name_ currentworld_ : String)
  /-- Both worlds are pushed to be written. -/
  | saved (name_ currentworld_ : String)
  /-- The files have been exchanged. -/
  | renamed (name_ currentworld_ : String)
  deriving DecidableEq

/-- The worlds, the players who may rename them and the saves under way. -/
structure State where
  store : Store := {}
  players : List Player := []
  address : Address := .idle
  /-- `g_disconnect_world_save_queue`. -/
  queue : List (String × Json) := []
  /-- `snap` of `disconnectWorldSaveThread`. -/
  snap : List (String × Json) := []
  /-- `world_snap` of `SaveDatabase::All`: the names not saved yet. -/
  worldSnap : List String := []
  /-- `safe_name` and `json_data` of `SaveDatabase::All`. -/
  jsonData : Option (String × Json) := none
  /-- `queue_` of `AsyncWriter`: its tasks for worlds. -/
  asyncQueue : List (String × Json) := []
  /-- `task` of `AsyncWriter::Worker`. -/
  task : Option (String × Json) := none

/-- One step of a thread. -/
inductive Event where
  /-- `get_world`. -/
  | fetch (name : String) (now : Int)
  /-- A handler that changes a loaded world and sets `fresh_world`. -/
  | edit (next : World)
  /-- The end of `exit_` for the last player of a world. -/
  | leave (name : String)
  /-- `memory_clean_world` for a world without players. -/
  | clean (name : String)
  /-- `save_world(name, false)`. -/
  | save (name : String)
  /-- The dialog `world_swap`, up to the drained queue. -/
  | worldSwap (peer : Nat) (cch : String)
  /-- `create_address_world` from `get_world` to the forced saves. -/
  | addressSave (now : Int)
  /-- Its four calls of `rename`. -/
  | addressRename
  /-- Its end: the worlds whose last player it sends out, and the erasing. -/
  | addressErase (emptied : List String)
  /-- `snap.swap(queue)`. -/
  | takeQueue
  /-- One file of `snap`. -/
  | writeSnap
  /-- The list of names to save. -/
  | takeNames
  /-- The serialisation of the next world. -/
  | serialise
  /-- Its file. -/
  | writeHeld
  /-- `queue_.pop()`. -/
  | takeTask
  /-- The file of the task. -/
  | writeTask

/-- The loaded world of a name, `find_if` over `worlds`. -/
def lookup (store : Store) : String → Option World := entryAt World.name store.worlds

def writeFile (files : String → Option (Option Json)) (item : String × Json) :
    String → Option (Option Json) :=
  update files item.1 (some (some item.2))

/-- `rename`, which fails without the file. -/
def renameFile (old new : String) (files : String → Option (Option Json)) :
    String → Option (Option Json) :=
  match files old with
  | none => files
  | some file => update (update files old none) new (some file)

section Steps

variable (config : Config)

/-- `check_blast`. -/
def checkBlast (name_ : String) : Bool :=
  !(name_ == "EXIT" || name_ == "" || 24 ≤ name_.length) &&
    (name_.toList.all fun c => ('A' ≤ c && c ≤ 'Z') || ('0' ≤ c && c ≤ '9')) &&
    !config.swearWords.any fun word => textFind name_ word

def fetch (name : String) (now : Int) (s : State) : State :=
  { s with store := (Store.getWorld config.worldEnv now name s.store).2 }

def edit (next : World) (s : State) : State :=
  { s with store := { s.store with
      worlds := s.store.worlds.map fun world => if world.name = next.name then next else world } }

/-- The world leaves the memory; its text, if it is saved, goes to the queue. -/
def leave (name : String) (s : State) : State :=
  let out := Store.saveWorld config.worldEnv name true true s.store
  { s with
    store := out.2
    queue := s.queue ++ (out.1.map (sanitizeWorldName name, ·)).toList }

/-- `save_world` without `out_json`: the text is pushed to `AsyncWriter`. -/
def save (name : String) (erase : Bool) (s : State) : State :=
  let out := Store.saveWorld config.worldEnv name erase true s.store
  { s with
    store := out.2
    asyncQueue := s.asyncQueue ++ (out.1.map (sanitizeWorldName name, ·)).toList }

/-- The start of `create_address_world`: the queued saves of the two worlds are written. -/
def addressDrain (peer : Nat) (name_ currentworld_ : String) (s : State) : State :=
  let mine := fun file : String =>
    file == sanitizeWorldName name_ || file == sanitizeWorldName currentworld_
  { s with
    store := { s.store with
      files := (s.queue.filter fun item => mine item.1).foldl writeFile s.store.files }
    queue := s.queue.filter fun item => !mine item.1
    address := .drained peer name_ currentworld_ }

/-- The dialog `world_swap`. -/
def worldSwap (peer : Nat) (cch : String) (s : State) : State :=
  match s.players[peer]? with
  | none => s
  | some pl =>
      let world := toUpper (TextScanner.get cch "name_box")
      match lookup s.store pl.world with
      | none => s
      | some world_ =>
          if iequals world_.ownerName pl.tankIDName = false then s
          else if checkBlast config world = false ∨ pl.world = world then s
          else addressDrain peer (toUpper world) (toUpper pl.world) s

def markFresh (name : String) (store : Store) : Store :=
  { store with
    worlds := store.worlds.map fun world =>
      if world.name = name then { world with freshWorld := true } else world
    worldsIdx := update store.worldsIdx name none }

/-- One turn of the loop that saves both worlds. -/
def forceSave (name : String) (s : State) : State :=
  save config name false { s with store := markFresh name s.store }

/-- The loop, which goes by index; the names of the loaded worlds are distinct. -/
def forceSaves (name_ currentworld_ : String) (s : State) : State :=
  (s.store.names.filter fun name => name == currentworld_ || name == name_).foldl
    (fun s name => forceSave config name s) s

/-- `create_address_world` from `get_world` on: both worlds must be the player's and a
Change of Address is taken. -/
def addressSave (now : Int) (s : State) : State :=
  match s.address with
  | .drained peer name_ currentworld_ =>
      let s := fetch config name_ now { s with address := .idle }
      match s.players[peer]?, lookup s.store name_, lookup s.store currentworld_ with
      | some pl, some world_, some cWorld_ =>
          if pl.hasConfigAccess = false ∧
              (iequals world_.ownerName pl.tankIDName = false ∨
                iequals cWorld_.ownerName pl.tankIDName = false) then s
          else
            let call := modify config.env
              ⟨pl, s.store.worlds, now, s.store.rands⟩ 2580 (-1) false
            let s := { s with
              players := s.players.set peer call.session.pl
              store := { s.store with
                worlds := call.session.worlds, rands := call.session.rands } }
            if call.ret ≠ 0 then s
            else { forceSaves config name_ currentworld_ s with
              address := .saved name_ currentworld_ }
      | _, _, _ => s
  | _ => s

def addressRename (s : State) : State :=
  match s.address with
  | .saved name_ currentworld_ =>
      let path_ := sanitizeWorldName name_
      let path2 := sanitizeWorldName currentworld_
      let path4 := "t_" ++ path_
      let path3 := "t_" ++ path2
      { s with
        store := { s.store with
          files := renameFile path4 path2 (renameFile path3 path_
            (renameFile path_ path4 (renameFile path2 path3 s.store.files))) }
        address := .renamed name_ currentworld_ }
  | _ => s

/-- The players of both worlds leave, and the worlds are erased. -/
def addressErase (emptied : List String) (s : State) : State :=
  match s.address with
  | .renamed name_ currentworld_ =>
      let s := emptied.foldl (fun s name => leave config name s) s
      { s with
        store := { s.store with
          worlds := s.store.worlds.filter fun world =>
            !(world.name == currentworld_ || world.name == name_)
          worldsIdx := update (update s.store.worldsIdx currentworld_ none) name_ none }
        address := .idle }
  | _ => s

/-- The queue is taken once the last one is written. -/
def takeQueue (s : State) : State :=
  match s.snap with
  | [] => { s with snap := s.queue, queue := [] }
  | _ :: _ => s

def writeSnap (s : State) : State :=
  match s.snap with
  | [] => s
  | item :: rest =>
      { s with store := { s.store with files := writeFile s.store.files item }, snap := rest }

def takeNames (s : State) : State :=
  match s.worldSnap, s.jsonData with
  | [], none => { s with worldSnap := s.store.names }
  | _, _ => s

/-- The next world is serialised, if it is still there. -/
def serialise (s : State) : State :=
  match s.worldSnap, s.jsonData with
  | wname :: rest, none =>
      match lookup s.store wname with
      | none => { s with worldSnap := rest }
      | some _ =>
          let out := Store.saveWorld config.worldEnv wname false true s.store
          { s with
            store := out.2
            worldSnap := rest
            jsonData := out.1.map (sanitizeWorldName wname, ·) }
  | _, _ => s

def writeHeld (s : State) : State :=
  match s.jsonData with
  | none => s
  | some item =>
      { s with store := { s.store with files := writeFile s.store.files item }, jsonData := none }

def takeTask (s : State) : State :=
  match s.task, s.asyncQueue with
  | none, item :: rest => { s with task := some item, asyncQueue := rest }
  | _, _ => s

def writeTask (s : State) : State :=
  match s.task with
  | none => s
  | some item =>
      { s with store := { s.store with files := writeFile s.store.files item }, task := none }

def serve (s : State) : Event → State
  | .fetch name now => fetch config name now s
  | .edit next => edit next s
  | .leave name => leave config name s
  | .clean name => save config name true s
  | .save name => save config name false s
  | .worldSwap peer cch => worldSwap config peer cch s
  | .addressSave now => addressSave config now s
  | .addressRename => addressRename s
  | .addressErase emptied => addressErase config emptied s
  | .takeQueue => takeQueue s
  | .writeSnap => writeSnap s
  | .takeNames => takeNames s
  | .serialise => serialise config s
  | .writeHeld => writeHeld s
  | .takeTask => takeTask s
  | .writeTask => writeTask s

end Steps

/-- A name that is its own file's name and holds no small letter. -/
def Proper (name : String) : Prop :=
  sanitizeWorldName name = name ∧ ∀ c ∈ name.toList, ¬ ('a' ≤ c ∧ c ≤ 'z')

def isProper (name : String) : Bool :=
  sanitizeWorldName name == name && name.toList.all fun c => !('a' ≤ c && c ≤ 'z')

section Names

theorem isProper_iff {name : String} : isProper name = true ↔ Proper name := by
  unfold isProper Proper
  rw [Bool.and_eq_true, beq_iff_eq, List.all_eq_true]
  refine and_congr_right fun _ => forall_congr' fun c => forall_congr' fun _ => ?_
  rw [Bool.not_eq_true', ← Bool.not_eq_true, Bool.and_eq_true, decide_eq_true_iff,
    decide_eq_true_iff]

theorem toUpperChar_toLowerChar {c : Char} (hc : ¬ ('a' ≤ c ∧ c ≤ 'z')) :
    toUpperChar (toLowerChar c) = c := by
  have hletters : ∀ n < 91, 65 ≤ n → toUpperChar (Char.ofNat (n + 32)) = Char.ofNat n := by
    decide
  unfold toLowerChar
  split
  · next hupper =>
      have hlast : c.toNat ≤ 90 := hupper.2
      rw [hletters c.toNat (by omega) hupper.1, Char.ofNat_toNat]
  · unfold toUpperChar
    rw [if_neg hc]

theorem Proper.eq_of_iequals {left right : String} (hleft : Proper left)
    (hright : Proper right) (hsame : iequals left right = true) : left = right := by
  have hback : ∀ name, Proper name →
      (name.toList.map toLowerChar).map toUpperChar = name.toList := by
    intro name hname
    rw [List.map_map]
    exact (List.map_congr_left fun c hc =>
      toUpperChar_toLowerChar (hname.2 c hc)).trans (List.map_id _)
  have hlower : left.toList.map toLowerChar = right.toList.map toLowerChar := by
    have hlists := congrArg String.toList (beq_iff_eq.mp hsame)
    unfold toLower at hlists
    rwa [String.toList_ofList, String.toList_ofList] at hlists
  have hlists : left.toList = right.toList := by
    rw [← hback left hleft, hlower, hback right hright]
  exact String.toList_inj.mp hlists

theorem iequals_self (name : String) : iequals name name = true := beq_self_eq_true _

theorem Proper.ne_empty {name : String} (hname : Proper name) : name ≠ "" := by
  rintro rfl
  exact absurd hname.1 (by decide)

theorem Proper.toUpper {name : String} (hname : Proper name) : toUpper name = name := by
  have hsame : name.toList.map toUpperChar = name.toList := by
    refine (List.map_congr_left fun c hc => ?_).trans (List.map_id _)
    unfold toUpperChar
    rw [if_neg (hname.2 c hc)]
    rfl
  unfold WorldSaves.toUpper
  rw [hsame, String.ofList_toList]

/-- The names of the other files are not proper. -/
theorem not_proper_temporary (name : String) : ¬ Proper ("t_" ++ name) := by
  intro hproper
  refine hproper.2 't' ?_ (by decide)
  rw [String.toList_append]
  exact List.mem_append_left _ (by decide)

variable {config : Config}

/-- `check_blast` lets proper names through only. -/
theorem proper_of_checkBlast {name_ : String} (hcheck : checkBlast config name_ = true) :
    Proper name_ := by
  unfold checkBlast at hcheck
  rw [Bool.and_eq_true, Bool.and_eq_true, List.all_eq_true] at hcheck
  obtain ⟨⟨hsize, hchars⟩, -⟩ := hcheck
  have hletter : ∀ c ∈ name_.toList, ('A' ≤ c ∧ c ≤ 'Z') ∨ ('0' ≤ c ∧ c ≤ '9') := by
    intro c hc
    simpa using hchars c hc
  refine ⟨?_, fun c hc hsmall => ?_⟩
  · have hall : name_.toList.filter (fun c =>
        ('a' ≤ c && c ≤ 'z') || ('A' ≤ c && c ≤ 'Z') || ('0' ≤ c && c ≤ '9') ||
          c == '_' || c == '-') = name_.toList := by
      rw [List.filter_eq_self]
      intro c hc
      rcases hletter c hc with ⟨hlow, hhigh⟩ | ⟨hlow, hhigh⟩
      · simp [hlow, hhigh]
      · simp [hlow, hhigh]
    have hne : name_.toList ≠ [] := by
      intro hempty
      have hname : name_ = "" := String.toList_inj.mp hempty
      rw [hname] at hsize
      exact absurd hsize (by decide)
    unfold sanitizeWorldName
    dsimp only
    rw [hall, if_neg hne, String.ofList_toList]
  · obtain ⟨hlow, -⟩ := hsmall
    have hcode : 97 ≤ c.toNat := hlow
    rcases hletter c hc with ⟨-, hhigh⟩ | ⟨-, hhigh⟩
    · have hlast : c.toNat ≤ 90 := hhigh
      omega
    · have hlast : c.toNat ≤ 57 := hhigh
      omega

end Names

/-- The names of the loaded worlds are proper and distinct. -/
structure Named (store : Store) : Prop where
  nodup : store.names.Nodup
  proper : ∀ name ∈ store.names, Proper name

/-- A world that can be read from its file, and has a row. -/
structure Carried (world : World) : Prop where
  numbers : Writable world
  rows : 100 ≤ world.blocks.length

/-- A world as a save leaves it in memory. -/
def shown (env : WorldEnv) (world : World) : World :=
  { world with
    freshWorld := false
    worldSettings := Store.savedSettings env world.name world.worldSettings }

/-- A world as its file gives it back. -/
def stored (env : WorldEnv) (world : World) : World :=
  reloadedWorld env.items world.name (shown env world)

/-- A text that `save_world` makes of a world. -/
def TextOf (env : WorldEnv) (world : World) (json : Json) : Prop :=
  ∃ rands, json = (writeWorld env.items rands { world with
    worldSettings := Store.savedSettings env world.name world.worldSettings }).1

section Stores

variable {env : WorldEnv} {store : Store} {name : String} {world : World}

theorem lookup_name (hat : lookup store name = some world) : world.name = name :=
  entryAt_key hat

theorem lookup_mem (hat : lookup store name = some world) : world ∈ store.worlds :=
  entryAt_mem hat

theorem lookup_eq_none_iff : lookup store name = none ↔ name ∉ store.names :=
  entryAt_eq_none_iff

theorem Named.lookup_get (hnamed : Named store) {i : Nat}
    (hget : store.worlds[i]? = some world) : lookup store world.name = some world :=
  entryAt_get hnamed.nodup hget

theorem Named.lookup_mem (hnamed : Named store) (hmem : world ∈ store.worlds) :
    lookup store world.name = some world := by
  obtain ⟨i, hget⟩ := List.getElem?_of_mem hmem
  exact hnamed.lookup_get hget

theorem Named.sublist (hnamed : Named store) {next : Store}
    (hsub : next.names.Sublist store.names) : Named next :=
  ⟨hnamed.nodup.sublist hsub, fun name hname => hnamed.proper name (hsub.subset hname)⟩

theorem Named.of_worlds (hnamed : Named store) {next : Store}
    (hsame : next.worlds = store.worlds) : Named next := by
  have hnames : next.names = store.names := congrArg (List.map World.name) hsame
  exact hnamed.sublist (hnames ▸ List.Sublist.refl _)

theorem Named.fits (hnamed : Named store) (hname : Proper name)
    (hmem : world ∈ store.worlds) (hsame : iequals world.name name = true) :
    lookup store name = some world := by
  have hproper := hnamed.proper world.name (List.mem_map_of_mem hmem)
  rw [← hproper.eq_of_iequals hname hsame]
  exact hnamed.lookup_mem hmem

theorem find_absent (hnamed : Named store) (hname : Proper name)
    (hat : lookup store name = none) : (Store.findWorld name store).1 = none := by
  have hno : ∀ world ∈ store.worlds, ¬ iequals world.name name = true := by
    intro world hmem hsame
    rw [hnamed.fits hname hmem hsame] at hat
    cases hat
  unfold Store.findWorld
  dsimp only
  rw [if_neg hname.ne_empty]
  split
  · next i hi =>
      have hfits := (Option.filter_eq_some_iff.mp hi).2
      cases hget : store.worlds[i]? with
      | none =>
          rw [hget] at hfits
          cases hfits
      | some world =>
          rw [hget] at hfits
          exact absurd hfits (hno world (List.mem_of_getElem? hget))
  · exact List.findIdx?_eq_none_iff.mpr fun world hmem =>
      Bool.eq_false_iff.mpr (hno world hmem)

theorem find_loaded (hnamed : Named store) (hname : Proper name)
    (hat : lookup store name = some world) :
    ∃ i, (Store.findWorld name store).1 = some i ∧ store.worlds[i]? = some world := by
  have hsame : ∀ (i : Nat) other, store.worlds[i]? = some other →
      iequals other.name name = true → other = world := by
    intro i other hget hfits
    have hother := hnamed.fits hname (List.mem_of_getElem? hget) hfits
    rw [hat] at hother
    exact (Option.some.inj hother).symm
  unfold Store.findWorld
  dsimp only
  rw [if_neg hname.ne_empty]
  split
  · next i hi =>
      have hfits := (Option.filter_eq_some_iff.mp hi).2
      cases hget : store.worlds[i]? with
      | none =>
          rw [hget] at hfits
          cases hfits
      | some other =>
          rw [hget] at hfits
          exact ⟨i, rfl, hget.trans (congrArg some (hsame i other hget hfits))⟩
  · cases hfound : store.worlds.findIdx? fun other => iequals other.name name with
    | none =>
        have hno := List.findIdx?_eq_none_iff.mp hfound world (entryAt_mem hat)
        rw [lookup_name hat, iequals_self] at hno
        cases hno
    | some i =>
        obtain ⟨hlt, hfits, -⟩ := List.findIdx?_eq_some_iff_getElem.mp hfound
        have hget := List.getElem?_eq_getElem hlt
        exact ⟨i, rfl, hget.trans (congrArg some (hsame i _ hget hfits))⟩

theorem save_absent (hnamed : Named store) (hname : Proper name)
    (hat : lookup store name = none) (erase : Bool) :
    Store.saveWorld env name erase true store = (none, (Store.findWorld name store).2) := by
  unfold Store.saveWorld
  dsimp only
  rw [find_absent hnamed hname hat]
  rfl

theorem lookup_evict (hnamed : Named store) {i : Nat} (hget : store.worlds[i]? = some world)
    (evicted : World) :
    lookup (store.evict i evicted) = update (lookup store) world.name none :=
  entryAt_eraseIdx hnamed.nodup hget

/-- `find_world` leaves the loaded worlds as they are. -/
theorem found_loaded (hnamed : Named store) (hname : Proper name)
    (hat : lookup store name = some world) :
    ∃ i, (Store.findWorld name store).1 = some i ∧
      (Store.findWorld name store).2.worlds[i]? = some world ∧
      Named (Store.findWorld name store).2 ∧
      lookup (Store.findWorld name store).2 = lookup store := by
  obtain ⟨i, hfind, hget⟩ := find_loaded hnamed hname hat
  have hworlds := Store.findWorld_worlds name store
  refine ⟨i, hfind, ?_, hnamed.of_worlds hworlds, congrArg (entryAt World.name) hworlds⟩
  rw [hworlds]
  exact hget

theorem save_unchanged (hnamed : Named store) (hname : Proper name)
    (hat : lookup store name = some world) (hstale : world.freshWorld = false)
    {erase : Bool} (hother : ¬ (erase = true ∧ name = "CARNIVAL")) :
    let out := Store.saveWorld env name erase true store
    out.1 = none ∧ out.2.files = store.files ∧
      lookup out.2 = if erase = true then update (lookup store) name none else lookup store := by
  intro out
  obtain ⟨i, hfind, hget, hfound, hlookup⟩ := found_loaded hnamed hname hat
  have hfiles := (findWorld_files name store).1
  have hsplit : out = if erase = true then (none, (Store.findWorld name store).2.evict i world)
      else (none, (Store.findWorld name store).2) := by
    change Store.saveWorld env name erase true store = _
    unfold Store.saveWorld
    dsimp only
    rw [hfind, Option.bind_some, hget, Option.map_some]
    dsimp only
    cases erase with
    | true =>
        have hne : name ≠ "CARNIVAL" := fun hsame => hother ⟨rfl, hsame⟩
        rw [if_pos ⟨hstale, rfl, hne⟩, if_pos rfl]
    | false =>
        rw [if_neg fun h => Bool.false_ne_true h.2.1, if_pos ⟨hstale, rfl⟩,
          if_neg Bool.false_ne_true]
  cases erase with
  | true =>
      rw [hsplit, if_pos rfl]
      refine ⟨rfl, hfiles, ?_⟩
      rw [if_pos rfl]
      dsimp only
      rw [lookup_evict hfound hget world, hlookup, lookup_name hat]
  | false =>
      rw [hsplit, if_neg Bool.false_ne_true]
      exact ⟨rfl, hfiles, hlookup⟩

/-- A changed world is written out, and may go. -/
theorem saveWorld_written {found : Store} {i : Nat} {erase : Bool}
    (hfind : Store.findWorld name store = (some i, found))
    (hget : found.worlds[i]? = some world) (htexts : Utf8 world.texts)
    (hsaves : world.freshWorld = true ∨ erase = true ∧ name = "CARNIVAL") :
    Store.saveWorld env name erase true store =
      ((Store.writeOut env name true i world found).1,
        if erase = true ∧ name ≠ "CARNIVAL"
        then (Store.writeOut env name true i world found).2.evict i world
        else (Store.writeOut env name true i world found).2) := by
  unfold Store.saveWorld
  rw [hfind]
  dsimp only
  rw [Option.bind_some, hget, Option.map_some]
  dsimp only
  rw [if_neg, if_neg, if_neg (Bool.not_eq_false _ ▸ (dumps_writeWorld _).mpr htexts)]
  · rintro ⟨hstale, hkeep⟩
    rcases hsaves with hfresh | ⟨herase, -⟩
    · rw [hfresh] at hstale
      cases hstale
    · rw [herase] at hkeep
      cases hkeep
  · rintro ⟨hstale, -, hne⟩
    rcases hsaves with hfresh | ⟨-, hcarnival⟩
    · rw [hfresh] at hstale
      cases hstale
    · exact hne hcarnival

/-- The text of a changed world goes to the caller. -/
theorem save_written (hnamed : Named store) (hname : Proper name)
    (hat : lookup store name = some world) (htexts : Utf8 world.texts) {erase : Bool}
    (hsaves : world.freshWorld = true ∨ erase = true ∧ name = "CARNIVAL") :
    let out := Store.saveWorld env name erase true store
    ∃ json, TextOf env world json ∧ out.1 = some json ∧ out.2.files = store.files ∧
      lookup out.2 = update (lookup store) name
        (if erase = true ∧ name ≠ "CARNIVAL" then none else some (shown env world)) := by
  intro out
  obtain ⟨i, hfind, hget, hfound, hlookup⟩ := found_loaded hnamed hname hat
  obtain ⟨hfiles, hrands, -⟩ := findWorld_files name store
  obtain rfl := lookup_name hat
  let wrote := Store.writeOut env world.name true i world (Store.findWorld world.name store).2
  have hsplit : out = (wrote.1,
      if erase = true ∧ world.name ≠ "CARNIVAL" then wrote.2.evict i world else wrote.2) :=
    saveWorld_written (Prod.ext hfind rfl) hget htexts hsaves
  have hset : wrote.2.worlds =
      (Store.findWorld world.name store).2.worlds.set i (shown env world) := rfl
  have hwrote : lookup wrote.2 = update (lookup store) world.name (some (shown env world)) := by
    rw [← hlookup]
    unfold lookup
    rw [hset]
    exact entryAt_set hfound.nodup hget rfl
  have hstay : wrote.2.worlds[i]? = some (shown env world) := by
    rw [hset]
    exact List.getElem?_set_self (List.getElem?_eq_some_iff.mp hget).1
  have hnames : Named wrote.2 :=
    hfound.sublist ((@Store.names_writeOut env _ world.name i world hget true) ▸
      List.Sublist.refl _)
  refine ⟨_, ⟨store.rands, rfl⟩, ?_, ?_, ?_⟩
  · rw [hsplit, ← hrands]
    rfl
  · have hkept : out.2.files = wrote.2.files := by
      rw [hsplit]
      dsimp only
      split <;> rfl
    exact hkept.trans hfiles
  · rw [hsplit]
    dsimp only
    split
    · have hevict : lookup (wrote.2.evict i world) =
          update (lookup wrote.2) (shown env world).name none :=
        lookup_evict hnames hstay world
      rw [hevict, hwrote]
      exact update_idem _ _ _
    · exact hwrote

theorem lookup_worldsPushSafe (hnew : lookup store world.name = none) :
    lookup (store.worldsPushSafe world) = update (lookup store) world.name (some world) :=
  entryAt_append (lookup_eq_none_iff.mp hnew)

/-- The world that `get_world` makes where there is no file. -/
def created (env : WorldEnv) (name : String) (rands : Nat → Nat) : World :=
  (plainWorld env.worldDefault name 6000 rands).1

/-- The world that `get_world` makes of what it has read. -/
def finished (env : WorldEnv) (now : Int) (world : World) : World :=
  (Store.finishWorld env now world {}).1

theorem created_carried (name : String) (rands : Nat → Nat) : Carried (created env name rands) :=
  ⟨⟨fun _ h => absurd h List.not_mem_nil, fun _ h => absurd h List.not_mem_nil,
      plainWorld_texts _ _ _ _⟩,
    (plainWorld_size env.worldDefault name 6000 rands).1.symm ▸ (by decide : 100 ≤ 6000)⟩

theorem finished_eq {now : Int} (hrows : 100 ≤ world.blocks.length) :
    ∃ maxX maxY uid, finished env now world = { world with
      maxX := maxX, maxY := maxY, totalDropUid := uid
      dropNew := autoClearOldWorldDrops now world.dropNew } := by
  have hsize : world.blocks.length / 100 ≠ 0 := by omega
  unfold finished Store.finishWorld
  dsimp only
  rw [if_neg hsize]
  exact ⟨_, _, _, rfl⟩

theorem get_absent (now : Int) (hat : lookup store name = none)
    (hfile : store.files name = none) :
    let next := (Store.getWorld env now name store).2
    next.files = store.files ∧ next.names = store.names ++ [name] ∧
      lookup next = update (lookup store) name (some (created env name store.rands)) := by
  have hnew := lookup_eq_none_iff.mp hat
  have hget : Store.getWorld env now name store = Store.createWorld env name 6000 store := by
    unfold Store.getWorld
    rw [Store.find_loaded_eq_none hnew]
    dsimp only
    rw [hfile]
  rw [hget]
  exact ⟨rfl, Store.names_createWorld name 6000 store,
    @entryAt_append _ _ _ World.name store.worlds (created env name store.rands) hnew⟩

theorem get_file (now : Int) {json : Json} (hat : lookup store name = none)
    (hfile : store.files name = some (some json))
    (hread : readWorld env.items name json = some world)
    (hrows : 100 ≤ world.blocks.length) :
    let next := (Store.getWorld env now name store).2
    next.files = store.files ∧ next.names = store.names ++ [name] ∧
      lookup next = update (lookup store) name (some (finished env now world)) := by
  have hnew := lookup_eq_none_iff.mp hat
  obtain ⟨hname, hstore⟩ := @Store.finishWorld_of_rows env store now world hrows
  have hfirst : (Store.finishWorld env now world store).1 = finished env now world :=
    finishWorld_fst store hrows
  rw [hfirst, Store.readWorld_name world hread] at hname
  have hget : (Store.getWorld env now name store).2 =
      store.worldsPushSafe (finished env now world) := by
    unfold Store.getWorld
    rw [Store.find_loaded_eq_none hnew]
    dsimp only
    rw [hfile]
    dsimp only
    rw [Option.bind_some, hread]
    dsimp only
    rw [hfirst, hstore]
  rw [hget]
  refine ⟨rfl, ?_, ?_⟩
  · rw [Store.names_worldsPushSafe, hname]
  · rw [lookup_worldsPushSafe (hname.symm ▸ hat), hname]

end Stores

end WorldSaves

end NopyServer
