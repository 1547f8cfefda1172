/-
Runs of the four threads that move worlds.  As long as no world is loaded, written or
renamed while another thread still has an older text of it, the threads together are a
store that writes every change at once: what a player finds in a world is what was last
made of it, whenever its texts are written, and two worlds that swap their names swap
all they hold.
-/
import Mathlib.Data.List.Permutation
import Mathlib.Tactic.IntervalCases
import NopyServer.InventoryRuns
import NopyServer.WorldSaves

namespace NopyServer

namespace WorldSaves

open Inventory LateWrites Function

/-- The worlds of a store that writes at once: those in memory, and what there is on
the disk of every world. -/
structure AtOnce where
  memory : String → Option World
  disk : String → Option World

/-- What happens to such a store. -/
inductive Effect where
  /-- A world is loaded, or created where there is none. -/
  | load (name : String) (now : Int) (rands : Nat → Nat)
  /-- A loaded world is changed. -/
  | write (next : World)
  | unload (name : String)
  /-- A loaded world goes to the disk as it is. -/
  | rewrite (name : String)
  /-- What there is on the disk of two worlds changes places. -/
  | exchange (left right : String)

/-- A world under another name. -/
def titled (name : String) (world : World) : World := { world with name := name }

section Meaning

variable (config : Config)

/-- One effect. -/
def Effect.apply : AtOnce → Effect → AtOnce
  | t, .load name now rands =>
      match t.memory name, t.disk name with
      | some _, _ => t
      | none, some world => { t with
          memory := update t.memory name
            (some (shown config.worldEnv (finished config.worldEnv now world))) }
      | none, none =>
          let made := created config.worldEnv name rands
          ⟨update t.memory name (some (shown config.worldEnv made)),
            update t.disk name (some (stored config.worldEnv made))⟩
  | t, .write next =>
      match t.memory next.name with
      | none => t
      | some _ => ⟨update t.memory next.name (some (shown config.worldEnv next)),
          update t.disk next.name (some (stored config.worldEnv next))⟩
  | t, .unload name => { t with memory := update t.memory name none }
  | t, .rewrite name =>
      match t.memory name with
      | none => t
      | some world => { t with
          disk := update t.disk name (some (stored config.worldEnv world)) }
  | t, .exchange left right =>
      let given := (t.disk right).map (titled left)
      let taken := (t.disk left).map (titled right)
      { t with disk := update (update t.disk left given) right taken }

/-- The end of a world without players; `CARNIVAL` stays in memory. -/
def unloads (name : String) : List Effect :=
  if name = "CARNIVAL" then [.rewrite name] else [.unload name]

/-- What a step means.  The threads that write do nothing that shows. -/
def effects (s : State) : Event → List Effect
  | .fetch name now => [.load name now s.store.rands]
  | .edit next => [.write next]
  | .leave name => unloads name
  | .clean name => unloads name
  | .addressSave now =>
      match s.address, (addressSave config now s).address with
      | .drained _ name_ _, .saved left right =>
          [.load name_ now s.store.rands, .rewrite left, .rewrite right]
      | .drained _ name_ _, _ => [.load name_ now s.store.rands]
      | _, _ => []
  | .addressRename =>
      match s.address with
      | .saved left right => [.exchange left right]
      | _ => []
  | .addressErase _ =>
      match s.address with
      | .renamed left right => [.unload left, .unload right]
      | _ => []
  | _ => []

/-- The effects of a run. -/
def history : State → List Event → List Effect
  | _, [] => []
  | s, event :: rest => effects config s event ++ history (serve config s event) rest

/-- What a file gives when it is read. -/
def readFile (name : String) (file : Option (Option Json)) : Option World :=
  file.join.bind (readWorld config.worldEnv.items name)

/-- What there is of a world: a change that is not written yet, else the file. -/
def diskOf (table : String → Option World) (files : String → Option (Option Json))
    (name : String) : Option World :=
  if isProper name = true then
    match table name with
    | none => readFile config name (files name)
    | some world =>
        if world.freshWorld = true then some (stored config.worldEnv world)
        else readFile config name (files name)
  else none

/-- Texts as writes to the files. -/
def writes (items : List (String × Json)) : List (String × Option (Option Json)) :=
  items.map fun item => (item.1, some (some item.2))

/-- The texts that `AsyncWriter` has. -/
def pushed (s : State) : List (String × Json) := s.task.toList ++ s.asyncQueue

/-- The texts on their way, thread by thread. -/
def underWay (s : State) : List (String × Json) :=
  s.jsonData.toList ++ (s.snap ++ s.queue) ++ pushed s

/-- Loaded worlds and files as a store that writes at once. -/
def present (table : String → Option World) (files : String → Option (Option Json)) : AtOnce where
  memory name := (table name).map (shown config.worldEnv)
  disk := diskOf config table files

/-- The store that writes at once, as the threads present it. -/
def atOnce (s : State) : AtOnce :=
  present config (lookup s.store) (landed s.store.files (writes (underWay s)))

end Meaning

/-- None of the texts is for the file. -/
def Free (name : String) (items : List (String × Json)) : Prop := ∀ item ∈ items, item.1 ≠ name

/-- A save of the world writes it. -/
def Saves (store : Store) (name : String) (erase : Bool) : Prop :=
  ∃ world, lookup store name = some world ∧
    (world.freshWorld = true ∨ erase = true ∧ name = "CARNIVAL")

/-- The step may be taken: the thread of the players is not renaming, changes are marked
and can be written, and nothing is loaded, written or renamed past an older text that
another thread has. -/
def Allowed (s : State) : Event → Prop
  | .fetch name _ => s.address = .idle ∧ Proper name ∧
      (name ∈ s.store.names ∨ Free name (underWay s))
  | .edit next => s.address = .idle ∧ next.freshWorld = true ∧ Carried next
  | .leave name => s.address = .idle ∧ Proper name ∧
      (Saves s.store name true → Free name s.jsonData.toList ∧ Free name (pushed s))
  | .clean name => s.address = .idle ∧ Proper name ∧
      (Saves s.store name true → Free name s.jsonData.toList ∧ Free name (s.snap ++ s.queue))
  | .save name => s.address = .idle ∧ Proper name ∧
      (Saves s.store name false → Free name s.jsonData.toList ∧ Free name (s.snap ++ s.queue))
  | .worldSwap peer cch => s.address = .idle ∧ ∀ pl, s.players[peer]? = some pl →
      ∀ name ∈ [toUpper (TextScanner.get cch "name_box"), pl.world],
        name ≠ "CARNIVAL" ∧ Free name (s.jsonData.toList ++ s.snap ++ pushed s)
  | .addressSave _ => ∀ peer left right, s.address = .drained peer left right →
      (∀ name ∈ [left, right], Free name s.jsonData.toList) ∧
        ∀ pl, s.players[peer]? = some pl → SlotInv pl.inv ∧ pl.autoConvert = false
  | .addressRename => ∀ left right, s.address = .saved left right →
      ∀ name ∈ [left, right], Free name (pushed s)
  | .addressErase emptied => ∀ left right, s.address = .renamed left right →
      ∀ name ∈ emptied, name = left ∨ name = right
  | .serialise => ∀ wname, s.worldSnap.head? = some wname → Saves s.store wname false →
      Free wname (s.snap ++ s.queue) ∧ Free wname (pushed s)
  | _ => True

/-- Every step of a run may be taken. -/
def AllowedRun (config : Config) : State → List Event → Prop
  | _, [] => True
  | s, event :: rest => Allowed s event ∧ AllowedRun config (serve config s event) rest

/-- A text that a world can be read from. -/
def Readable (config : Config) (json : Json) : Prop :=
  ∃ world, TextOf config.worldEnv world json ∧ Carried world

/-- The store is in order: the loaded worlds can be written, the files can be read. -/
structure Sound (config : Config) (store : Store) : Prop where
  named : Named store
  carried : ∀ name world, lookup store name = some world → Carried world
  files : ∀ name, Proper name → store.files name = none ∨
    ∃ json, store.files name = some (some json) ∧ Readable config json

/-- Two names that can be swapped. -/
structure Swappable (left right : String) : Prop where
  ne : left ≠ right
  proper : ∀ name ∈ [left, right], Proper name ∧ name ≠ "CARNIVAL"

/-- No change of the world is waiting. -/
def Stale (table : String → Option World) (name : String) : Prop :=
  ∀ world, table name = some world → world.freshWorld = false

/-- The world has a file, or will have. -/
def Reaches (s : State) (name : String) : Prop :=
  s.store.files name ≠ none ∨ ∃ item ∈ pushed s, item.1 = name

/-- What holds while two worlds are renamed. -/
def AddressSound (s : State) : Prop :=
  match s.address with
  | .idle => True
  | .drained _ left right => Swappable left right ∧ ∀ name ∈ [left, right],
      Free name (s.snap ++ s.queue) ∧ Free name (pushed s)
  | .saved left right => Swappable left right ∧ ∀ name ∈ [left, right],
      Free name (s.jsonData.toList ++ (s.snap ++ s.queue)) ∧ Reaches s name ∧
        Stale (lookup s.store) name
  | .renamed left right => Swappable left right ∧ ∀ name ∈ [left, right],
      Stale (lookup s.store) name

/-- No two threads have texts of one world. -/
structure Apart (s : State) : Prop where
  held : ∀ item ∈ s.jsonData.toList, Free item.1 (s.snap ++ s.queue) ∧ Free item.1 (pushed s)
  queued : ∀ item ∈ s.snap ++ s.queue, Free item.1 (pushed s)

/-- What holds between the steps. -/
structure Orderly (config : Config) (s : State) : Prop where
  sound : Sound config s.store
  texts : ∀ item ∈ underWay s, Readable config item.2
  apart : Apart s
  rest : ∀ name ∈ s.worldSnap, Proper name
  address : AddressSound s

section Texts

variable {config : Config} {world next : World} {name : String} {json : Json}

theorem savedSettings_idem (env : WorldEnv) (name : String) (settings : Int) :
    Store.savedSettings env name (Store.savedSettings env name settings) =
      Store.savedSettings env name settings := by
  rw [savedSettings_eq_iff]
  intro hwotd
  unfold Store.savedSettings flagSet
  split
  · next hset =>
      have hodd : settings / 2 % 2 = 1 := beq_iff_eq.mp hset.2
      have heven : (settings - 2) / 2 % 2 = 0 := by omega
      rw [heven]
      rfl
  · next hkeep =>
      exact Bool.eq_false_iff.mpr fun hset =>
        hkeep ⟨List.contains_iff_mem.mpr hwotd, hset⟩

theorem shown_shown (env : WorldEnv) (world : World) : shown env (shown env world) =
    shown env world := by
  have hsettings : (shown env (shown env world)).worldSettings =
      (shown env world).worldSettings :=
    savedSettings_idem env world.name world.worldSettings
  have hshown : shown env (shown env world) = { shown env world with
      worldSettings := (shown env (shown env world)).worldSettings } := rfl
  rw [hshown, hsettings]

theorem stored_shown (env : WorldEnv) (world : World) : stored env (shown env world) =
    stored env world := by
  unfold stored
  rw [shown_shown]
  rfl

/-- A text of a world gives the world back under every name. -/
theorem TextOf.read (htext : TextOf config.worldEnv world json) (hworld : Carried world)
    (hrock : (config.worldEnv.items.item 0).fossilRock = 0) (name : String) :
    readFile config name (some (some json)) =
      some (titled name (stored config.worldEnv world)) := by
  obtain ⟨rands, rfl⟩ := htext
  have hwritable : Writable { world with
      worldSettings := Store.savedSettings config.worldEnv world.name world.worldSettings } :=
    ⟨hworld.numbers.ghosts, hworld.numbers.npc, hworld.numbers.texts⟩
  have hread := @readWorld_written config.worldEnv.items rands _ hrock hwritable name
  unfold readFile
  rw [Option.join_some, Option.bind_some, hread]
  rfl

theorem stored_carried (hworld : Carried world) (env : WorldEnv) :
    Carried (stored env world) := by
  refine ⟨⟨hworld.numbers.ghosts, ?_, ?_⟩, ?_⟩
  · intro npc hnpc
    obtain ⟨old, hold, rfl⟩ := List.mem_map.mp hnpc
    exact hworld.numbers.npc old hold
  · unfold stored
    rw [texts_reloadedWorld]
    exact hworld.numbers.texts
  · have hlength : (stored env world).blocks.length = world.blocks.length := List.length_map _
    rw [hlength]
    exact hworld.rows

theorem finished_carried (hworld : Carried world) (env : WorldEnv) (now : Int) :
    Carried (finished env now world) ∧ (finished env now world).freshWorld = world.freshWorld ∧
      (finished env now world).name = world.name := by
  obtain ⟨maxX, maxY, uid, heq⟩ := @finished_eq env world now hworld.rows
  rw [heq]
  have htexts := hworld.numbers.texts
  refine ⟨⟨⟨hworld.numbers.ghosts, hworld.numbers.npc, ?_⟩, hworld.rows⟩, rfl, rfl⟩
  unfold World.texts at htexts ⊢
  exact htexts

theorem titled_carried (hworld : Carried world) (name : String) : Carried (titled name world) :=
  ⟨⟨hworld.numbers.ghosts, hworld.numbers.npc, hworld.numbers.texts⟩, hworld.rows⟩

theorem shown_carried (hworld : Carried world) (env : WorldEnv) : Carried (shown env world) :=
  ⟨⟨hworld.numbers.ghosts, hworld.numbers.npc, hworld.numbers.texts⟩, hworld.rows⟩

theorem Free.keys {items : List (String × Json)} (hfree : Free name items) :
    name ∉ keys (writes items) := by
  intro hmem
  obtain ⟨write, hwrite, hname⟩ := List.mem_map.mp hmem
  obtain ⟨item, hitem, rfl⟩ := List.mem_map.mp hwrite
  exact hfree item hitem hname

theorem Free.append {items later : List (String × Json)} :
    Free name (items ++ later) ↔ Free name items ∧ Free name later :=
  List.forall_mem_append

theorem writes_append (items later : List (String × Json)) :
    writes (items ++ later) = writes items ++ writes later := List.map_append

/-- A text that no older one of its world comes before reaches its file. -/
theorem landed_head {item : String × Json} {before after : List (String × Json)}
    (files : String → Option (Option Json)) (hfree : Free item.1 before) :
    landed files (writes (before ++ item :: after)) =
      landed (writeFile files item) (writes (before ++ after)) := by
  rw [writes_append, writes_append]
  exact landed_first _ _ _ _ hfree.keys

/-- A text that no newer one of its world comes after. -/
theorem landed_pushed {before after : List (String × Json)}
    (files : String → Option (Option Json)) (hfree : Free name after) :
    landed files (writes (before ++ (name, json) :: after)) =
      update (landed files (writes (before ++ after))) name (some (some json)) := by
  rw [writes_append, writes_append]
  exact landed_last _ _ _ _ hfree.keys

end Texts

section Disk

variable {config : Config} {table : String → Option World}
  {files : String → Option (Option Json)} {name : String} {world next : World}

theorem diskOf_proper (hname : Proper name) : diskOf config table files name =
    match table name with
    | none => readFile config name (files name)
    | some world =>
        if world.freshWorld = true then some (stored config.worldEnv world)
        else readFile config name (files name) := if_pos (isProper_iff.mpr hname)

theorem diskOf_improper (hname : ¬ Proper name) : diskOf config table files name = none :=
  if_neg fun hproper => hname (isProper_iff.mp hproper)

theorem diskOf_changed (hname : Proper name) (hat : table name = some world)
    (hfresh : world.freshWorld = true) :
    diskOf config table files name = some (stored config.worldEnv world) := by
  rw [diskOf_proper hname, hat]
  exact if_pos hfresh

theorem diskOf_stale (hname : Proper name) (hstale : Stale table name) :
    diskOf config table files name = readFile config name (files name) := by
  rw [diskOf_proper hname]
  cases hat : table name with
  | none => rfl
  | some world =>
      dsimp only
      rw [if_neg (by rw [hstale world hat]; exact Bool.false_ne_true)]

/-- What there is of one world does not depend on the others. -/
theorem diskOf_congr {table' : String → Option World} {files' : String → Option (Option Json)}
    (htable : table' name = table name) (hfiles : files' name = files name) :
    diskOf config table' files' name = diskOf config table files name := by
  unfold diskOf
  rw [htable, hfiles]

/-- Loading or unloading what is in the file changes nothing on the disk. -/
theorem diskOf_settle {value : Option World} (hstale : Stale table name)
    (hvalue : ∀ world, value = some world → world.freshWorld = false) :
    diskOf config (update table name value) files = diskOf config table files := by
  funext other
  by_cases hother : other = name
  · subst hother
    by_cases hname : Proper other
    · rw [diskOf_stale hname hstale, diskOf_stale hname]
      intro world hat
      rw [update_self] at hat
      exact hvalue world hat
    · exact (diskOf_improper hname).trans (diskOf_improper hname).symm
  · exact diskOf_congr (update_of_ne hother _ _) rfl

/-- A text in the file, and no change waiting. -/
theorem diskOf_written {value : Option World} {file : Option (Option Json)}
    (hname : Proper name) (hvalue : ∀ world, value = some world → world.freshWorld = false) :
    diskOf config (update table name value) (update files name file) =
      update (diskOf config table files) name (readFile config name file) := by
  funext other
  by_cases hother : other = name
  · subst hother
    rw [update_self, diskOf_stale hname, update_self]
    intro world hat
    rw [update_self] at hat
    exact hvalue world hat
  · rw [update_of_ne hother]
    exact diskOf_congr (update_of_ne hother _ _) (update_of_ne hother _ _)

/-- A change waiting in memory. -/
theorem diskOf_edited (hname : Proper name) (hfresh : next.freshWorld = true) :
    diskOf config (update table name (some next)) files =
      update (diskOf config table files) name (some (stored config.worldEnv next)) := by
  funext other
  by_cases hother : other = name
  · subst hother
    rw [update_self, diskOf_changed hname (update_self _ _ _) hfresh]
  · rw [update_of_ne hother]
    exact diskOf_congr (update_of_ne hother _ _) rfl

end Disk

section Saving

variable {config : Config} {store : Store} {table : String → Option World}
  {files : String → Option (Option Json)} {name : String} {world : World} {json : Json}
  {erase : Bool}

/-- `save_world` gives the text of the world, or none. -/
theorem save_cases (hsound : Sound config store) (hname : Proper name) (erase : Bool) :
    let out := Store.saveWorld config.worldEnv name erase true store
    (¬ Saves store name erase ∧ out.1 = none ∧ out.2.files = store.files ∧
      lookup out.2 = if erase = true ∧ name ≠ "CARNIVAL" then update (lookup store) name none
        else lookup store) ∨
    ∃ world json, lookup store name = some world ∧
      (world.freshWorld = true ∨ erase = true ∧ name = "CARNIVAL") ∧
      TextOf config.worldEnv world json ∧ out.1 = some json ∧ out.2.files = store.files ∧
      lookup out.2 = update (lookup store) name (if erase = true ∧ name ≠ "CARNIVAL" then none
        else some (shown config.worldEnv world)) := by
  intro out
  cases hat : lookup store name with
  | none =>
      have hout : out = (none, (Store.findWorld name store).2) :=
        save_absent hsound.named hname hat erase
      have hlookup : lookup out.2 = lookup store := by
        rw [hout]
        exact congrArg (entryAt World.name) (Store.findWorld_worlds name store)
      refine Or.inl ⟨?_, by rw [hout], by rw [hout]; exact (findWorld_files name store).1, ?_⟩
      · rintro ⟨world, hworld, -⟩
        rw [hat] at hworld
        cases hworld
      · rw [hlookup]
        split
        · exact (update_eq_self_iff.mpr hat.symm).symm
        · rfl
  | some world =>
      by_cases hsaves : world.freshWorld = true ∨ erase = true ∧ name = "CARNIVAL"
      · obtain ⟨json, htext, hout⟩ :=
          @save_written config.worldEnv _ _ _ hsound.named hname hat
            (hsound.carried name world hat).numbers.texts _ hsaves
        exact Or.inr ⟨world, json, rfl, hsaves, htext, hout⟩
      · obtain ⟨hchanged, hkept⟩ := not_or.mp hsaves
        have hstale := Bool.eq_false_iff.mpr hchanged
        obtain ⟨hnone, hfiles, hlookup⟩ :=
          @save_unchanged config.worldEnv _ _ _ hsound.named hname hat hstale _ hkept
        refine Or.inl ⟨?_, hnone, hfiles, hlookup.trans (if_congr ?_ rfl rfl)⟩
        · rintro ⟨other, hother, hwrites⟩
          rw [hat] at hother
          exact hsaves (Option.some.inj hother ▸ hwrites)
        · exact ⟨fun herase => ⟨herase, fun hcarnival => hkept ⟨herase, hcarnival⟩⟩, And.left⟩

/-- Saving keeps the store in order. -/
theorem Sound.save (hsound : Sound config store) (hname : Proper name) (erase : Bool) :
    Sound config (Store.saveWorld config.worldEnv name erase true store).2 := by
  have hnamed := hsound.named.sublist
    (@Store.names_saveWorld config.worldEnv name erase true store)
  have hcarried : ∀ value, (∀ world, value = some world → Carried world) →
      ∀ other world, update (lookup store) name value other = some world → Carried world := by
    intro value hvalue other world hother
    by_cases hsame : other = name
    · rw [hsame, update_self] at hother
      exact hvalue world hother
    · rw [update_of_ne hsame] at hother
      exact hsound.carried other world hother
  rcases save_cases hsound hname erase with
    ⟨-, -, hfiles, hlookup⟩ | ⟨world, json, hat, -, -, -, hfiles, hlookup⟩
  · refine ⟨hnamed, ?_, hfiles ▸ hsound.files⟩
    rw [hlookup]
    split
    · exact hcarried none fun _ h => by cases h
    · exact hsound.carried
  · refine ⟨hnamed, ?_, hfiles ▸ hsound.files⟩
    rw [hlookup]
    refine hcarried _ fun loaded hloaded => ?_
    split at hloaded
    · cases hloaded
    · obtain rfl := Option.some.inj hloaded
      exact shown_carried (hsound.carried name world hat) config.worldEnv

theorem memory_update (value : Option World) :
    (fun other => (update table name value other).map (shown config.worldEnv)) =
      update (fun other => (table other).map (shown config.worldEnv)) name
        (value.map (shown config.worldEnv)) :=
  Function.comp_update (Option.map (shown config.worldEnv)) table name value

theorem stale_of_not_saves (hnot : ¬ Saves store name erase) : Stale (lookup store) name := by
  intro world hat
  exact Bool.eq_false_iff.mpr fun hfresh => hnot ⟨world, hat, Or.inl hfresh⟩

/-- The text of a loaded world, once it is in the file. -/
theorem present_written (hrock : (config.worldEnv.items.item 0).fossilRock = 0)
    (hname : Proper name) (hkey : world.name = name) (hworld : Carried world)
    (htext : TextOf config.worldEnv world json) {value : Option World}
    (hvalue : ∀ loaded, value = some loaded → loaded.freshWorld = false) :
    present config (update table name value) (update files name (some (some json))) =
      ⟨update (present config table files).memory name (value.map (shown config.worldEnv)),
        update (present config table files).disk name
          (some (stored config.worldEnv world))⟩ := by
  have hread := htext.read hworld hrock name
  have hsame : titled name (stored config.worldEnv world) = stored config.worldEnv world := by
    rw [← hkey]
    rfl
  unfold present
  rw [diskOf_written hname hvalue, hread, hsame, memory_update]

/-- A world without a change to write is unloaded. -/
theorem present_unloaded (hnot : ¬ Saves store name true) :
    present config (if true = true ∧ name ≠ "CARNIVAL" then update (lookup store) name none
        else lookup store) files =
      (unloads name).foldl (Effect.apply config) (present config (lookup store) files) := by
  unfold unloads
  by_cases hcarnival : name = "CARNIVAL"
  · have hnone : lookup store name = none := by
      cases hat : lookup store name with
      | none => rfl
      | some world => exact absurd ⟨world, hat, Or.inr ⟨rfl, hcarnival⟩⟩ hnot
    rw [if_neg fun h => h.2 hcarnival, if_pos hcarnival]
    unfold List.foldl List.foldl Effect.apply present
    dsimp only
    rw [hnone]
    rfl
  · rw [if_pos ⟨rfl, hcarnival⟩, if_neg hcarnival]
    unfold List.foldl List.foldl Effect.apply present
    dsimp only
    rw [diskOf_settle (stale_of_not_saves hnot) (fun _ h => by cases h), memory_update]
    rfl

theorem present_memory (hat : table name = some world) :
    (present config table files).memory name = some (shown config.worldEnv world) :=
  congrArg (Option.map (shown config.worldEnv)) hat

/-- A world whose last change is written when it is unloaded. -/
theorem present_unloaded_written (hrock : (config.worldEnv.items.item 0).fossilRock = 0)
    (hname : Proper name) (hat : table name = some world) (hkey : world.name = name)
    (hsaves : world.freshWorld = true ∨ true = true ∧ name = "CARNIVAL")
    (hworld : Carried world) (htext : TextOf config.worldEnv world json) :
    present config (update table name (if true = true ∧ name ≠ "CARNIVAL" then none
        else some (shown config.worldEnv world))) (update files name (some (some json))) =
      (unloads name).foldl (Effect.apply config) (present config table files) := by
  unfold unloads
  by_cases hcarnival : name = "CARNIVAL"
  · have hstored := stored_shown config.worldEnv world
    have hmemory := @present_memory config table files name world hat
    rw [if_neg fun h => h.2 hcarnival, if_pos hcarnival,
      present_written hrock hname hkey hworld htext (by rintro loaded ⟨⟩; rfl)]
    unfold List.foldl List.foldl Effect.apply
    dsimp only
    rw [hmemory]
    dsimp only
    rw [hstored, Option.map_some, shown_shown, ← hmemory, update_eq_self]
  · have hfresh : world.freshWorld = true := hsaves.resolve_right fun h => hcarnival h.2
    have hdisk : (present config table files).disk name =
        some (stored config.worldEnv world) := diskOf_changed hname hat hfresh
    rw [if_pos ⟨rfl, hcarnival⟩, if_neg hcarnival,
      present_written hrock hname hkey hworld htext (fun _ h => by cases h)]
    unfold List.foldl List.foldl Effect.apply
    dsimp only
    rw [← hdisk, update_eq_self]
    rfl

/-- A changed world that is written and stays shows nothing. -/
theorem present_saved (hrock : (config.worldEnv.items.item 0).fossilRock = 0)
    (hname : Proper name) (hat : table name = some world) (hkey : world.name = name)
    (hfresh : world.freshWorld = true) (hworld : Carried world)
    (htext : TextOf config.worldEnv world json) :
    present config (update table name (some (shown config.worldEnv world)))
        (update files name (some (some json))) = present config table files := by
  have hmemory := @present_memory config table files name world hat
  have hdisk : (present config table files).disk name =
      some (stored config.worldEnv world) := diskOf_changed hname hat hfresh
  rw [present_written hrock hname hkey hworld htext (by rintro loaded ⟨⟩; rfl), ← hdisk,
    update_eq_self, Option.map_some, shown_shown, ← hmemory, update_eq_self]

end Saving

section Loading

variable {config : Config} {store : Store} {name : String}

/-- A world added under a name that is not loaded. -/
theorem Sound.add (hsound : Sound config store) (hname : Proper name) {next : Store}
    {world : World} (hat : lookup store name = none) (hfiles : next.files = store.files)
    (hnames : next.names = store.names ++ [name])
    (hlookup : lookup next = update (lookup store) name (some world))
    (hworld : Carried world) : Sound config next := by
  refine ⟨⟨?_, ?_⟩, ?_, ?_⟩
  · rw [hnames]
    exact Store.nodup_append_name.mpr ⟨hsound.named.nodup, lookup_eq_none_iff.mp hat⟩
  · intro other hother
    rw [hnames] at hother
    rcases List.mem_append.mp hother with hold | hnew
    · exact hsound.named.proper other hold
    · rw [List.mem_singleton.mp hnew]
      exact hname
  · intro other loaded hloaded
    rw [hlookup] at hloaded
    by_cases hsame : other = name
    · rw [hsame, update_self] at hloaded
      exact Option.some.inj hloaded ▸ hworld
    · rw [update_of_ne hsame] at hloaded
      exact hsound.carried other loaded hloaded
  · rw [hfiles]
    exact hsound.files

theorem stale_of_not_loaded (hat : lookup store name = none) : Stale (lookup store) name := by
  intro world hworld
  rw [hat] at hworld
  cases hworld

/-- A world that is not loaded, and of which no text is on its way, is what its file says. -/
theorem disk_unloaded (hname : Proper name) (hat : lookup store name = none)
    {texts : List (String × Option (Option Json))} (hkeys : name ∉ keys texts) :
    (present config (lookup store) (landed store.files texts)).disk name =
      readFile config name (store.files name) := by
  have hread := @diskOf_stale config (lookup store) (landed store.files texts) name hname
    (stale_of_not_loaded hat)
  rwa [landed_of_not_mem _ _ hkeys] at hread

/-- `get_world` loads what there is of the world, unless a text is on its way. -/
theorem fetch_store (hrock : (config.worldEnv.items.item 0).fossilRock = 0)
    (hsound : Sound config store) (hname : Proper name) (now : Int)
    {texts : List (String × Option (Option Json))}
    (hfree : name ∈ store.names ∨ name ∉ keys texts) :
    let next := (Store.getWorld config.worldEnv now name store).2
    present config (lookup next) (landed next.files texts) =
        Effect.apply config (present config (lookup store) (landed store.files texts))
          (.load name now store.rands) ∧
      Sound config next := by
  intro next
  cases hat : lookup store name with
  | some world =>
      have hloaded : name ∈ store.names := by
        by_contra hnot
        rw [lookup_eq_none_iff.mpr hnot] at hat
        cases hat
      have hsame : next = store := Store.getWorld_loaded now hloaded
      rw [hsame]
      refine ⟨?_, hsound⟩
      unfold Effect.apply
      dsimp only
      rw [present_memory hat]
  | none =>
      have hkeys := hfree.resolve_left (lookup_eq_none_iff.mp hat)
      have hmemory :
          (present config (lookup store) (landed store.files texts)).memory name = none :=
        congrArg (Option.map (shown config.worldEnv)) hat
      have hstale := stale_of_not_loaded hat
      have hdisk := @disk_unloaded config store name hname hat texts hkeys
      rcases hsound.files name hname with hfile | ⟨json, hfile, world, htext, hworld⟩
      · obtain ⟨hfiles, hnames, hlookup⟩ := @get_absent config.worldEnv store name now hat hfile
        have hmade := @created_carried config.worldEnv name store.rands
        refine ⟨?_, hsound.add hname hat hfiles hnames hlookup hmade⟩
        have hfresh : (created config.worldEnv name store.rands).freshWorld = true := rfl
        have hedited := @diskOf_edited config (lookup store) (landed store.files texts) name
          (created config.worldEnv name store.rands) hname hfresh
        rw [hfile] at hdisk
        unfold Effect.apply
        dsimp only
        rw [hmemory, hdisk, hlookup, hfiles]
        unfold present
        rw [hedited, memory_update]
        rfl
      · have hread := htext.read hworld hrock name
        rw [hfile, hread] at hdisk
        have hcarried : Carried (titled name (stored config.worldEnv world)) :=
          titled_carried (stored_carried hworld config.worldEnv) name
        obtain ⟨hfinished, hfresh, -⟩ := finished_carried hcarried config.worldEnv now
        obtain ⟨hfiles, hnames, hlookup⟩ :=
          @get_file config.worldEnv store name _ now json hat hfile hread hcarried.rows
        refine ⟨?_, hsound.add hname hat hfiles hnames hlookup hfinished⟩
        have hvalue : ∀ loaded, some (finished config.worldEnv now
            (titled name (stored config.worldEnv world))) = some loaded →
            loaded.freshWorld = false := by
          rintro loaded ⟨⟩
          rw [hfresh]
          rfl
        have hsettle := @diskOf_settle config (lookup store) (landed store.files texts) name _
          hstale hvalue
        unfold Effect.apply
        dsimp only
        rw [hmemory, hdisk, hlookup, hfiles]
        unfold present
        rw [hsettle, memory_update]
        rfl

end Loading

section Events

variable {config : Config} {s : State} {name : String}

theorem AddressSound.idle {s : State} (hidle : s.address = .idle) : AddressSound s := by
  unfold AddressSound
  rw [hidle]
  trivial

/-- Between renames a step that changes the store only. -/
theorem Orderly.withStore (horderly : Orderly config s) (hidle : s.address = .idle)
    {store : Store} (hsound : Sound config store) : Orderly config { s with store := store } :=
  ⟨hsound, horderly.texts, ⟨horderly.apart.held, horderly.apart.queued⟩, horderly.rest,
    .idle hidle⟩

/-- The state once a world has been left, with its text if there is one. -/
theorem leave_eq (s : State) (hname : Proper name) : leave config name s = { s with
    store := (Store.saveWorld config.worldEnv name true true s.store).2
    queue := s.queue ++ ((Store.saveWorld config.worldEnv name true true s.store).1.map
      (name, ·)).toList } := by
  unfold leave
  rw [hname.1]

theorem save_eq (s : State) (hname : Proper name) (erase : Bool) :
    save config name erase s = { s with
      store := (Store.saveWorld config.worldEnv name erase true s.store).2
      asyncQueue := s.asyncQueue ++
        ((Store.saveWorld config.worldEnv name erase true s.store).1.map (name, ·)).toList } := by
  unfold save
  rw [hname.1]

/-- The thread of the players unloads a world and leaves its text to another. -/
theorem leave_effect (hrock : (config.worldEnv.items.item 0).fossilRock = 0)
    (horderly : Orderly config s) (hallowed : Allowed s (.leave name)) :
    atOnce config (leave config name s) =
        (unloads name).foldl (Effect.apply config) (atOnce config s) ∧
      Orderly config (leave config name s) := by
  obtain ⟨hidle, hname, hothers⟩ := hallowed
  have hsound := horderly.sound.save hname true
  rw [leave_eq s hname]
  rcases save_cases horderly.sound hname true with
    ⟨hnot, hnone, hfiles, hlookup⟩ | ⟨world, json, hat, hsaves, htext, hjson, hfiles, hlookup⟩
  · rw [hnone, Option.map_none, Option.toList_none, List.append_nil]
    refine ⟨?_, horderly.withStore hidle hsound⟩
    unfold atOnce
    dsimp only
    rw [hlookup, hfiles]
    exact present_unloaded hnot
  · obtain ⟨hheld, hpushed⟩ := hothers ⟨world, hat, hsaves⟩
    have hworld := horderly.sound.carried name world hat
    have hway : underWay { s with
        store := (Store.saveWorld config.worldEnv name true true s.store).2
        queue := s.queue ++ [(name, json)] } =
          s.jsonData.toList ++ (s.snap ++ s.queue) ++ (name, json) :: pushed s := by
      change s.jsonData.toList ++ (s.snap ++ (s.queue ++ [(name, json)])) ++ pushed s = _
      simp only [List.append_assoc, List.cons_append, List.nil_append]
    rw [hjson, Option.map_some, Option.toList_some]
    refine ⟨?_, hsound, ?_, ⟨?_, ?_⟩, horderly.rest, .idle hidle⟩
    · unfold atOnce
      rw [hway, landed_pushed _ hpushed]
      dsimp only
      rw [hlookup, hfiles]
      exact present_unloaded_written hrock hname hat (lookup_name hat) hsaves hworld htext
    · rw [hway]
      intro item hitem
      rcases List.mem_append.mp hitem with hold | hlate
      · exact horderly.texts item (List.mem_append_left _ hold)
      rcases List.mem_cons.mp hlate with rfl | hold
      · exact ⟨world, htext, hworld⟩
      · exact horderly.texts item (List.mem_append_right _ hold)
    · intro item hitem
      obtain ⟨hqueue, hasync⟩ := horderly.apart.held item hitem
      refine ⟨?_, hasync⟩
      change Free item.1 (s.snap ++ (s.queue ++ [(name, json)]))
      rw [← List.append_assoc]
      exact Free.append.mpr ⟨hqueue, List.forall_mem_singleton.mpr (hheld item hitem).symm⟩
    · intro item hitem
      change item ∈ s.snap ++ (s.queue ++ [(name, json)]) at hitem
      rw [← List.append_assoc] at hitem
      rcases List.mem_append.mp hitem with hold | hnew
      · exact horderly.apart.queued item hold
      · obtain rfl := List.mem_singleton.mp hnew
        exact hpushed

/-- What a save pushes comes after all other texts. -/
theorem underWay_pushed (s : State) (store : Store) (items : List (String × Json)) :
    underWay { s with store := store, asyncQueue := s.asyncQueue ++ items } =
      underWay s ++ items := by
  simp only [underWay, pushed, List.append_assoc]

/-- A text pushed for a world of which no other thread has one. -/
theorem Orderly.push (horderly : Orderly config s) {store : Store}
    (hsound : Sound config store) {json : Json} (hjson : Readable config json)
    (hheld : Free name s.jsonData.toList) (hqueue : Free name (s.snap ++ s.queue))
    (haddress : AddressSound { s with
      store := store, asyncQueue := s.asyncQueue ++ [(name, json)] }) :
    Orderly config { s with store := store, asyncQueue := s.asyncQueue ++ [(name, json)] } := by
  have hpushed : pushed { s with
      store := store, asyncQueue := s.asyncQueue ++ [(name, json)] } =
        pushed s ++ [(name, json)] := (List.append_assoc _ _ _).symm
  refine ⟨hsound, ?_, ⟨?_, ?_⟩, horderly.rest, haddress⟩
  · rw [underWay_pushed]
    intro item hitem
    rcases List.mem_append.mp hitem with hold | hnew
    · exact horderly.texts item hold
    · obtain rfl := List.mem_singleton.mp hnew
      exact hjson
  · intro item hitem
    obtain ⟨hothers, hasync⟩ := horderly.apart.held item hitem
    refine ⟨hothers, ?_⟩
    rw [hpushed]
    exact Free.append.mpr ⟨hasync, List.forall_mem_singleton.mpr (hheld item hitem).symm⟩
  · intro item hitem
    rw [hpushed]
    exact Free.append.mpr ⟨horderly.apart.queued item hitem,
      List.forall_mem_singleton.mpr (hqueue item hitem).symm⟩

theorem clean_effect (hrock : (config.worldEnv.items.item 0).fossilRock = 0)
    (horderly : Orderly config s) (hallowed : Allowed s (.clean name)) :
    atOnce config (save config name true s) =
        (unloads name).foldl (Effect.apply config) (atOnce config s) ∧
      Orderly config (save config name true s) := by
  obtain ⟨hidle, hname, hothers⟩ := hallowed
  have hsound := horderly.sound.save hname true
  rw [save_eq s hname]
  rcases save_cases horderly.sound hname true with
    ⟨hnot, hnone, hfiles, hlookup⟩ | ⟨world, json, hat, hsaves, htext, hjson, hfiles, hlookup⟩
  · rw [hnone, Option.map_none, Option.toList_none, List.append_nil]
    refine ⟨?_, horderly.withStore hidle hsound⟩
    unfold atOnce
    dsimp only
    rw [hlookup, hfiles]
    exact present_unloaded hnot
  · obtain ⟨hheld, hqueue⟩ := hothers ⟨world, hat, hsaves⟩
    have hworld := horderly.sound.carried name world hat
    rw [hjson, Option.map_some, Option.toList_some]
    refine ⟨?_, horderly.push hsound ⟨world, htext, hworld⟩ hheld hqueue (.idle hidle)⟩
    unfold atOnce
    rw [underWay_pushed, landed_pushed _ (List.forall_mem_nil _), List.append_nil]
    dsimp only
    rw [hlookup, hfiles]
    exact present_unloaded_written hrock hname hat (lookup_name hat) hsaves hworld htext

theorem save_effect (hrock : (config.worldEnv.items.item 0).fossilRock = 0)
    (horderly : Orderly config s) (hallowed : Allowed s (.save name)) :
    atOnce config (save config name false s) = atOnce config s ∧
      Orderly config (save config name false s) := by
  obtain ⟨hidle, hname, hothers⟩ := hallowed
  have hsound := horderly.sound.save hname false
  rw [save_eq s hname]
  rcases save_cases horderly.sound hname false with
    ⟨hnot, hnone, hfiles, hlookup⟩ | ⟨world, json, hat, hsaves, htext, hjson, hfiles, hlookup⟩
  · rw [if_neg fun h => Bool.false_ne_true h.1] at hlookup
    rw [hnone, Option.map_none, Option.toList_none, List.append_nil]
    refine ⟨?_, horderly.withStore hidle hsound⟩
    unfold atOnce
    dsimp only
    rw [hlookup, hfiles]
    rfl
  · obtain ⟨hheld, hqueue⟩ := hothers ⟨world, hat, hsaves⟩
    have hworld := horderly.sound.carried name world hat
    have hfresh := hsaves.resolve_right fun h => Bool.false_ne_true h.1
    rw [if_neg fun h => Bool.false_ne_true h.1] at hlookup
    rw [hjson, Option.map_some, Option.toList_some]
    refine ⟨?_, horderly.push hsound ⟨world, htext, hworld⟩ hheld hqueue (.idle hidle)⟩
    unfold atOnce
    rw [underWay_pushed, landed_pushed _ (List.forall_mem_nil _), List.append_nil]
    dsimp only
    rw [hlookup, hfiles]
    exact present_saved hrock hname hat (lookup_name hat) hfresh hworld htext

/-- A handler changes a loaded world and marks it. -/
theorem edit_effect {next : World} (horderly : Orderly config s)
    (hallowed : Allowed s (.edit next)) :
    atOnce config (edit next s) = Effect.apply config (atOnce config s) (.write next) ∧
      Orderly config (edit next s) := by
  obtain ⟨hidle, hfresh, hnext⟩ := hallowed
  have hlookup : lookup (edit next s).store = update (lookup s.store) next.name
      ((lookup s.store next.name).map fun _ => next) :=
    entryAt_mapAt next.name fun _ _ => rfl
  have hnames : (edit next s).store.names = s.store.names := by
    unfold Store.names edit
    rw [List.map_map]
    refine List.map_congr_left fun world _ => ?_
    dsimp only [comp_apply]
    split
    · next hsame => exact hsame.symm
    · rfl
  have hway : underWay (edit next s) = underWay s := rfl
  have hfiles : (edit next s).store.files = s.store.files := rfl
  have hnamed : Named (edit next s).store :=
    horderly.sound.named.sublist (hnames ▸ List.Sublist.refl _)
  cases hat : lookup s.store next.name with
  | none =>
      have hsame : lookup (edit next s).store = lookup s.store := by
        rw [hlookup, hat]
        exact update_eq_self_iff.mpr hat.symm
      have hmemory : (atOnce config s).memory next.name = none :=
        congrArg (Option.map (shown config.worldEnv)) hat
      refine ⟨?_, horderly.withStore hidle ⟨hnamed, ?_, horderly.sound.files⟩⟩
      · unfold Effect.apply
        dsimp only
        rw [hmemory]
        unfold atOnce
        rw [hsame, hway, hfiles]
      · intro name world hworld
        exact horderly.sound.carried name world (hsame ▸ hworld)
  | some world =>
      have hset : lookup (edit next s).store =
          update (lookup s.store) next.name (some next) := by
        rw [hlookup, hat]
        rfl
      have hname : Proper next.name := by
        refine horderly.sound.named.proper _ ?_
        by_contra hnot
        rw [lookup_eq_none_iff.mpr hnot] at hat
        cases hat
      have hmemory : (atOnce config s).memory next.name = some (shown config.worldEnv world) :=
        present_memory hat
      refine ⟨?_, horderly.withStore hidle ⟨hnamed, ?_, horderly.sound.files⟩⟩
      · unfold Effect.apply
        dsimp only
        rw [hmemory]
        unfold atOnce
        rw [hset, hway, hfiles]
        unfold present
        rw [diskOf_edited hname hfresh, memory_update]
        rfl
      · intro name loaded hloaded
        have hloaded' : update (lookup s.store) next.name (some next) name = some loaded :=
          hset ▸ hloaded
        by_cases hsame : name = next.name
        · rw [hsame, update_self] at hloaded'
          exact Option.some.inj hloaded' ▸ hnext
        · rw [update_of_ne hsame] at hloaded'
          exact horderly.sound.carried name loaded hloaded'

theorem fetch_effect (hrock : (config.worldEnv.items.item 0).fossilRock = 0) {now : Int}
    (horderly : Orderly config s) (hallowed : Allowed s (.fetch name now)) :
    atOnce config (fetch config name now s) =
        Effect.apply config (atOnce config s) (.load name now s.store.rands) ∧
      Orderly config (fetch config name now s) := by
  obtain ⟨hidle, hname, hfree⟩ := hallowed
  obtain ⟨hpresent, hsound⟩ := fetch_store hrock horderly.sound hname now
    (hfree.imp_right Free.keys)
  exact ⟨hpresent, horderly.withStore hidle hsound⟩

end Events

section Writers

variable {config : Config} {s t : State} {name : String}

/-- A text that reaches a file leaves the store in order. -/
theorem Sound.writeFile {store : Store} (hsound : Sound config store) {item : String × Json}
    (hitem : Readable config item.2) :
    Sound config { store with files := writeFile store.files item } := by
  refine ⟨hsound.named.of_worlds rfl, hsound.carried, ?_⟩
  intro other hother
  change WorldSaves.writeFile store.files item other = none ∨ ∃ json,
    WorldSaves.writeFile store.files item other = some (some json) ∧ Readable config json
  unfold WorldSaves.writeFile
  by_cases hsame : other = item.1
  · rw [hsame, update_self]
    exact Or.inr ⟨item.2, rfl, hitem⟩
  · rw [update_of_ne hsame]
    exact hsound.files other hother

/-- A file that is written is there, and others stay. -/
theorem writeFile_ne_none {files : String → Option (Option Json)} {item : String × Json}
    (hfile : files name ≠ none ∨ item.1 = name) : writeFile files item name ≠ none := by
  unfold writeFile
  by_cases hsame : name = item.1
  · rw [hsame, update_self]
    exact Option.some_ne_none _
  · rw [update_of_ne hsame]
    exact hfile.resolve_right (Ne.symm hsame)

/-- A step of a thread that writes: texts move on, and the same worlds are in memory. -/
structure Onward (s t : State) : Prop where
  address : t.address = s.address
  lookup : lookup t.store = lookup s.store
  held : ∀ item ∈ t.jsonData.toList, item ∈ s.jsonData.toList
  queued : ∀ item ∈ t.snap ++ t.queue, item ∈ s.snap ++ s.queue
  pushed : ∀ item ∈ pushed t, item ∈ pushed s
  reaches : ∀ name, Reaches s name → Reaches t name

theorem Free.of_mem {items others : List (String × Json)} (hfree : Free name others)
    (hsub : ∀ item ∈ items, item ∈ others) : Free name items :=
  fun item hitem => hfree item (hsub item hitem)

theorem Onward.apart (honward : Onward s t) (hapart : Apart s) : Apart t :=
  ⟨fun item hitem =>
    ⟨(hapart.held item (honward.held item hitem)).1.of_mem honward.queued,
      (hapart.held item (honward.held item hitem)).2.of_mem honward.pushed⟩,
    fun item hitem =>
      (hapart.queued item (honward.queued item hitem)).of_mem honward.pushed⟩

theorem Onward.addressSound (honward : Onward s t) (hsound : AddressSound s) :
    AddressSound t := by
  have hearlier : ∀ item ∈ t.jsonData.toList ++ (t.snap ++ t.queue),
      item ∈ s.jsonData.toList ++ (s.snap ++ s.queue) := by
    intro item hitem
    rcases List.mem_append.mp hitem with hheld | hqueued
    · exact List.mem_append_left _ (honward.held item hheld)
    · exact List.mem_append_right _ (honward.queued item hqueued)
  unfold AddressSound at hsound ⊢
  rw [honward.address, honward.lookup]
  split at hsound
  · trivial
  · exact ⟨hsound.1, fun name hname =>
      ⟨(hsound.2 name hname).1.of_mem honward.queued,
        (hsound.2 name hname).2.of_mem honward.pushed⟩⟩
  · exact ⟨hsound.1, fun name hname =>
      ⟨(hsound.2 name hname).1.of_mem hearlier,
        honward.reaches name (hsound.2 name hname).2.1, (hsound.2 name hname).2.2⟩⟩
  · exact hsound

/-- Such a step keeps the order, whatever it has written. -/
theorem Orderly.onward (horderly : Orderly config s) (honward : Onward s t)
    (hsound : Sound config t.store) (hrest : ∀ name ∈ t.worldSnap, Proper name) :
    Orderly config t := by
  refine ⟨hsound, ?_, honward.apart horderly.apart, hrest,
    honward.addressSound horderly.address⟩
  intro item hitem
  refine horderly.texts item ?_
  rcases List.mem_append.mp hitem with hearlier | hpushed
  · refine List.mem_append_left _ ?_
    rcases List.mem_append.mp hearlier with hheld | hqueued
    · exact List.mem_append_left _ (honward.held item hheld)
    · exact List.mem_append_right _ (honward.queued item hqueued)
  · exact List.mem_append_right _ (honward.pushed item hpushed)

theorem takeQueue_effect (horderly : Orderly config s) :
    atOnce config (takeQueue s) = atOnce config s ∧ Orderly config (takeQueue s) := by
  unfold takeQueue
  split
  · next hsnap =>
      have hqueued : s.snap ++ s.queue = s.queue ++ [] := by
        rw [hsnap, List.nil_append, List.append_nil]
      refine ⟨?_, horderly.onward ⟨rfl, rfl, fun _ h => h, fun _ h => hqueued ▸ h, fun _ h => h,
        fun _ h => h⟩ horderly.sound horderly.rest⟩
      unfold atOnce underWay
      dsimp only
      rw [hqueued]
      rfl
  · exact ⟨rfl, horderly⟩

/-- A queued text reaches its file. -/
theorem writeSnap_effect (horderly : Orderly config s) :
    atOnce config (writeSnap s) = atOnce config s ∧ Orderly config (writeSnap s) := by
  unfold writeSnap
  split
  · exact ⟨rfl, horderly⟩
  · next item rest hsnap =>
      have hway : underWay s =
          s.jsonData.toList ++ item :: ((rest ++ s.queue) ++ pushed s) := by
        simp only [underWay, hsnap, List.append_assoc, List.cons_append]
      have hfree : Free item.1 s.jsonData.toList := by
        intro other hother hsame
        have hothers := (horderly.apart.held other hother).1 item
        rw [hsnap] at hothers
        exact hothers List.mem_cons_self hsame.symm
      have hitem : Readable config item.2 := by
        refine horderly.texts item ?_
        rw [hway]
        exact List.mem_append_right _ List.mem_cons_self
      refine ⟨?_, horderly.onward ⟨rfl, rfl, fun _ h => h, ?_, fun _ h => h, ?_⟩
        (horderly.sound.writeFile hitem) horderly.rest⟩
      · unfold atOnce
        rw [hway, landed_head _ hfree, ← List.append_assoc]
        rfl
      · intro other hother
        rw [hsnap]
        exact List.mem_cons_of_mem _ hother
      · rintro name (hfile | hlater)
        · exact Or.inl (writeFile_ne_none (Or.inl hfile))
        · exact Or.inr hlater

theorem writeHeld_effect (horderly : Orderly config s) :
    atOnce config (writeHeld s) = atOnce config s ∧ Orderly config (writeHeld s) := by
  unfold writeHeld
  split
  · exact ⟨rfl, horderly⟩
  · next item hjson =>
      have hway : underWay s = [] ++ item :: ((s.snap ++ s.queue) ++ pushed s) := by
        unfold underWay
        rw [hjson]
        rfl
      have hitem : Readable config item.2 := by
        refine horderly.texts item ?_
        rw [hway]
        exact List.mem_cons_self
      refine ⟨?_, horderly.onward ⟨rfl, rfl, fun _ h => (by cases h), fun _ h => h, fun _ h => h,
        ?_⟩ (horderly.sound.writeFile hitem) horderly.rest⟩
      · unfold atOnce
        rw [hway, landed_head _ (List.forall_mem_nil _)]
        rfl
      · rintro name (hfile | hlater)
        · exact Or.inl (writeFile_ne_none (Or.inl hfile))
        · exact Or.inr hlater

theorem takeTask_effect (horderly : Orderly config s) :
    atOnce config (takeTask s) = atOnce config s ∧ Orderly config (takeTask s) := by
  unfold takeTask
  split
  · next item rest htask hqueue =>
      have hpushed : pushed s = item :: rest := by
        unfold pushed
        rw [htask, hqueue]
        rfl
      have hsame : pushed { s with task := some item, asyncQueue := rest } = pushed s :=
        hpushed.symm
      refine ⟨?_, horderly.onward ⟨rfl, rfl, fun _ h => h, fun _ h => h, fun _ h => hsame ▸ h, ?_⟩
        horderly.sound horderly.rest⟩
      · unfold atOnce underWay
        rw [hsame]
      · intro name hreaches
        unfold Reaches at hreaches ⊢
        rw [hsame]
        exact hreaches
  · exact ⟨rfl, horderly⟩

/-- A pushed text reaches its file. -/
theorem writeTask_effect (horderly : Orderly config s) :
    atOnce config (writeTask s) = atOnce config s ∧ Orderly config (writeTask s) := by
  unfold writeTask
  split
  · exact ⟨rfl, horderly⟩
  · next item htask =>
      have hpushed : pushed s = item :: s.asyncQueue := by
        unfold pushed
        rw [htask]
        rfl
      have hmem : item ∈ pushed s := hpushed ▸ List.mem_cons_self
      have hway : underWay s =
          (s.jsonData.toList ++ (s.snap ++ s.queue)) ++ item :: s.asyncQueue := by
        unfold underWay
        rw [hpushed]
      have hfree : Free item.1 (s.jsonData.toList ++ (s.snap ++ s.queue)) := by
        intro other hother hsame
        rcases List.mem_append.mp hother with hheld | hqueued
        · exact (horderly.apart.held other hheld).2 item hmem hsame.symm
        · exact horderly.apart.queued other hqueued item hmem hsame.symm
      have hitem : Readable config item.2 := by
        refine horderly.texts item ?_
        rw [hway]
        exact List.mem_append_right _ List.mem_cons_self
      refine ⟨?_, horderly.onward ⟨rfl, rfl, fun _ h => h, fun _ h => h, ?_, ?_⟩
        (horderly.sound.writeFile hitem) horderly.rest⟩
      · unfold atOnce
        rw [hway, landed_head _ hfree]
        rfl
      · intro other hother
        rw [hpushed]
        exact List.mem_cons_of_mem _ hother
      · rintro name (hfile | ⟨other, hother, hname⟩)
        · exact Or.inl (writeFile_ne_none (Or.inl hfile))
        · rw [hpushed] at hother
          rcases List.mem_cons.mp hother with rfl | hlater
          · exact Or.inl (writeFile_ne_none (Or.inr hname))
          · exact Or.inr ⟨other, hlater, hname⟩

theorem takeNames_effect (horderly : Orderly config s) :
    atOnce config (takeNames s) = atOnce config s ∧ Orderly config (takeNames s) := by
  unfold takeNames
  split
  · exact ⟨rfl, horderly.onward ⟨rfl, rfl, fun _ h => h, fun _ h => h, fun _ h => h,
      fun _ h => h⟩ horderly.sound horderly.sound.named.proper⟩
  · exact ⟨rfl, horderly⟩

/-- A world with changes is none of those that are being renamed: its text may be taken. -/
theorem AddressSound.serialise (haddress : AddressSound s) {wname : String}
    {world next : World} {store : Store} {json : Json} {rest : List String}
    (hat : lookup s.store wname = some world) (hfresh : world.freshWorld = true)
    (hlookup : lookup store = update (lookup s.store) wname (some next))
    (hfiles : store.files = s.store.files) :
    AddressSound { s with
      store := store, worldSnap := rest, jsonData := some (wname, json) } := by
  have hne : ∀ name, Stale (lookup s.store) name → name ≠ wname := by
    rintro name hstale rfl
    rw [hstale world hat] at hfresh
    cases hfresh
  have hstill : ∀ name, Stale (lookup s.store) name →
      Stale (update (lookup s.store) wname (some next)) name := by
    intro name hstale loaded hloaded
    rw [update_of_ne (hne name hstale)] at hloaded
    exact hstale loaded hloaded
  unfold AddressSound at haddress ⊢
  dsimp only
  rw [hlookup]
  split at haddress
  · trivial
  · exact haddress
  · refine ⟨haddress.1, fun name hname => ?_⟩
    obtain ⟨hothers, hreaches, hstale⟩ := haddress.2 name hname
    refine ⟨?_, hreaches.imp_left fun hfile => hfiles ▸ hfile, hstill name hstale⟩
    exact Free.append.mpr ⟨List.forall_mem_singleton.mpr (hne name hstale).symm,
      (Free.append.mp hothers).2⟩
  · exact ⟨haddress.1, fun name hname => hstill name (haddress.2 name hname)⟩

/-- `SaveDatabase::All` serialises the next world. -/
theorem serialise_effect (hrock : (config.worldEnv.items.item 0).fossilRock = 0)
    (horderly : Orderly config s) (hallowed : Allowed s .serialise) :
    atOnce config (serialise config s) = atOnce config s ∧
      Orderly config (serialise config s) := by
  unfold serialise
  split
  · next wname rest hnames hjsonData =>
      have hrest : ∀ name ∈ rest, Proper name := fun name hname =>
        horderly.rest name (hnames ▸ List.mem_cons_of_mem _ hname)
      split
      · exact ⟨rfl, horderly.onward ⟨rfl, rfl, fun _ h => h, fun _ h => h, fun _ h => h,
          fun _ h => h⟩ horderly.sound hrest⟩
      · have hname : Proper wname := horderly.rest wname (hnames ▸ List.mem_cons_self)
        have hsound := horderly.sound.save hname false
        have hway : underWay s = (s.snap ++ s.queue) ++ pushed s := by
          unfold underWay
          rw [hjsonData]
          rfl
        rcases save_cases horderly.sound hname false with
          ⟨hnot, hnone, hfiles, hlookup⟩ | ⟨world, json, hat, hsaves, htext, hjson, hfiles, hlookup⟩
        · rw [if_neg fun h => Bool.false_ne_true h.1] at hlookup
          dsimp only
          rw [hnone]
          refine ⟨?_, horderly.onward ⟨rfl, hlookup, fun _ h => (by cases h), fun _ h => h,
            fun _ h => h, ?_⟩ hsound hrest⟩
          · unfold atOnce
            dsimp only
            rw [hlookup, hfiles, hway]
            rfl
          · rintro name (hfile | hlater)
            · exact Or.inl (hfiles ▸ hfile)
            · exact Or.inr hlater
        · have hfresh := hsaves.resolve_right fun h => Bool.false_ne_true h.1
          obtain ⟨hqueued, hpushed⟩ := hallowed wname (by rw [hnames]; rfl) ⟨world, hat, hsaves⟩
          have hworld := horderly.sound.carried wname world hat
          have hfree : Free wname ((s.snap ++ s.queue) ++ pushed s) :=
            Free.append.mpr ⟨hqueued, hpushed⟩
          rw [if_neg fun h => Bool.false_ne_true h.1] at hlookup
          dsimp only
          rw [hjson, Option.map_some, hname.1]
          refine ⟨?_, hsound, ?_, ⟨?_, horderly.apart.queued⟩, hrest, ?_⟩
          · have hlanded := @landed_pushed wname json [] _ s.store.files hfree
            unfold atOnce
            dsimp only
            rw [hlookup, hfiles, hway]
            refine Eq.trans ?_ (present_saved hrock hname hat (lookup_name hat) hfresh hworld htext)
            exact congrArg (present config _) hlanded
          · intro item hitem
            rcases List.mem_cons.mp hitem with rfl | hold
            · exact ⟨world, htext, hworld⟩
            · exact horderly.texts item (hway ▸ hold)
          · intro item hitem
            obtain rfl := List.mem_singleton.mp hitem
            exact ⟨hqueued, hpushed⟩
          · exact horderly.address.serialise hat hfresh hlookup hfiles
  · exact ⟨rfl, horderly⟩

end Writers

section Renaming

variable {config : Config} {s : State} {name : String}

theorem writes_filter (p : String → Bool) (items : List (String × Json)) :
    writes (items.filter fun item => p item.1) =
      (writes items).filter fun write => p write.1 := by
  unfold writes
  rw [List.filter_map]
  rfl

theorem foldl_writeFile (files : String → Option (Option Json))
    (items : List (String × Json)) : items.foldl writeFile files = landed files (writes items) := by
  unfold writes landed
  rw [List.foldl_map]
  rfl

theorem Sound.writeFiles {store : Store} (items : List (String × Json))
    (hsound : Sound config store) (hitems : ∀ item ∈ items, Readable config item.2) :
    Sound config { store with files := items.foldl WorldSaves.writeFile store.files } := by
  induction items generalizing store with
  | nil => exact hsound
  | cons item rest ih =>
      exact ih (hsound.writeFile (hitems item List.mem_cons_self)) fun other hother =>
        hitems other (List.mem_cons_of_mem _ hother)

/-- The queued texts of two worlds can be written at once, unless older ones are on their
way past the queue. -/
theorem drain_effect (horderly : Orderly config s) {left right : String}
    (hswap : Swappable left right)
    (hfree : ∀ name ∈ [left, right], Free name (s.jsonData.toList ++ s.snap ++ pushed s))
    (peer : Nat) :
    atOnce config (addressDrain peer left right s) = atOnce config s ∧
      Orderly config (addressDrain peer left right s) := by
  let mine := fun file : String => file == left || file == right
  have hleft := (hswap.proper left List.mem_cons_self).1
  have hright := (hswap.proper right (List.mem_cons_of_mem _ List.mem_cons_self)).1
  have hdrain : addressDrain peer left right s = { s with
      store := { s.store with
        files := (s.queue.filter fun item => mine item.1).foldl writeFile s.store.files }
      queue := s.queue.filter fun item => !mine item.1
      address := .drained peer left right } := by
    unfold addressDrain
    rw [hleft.1, hright.1]
  have hmine : ∀ name, mine name = true ↔ name ∈ [left, right] := by
    intro name
    dsimp only [mine]
    rw [Bool.or_eq_true, beq_iff_eq, beq_iff_eq, List.mem_cons, List.mem_singleton]
  have hothers : ∀ write ∈ writes (s.jsonData.toList ++ s.snap), mine write.1 = false := by
    intro write hwrite
    obtain ⟨item, hitem, rfl⟩ := List.mem_map.mp hwrite
    exact Bool.eq_false_iff.mpr fun hsame =>
      hfree item.1 ((hmine item.1).mp hsame) item (List.mem_append_left _ hitem) rfl
  have hlanded := landed_brought_forward s.store.files (writes (s.jsonData.toList ++ s.snap))
    (writes s.queue) mine hothers
  rw [← writes_filter, ← writes_filter fun file => !mine file, ← foldl_writeFile,
    ← writes_append, ← writes_append] at hlanded
  have hfewer : ∀ item ∈ s.snap ++ s.queue.filter (fun item => !mine item.1),
      item ∈ s.snap ++ s.queue := by
    intro item hitem
    rcases List.mem_append.mp hitem with hsnap | hqueued
    · exact List.mem_append_left _ hsnap
    · exact List.mem_append_right _ (List.mem_of_mem_filter hqueued)
  rw [hdrain]
  refine ⟨?_, ?_, ?_, ⟨?_, ?_⟩, horderly.rest, hswap, ?_⟩
  · have hall := congrArg (fun files => landed files (writes (pushed s))) hlanded
    rw [← landed_append, ← landed_append, ← writes_append, ← writes_append] at hall
    unfold atOnce underWay
    dsimp only
    rw [← List.append_assoc, ← List.append_assoc]
    exact congrArg (present config (lookup s.store)) hall
  · refine horderly.sound.writeFiles _ fun item hitem => horderly.texts item ?_
    refine List.mem_append_left _ (List.mem_append_right _ (List.mem_append_right _ ?_))
    exact List.mem_of_mem_filter hitem
  · intro item hitem
    refine horderly.texts item ?_
    rcases List.mem_append.mp hitem with hearlier | hpushed
    · refine List.mem_append_left _ ?_
      rcases List.mem_append.mp hearlier with hheld | hqueued
      · exact List.mem_append_left _ hheld
      · exact List.mem_append_right _ (hfewer item hqueued)
    · exact List.mem_append_right _ hpushed
  · intro item hitem
    obtain ⟨hqueue, hpushed⟩ := horderly.apart.held item hitem
    exact ⟨hqueue.of_mem hfewer, hpushed⟩
  · exact fun item hitem => horderly.apart.queued item (hfewer item hitem)
  · intro name hname
    obtain ⟨hearlier, hpushed⟩ := Free.append.mp (hfree name hname)
    refine ⟨Free.append.mpr ⟨(Free.append.mp hearlier).2, ?_⟩, hpushed⟩
    intro item hitem hsame
    have hnot := (List.mem_filter.mp hitem).2
    rw [hsame, (hmine name).mpr hname] at hnot
    cases hnot

theorem worldSwap_effect (horderly : Orderly config s) {peer : Nat} {cch : String}
    (hallowed : Allowed s (.worldSwap peer cch)) :
    atOnce config (worldSwap config peer cch s) = atOnce config s ∧
      Orderly config (worldSwap config peer cch s) := by
  obtain ⟨-, hnames⟩ := hallowed
  unfold worldSwap
  split
  · exact ⟨rfl, horderly⟩
  · next pl hpl =>
      dsimp only
      split
      · exact ⟨rfl, horderly⟩
      · next world_ hat =>
          split
          · exact ⟨rfl, horderly⟩
          split
          · exact ⟨rfl, horderly⟩
          · next hchecked =>
              obtain ⟨hblast, hother⟩ := not_or.mp hchecked
              have hworld := proper_of_checkBlast (Bool.not_eq_false _ ▸ hblast)
              have hcurrent : Proper pl.world := by
                refine horderly.sound.named.proper _ ?_
                by_contra hnot
                rw [lookup_eq_none_iff.mpr hnot] at hat
                cases hat
              have hboth := hnames pl hpl
              rw [hworld.toUpper, hcurrent.toUpper]
              refine drain_effect horderly ⟨Ne.symm hother, ?_⟩ (fun name hname =>
                (hboth name hname).2) peer
              intro name hname
              refine ⟨?_, (hboth name hname).1⟩
              rcases List.mem_cons.mp hname with rfl | hlast
              · exact hworld
              · rw [List.mem_singleton.mp hlast]
                exact hcurrent

/-- Taking an item touches the player alone. -/
theorem modify_taking (env : Env) (worlds : List World) (now : Int) (rands : Nat → Nat)
    {pl : Player} (hslots : SlotInv pl.inv) (hconvert : pl.autoConvert = false) (i : Int) :
    ∃ next, (modify env ⟨pl, worlds, now, rands⟩ i (-1) false).session =
      ⟨next, worlds, now, rands⟩ := by
  by_cases haccepts : Accepts env i
  · by_cases hinfinite : pl.infiniteMode = true
    · exact ⟨pl, modify_infinite false hinfinite (by decide)⟩
    · have hplain := @modify_plain env ⟨pl, worlds, now, rands⟩ i (-1) false hslots haccepts
        (Or.inl hconvert) (Or.inl (by decide)) fun h => hinfinite h.1
      rcases hplain with ⟨next, left, hmodify, -⟩ | ⟨left, hmodify, -⟩
      · exact ⟨next, by rw [hmodify]⟩
      · exact ⟨pl, by rw [hmodify]⟩
  · exact ⟨pl, by rw [modify_not_accepted haccepts]⟩

theorem apply_rewrite (t : AtOnce) (name : String) :
    Effect.apply config t (.rewrite name) = ⟨t.memory, match t.memory name with
      | none => t.disk
      | some world => update t.disk name (some (stored config.worldEnv world))⟩ := by
  unfold Effect.apply
  dsimp only
  split <;> rfl

theorem rewrite_comm (t : AtOnce) {left right : String} (hne : left ≠ right) :
    Effect.apply config (Effect.apply config t (.rewrite right)) (.rewrite left) =
      Effect.apply config (Effect.apply config t (.rewrite left)) (.rewrite right) := by
  rw [apply_rewrite t right, apply_rewrite t left, apply_rewrite, apply_rewrite]
  dsimp only
  cases t.memory left with
  | none => rfl
  | some world =>
      cases t.memory right with
      | none => rfl
      | some other =>
          dsimp only
          rw [update_comm hne.symm]

theorem lookup_markFresh (name : String) (store : Store) :
    lookup (markFresh name store) = update (lookup store) name
      ((lookup store name).map fun world : World => { world with freshWorld := true }) :=
  entryAt_mapAt name fun _ hentry => hentry

theorem names_markFresh (name : String) (store : Store) :
    (markFresh name store).names = store.names := by
  unfold Store.names markFresh
  dsimp only
  rw [List.map_map]
  refine List.map_congr_left fun world _ => ?_
  dsimp only [comp_apply]
  split <;> rfl

theorem Sound.markFresh (hsound : Sound config s.store) (name : String) :
    Sound config (WorldSaves.markFresh name s.store) := by
  refine ⟨hsound.named.sublist (names_markFresh name s.store ▸ List.Sublist.refl _), ?_,
    hsound.files⟩
  intro other loaded hloaded
  rw [lookup_markFresh] at hloaded
  by_cases hother : other = name
  · rw [hother, update_self] at hloaded
    obtain ⟨world, hat, rfl⟩ := Option.map_eq_some_iff.mp hloaded
    have hworld := hsound.carried name world hat
    exact ⟨⟨hworld.numbers.ghosts, hworld.numbers.npc, hworld.numbers.texts⟩, hworld.rows⟩
  · rw [update_of_ne hother] at hloaded
    exact hsound.carried other loaded hloaded

/-- One forced save: the world is pushed as it is, and stays. -/
theorem forceSave_effect (hrock : (config.worldEnv.items.item 0).fossilRock = 0)
    (horderly : Orderly config s) (hidle : s.address = .idle) (hname : Proper name)
    {world : World} (hat : lookup s.store name = some world)
    (hheld : Free name s.jsonData.toList) (hqueue : Free name (s.snap ++ s.queue)) :
    let t := forceSave config name s
    atOnce config t = Effect.apply config (atOnce config s) (.rewrite name) ∧
      Orderly config t ∧
      t = { s with store := t.store, asyncQueue := t.asyncQueue } ∧
      lookup t.store = update (lookup s.store) name (some (shown config.worldEnv world)) ∧
      Reaches t name ∧ ∀ other, Reaches s other → Reaches t other := by
  intro t
  let fresh : World := { world with freshWorld := true }
  let marked := markFresh name s.store
  have hsound : Sound config marked := horderly.sound.markFresh name
  have hmarked : lookup marked = update (lookup s.store) name (some fresh) := by
    rw [lookup_markFresh, hat]
    rfl
  have hfound : lookup marked name = some fresh := by rw [hmarked, update_self]
  have hkey : fresh.name = name := lookup_name hfound
  have hcarried : Carried fresh := hsound.carried name fresh hfound
  have hend := hsound.save hname false
  obtain ⟨json, htext, hjson, hfiles, hlookup⟩ :=
    @save_written config.worldEnv _ _ _ hsound.named hname hfound hcarried.numbers.texts false
      (Or.inl rfl)
  rw [if_neg fun h => Bool.false_ne_true h.1, hmarked, update_idem] at hlookup
  have hshown : shown config.worldEnv fresh = shown config.worldEnv world := rfl
  have hstored : stored config.worldEnv fresh = stored config.worldEnv world := rfl
  rw [hshown] at hlookup
  have hsaved : t = { s with
      store := (Store.saveWorld config.worldEnv name false true marked).2
      asyncQueue := s.asyncQueue ++ [(name, json)] } := by
    change save config name false { s with store := marked } = _
    rw [save_eq _ hname]
    dsimp only
    rw [hjson]
    rfl
  have hpushed : pushed t = pushed s ++ [(name, json)] := by
    rw [hsaved]
    exact (List.append_assoc _ _ _).symm
  have hmemory : (atOnce config s).memory name = some (shown config.worldEnv world) :=
    present_memory hat
  refine ⟨?_, ?_, ?_, ?_, Or.inr ⟨(name, json), ?_, rfl⟩, ?_⟩
  · have hvalue : ∀ loaded, some (shown config.worldEnv world) = some loaded →
        loaded.freshWorld = false := by
      rintro loaded ⟨⟩
      rfl
    have hpresent := @present_written config (lookup s.store)
      (landed s.store.files (writes (underWay s))) name fresh json hrock hname hkey hcarried
      htext _ hvalue
    have hfiles' : (Store.saveWorld config.worldEnv name false true marked).2.files =
        s.store.files := hfiles
    rw [apply_rewrite, hmemory]
    rw [hsaved]
    unfold atOnce
    rw [underWay_pushed, landed_pushed _ (List.forall_mem_nil _), List.append_nil]
    dsimp only
    rw [hlookup, hfiles', hpresent, hstored, stored_shown, Option.map_some, shown_shown]
    have hsame : (present config (lookup s.store)
        (landed s.store.files (writes (underWay s)))).memory name =
          some (shown config.worldEnv world) := hmemory
    rw [← hsame, update_eq_self]
  · rw [hsaved]
    exact horderly.push hend ⟨fresh, htext, hcarried⟩ hheld hqueue (.idle hidle)
  · rw [hsaved]
  · rw [hsaved]
    exact hlookup
  · rw [hpushed]
    exact List.mem_append_right _ (List.mem_singleton_self _)
  · rintro other (hfile | ⟨item, hitem, hsame⟩)
    · refine Or.inl ?_
      rw [hsaved]
      exact hfiles.symm ▸ hfile
    · refine Or.inr ⟨item, ?_, hsame⟩
      rw [hpushed]
      exact List.mem_append_left _ hitem

/-- Two turns of the loop, for two worlds that are loaded. -/
theorem forceSave_twice (hrock : (config.worldEnv.items.item 0).fossilRock = 0)
    (horderly : Orderly config s) (hidle : s.address = .idle) {first second : String}
    (hne : first ≠ second) (hproper : ∀ name ∈ [first, second], Proper name)
    (hloaded : ∀ name ∈ [first, second], lookup s.store name ≠ none)
    (hfree : ∀ name ∈ [first, second],
      Free name s.jsonData.toList ∧ Free name (s.snap ++ s.queue)) :
    let t := forceSave config second (forceSave config first s)
    atOnce config t = Effect.apply config (Effect.apply config (atOnce config s)
        (.rewrite first)) (.rewrite second) ∧
      Orderly config t ∧ t = { s with store := t.store, asyncQueue := t.asyncQueue } ∧
      ∀ name ∈ [first, second], Reaches t name ∧ Stale (lookup t.store) name := by
  intro t
  have hfirst : first ∈ [first, second] := List.mem_cons_self
  have hsecond : second ∈ [first, second] := List.mem_cons_of_mem _ List.mem_cons_self
  obtain ⟨world, hat⟩ := Option.ne_none_iff_exists'.mp (hloaded first hfirst)
  obtain ⟨hheld, hqueue⟩ := hfree first hfirst
  obtain ⟨hmid, hmidOrderly, hmidSame, hmidLookup, hmidReaches, -⟩ := forceSave_effect hrock
    horderly hidle (hproper first hfirst) hat hheld hqueue
  obtain ⟨other, hother⟩ := Option.ne_none_iff_exists'.mp (hloaded second hsecond)
  have hat' : lookup (forceSave config first s).store second = some other := by
    rw [hmidLookup, update_of_ne hne.symm]
    exact hother
  have hidle' : (forceSave config first s).address = .idle := by
    rw [hmidSame]
    exact hidle
  have hfree' : Free second (forceSave config first s).jsonData.toList ∧
      Free second ((forceSave config first s).snap ++ (forceSave config first s).queue) := by
    rw [hmidSame]
    exact hfree second hsecond
  obtain ⟨hlast, hend, hsame, hlookup, hreaches, hkept⟩ := forceSave_effect hrock
    hmidOrderly hidle' (hproper second hsecond) hat' hfree'.1 hfree'.2
  refine ⟨hlast.trans (congrArg (fun t => Effect.apply config t _) hmid), hend, ?_, ?_⟩
  · have hfields : ∀ store queue, ({ forceSave config first s with
        store := store, asyncQueue := queue } : State) =
          { s with store := store, asyncQueue := queue } := by
      intro store queue
      rw [hmidSame]
    exact hsame.trans (hfields _ _)
  · intro name hname
    rcases List.mem_cons.mp hname with rfl | hone
    · refine ⟨hkept _ hmidReaches, fun loaded hloaded => ?_⟩
      rw [hlookup, update_of_ne hne, hmidLookup, update_self] at hloaded
      obtain rfl := Option.some.inj hloaded
      rfl
    · obtain rfl := List.mem_singleton.mp hone
      refine ⟨hreaches, fun loaded hloaded => ?_⟩
      rw [hlookup, update_self] at hloaded
      obtain rfl := Option.some.inj hloaded
      rfl

/-- The loop finds two worlds that are loaded once each, in some order. -/
theorem names_perm (hsound : Sound config s.store) {left right : String} (hne : left ≠ right)
    (hloaded : ∀ name ∈ [left, right], lookup s.store name ≠ none) :
    (s.store.names.filter fun name => name == right || name == left).Perm [left, right] := by
  refine (List.perm_ext_iff_of_nodup (hsound.named.nodup.filter _) ?_).mpr fun name => ?_
  · simpa using hne
  · rw [List.mem_filter, Bool.or_eq_true, beq_iff_eq, beq_iff_eq, List.mem_cons,
      List.mem_singleton]
    constructor
    · rintro ⟨-, hname⟩
      exact hname.symm
    · intro hname
      refine ⟨?_, hname.symm⟩
      by_contra hnot
      refine hloaded name ?_ (lookup_eq_none_iff.mpr hnot)
      rw [List.mem_cons, List.mem_singleton]
      exact hname

/-- The loop pushes both worlds, in whichever order they are loaded. -/
theorem forceSaves_effect (hrock : (config.worldEnv.items.item 0).fossilRock = 0)
    (horderly : Orderly config s) (hidle : s.address = .idle) {left right : String}
    (hswap : Swappable left right)
    (hloaded : ∀ name ∈ [left, right], lookup s.store name ≠ none)
    (hfree : ∀ name ∈ [left, right], Free name s.jsonData.toList ∧ Free name (s.snap ++ s.queue)) :
    let t := forceSaves config left right s
    atOnce config t = [Effect.rewrite left, Effect.rewrite right].foldl (Effect.apply config)
        (atOnce config s) ∧
      Orderly config t ∧ t = { s with store := t.store, asyncQueue := t.asyncQueue } ∧
      ∀ name ∈ [left, right], Reaches t name ∧ Stale (lookup t.store) name := by
  have hproper : ∀ name ∈ [left, right], Proper name := fun name hname =>
    (hswap.proper name hname).1
  have hturned : ∀ name, name ∈ [right, left] ↔ name ∈ [left, right] := fun name =>
    (List.Perm.swap left right []).mem_iff
  unfold forceSaves
  rcases List.perm_pair.mp (names_perm horderly.sound hswap.ne hloaded) with horder | horder
  · rw [horder]
    exact forceSave_twice hrock horderly hidle hswap.ne hproper hloaded hfree
  · rw [horder]
    obtain ⟨hpresent, hend, hsame, hboth⟩ := forceSave_twice hrock horderly hidle hswap.ne.symm
      (fun name hname => hproper name ((hturned name).mp hname))
      (fun name hname => hloaded name ((hturned name).mp hname))
      fun name hname => hfree name ((hturned name).mp hname)
    exact ⟨hpresent.trans (rewrite_comm _ hswap.ne), hend, hsame, fun name hname =>
      hboth name ((hturned name).mpr hname)⟩

/-- Either nothing but the loading happens, or both worlds are pushed. -/
theorem addressSave_cases {now : Int} {peer : Nat} {left right : String}
    (haddress : s.address = .drained peer left right)
    (hplayer : ∀ pl, s.players[peer]? = some pl → SlotInv pl.inv ∧ pl.autoConvert = false) :
    let loaded := fetch config left now { s with address := .idle }
    ∃ players, addressSave config now s = { loaded with players := players } ∨
      ((∀ name ∈ [left, right], lookup loaded.store name ≠ none) ∧
        addressSave config now s =
          { forceSaves config left right { loaded with players := players } with
            address := .saved left right }) := by
  intro loaded
  unfold addressSave
  rw [haddress]
  dsimp only
  split
  · next pl world_ cWorld_ hpl hat hother =>
      obtain ⟨hslots, hconvert⟩ := hplayer pl hpl
      obtain ⟨next, hsession⟩ := modify_taking config.env loaded.store.worlds now
        loaded.store.rands hslots hconvert 2580
      split
      · exact ⟨loaded.players, Or.inl rfl⟩
      · change ∃ players, (if (modify config.env ⟨pl, loaded.store.worlds, now,
          loaded.store.rands⟩ 2580 (-1) false).ret ≠ 0 then _ else _) = _ ∨ _
        rw [hsession]
        split
        · exact ⟨loaded.players.set peer next, Or.inl rfl⟩
        · refine ⟨loaded.players.set peer next, Or.inr ⟨?_, rfl⟩⟩
          intro name hname
          rcases List.mem_cons.mp hname with rfl | hlast
          · rw [hat]
            exact Option.some_ne_none _
          · rw [List.mem_singleton.mp hlast, hother]
            exact Option.some_ne_none _
  · exact ⟨loaded.players, Or.inl rfl⟩

theorem addressSave_effect (hrock : (config.worldEnv.items.item 0).fossilRock = 0) {now : Int}
    (horderly : Orderly config s) (hallowed : Allowed s (.addressSave now)) :
    atOnce config (addressSave config now s) =
        (effects config s (.addressSave now)).foldl (Effect.apply config) (atOnce config s) ∧
      Orderly config (addressSave config now s) := by
  have hphase := horderly.address
  unfold AddressSound at hphase
  split at hphase
  · next haddress =>
      unfold addressSave effects
      rw [haddress]
      exact ⟨rfl, horderly⟩
  · next peer left right haddress =>
      obtain ⟨hheld, hplayer⟩ := hallowed peer left right haddress
      obtain ⟨hswap, hothers⟩ := hphase
      have hleft : left ∈ [left, right] := List.mem_cons_self
      have hway : Free left (underWay s) := Free.append.mpr
        ⟨Free.append.mpr ⟨hheld left hleft, (hothers left hleft).1⟩, (hothers left hleft).2⟩
      obtain ⟨hload, hsound⟩ := fetch_store hrock horderly.sound (hswap.proper left hleft).1 now
        (Or.inr hway.keys)
      have hmid : ∀ players, Orderly config
          { fetch config left now { s with address := .idle } with players := players } :=
        fun _ => ⟨hsound, horderly.texts, ⟨horderly.apart.held, horderly.apart.queued⟩,
          horderly.rest, .idle rfl⟩
      obtain ⟨players, hrefused | ⟨hboth, hsaved⟩⟩ :=
        @addressSave_cases config s now peer left right haddress hplayer
      · have heffects : effects config s (.addressSave now) = [.load left now s.store.rands] := by
          unfold effects
          dsimp only
          rw [haddress, hrefused]
          rfl
        rw [heffects, hrefused]
        exact ⟨hload, hmid players⟩
      · have heffects : effects config s (.addressSave now) =
            [.load left now s.store.rands, .rewrite left, .rewrite right] := by
          unfold effects
          dsimp only
          rw [haddress, hsaved]
        obtain ⟨hpresent, hend, hsame, hpushed⟩ := forceSaves_effect hrock (hmid players) rfl
          hswap hboth fun name hname => ⟨hheld name hname, (hothers name hname).1⟩
        rw [heffects, hsaved]
        refine ⟨hpresent.trans (congrArg (fun t =>
          [Effect.rewrite left, .rewrite right].foldl (Effect.apply config) t) hload), hend.sound,
          hend.texts, ⟨hend.apart.held, hend.apart.queued⟩, hend.rest, hswap, ?_⟩
        intro name hname
        refine ⟨?_, hpushed name hname⟩
        dsimp only
        rw [hsame]
        exact Free.append.mpr ⟨hheld name hname, (hothers name hname).1⟩
  · next left right haddress =>
      unfold addressSave effects
      rw [haddress]
      exact ⟨rfl, horderly⟩
  · next left right haddress =>
      unfold addressSave effects
      rw [haddress]
      exact ⟨rfl, horderly⟩

theorem renameFile_eq {files : String → Option (Option Json)} {old new : String}
    {file : Option Json} (hfile : files old = some file) :
    renameFile old new files = update (update files old none) new (some file) := by
  unfold renameFile
  rw [hfile]

/-- The four renames exchange two files that are there. -/
theorem renamed_files {files : String → Option (Option Json)} {left right : String}
    (hswap : Swappable left right) (hfiles : ∀ name ∈ [left, right], files name ≠ none)
    (hname : Proper name) :
    renameFile ("t_" ++ left) right (renameFile ("t_" ++ right) left
        (renameFile left ("t_" ++ left) (renameFile right ("t_" ++ right) files))) name =
      if name = right then files left else if name = left then files right else files name := by
  have hmemLeft : left ∈ [left, right] := List.mem_cons_self
  have hmemRight : right ∈ [left, right] := List.mem_cons_of_mem _ List.mem_cons_self
  obtain ⟨leftFile, hleft⟩ := Option.ne_none_iff_exists'.mp (hfiles left hmemLeft)
  obtain ⟨rightFile, hright⟩ := Option.ne_none_iff_exists'.mp (hfiles right hmemRight)
  have hother : ∀ proper temporary, Proper proper → proper ≠ "t_" ++ temporary := by
    rintro proper temporary hproper rfl
    exact not_proper_temporary temporary hproper
  have hleftProper := (hswap.proper left hmemLeft).1
  have htemporaries : "t_" ++ left ≠ "t_" ++ right := fun hsame =>
    hswap.ne ((String.append_right_inj "t_").mp hsame)
  have hfirst := @renameFile_eq files right ("t_" ++ right) rightFile hright
  have hsecond : renameFile left ("t_" ++ left) (renameFile right ("t_" ++ right) files) =
      update (update (renameFile right ("t_" ++ right) files) left none) ("t_" ++ left)
        (some leftFile) := by
    refine renameFile_eq ?_
    rw [hfirst, update_of_ne (hother left right hleftProper), update_of_ne hswap.ne, hleft]
  have hthird : renameFile ("t_" ++ right) left
      (renameFile left ("t_" ++ left) (renameFile right ("t_" ++ right) files)) =
        update (update (renameFile left ("t_" ++ left) (renameFile right ("t_" ++ right) files))
          ("t_" ++ right) none) left (some rightFile) := by
    refine renameFile_eq ?_
    rw [hsecond, update_of_ne htemporaries.symm,
      update_of_ne (hother left right hleftProper).symm, hfirst, update_self]
  have hfourth : renameFile ("t_" ++ right) left
      (renameFile left ("t_" ++ left) (renameFile right ("t_" ++ right) files)) ("t_" ++ left) =
        some leftFile := by
    rw [hthird, update_of_ne (hother left left hleftProper).symm, update_of_ne htemporaries,
      hsecond, update_self]
  rw [renameFile_eq hfourth, hthird, hsecond, hfirst]
  by_cases hisRight : name = right
  · rw [if_pos hisRight, hisRight, update_self, hleft]
  · rw [if_neg hisRight, update_of_ne hisRight, update_of_ne (hother name left hname)]
    by_cases hisLeft : name = left
    · rw [if_pos hisLeft, hisLeft, update_self, hright]
    · rw [if_neg hisLeft, update_of_ne hisLeft, update_of_ne (hother name right hname),
        update_of_ne (hother name left hname), update_of_ne hisLeft,
        update_of_ne (hother name right hname), update_of_ne hisRight]

/-- A file that a world is saved in gives the world under every name. -/
theorem readFile_titled (hrock : (config.worldEnv.items.item 0).fossilRock = 0) {store : Store}
    (hsound : Sound config store) (hname : Proper name) (other : String) :
    readFile config other (store.files name) =
      (readFile config name (store.files name)).map (titled other) := by
  rcases hsound.files name hname with hfile | ⟨json, hfile, world, htext, hworld⟩
  · rw [hfile]
    rfl
  · rw [hfile, htext.read hworld hrock, htext.read hworld hrock]
    rfl

/-- Exchanging the files of two settled worlds exchanges what there is of them. -/
theorem diskOf_exchanged (hrock : (config.worldEnv.items.item 0).fossilRock = 0) {store : Store}
    (hsound : Sound config store) {left right : String} (hswap : Swappable left right)
    {texts : List (String × Option (Option Json))} {files : String → Option (Option Json)}
    (hstale : ∀ name ∈ [left, right], Stale (lookup store) name)
    (hfree : ∀ name ∈ [left, right], name ∉ keys texts)
    (hfiles : ∀ name, Proper name → files name = if name = right then store.files left
      else if name = left then store.files right else store.files name) :
    let disk := diskOf config (lookup store) (landed store.files texts)
    diskOf config (lookup store) (landed files texts) =
      update (update disk left ((disk right).map (titled left))) right
        ((disk left).map (titled right)) := by
  intro disk
  have hmemLeft : left ∈ [left, right] := List.mem_cons_self
  have hmemRight : right ∈ [left, right] := List.mem_cons_of_mem _ List.mem_cons_self
  have hleft := (hswap.proper left hmemLeft).1
  have hright := (hswap.proper right hmemRight).1
  have hdisk : ∀ name ∈ [left, right], ∀ other,
      (disk name).map (titled other) = readFile config other (store.files name) := by
    intro name hname other
    have hproper := (hswap.proper name hname).1
    have hread := @diskOf_stale config (lookup store) (landed store.files texts) name hproper
      (hstale name hname)
    rw [landed_of_not_mem _ _ (hfree name hname)] at hread
    rw [readFile_titled hrock hsound hproper other, ← hread]
  funext name
  by_cases hisRight : name = right
  · subst hisRight
    rw [update_self, hdisk left hmemLeft, diskOf_stale hright (hstale name hmemRight),
      landed_of_not_mem _ _ (hfree name hmemRight), hfiles name hright, if_pos rfl]
  · rw [update_of_ne hisRight]
    by_cases hisLeft : name = left
    · subst hisLeft
      rw [update_self, hdisk right hmemRight, diskOf_stale hleft (hstale name hmemLeft),
        landed_of_not_mem _ _ (hfree name hmemLeft), hfiles name hleft, if_neg hisRight,
        if_pos rfl]
    · rw [update_of_ne hisLeft]
      by_cases hname : Proper name
      · refine diskOf_congr rfl (landed_congr _ _ ?_)
        rw [hfiles name hname, if_neg hisRight, if_neg hisLeft]
      · exact (diskOf_improper hname).trans (diskOf_improper hname).symm

/-- The two worlds change places on the disk, each under the other's name. -/
theorem addressRename_effect (hrock : (config.worldEnv.items.item 0).fossilRock = 0)
    (horderly : Orderly config s) (hallowed : Allowed s .addressRename) :
    atOnce config (addressRename s) =
        (effects config s .addressRename).foldl (Effect.apply config) (atOnce config s) ∧
      Orderly config (addressRename s) := by
  have hphase := horderly.address
  unfold AddressSound at hphase
  unfold addressRename effects
  dsimp only
  split at hphase
  · next haddress =>
      rw [haddress]
      exact ⟨rfl, horderly⟩
  · next peer left right haddress =>
      rw [haddress]
      exact ⟨rfl, horderly⟩
  · next left right haddress =>
      obtain ⟨hswap, hwaiting⟩ := hphase
      have hmemLeft : left ∈ [left, right] := List.mem_cons_self
      have hmemRight : right ∈ [left, right] := List.mem_cons_of_mem _ List.mem_cons_self
      have hleft := (hswap.proper left hmemLeft).1
      have hright := (hswap.proper right hmemRight).1
      have hstale : ∀ name ∈ [left, right], Stale (lookup s.store) name := fun name hname =>
        (hwaiting name hname).2.2
      have hfree : ∀ name ∈ [left, right], Free name (underWay s) := fun name hname =>
        Free.append.mpr ⟨(hwaiting name hname).1, hallowed left right haddress name hname⟩
      have hthere : ∀ name ∈ [left, right], s.store.files name ≠ none := by
        intro name hname
        rcases (hwaiting name hname).2.1 with hfile | ⟨item, hitem, hsame⟩
        · exact hfile
        · exact absurd hsame (hallowed left right haddress name hname item hitem)
      have hfiles := fun name (hname : Proper name) =>
        @renamed_files name s.store.files left right hswap hthere hname
      have hdisk := diskOf_exchanged hrock horderly.sound hswap hstale
        (fun name hname => (hfree name hname).keys) hfiles
      rw [haddress]
      dsimp only
      rw [hleft.1, hright.1]
      refine ⟨?_, ⟨horderly.sound.named.of_worlds rfl, horderly.sound.carried, ?_⟩, horderly.texts,
        ⟨horderly.apart.held, horderly.apart.queued⟩, horderly.rest, hswap, hstale⟩
      · exact congrArg (AtOnce.mk (atOnce config s).memory) hdisk
      · intro name hname
        dsimp only
        rw [hfiles name hname]
        split
        · exact horderly.sound.files left hleft
        split
        · exact horderly.sound.files right hright
        · exact horderly.sound.files name hname
  · next left right haddress =>
      rw [haddress]
      exact ⟨rfl, horderly⟩

/-- A world that is written already leaves without a text. -/
theorem leave_settled (hsound : Sound config s.store) (hname : Proper name)
    (hcarnival : name ≠ "CARNIVAL") (hstale : Stale (lookup s.store) name) :
    let t := leave config name s
    t = { s with store := t.store } ∧ t.store.files = s.store.files ∧ Sound config t.store ∧
      lookup t.store = update (lookup s.store) name none := by
  intro t
  have hend := hsound.save hname true
  rcases save_cases hsound hname true with
    ⟨-, hnone, hfiles, hlookup⟩ | ⟨world, json, hat, hsaves, -⟩
  · rw [if_pos ⟨rfl, hcarnival⟩] at hlookup
    have hleft : t = { s with
        store := (Store.saveWorld config.worldEnv name true true s.store).2 } := by
      refine (leave_eq s hname).trans ?_
      rw [hnone, Option.map_none, Option.toList_none, List.append_nil]
    rw [hleft]
    exact ⟨rfl, hfiles, hend, hlookup⟩
  · rcases hsaves with hfresh | ⟨-, hsame⟩
    · rw [hstale world hat] at hfresh
      cases hfresh
    · exact absurd hsame hcarnival

/-- The players of two settled worlds leave them. -/
theorem leave_all {left right : String} (hswap : Swappable left right) (emptied : List String)
    (hnames : ∀ name ∈ emptied, name = left ∨ name = right) (hsound : Sound config s.store)
    (hstale : ∀ name ∈ [left, right], Stale (lookup s.store) name) :
    let t := emptied.foldl (fun s name => leave config name s) s
    t = { s with store := t.store } ∧ t.store.files = s.store.files ∧ Sound config t.store ∧
      ∀ name, name ∉ [left, right] → lookup t.store name = lookup s.store name := by
  induction emptied generalizing s with
  | nil => exact ⟨rfl, rfl, hsound, fun _ _ => rfl⟩
  | cons head rest ih =>
      have hhead : head ∈ [left, right] := by
        rw [List.mem_cons, List.mem_singleton]
        exact hnames head List.mem_cons_self
      obtain ⟨hproper, hcarnival⟩ := hswap.proper head hhead
      obtain ⟨hsame, hfiles, hmid, hlookup⟩ :=
        leave_settled hsound hproper hcarnival (hstale head hhead)
      have hstill : ∀ name ∈ [left, right],
          Stale (lookup (leave config head s).store) name := by
        intro name hname world hat
        rw [hlookup] at hat
        by_cases hgone : name = head
        · rw [hgone, update_self] at hat
          cases hat
        · rw [update_of_ne hgone] at hat
          exact hstale name hname world hat
      obtain ⟨hsame', hfiles', hend, hothers⟩ := ih
        (fun name hname => hnames name (List.mem_cons_of_mem _ hname)) hmid hstill
      have hfields : ∀ store, ({ leave config head s with store := store } : State) =
          { s with store := store } := by
        intro store
        rw [hsame]
      refine ⟨hsame'.trans (hfields _), hfiles'.trans hfiles, hend, fun name hname => ?_⟩
      have hne : name ≠ head := fun hgone => hname (hgone.symm ▸ hhead)
      refine (hothers name hname).trans ?_
      rw [hlookup, update_of_ne hne]

/-- The two worlds are erased from the table. -/
theorem lookup_erased {gone : Store} {left right : String}
    (hothers : ∀ name, name ∉ [left, right] → lookup gone name = lookup s.store name) :
    lookup { gone with
      worlds := gone.worlds.filter fun world => !(world.name == right || world.name == left)
      worldsIdx := update (update gone.worldsIdx right none) left none } =
        update (update (lookup s.store) left none) right none := by
  funext name
  refine (entryAt_filter fun name => !(name == right || name == left)).trans ?_
  by_cases hisRight : name = right
  · rw [hisRight, update_self, beq_self_eq_true]
    rfl
  · rw [update_of_ne hisRight]
    by_cases hisLeft : name = left
    · rw [hisLeft, update_self, beq_self_eq_true, Bool.or_true]
      rfl
    · rw [update_of_ne hisLeft, beq_eq_false_iff_ne.mpr hisRight,
        beq_eq_false_iff_ne.mpr hisLeft]
      refine hothers name ?_
      rw [List.mem_cons, List.mem_singleton]
      exact fun h => h.elim hisLeft hisRight

theorem addressErase_effect {emptied : List String} (horderly : Orderly config s)
    (hallowed : Allowed s (.addressErase emptied)) :
    atOnce config (addressErase config emptied s) =
        (effects config s (.addressErase emptied)).foldl (Effect.apply config)
          (atOnce config s) ∧
      Orderly config (addressErase config emptied s) := by
  have hphase := horderly.address
  unfold AddressSound at hphase
  unfold addressErase effects
  dsimp only
  split at hphase
  · next haddress =>
      rw [haddress]
      exact ⟨rfl, horderly⟩
  · next peer left right haddress =>
      rw [haddress]
      exact ⟨rfl, horderly⟩
  · next left right haddress =>
      rw [haddress]
      exact ⟨rfl, horderly⟩
  · next left right haddress =>
      obtain ⟨hswap, hstale⟩ := hphase
      obtain ⟨hsame, hfiles, hend, hothers⟩ :=
        leave_all hswap emptied (hallowed left right haddress) horderly.sound hstale
      rw [haddress]
      dsimp only
      rw [hsame]
      dsimp only
      generalize (emptied.foldl (fun s name => leave config name s) s).store = gone at *
      have hlookup := lookup_erased hothers
      have hnone : ∀ world : World, (none : Option World) = some world →
          world.freshWorld = false := fun _ h => by cases h
      have hstaleRight : Stale (update (lookup s.store) left none) right := by
        intro world hat
        rw [update_of_ne hswap.ne.symm] at hat
        exact hstale right (List.mem_cons_of_mem _ List.mem_cons_self) world hat
      refine ⟨?_, ⟨?_, ?_, ?_⟩, horderly.texts,
        ⟨horderly.apart.held, horderly.apart.queued⟩, horderly.rest, .idle rfl⟩
      · unfold atOnce
        dsimp only
        rw [hlookup, hfiles]
        unfold present List.foldl List.foldl List.foldl Effect.apply
        dsimp only
        rw [diskOf_settle hstaleRight hnone,
          diskOf_settle (hstale left List.mem_cons_self) hnone, memory_update, memory_update]
        rfl
      · exact hend.named.sublist (List.filter_sublist.map World.name)
      · intro name world hat
        rw [hlookup] at hat
        by_cases hisRight : name = right
        · rw [hisRight, update_self] at hat
          cases hat
        · rw [update_of_ne hisRight] at hat
          by_cases hisLeft : name = left
          · rw [hisLeft, update_self] at hat
            cases hat
          · rw [update_of_ne hisLeft] at hat
            exact horderly.sound.carried name world hat
      · exact hend.files

end Renaming

section Runs

variable {config : Config} {s : State}

/-- One step. -/
theorem serve_effect (hrock : (config.worldEnv.items.item 0).fossilRock = 0)
    (horderly : Orderly config s) (event : Event) (hallowed : Allowed s event) :
    atOnce config (serve config s event) =
        (effects config s event).foldl (Effect.apply config) (atOnce config s) ∧
      Orderly config (serve config s event) := by
  cases event with
  | fetch name now => exact fetch_effect hrock horderly hallowed
  | edit next => exact edit_effect horderly hallowed
  | leave name => exact leave_effect hrock horderly hallowed
  | clean name => exact clean_effect hrock horderly hallowed
  | save name => exact save_effect hrock horderly hallowed
  | worldSwap peer cch => exact worldSwap_effect horderly hallowed
  | addressSave now => exact addressSave_effect hrock horderly hallowed
  | addressRename => exact addressRename_effect hrock horderly hallowed
  | addressErase emptied => exact addressErase_effect horderly hallowed
  | takeQueue => exact takeQueue_effect horderly
  | writeSnap => exact writeSnap_effect horderly
  | takeNames => exact takeNames_effect horderly
  | serialise => exact serialise_effect hrock horderly hallowed
  | writeHeld => exact writeHeld_effect horderly
  | takeTask => exact takeTask_effect horderly
  | writeTask => exact writeTask_effect horderly

theorem run_effect (hrock : (config.worldEnv.items.item 0).fossilRock = 0)
    (events : List Event) (horderly : Orderly config s) (hallowed : AllowedRun config s events) :
    atOnce config (events.foldl (serve config) s) =
        (history config s events).foldl (Effect.apply config) (atOnce config s) ∧
      Orderly config (events.foldl (serve config) s) := by
  induction events generalizing s with
  | nil => exact ⟨rfl, horderly⟩
  | cons event rest ih =>
      obtain ⟨hfirst, hrest⟩ := hallowed
      obtain ⟨hstep, hnext⟩ := serve_effect hrock horderly event hfirst
      obtain ⟨hrun, hend⟩ := ih hnext hrest
      refine ⟨?_, hend⟩
      rw [history, List.foldl_append, ← hstep]
      exact hrun

/-- In every run the four threads do to the worlds what one writer would that saves each
change at once; and when the texts have landed, a server that starts again finds in
every file what there is of the world. -/
theorem runs_write_at_once (hrock : (config.worldEnv.items.item 0).fossilRock = 0)
    (events : List Event) (horderly : Orderly config s) (hallowed : AllowedRun config s events) :
    let t := events.foldl (serve config) s
    atOnce config t = (history config s events).foldl (Effect.apply config) (atOnce config s) ∧
      Orderly config t ∧
      ∀ name now world, Free name (underWay t) → Stale (lookup t.store) name →
        (atOnce config t).disk name = some world →
        (Store.getWorld config.worldEnv now name (restart t.store)).1 =
          finished config.worldEnv now world := by
  intro t
  obtain ⟨hrun, hend⟩ := run_effect hrock events horderly hallowed
  refine ⟨hrun, hend, ?_⟩
  intro name now world hfree hstale hdisk
  by_cases hname : Proper name
  · have hread := @diskOf_stale config (lookup t.store)
      (landed t.store.files (writes (underWay t))) name hname hstale
    rw [landed_of_not_mem _ _ hfree.keys] at hread
    have hfile := hread.symm.trans hdisk
    rcases hend.sound.files name hname with hnone | ⟨json, hjson, source, htext, hsource⟩
    · rw [hnone] at hfile
      cases hfile
    · rw [hjson] at hfile
      have hworld := (htext.read hsource hrock name).symm.trans hfile
      obtain rfl := Option.some.inj hworld
      exact getWorld_restart hjson hfile
        (titled_carried (stored_carried hsource config.worldEnv) name).rows
  · rw [show (atOnce config t).disk name = none from diskOf_improper hname] at hdisk
    cases hdisk

/-- A run may be taken when every step may be in the state that the ones before leave. -/
theorem allowedRun_of_take (events : List Event)
    (hallowed : ∀ (n : Nat) (hn : n < events.length),
      Allowed ((events.take n).foldl (serve config) s) (events.get ⟨n, hn⟩)) :
    AllowedRun config s events := by
  induction events generalizing s with
  | nil => trivial
  | cons event rest ih =>
      refine ⟨hallowed 0 (Nat.zero_lt_succ _), ih fun n hn => ?_⟩
      exact hallowed (n + 1) (Nat.succ_lt_succ hn)

/-- Two worlds of Ann's, and one Change of Address. -/
def annsWorlds : State where
  store := { worlds := [
    { name := "START", ownerName := "ann", freshWorld := true, entryLevel := 3
      blocks := List.replicate 100 {} },
    { name := "FARM", ownerName := "ann", freshWorld := true, entryLevel := 7
      blocks := List.replicate 100 {} }] }
  players := [{ tankIDName := "Ann", world := "START", inv := [(2580, 1)] }]

/-- She swaps their names, and goes back into the first. -/
def annsSwap : List Event :=
  [.takeNames, .serialise, .writeHeld, .worldSwap 0 "name_box|farm", .addressSave 4,
    .takeTask, .writeTask, .takeTask, .writeTask, .addressRename, .addressErase ["START"],
    .fetch "START" 5]

def annsConfig : Config where
  worldEnv := { items := ⟨20298, fun _ => {}⟩ }
  env := { items := ⟨20298, fun _ => {}⟩ }

theorem annsWorlds_orderly : Orderly annsConfig annsWorlds where
  sound := by
    refine ⟨⟨by decide, ?_⟩, ?_, fun _ _ => Or.inl rfl⟩
    · intro name hname
      rcases List.mem_cons.mp hname with rfl | hlast
      · exact @proper_of_checkBlast annsConfig "START" rfl
      · rw [List.mem_singleton.mp hlast]
        exact @proper_of_checkBlast annsConfig "FARM" rfl
    · intro name world hat
      have hblank : Utf8 (List.flatMap WorldBlock.texts (List.replicate 100 {})) :=
        utf8_flatMap.mpr fun block hblock => List.eq_of_mem_replicate hblock ▸ (by decide)
      have hempty : world.ghosts = [] ∧ world.npc = [] ∧ world.blocks.length = 100 ∧
          Utf8 world.texts := by
        rcases List.mem_cons.mp (lookup_mem hat) with rfl | hlast
        · exact ⟨rfl, rfl, List.length_replicate, utf8_append.mpr ⟨by decide, hblank⟩⟩
        · rw [List.mem_singleton.mp hlast]
          exact ⟨rfl, rfl, List.length_replicate, utf8_append.mpr ⟨by decide, hblank⟩⟩
      obtain ⟨hghosts, hnpc, hrows, htexts⟩ := hempty
      refine ⟨⟨?_, ?_, htexts⟩, hrows.ge⟩
      · rw [hghosts]
        exact List.forall_mem_nil _
      · rw [hnpc]
        exact List.forall_mem_nil _
  texts := List.forall_mem_nil _
  apart := ⟨fun _ h => (by cases h), fun _ h => (by cases h)⟩
  rest := List.forall_mem_nil _
  address := trivial

/-- The server after some steps of the swap. -/
def annsState (n : Nat) : State := (annsSwap.take n).foldl (serve annsConfig) annsWorlds

/-- What the steps of the swap find, and what it ends in. -/
theorem annsSwap_states :
    ((annsState 3).address = .idle ∧
        ((annsState 3).players[0]?).map Player.world = some "START" ∧
        ∀ name ∈ ["FARM", "START"], name ≠ "CARNIVAL" ∧ ∀ item ∈ (annsState 3).jsonData.toList ++
          (annsState 3).snap ++ pushed (annsState 3), item.1 ≠ name) ∧
      ((annsState 4).address = .drained 0 "FARM" "START" ∧
        (annsState 4).jsonData.isNone = true ∧
        ((annsState 4).players[0]?).map (fun pl => (pl.inv, pl.autoConvert)) =
          some ([(2580, 1)], false)) ∧
      (pushed (annsState 9)).isEmpty = true ∧
      (annsState 10).address = .renamed "FARM" "START" ∧
      ((annsState 11).address = .idle ∧ (underWay (annsState 11)).isEmpty = true) ∧
      (annsState 12).address = .idle ∧
      ((((history annsConfig annsWorlds annsSwap).foldl (Effect.apply annsConfig)
        (atOnce annsConfig annsWorlds)).memory "START").map World.entryLevel = some 7 ∧
      (((history annsConfig annsWorlds annsSwap).foldl (Effect.apply annsConfig)
        (atOnce annsConfig annsWorlds)).disk "FARM").map World.entryLevel = some 3) := by
  decide +kernel

theorem annsSwap_allowed : AllowedRun annsConfig annsWorlds annsSwap := by
  obtain ⟨⟨hidle, hplayer, hfree⟩, ⟨hdrained, hheld, hbag⟩, hwritten, hrenamed,
    ⟨hback, hempty⟩, -⟩ := annsSwap_states
  have hnone : ∀ name, Free name [] := fun _ => List.forall_mem_nil _
  have hserialised : (annsState 1).snap = [] ∧ (annsState 1).queue = [] ∧
      (annsState 1).task = none ∧ (annsState 1).asyncQueue = [] := ⟨rfl, rfl, rfl, rfl⟩
  apply allowedRun_of_take
  intro n hn
  change Allowed (annsState n) _
  have hlt : n < 12 := hn
  interval_cases n
  · trivial
  · intro name _ _
    unfold pushed
    rw [hserialised.1, hserialised.2.1, hserialised.2.2.1, hserialised.2.2.2]
    exact ⟨hnone _, hnone _⟩
  · trivial
  · refine ⟨hidle, fun pl hpl name hname => hfree name ?_⟩
    rw [hpl, Option.map_some, Option.some_inj] at hplayer
    rw [hplayer] at hname
    exact hname
  · intro peer left right haddress
    obtain ⟨rfl, rfl, rfl⟩ := Address.drained.inj (hdrained.symm.trans haddress)
    rw [Option.isNone_iff_eq_none.mp hheld]
    refine ⟨fun _ _ => hnone _, fun pl hpl => ?_⟩
    rw [hpl, Option.map_some, Option.some_inj, Prod.mk.injEq] at hbag
    rw [hbag.1]
    exact ⟨by decide, hbag.2⟩
  · trivial
  · trivial
  · trivial
  · trivial
  · intro left right _ name _
    rw [List.isEmpty_iff.mp hwritten]
    exact hnone name
  · intro left right haddress name hname
    obtain ⟨rfl, rfl⟩ := Address.renamed.inj (hrenamed.symm.trans haddress)
    exact Or.inr (List.mem_singleton.mp hname)
  · refine ⟨hback, @proper_of_checkBlast annsConfig "START" rfl, Or.inr ?_⟩
    rw [List.isEmpty_iff.mp hempty]
    exact hnone "START"

/-- The names have changed places, and the worlds have kept what was in them. -/
theorem runs_write_at_once_annsSwap :
    let t := annsSwap.foldl (serve annsConfig) annsWorlds
    Orderly annsConfig t ∧ t.address = .idle ∧
      ((atOnce annsConfig t).memory "START").map World.entryLevel = some 7 ∧
      ((atOnce annsConfig t).disk "FARM").map World.entryLevel = some 3 := by
  obtain ⟨-, -, -, -, -, hidle, hmemory, hdisk⟩ := annsSwap_states
  obtain ⟨hrun, hend, -⟩ := runs_write_at_once rfl annsSwap annsWorlds_orderly annsSwap_allowed
  refine ⟨hend, hidle, ?_, ?_⟩
  · rw [hrun]
    exact hmemory
  · rw [hrun]
    exact hdisk

end Runs

end WorldSaves

end NopyServer
