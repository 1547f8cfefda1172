/-
The loaded worlds and the files they come from: `find_world`, `create_world`,
`get_world` and `save_world`.  A file holds a JSON value, or a text that is
none; writing is done when `save_world` returns.
-/
import NopyServer.Drop
import NopyServer.WorldFile
import NopyServer.WorldGenerator

namespace NopyServer

/-- What the functions on worlds read and never write. -/
structure WorldEnv where
  items : Items
  worldDefault : WorldDefault := {}
  wotdWorlds : List String := []

def plainWorldEnv : WorldEnv := { items := ⟨0, fun _ => {}⟩ }

/-- The loaded worlds, the index of their names and the files. -/
structure Store where
  worlds : List World := []
  worldsIdx : String → Option Nat := fun _ => none
  /-- The files by the name in their path. -/
  files : String → Option (Option Json) := fun _ => none
  rands : Nat → Nat := fun _ => 0

def sanitizeWorldName (name : String) : String :=
  let out := name.toList.filter fun c =>
    ('a' ≤ c && c ≤ 'z') || ('A' ≤ c && c ≤ 'Z') || ('0' ≤ c && c ≤ '9') ||
      c == '_' || c == '-'
  if out = [] then "WORLD" else String.ofList out

namespace Store

/-- `worlds_push_safe`, which registers the name. -/
def worldsPushSafe (world : World) (store : Store) : Store :=
  { store with
    worlds := store.worlds ++ [world]
    worldsIdx := Function.update store.worldsIdx world.name
      (some store.worlds.length) }

/-- `find_world`: the registered index where it still fits, else the first
world of the name up to case. -/
def findWorld (name : String) (store : Store) : Option Nat × Store :=
  let fits := fun i => match store.worlds[i]? with
    | some world => iequals world.name name
    | none => false
  if name = "" then (none, store)
  else
    match (store.worldsIdx name).filter fits with
    | some i => (some i, store)
    | none =>
        let found := store.worlds.findIdx? fun world => iequals world.name name
        (found, { store with
          worldsIdx := Function.update store.worldsIdx name found })

/-- `create_world(name, int)`: the new world is pushed and copied. -/
def createWorld (env : WorldEnv) (name : String) (s_ : Nat) (store : Store) :
    World × Store :=
  let made := plainWorld env.worldDefault name s_ store.rands
  (made.1, { store with rands := made.2 }.worldsPushSafe made.1)

def createSizedWorld (name : String) (width height : Int) (store : Store) :
    World × Store :=
  let made := sizedWorld name width height store.rands
  (made.1, { store with rands := made.2 }.worldsPushSafe made.1)

/-- The end of the loading of a world: the size, the last uid and the drops.  A
world too small for one row is created anew, which pushes it. -/
def finishWorld (env : WorldEnv) (now : Int) (world : World) (store : Store) :
    World × Store :=
  let maxY := world.blocks.length / 100
  let sized :=
    if maxY = 0 then createWorld env world.name 6000 store
    else
      ({ world with maxY := maxY, maxX := world.blocks.length / maxY }, store)
  let world := sized.1
  let totalDropUid := match world.dropNew.getLast? with
    | some entry => entry.uid
    | none => 0
  ({ world with
      totalDropUid := totalDropUid
      dropNew := autoClearOldWorldDrops now world.dropNew }, sized.2)

/-- `get_world`.  A file that cannot be read gives a created world, which has
been pushed already when it is pushed at the end. -/
def getWorld (env : WorldEnv) (now : Int) (name : String) (store : Store) :
    World × Store :=
  match store.worlds.find? fun world => world.name == name with
  | some world => (world, store)
  | none =>
      match store.files name with
      | none => createWorld env name 6000 store
      | some file =>
          let loaded := match file.bind (readWorld env.items name) with
            | some world => finishWorld env now world store
            | none => createWorld env name 6000 store
          (loaded.1, loaded.2.worldsPushSafe loaded.1)

def evict (i : Nat) (world : World) (store : Store) : Store :=
  { store with
    worlds := store.worlds.eraseIdx i
    worldsIdx := Function.update store.worldsIdx world.name none }

/-- The settings that are saved: a world of the day loses one. -/
def savedSettings (env : WorldEnv) (name : String) (settings : Int) : Int :=
  if env.wotdWorlds.contains name ∧ flagSet settings 2 then settings - 2
  else settings

/-- The part of `save_world` that writes.  The value goes to the caller or into
the file of the sanitized name. -/
def writeOut (env : WorldEnv) (name : String) (toCaller : Bool) (i : Nat)
    (world : World) (store : Store) : Option Json × Store :=
  let world := { world with
    worldSettings := savedSettings env name world.worldSettings }
  let written := writeWorld env.items store.rands world
  (if toCaller then some written.1 else none,
    { store with
      worlds := store.worlds.set i { world with freshWorld := false }
      files :=
        if toCaller then store.files
        else Function.update store.files (sanitizeWorldName name)
          (some (some written.1))
      rands := written.2 })

/-- What is left where `dump` throws: the settings are changed already. -/
def dumpThrows (env : WorldEnv) (name : String) (i : Nat) (world : World)
    (store : Store) : Store :=
  let world := { world with
    worldSettings := savedSettings env name world.worldSettings }
  { store with
    worlds := store.worlds.set i world
    rands := (writeWorld env.items store.rands world).2 }

/-- `save_world`, with `out_json` given or not. -/
def saveWorld (env : WorldEnv) (name : String) (erase toCaller : Bool)
    (store : Store) : Option Json × Store :=
  let found := findWorld name store
  match found.1.bind fun i => found.2.worlds[i]?.map (i, ·) with
  | none => (none, found.2)
  | some (i, world) =>
      if world.freshWorld = false ∧ erase = true ∧ name ≠ "CARNIVAL" then
        (none, found.2.evict i world)
      else if world.freshWorld = false ∧ erase = false then (none, found.2)
      else
        let written := writeWorld env.items found.2.rands { world with
          worldSettings := savedSettings env name world.worldSettings }
        if written.1.dumps = false then (none, dumpThrows env name i world found.2)
        else
          let out := writeOut env name toCaller i world found.2
          (out.1,
            if erase = true ∧ name ≠ "CARNIVAL" then out.2.evict i world
            else out.2)

end Store

end NopyServer
