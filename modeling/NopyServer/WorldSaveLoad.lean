/-
Saving a world and loading it again.  The file drops `last_lock`, the cycle of
an Infinity Machine that stands at zero, fruit from eight on, the ances of a
phone booth that wears nothing else and whatever of a cycle does not fit an
`int`; it carries no size, so that a world is cut into rows of about a hundred;
and it is written under the sanitized name and read under the full one.
-/
import NopyServer.WorldRoundTrip
import NopyServer.WorldStore

namespace NopyServer

open Json Store

/-- A world apart from what the file does not carry. -/
def persisted (world : World) : World :=
  { world with
    freshWorld := false, totalDropUid := 0, totalFires := 0
    activeJammers := [], npc := world.npc.map WorldNPC.kept }

/-- The world that should come back: tile types are cleaned up and expired
drops are gone. -/
def cleanedUp (items : Items) (now : Int) (world : World) : World :=
  { world with
    blocks := world.blocks.map fun block =>
      { block with fg := cleanFg items block.fg }
    dropNew := world.dropNew.filter fun entry => !entry.expired now }

/-- A server that starts again has the files only. -/
def restart (store : Store) : Store :=
  { store with worlds := [], worldsIdx := fun _ => none }

/-- What `get_world` gives after `save_world` and a restart. -/
def saveLoad (env : WorldEnv) (now : Int) (erase : Bool)
    (files : String → Option (Option Json)) (rands : Nat → Nat)
    (world : World) : World :=
  let store : Store := { worlds := [world], files := files, rands := rands }
  let saved := (saveWorld env world.name erase false store).2
  (getWorld env now world.name (restart saved)).1

/-- The world comes back, whatever the files held before. -/
def ComesBack (env : WorldEnv) (now : Int) (world : World) : Prop :=
  ∀ erase files rands, persisted (saveLoad env now erase files rands world) =
    persisted (cleanedUp env.items now world)

/-- What a block must be for the file to carry it. -/
structure BlockSurvives (items : Items) (guildId : Int) (block : WorldBlock) :
    Prop where
  infinity : block.infinityCycle ≠ 0 ∧ -(2 ^ 31) ≤ block.infinityCycle ∧
    block.infinityCycle < 2 ^ 31
  epoch : -(2 ^ 31) ≤ block.epochCycle ∧ block.epochCycle < 2 ^ 31
  fruit : block.fruit < 8
  opened : block.open_ = 0 ∨ block.open_ = 1
  guildLock : block.fg = 5814 → guildId = 0 →
    cleanFg items 242 = cleanFg items 5814
  ances : block.phoneb.cAnces ≠ 0 → block.phoneb.toMannequin.worn

/-- What a world must be for the file to carry it. -/
structure Survives (env : WorldEnv) (now : Int) (world : World) : Prop where
  fresh : world.freshWorld = true
  name : sanitizeWorldName world.name = world.name
  lastLock : world.lastLock = 0
  size : 100 ≤ world.maxX ∧ (world.maxX - 100) * world.maxY < 100
  settings : world.name ∈ env.wotdWorlds →
    flagSet world.worldSettings 2 = false
  drops : (world.dropNew.filter fun entry => !entry.expired now).length ≤ 500
  numbers : Writable world
  blocks : ∀ block ∈ world.blocks,
    BlockSurvives env.items world.guildId block

section Blocks

variable {items : Items} {guildId : Int} {block : WorldBlock}

theorem int32_eq_self_iff {n : Int} :
    int32 n = n ↔ -(2 ^ 31) ≤ n ∧ n < 2 ^ 31 := by
  constructor
  · intro hsame
    have hlow := @Int.le_bmod n (2 ^ 32) (by decide)
    have hhigh := @Int.bmod_lt n (2 ^ 32) (by decide)
    unfold int32 at hsame
    omega
  · rintro ⟨hlow, hhigh⟩
    exact int32_of_range hlow hhigh

theorem fruit_iff :
    (if block.fruit < 8 then block.fruit else 0) = block.fruit ↔
      block.fruit < 8 := by
  constructor
  · intro hsame
    by_contra hmany
    rw [if_neg hmany] at hsame
    exact hmany (hsame ▸ by decide)
  · exact fun hfew => if_pos hfew

theorem open_iff :
    (if block.open_ = 0 then 0 else 1) = block.open_ ↔
      block.open_ = 0 ∨ block.open_ = 1 := by
  split
  · next hzero => simp [hzero]
  · next hopen => simp [hopen, eq_comm]

theorem infinity_iff :
    (if block.infinityCycle = 0 then 10 else int32 block.infinityCycle) =
        block.infinityCycle ↔
      block.infinityCycle ≠ 0 ∧ -(2 ^ 31) ≤ block.infinityCycle ∧
        block.infinityCycle < 2 ^ 31 := by
  by_cases hzero : block.infinityCycle = 0
  · simp [hzero]
  · rw [if_neg hzero, int32_eq_self_iff]
    simp [hzero]

theorem phone_iff :
    (if block.phoneb.toMannequin.worn then block.phoneb else {}) =
        block.phoneb ↔
      (block.phoneb.cAnces ≠ 0 → block.phoneb.toMannequin.worn) := by
  by_cases hworn : block.phoneb.toMannequin.worn
  · simp [hworn]
  · rw [if_neg hworn]
    constructor
    · intro hsame hances
      exact absurd (congrArg Phonebooth.cAnces hsame).symm hances
    · intro himp
      have hances : block.phoneb.cAnces = 0 := by
        by_contra hne
        exact hworn (himp hne)
      have hbare := Mannequin.eq_default hworn
      cases hphone : block.phoneb with
      | mk mannequin ances =>
          rw [hphone] at hbare hances
          rw [← show mannequin = {} from hbare, ← show ances = 0 from hances]

theorem guildLock_iff :
    loadedFg items guildId block.fg = cleanFg items block.fg ↔
      (block.fg = 5814 → guildId = 0 →
        cleanFg items 242 = cleanFg items 5814) := by
  unfold loadedFg
  by_cases hlock : block.fg = 5814 ∧ guildId = 0
  · simp [hlock]
  · rw [if_neg hlock]
    simp only [true_iff]
    exact fun hfg hguild => absurd ⟨hfg, hguild⟩ hlock

/-- A block comes back exactly when it survives. -/
theorem reloadedBlock_eq_iff (hwl : int32 block.wl = block.wl) :
    reloadedBlock items guildId block =
        { block with fg := cleanFg items block.fg } ↔
      BlockSurvives items guildId block := by
  have hfields : reloadedBlock items guildId block =
      { block with fg := cleanFg items block.fg } ↔
      loadedFg items guildId block.fg = cleanFg items block.fg ∧
        (if block.open_ = 0 then 0 else 1) = block.open_ ∧
        (if block.fruit < 8 then block.fruit else 0) = block.fruit ∧
        (if block.phoneb.toMannequin.worn then block.phoneb else {}) =
          block.phoneb ∧
        int32 block.epochCycle = block.epochCycle ∧
        (if block.infinityCycle = 0 then 10 else int32 block.infinityCycle) =
          block.infinityCycle := by
    simp only [reloadedBlock, WorldBlock.mk.injEq, true_and, and_true, hwl]
  rw [hfields, guildLock_iff, open_iff, fruit_iff, phone_iff,
    int32_eq_self_iff, infinity_iff]
  constructor
  · rintro ⟨hguild, hopen, hfruit, hphone, hepoch, hinfinity⟩
    exact ⟨hinfinity, hepoch, hfruit, hopen, hguild, hphone⟩
  · rintro ⟨hinfinity, hepoch, hfruit, hopen, hguild, hphone⟩
    exact ⟨hguild, hopen, hfruit, hphone, hepoch, hinfinity⟩

end Blocks

section Worlds

variable {env : WorldEnv} {now : Int} {world : World}

/-- The size read off the number of blocks is the size of the world exactly for
rows of a hundred, or of slightly more in a low world. -/
theorem size_iff {n : Nat} {maxX maxY : Int} (hn : (n : Int) = maxX * maxY)
    (hy : 0 < maxY) :
    (((n / 100 : Nat) : Int) = maxY ∧ ((n / (n / 100) : Nat) : Int) = maxX) ↔
      100 ≤ maxX ∧ (maxX - 100) * maxY < 100 := by
  have hrest : (maxX - 100) * maxY = n - 100 * maxY := by
    rw [hn, Int.sub_mul]
  constructor
  · rintro ⟨hrows, -⟩
    have hle : 100 * maxY ≤ maxX * maxY := by omega
    exact ⟨Int.le_of_mul_le_mul_right hle hy, by omega⟩
  · rintro ⟨hwide, hlow⟩
    have hle : 100 * maxY ≤ maxX * maxY :=
      Int.mul_le_mul_of_nonneg_right hwide (Int.le_of_lt hy)
    have hrows : ((n / 100 : Nat) : Int) = maxY := by omega
    refine ⟨hrows, ?_⟩
    rw [Int.natCast_ediv, hrows, hn]
    exact Int.mul_ediv_cancel maxX (Int.ne_of_gt hy)

theorem autoClear_eq_iff (entries : List DropEntry) :
    autoClearOldWorldDrops now entries =
        entries.filter (fun entry => !entry.expired now) ↔
      (entries.filter fun entry => !entry.expired now).length ≤ 500 := by
  unfold autoClearOldWorldDrops
  generalize entries.filter (fun entry => !entry.expired now) = kept
  dsimp only
  constructor
  · intro hsame
    have hlength := congrArg List.length hsame
    rw [List.length_drop] at hlength
    omega
  · intro hfew
    rw [Nat.sub_eq_zero_of_le hfew, List.drop_zero]

theorem savedSettings_eq_iff {name : String} {settings : Int} :
    savedSettings env name settings = settings ↔
      (name ∈ env.wotdWorlds → flagSet settings 2 = false) := by
  unfold savedSettings
  split
  · next hset =>
      rw [List.contains_iff_mem] at hset
      simp [hset]
  · next hkeep =>
      rw [List.contains_iff_mem] at hkeep
      simpa using hkeep

/-- What the loader makes of the saved world. -/
def loadedWorld (env : WorldEnv) (now : Int) (world : World) : World :=
  let read := reloadedWorld env.items world.name
    { world with
      worldSettings := savedSettings env world.name world.worldSettings }
  (finishWorld env now read {}).1

/-- The saved world is the one that should come back exactly when it
survives. -/
theorem loadedWorld_eq_iff
    (hsize : (world.blocks.length : Int) = world.maxX * world.maxY)
    (hy : 0 < world.maxY)
    (hwl : ∀ block ∈ world.blocks, int32 block.wl = block.wl)
    (hrows : 100 ≤ world.blocks.length) :
    persisted (loadedWorld env now world) =
        persisted (cleanedUp env.items now world) ↔
      world.lastLock = 0 ∧
        (100 ≤ world.maxX ∧ (world.maxX - 100) * world.maxY < 100) ∧
        (world.name ∈ env.wotdWorlds →
          flagSet world.worldSettings 2 = false) ∧
        (world.dropNew.filter fun entry => !entry.expired now).length ≤ 500 ∧
        ∀ block ∈ world.blocks,
          BlockSurvives env.items world.guildId block := by
  have hpositive : world.blocks.length / 100 ≠ 0 := by omega
  have hnpc : (world.npc.map WorldNPC.kept).map WorldNPC.kept =
      world.npc.map WorldNPC.kept := by
    rw [List.map_map]
    rfl
  have hblocks : world.blocks.map (reloadedBlock env.items world.guildId) =
      world.blocks.map (fun block =>
        { block with fg := cleanFg env.items block.fg }) ↔
      ∀ block ∈ world.blocks,
        BlockSurvives env.items world.guildId block := by
    rw [List.map_inj_left]
    exact forall₂_congr fun block hblock =>
      reloadedBlock_eq_iff (hwl block hblock)
  rw [← size_iff hsize hy, ← savedSettings_eq_iff, ← autoClear_eq_iff,
    ← hblocks]
  simp only [persisted, cleanedUp, loadedWorld, finishWorld, reloadedWorld,
    List.length_map, hpositive, ↓reduceIte, World.mk.injEq, true_and, and_true,
    hnpc]
  constructor
  · rintro ⟨hb, hdrop, hlock, hset, hmaxX, hmaxY⟩
    exact ⟨hlock.symm, ⟨hmaxY, hmaxX⟩, hset, hdrop, hb⟩
  · rintro ⟨hlock, ⟨hmaxY, hmaxX⟩, hset, hdrop, hb⟩
    exact ⟨hb, hdrop, hlock.symm, hset, hmaxX, hmaxY⟩

end Worlds

section Files

variable {env : WorldEnv} {now : Int} {world : World} {erase : Bool}
  {files : String → Option (Option Json)} {rands : Nat → Nat}

/-- The only loaded world is found under its name. -/
theorem findWorld_single (hname : world.name ≠ "") :
    (findWorld world.name
      { worlds := [world], files := files, rands := rands }).1 = some 0 := by
  have hsame : iequals world.name world.name = true := by simp [iequals]
  simp [findWorld, hname, List.findIdx?_cons, hsame]

theorem findWorld_files (name : String) (store : Store) :
    (findWorld name store).2.files = store.files ∧
      (findWorld name store).2.rands = store.rands ∧
      (findWorld name store).2.worlds = store.worlds := by
  unfold findWorld
  dsimp only
  split
  · exact ⟨rfl, rfl, rfl⟩
  · split <;> exact ⟨rfl, rfl, rfl⟩

/-- A fresh world that JSON can write is written under its sanitized name. -/
theorem saveWorld_files (hname : world.name ≠ "")
    (hfresh : world.freshWorld = true) (htexts : Utf8 world.texts) :
    (saveWorld env world.name erase false
        { worlds := [world], files := files, rands := rands }).2.files =
      Function.update files (sanitizeWorldName world.name)
        (some (some (writeWorld env.items rands { world with
          worldSettings :=
            savedSettings env world.name world.worldSettings }).1)) := by
  obtain ⟨hfiles, hrands, hworlds⟩ := findWorld_files world.name
    { worlds := [world], files := files, rands := rands }
  have hchanged : world.freshWorld ≠ false := by simp [hfresh]
  unfold saveWorld
  dsimp only
  rw [findWorld_single hname, Option.bind_some, hworlds]
  simp only [List.getElem?_cons_zero, Option.map_some]
  rw [if_neg fun h => hchanged h.1, if_neg fun h => hchanged h.1,
    if_neg (Bool.not_eq_false _ ▸ (dumps_writeWorld _).mpr htexts)]
  split
  · change Function.update _ _ _ = _
    rw [hfiles, hrands]
  · change Function.update _ _ _ = _
    rw [hfiles, hrands]

/-- Without a name, unchanged since it was saved, or with a text that is not UTF-8, a
world is not written. -/
theorem saveWorld_files_stale
    (hstale : world.name = "" ∨ world.freshWorld = false ∨ ¬ Utf8 world.texts) :
    (saveWorld env world.name false false
        { worlds := [world], files := files, rands := rands }).2.files =
      files := by
  obtain ⟨hfiles, -, hworlds⟩ := findWorld_files world.name
    { worlds := [world], files := files, rands := rands }
  unfold saveWorld
  dsimp only
  by_cases hname : world.name = ""
  · have hnone : (findWorld world.name
        { worlds := [world], files := files, rands := rands }).1 = none := by
      simp [findWorld, hname]
    rw [hnone]
    exact hfiles
  · rw [findWorld_single hname, Option.bind_some, hworlds]
    simp only [List.getElem?_cons_zero, Option.map_some, Bool.false_eq_true, false_and,
      and_false, ↓reduceIte]
    by_cases hfresh : world.freshWorld = false
    · rw [if_pos ⟨hfresh, trivial⟩]
      exact hfiles
    · have htexts := (hstale.resolve_left hname).resolve_left hfresh
      rw [if_neg fun h => hfresh h.1, if_pos]
      · exact hfiles
      · exact Bool.eq_false_iff.mpr fun hdumps => htexts ((dumps_writeWorld _).mp hdumps)

theorem finishWorld_fst (store : Store) (hrows : 100 ≤ world.blocks.length) :
    (finishWorld env now world store).1 =
      (finishWorld env now world {}).1 := by
  have hpositive : world.blocks.length / 100 ≠ 0 := by omega
  unfold finishWorld
  dsimp only
  rw [if_neg hpositive, if_neg hpositive]

/-- Loading a file from which a world with a row can be read. -/
theorem getWorld_restart {store : Store} {name : String} {json : Json}
    (hfile : store.files name = some (some json))
    (hread : readWorld env.items name json = some world)
    (hrows : 100 ≤ world.blocks.length) :
    (getWorld env now name (restart store)).1 =
      (finishWorld env now world {}).1 := by
  have hsame : (restart store).files name = some (some json) := hfile
  unfold getWorld
  dsimp only [restart, List.find?_nil]
  rw [hfile]
  dsimp only
  rw [Option.bind_some, hread]
  exact finishWorld_fst _ hrows

/-- Loading a file that cannot be read, or has no row: the world is the one
that `create_world` makes. -/
theorem getWorld_restart_created {store : Store} {name : String} {json : Json}
    (hfile : store.files name = some (some json))
    (hread : ∀ read, readWorld env.items name json = some read →
      read.blocks.length < 100) :
    let loaded := (getWorld env now name (restart store)).1
    loaded.ghosts = [] ∧ loaded.npc = [] ∧ loaded.blocks.length = 6000 := by
  unfold getWorld
  dsimp only [restart, List.find?_nil]
  rw [hfile]
  dsimp only
  rw [Option.bind_some]
  cases hcase : readWorld env.items name json with
  | none => exact ⟨rfl, rfl, generateBlocks_length _ _ _ _⟩
  | some read =>
      have hnone : read.blocks.length / 100 = 0 := by
        have hfew := hread read hcase
        omega
      dsimp only [finishWorld]
      rw [if_pos hnone]
      exact ⟨rfl, rfl, generateBlocks_length _ _ _ _⟩

/-- The texts of a world that has none but those of its blocks. -/
theorem utf8_blank {blocks : List WorldBlock} (hblocks : ∀ block ∈ blocks, Utf8 block.texts) :
    Utf8 (["", "", "", "", ""] ++ blocks.flatMap WorldBlock.texts) :=
  utf8_append.mpr ⟨by decide, utf8_flatMap.mpr hblocks⟩

/-- Another world under the same name, told apart by its entry level. -/
def decoy (entryLevel : Int) : World :=
  { entryLevel := entryLevel, blocks := List.replicate 100 {} }

/-- Files that all hold that world. -/
def decoyFiles (items : Items) (entryLevel : Int) :
    String → Option (Option Json) :=
  fun _ => some (some (writeWorld items (fun _ => 0) (decoy entryLevel)).1)

theorem getWorld_decoy (hrock : (env.items.item 0).fossilRock = 0)
    {store : Store} {name : String} {entryLevel : Int}
    (hfile : store.files name = decoyFiles env.items entryLevel name) :
    (getWorld env now name (restart store)).1.entryLevel = entryLevel := by
  have hwritable : Writable (decoy entryLevel) := by
    refine ⟨fun _ h => absurd h List.not_mem_nil, fun _ h => absurd h List.not_mem_nil,
      utf8_blank fun block hblock => ?_⟩
    rw [List.eq_of_mem_replicate hblock]
    decide
  have hrows : 100 ≤
      (reloadedWorld env.items name (decoy entryLevel)).blocks.length := by
    simp [reloadedWorld, decoy]
  rw [getWorld_restart hfile (readWorld_written hrock hwritable name) hrows]
  have hpositive : (reloadedWorld env.items name
      (decoy entryLevel)).blocks.length / 100 ≠ 0 := by omega
  unfold finishWorld
  dsimp only
  rw [if_neg hpositive]
  rfl

/-- A world that comes back is written, and under its own name. -/
theorem ComesBack.written (hrock : (env.items.item 0).fossilRock = 0)
    (hback : ComesBack env now world) :
    world.freshWorld = true ∧ sanitizeWorldName world.name = world.name ∧
      Utf8 world.texts := by
  by_contra hlost
  have hfile : (saveWorld env world.name false false
      { worlds := [world]
        files := decoyFiles env.items (world.entryLevel + 1)
        rands := fun _ => 0 }).2.files world.name =
      decoyFiles env.items (world.entryLevel + 1) world.name := by
    by_cases hstale : world.name = "" ∨ world.freshWorld = false ∨ ¬ Utf8 world.texts
    · rw [saveWorld_files_stale hstale]
    · rw [not_or, not_or, not_not, Bool.not_eq_false] at hstale
      obtain ⟨hname, hfresh, htexts⟩ := hstale
      have hother : world.name ≠ sanitizeWorldName world.name := fun hsame =>
        hlost ⟨hfresh, hsame.symm, htexts⟩
      rw [saveWorld_files hname hfresh htexts, Function.update_of_ne hother]
  have hsame := congrArg World.entryLevel
    (hback false (decoyFiles env.items (world.entryLevel + 1)) fun _ => 0)
  have hdecoy : (saveLoad env now false
      (decoyFiles env.items (world.entryLevel + 1)) (fun _ => 0)
      world).entryLevel = world.entryLevel + 1 := getWorld_decoy hrock hfile
  have hboth : world.entryLevel + 1 = world.entryLevel :=
    hdecoy.symm.trans hsame
  omega

/-- What is in the file of a world that is written under its own name. -/
theorem saved_file (hfresh : world.freshWorld = true)
    (hname : sanitizeWorldName world.name = world.name) (htexts : Utf8 world.texts) :
    (saveWorld env world.name erase false
        { worlds := [world], files := files, rands := rands }).2.files
        world.name =
      some (some (writeWorld env.items rands { world with
        worldSettings :=
          savedSettings env world.name world.worldSettings }).1) := by
  have hnonempty : world.name ≠ "" := by
    intro hempty
    rw [hempty] at hname
    exact absurd hname (by decide)
  rw [saveWorld_files hnonempty hfresh htexts, hname, Function.update_self]

/-- A world that can be written and that has a row is loaded. -/
theorem saveLoad_eq (hrock : (env.items.item 0).fossilRock = 0)
    (hfresh : world.freshWorld = true)
    (hname : sanitizeWorldName world.name = world.name)
    (hnumbers : Writable world) (hrows : 100 ≤ world.blocks.length) :
    saveLoad env now erase files rands world = loadedWorld env now world := by
  have hwritable : Writable { world with
      worldSettings := savedSettings env world.name world.worldSettings } :=
    ⟨hnumbers.ghosts, hnumbers.npc, hnumbers.texts⟩
  refine getWorld_restart (saved_file hfresh hname hnumbers.texts)
    (readWorld_written hrock hwritable world.name) ?_
  simpa [reloadedWorld] using hrows

/-- The worlds that a server can hold: their blocks fill their size, and the
earnings of their machines are `int`s. -/
structure Held (world : World) : Prop where
  size : (world.blocks.length : Int) = world.maxX * world.maxY
  rows : 0 < world.maxY
  wl : ∀ block ∈ world.blocks, int32 block.wl = block.wl

section Necessity

variable (hrock : (env.items.item 0).fossilRock = 0)
  (hback : ComesBack env now world) (hfresh : world.freshWorld = true)
  (hname : sanitizeWorldName world.name = world.name) (htexts : Utf8 world.texts)

include hrock hback hfresh hname htexts

/-- A world that comes back has no number that JSON cannot write: its file
would be rejected, and a created world has neither ghosts nor NPCs. -/
theorem ComesBack.numbers : Writable world := by
  by_contra hnot
  have hfile := @saved_file env world false (fun _ => none) (fun _ => 0)
    hfresh hname htexts
  have hsame := hback false (fun _ => none) fun _ => 0
  have hnone := @readWorld_not_finite env.items (fun _ => 0)
    { world with
      worldSettings := savedSettings env world.name world.worldSettings }
    hrock (fun h => hnot ⟨h.1, h.2, htexts⟩) world.name
  obtain ⟨hghosts, hnpc, -⟩ := @getWorld_restart_created env now _ _ _
    hfile fun read hread => by
      rw [hnone] at hread
      cases hread
  have hnoGhosts : world.ghosts = [] :=
    (congrArg World.ghosts hsame).symm.trans hghosts
  have hnoNpc : world.npc.map WorldNPC.kept = [] :=
    (congrArg World.npc hsame).symm.trans
      (congrArg (List.map WorldNPC.kept) hnpc)
  refine hnot ⟨?_, ?_, htexts⟩
  · rw [hnoGhosts]
    exact fun _ h => absurd h List.not_mem_nil
  · rw [List.map_eq_nil_iff.mp hnoNpc]
    exact fun _ h => absurd h List.not_mem_nil

/-- A world that comes back has a row: a smaller one would be created anew,
with six thousand blocks. -/
theorem ComesBack.rows : 100 ≤ world.blocks.length := by
  by_contra hfew
  have hnumbers := hback.numbers hrock hfresh hname htexts
  have hfile := @saved_file env world false (fun _ => none) (fun _ => 0)
    hfresh hname htexts
  have hread := @readWorld_written env.items (fun _ => 0)
    { world with
      worldSettings := savedSettings env world.name world.worldSettings }
    hrock ⟨hnumbers.ghosts, hnumbers.npc, htexts⟩ world.name
  obtain ⟨-, -, hmany⟩ := @getWorld_restart_created env now _ _ _ hfile
    fun read hother => by
      rw [hread] at hother
      rw [← Option.some.inj hother]
      simpa [reloadedWorld] using hfew
  have hlength := congrArg (fun world : World => world.blocks.length)
    (hback false (fun _ => none) fun _ => 0)
  have hcount : (saveLoad env now false (fun _ => none) (fun _ => 0)
      world).blocks.length = world.blocks.length := by
    simpa [persisted, cleanedUp] using hlength
  have hboth : world.blocks.length = 6000 := hcount.symm.trans hmany
  omega

end Necessity

end Files

section Created

theorem sizedBlock_wl (height doorX x y : Int) (rands : Nat → Nat) :
    (sizedBlock height doorX x y rands).1.wl = 0 := by
  unfold sizedBlock
  dsimp only
  split_ifs <;> rfl

/-- A world made by the overloads with a width and a height. -/
theorem sizedWorld_held (name : String) (width height : Int)
    (rands : Nat → Nat) : Held (sizedWorld name width height rands).1 := by
  obtain ⟨-, hy, hsize⟩ := resizeWorld_size width height rands { name := name }
  refine ⟨hsize, by simp only [sizedWorld]; omega, ?_⟩
  refine generateBlocks_forall (fun index rands => ?_) _ _ _
  rw [sizedBlock_wl]
  rfl

/-- What a block of the plain generator can hold. -/
structure PlainBlock (world : WorldDefault) (block : WorldBlock) : Prop where
  fg : block.fg ∈ [0, 6, 8, world.fg, world.rock, world.lava]
  rest : ∃ bg, block = { emptyBlock with fg := block.fg, bg := bg }

theorem plainBlock_plain (world : WorldDefault) (d i : Nat)
    (rands : Nat → Nat) : PlainBlock world (plainBlock world d i rands).1 := by
  refine ⟨?_, _, rfl⟩
  simp only [plainBlock]
  split_ifs <;> simp

theorem plainWorld_plain (world : WorldDefault) (name : String) (s_ : Nat)
    (rands : Nat → Nat) :
    ∀ block ∈ (plainWorld world name s_ rands).1.blocks,
      PlainBlock world block :=
  generateBlocks_forall (fun i rands => plainBlock_plain world _ i rands) _ _ _

theorem plainWorld_texts (world : WorldDefault) (name : String) (s_ : Nat)
    (rands : Nat → Nat) : Utf8 (plainWorld world name s_ rands).1.texts := by
  refine utf8_blank fun block hblock => ?_
  obtain ⟨bg, hplain⟩ := (plainWorld_plain world name s_ rands block hblock).rest
  rw [hplain]
  change Utf8 emptyBlock.texts
  decide

/-- A world made by the overload with a number of blocks. -/
theorem plainWorld_held (world : WorldDefault) (name : String)
    (rands : Nat → Nat) : Held (plainWorld world name 6000 rands).1 := by
  obtain ⟨hlength, hmaxY, hmaxX⟩ := plainWorld_size world name 6000 rands
  refine ⟨?_, ?_, fun block hblock => ?_⟩
  · rw [hlength, hmaxY, hmaxX]
    rfl
  · rw [hmaxY]
    decide
  · obtain ⟨bg, hplain⟩ := (plainWorld_plain world name 6000 rands block
      hblock).rest
    rw [hplain]
    rfl

theorem emptyBlock_survives {items : Items} {guildId : Int} {fg : UInt16}
    (hfg : fg ≠ 5814) (bg : UInt16) :
    BlockSurvives items guildId { emptyBlock with fg := fg, bg := bg } where
  infinity := (by decide : (10 : Int) ≠ 0 ∧ -(2 ^ 31) ≤ (10 : Int) ∧
    (10 : Int) < 2 ^ 31)
  epoch := (by decide : -(2 ^ 31) ≤ (0 : Int) ∧ (0 : Int) < 2 ^ 31)
  fruit := (by decide : (0 : UInt8) < 8)
  opened := Or.inl rfl
  guildLock h := absurd h hfg
  ances h := absurd rfl h

end Created

end NopyServer
