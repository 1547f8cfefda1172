/-
The life of the area locks of a world: a lock is placed and takes tiles around it, it is
broken by its owner or disintegrates when that one stays away, and its tiles are taken anew
from the dialog of the lock.  A punch on a locked tile whose lock is gone releases the tiles
of that lock; as long as nothing but a punch takes a lock away this never comes to pass.
-/
import NopyServer.LockArea
import NopyServer.Trade

namespace NopyServer

namespace AreaLocks

open LockArea LockReapply LockTiles PatchPath Relation

/-- `Property_AutoPickup`. -/
def propertyAutoPickup : Int := 256

/-- `Property_Public`. -/
def propertyPublic : Int := 4096

/-- The five locks that lock an area. -/
def isAreaLock (fg : UInt16) : Bool :=
  fg == 202 || fg == 204 || fg == 206 || fg == 4994 || fg == 10000

section Definitions

variable (items : Items) (world : World) (t : Nat)

/-- `remove_lock_broken`; `none` never occurs. -/
def removeLockBroken : Option World :=
  release (changeTiles world (fun block => { block with admins := [], ownerName := "" }) [t]) t

/-- `reset_` for a block without content of its own. -/
def resetBlock (block : WorldBlock) : WorldBlock :=
  { block with
    fg := 0
    bg := if block.fg = 0 then 0 else block.bg
    shelf1 := 0, shelf2 := 0, shelf3 := 0, shelf4 := 0
    id := 0, planted := 0, fruit := 1, txt := ""
    wl := 0, pr := 0, c_ := 0
    doorDestination := "", doorId := "", open_ := 1
    flags := if flagSet block.flags 0x04000000 || flagSet block.flags 0x08000000 ||
      flagSet block.flags 0x10000000 then block.flags else 0
    projectileSpeed := 100, rateOfFire := 10
    enabled := false, invert := false, spin := false, gravity := 50
    admins := [], ownerName := ""
    buildOnly := false, limitAdmins := false, crystals := []
    r := 255, g := 128, b := 64
    portrait := {
      block.portrait with
      cExpression := 1, cFace := 0, cHair := 0, cHairColour := 0, cHead := 0, cSkin := 0 }
    heartMonitor := "", lives := 0, times := 0 }

/-- `reset_` for the tile, with its machine. -/
def reset_ : World :=
  let machines := world.machines.eraseP fun machine =>
    (machine.x.toNat : Int) == (t % 100 : Nat) && (machine.y.toNat : Int) == (t / 100 : Nat)
  changeTiles { world with machines := machines } resetBlock [t]

/-- A punch that may break a block. -/
structure Punch where
  tankIDName : String
  /-- `Role::Clist` or `world_access_bypass`. -/
  trusted : Bool := false
  /-- The days since the owner of the lock was there last. -/
  days2 : Int := 1
  /-- The block has taken its last hit. -/
  hits : Bool := false
  /-- `Inventory::Modify` takes the block in. -/
  room : Bool := false

/-- The end of a punch on a block of the kind `t_`, if it was the last hit. -/
def breakBlock (t_ : UInt16) (punch : Punch) : Option World :=
  if punch.hits = false then some world
  else if flagSet (items.item t_.toNat).properties propertyAutoPickup = false then
    some (reset_ world t)
  else if punch.room = false then some world
  else
    let removed :=
      if (items.item t_.toNat).blockType = .lock ∧ isAreaLock t_ = true
      then removeLockBroken world t else some world
    removed.map fun world =>
      let world := { world with
        activeJammers := world.activeJammers.filter (· != (t_.toNat : Int))
        totalDropUid := world.totalDropUid + 1 }
      reset_ world t

/-- An inactive lock disintegrates. -/
def disintegrate : Option World :=
  (removeLockBroken world t).map fun world =>
    changeTiles world (fun block => { block with fg := 0 }) [t]

/-- The part of `edit_tile` that a punch on a lock or on a locked tile goes through. -/
def punchTile (punch : Punch) : Option World :=
  let block := tile world t
  if isAreaLock block.fg = true then
    if flagSet (items.item block.fg.toNat).properties propertyPublic = true ∨
        iequals block.ownerName punch.tankIDName = true ∨
        (items.item block.fg.toNat).blockType ≠ .lock then
      breakBlock items world t block.fg punch
    else
      let left := if world.ownerName = "" ∧ 45 - punch.days2 ≤ 0 then disintegrate world t
        else some world
      left.bind fun world =>
        if punch.trusted = true then breakBlock items world t block.fg punch else some world
  else if block.locked = true then
    let origin := block.lockOrigin.toNat
    if (tile world origin).fg = 242 ∨
        (items.item (tile world origin).fg.toNat).blockType ≠ .lock then
      removeLockBroken world origin
    else some world
  else some world

/-- `safe_dis`. -/
def safeDis (p_ : UInt16) : Int := if p_ = 206 ∨ p_ = 4994 then 7 else if p_ = 204 then 3 else 0

/-- The lock may not be placed: the world or the tile is another player's, or the border is
too close. -/
def lockRefused (p_ : UInt16) (tankIDName : String) : Bool :=
  let block := tile world t
  (world.ownerName != "" && !iequals world.ownerName tankIDName) ||
    (block.locked && !iequals (tile world block.lockOrigin.toNat).ownerName tankIDName) ||
    (lockX t < safeDis p_ || lockY t < safeDis p_ || world.maxX - safeDis p_ < lockX t ||
      world.maxY - safeDis p_ < lockY t)

/-- The lock is placed, and takes its tiles. -/
def applyLock (p_ : UInt16) (tankIDName : String) (budget : Nat) : Option World :=
  let world := changeTiles world (fun block => { block with ownerName := tankIDName }) [t]
  (lockTiles items world (lockX t) (lockY t) (lockSize p_) budget).map fun tiles_ =>
    changeTiles (tiles_.foldl (claim t) (world, [])).1 (fun block => { block with fg := p_ }) [t]

/-- Placing an area lock: the part of `edit_tile` for locks. -/
def placeLock (p_ : UInt16) (tankIDName : String) (budget : Nat) : Option World :=
  if isAreaLock p_ = false ∨ (items.item p_.toNat).blockType ≠ .lock ∨ (tile world t).fg ≠ 0 ∨
      lockRefused world t p_ tankIDName = true then some world
  else applyLock items world t p_ tankIDName budget

/-- The checkbox for empty air in the dialog of a lock. -/
def setIgnore (ignore : Option Bool) : World :=
  match ignore with
  | none => world
  | some invert => changeTiles world (fun block => { block with invert := invert }) [t]

/-- The dialog `lock_edit` of an area lock: the checkbox for empty air and the button that
applies the lock anew. -/
def lockEdit (tankIDName : String) (administrator : Bool) (ignore : Option Bool)
    (recalcLock : Bool) (budget : Nat) : Option World :=
  let block := tile world t
  if isAreaLock block.fg = false ∨ (items.item block.fg.toNat).blockType ≠ .lock then some world
  else if iequals block.ownerName tankIDName = false ∧ administrator = false then some world
  else if recalcLock = true then
    (reapply items (setIgnore world t ignore) t budget).map Prod.fst
  else some (setIgnore world t ignore)

/-- What happens to the locks of a world. -/
inductive Event where
  | place (t : Nat) (p_ : UInt16) (tankIDName : String) (budget : Nat)
  | punch (t : Nat) (punch : Punch)
  | lockEdit (t : Nat) (tankIDName : String) (administrator : Bool) (ignore : Option Bool)
      (recalcLock : Bool) (budget : Nat)
  /-- Any other change of the world. -/
  | edit (next : World)

/-- One step; `none` where `lock_tiles` has not come to an end. -/
def serve (world : World) : Event → Option World
  | .place t p_ tankIDName budget => placeLock items world t p_ tankIDName budget
  | .punch t punch => punchTile items world t punch
  | .lockEdit t tankIDName administrator ignore recalcLock budget =>
      AreaLocks.lockEdit items world t tankIDName administrator ignore recalcLock budget
  | .edit next => some next

end Definitions

section Tiles

variable {world next : World} {lock other s t : Nat}

theorem tile_outside (ht : world.blocks.length ≤ t) : tile world t = {} := by
  unfold tile
  rw [List.getD_eq_getElem?_getD, List.getElem?_eq_none ht]
  rfl

theorem tile_outside_eq (hlength : next.blocks.length = world.blocks.length)
    (ht : world.blocks.length ≤ t) : tile next t = tile world t := by
  rw [tile_outside ht, tile_outside (hlength ▸ ht)]

theorem locked_inside (ht : (tile world t).locked = true) : t < world.blocks.length := by
  by_contra hout
  rw [tile_outside (Nat.le_of_not_lt hout)] at ht
  cases ht

theorem tile_changed {change : WorldBlock → WorldBlock} (ht : t < world.blocks.length) :
    tile (changeTiles world change [t]) t = change (tile world t) := by
  rw [tile_changeTiles ht, if_pos (List.mem_singleton.mpr rfl)]

theorem tile_unchanged {change : WorldBlock → WorldBlock} (hne : s ≠ t) :
    tile (changeTiles world change [t]) s = tile world s := by
  by_cases hs : s < world.blocks.length
  · rw [tile_changeTiles hs, if_neg fun h => hne (List.mem_singleton.mp h)]
  · exact tile_outside_eq length_changeTiles (Nat.le_of_not_lt hs)

/-- A change of one block, seen from any place. -/
theorem tile_change (change : WorldBlock → WorldBlock) (s : Nat) :
    tile (changeTiles world change [t]) s = tile world s ∨
      s = t ∧ tile (changeTiles world change [t]) s = change (tile world s) := by
  by_cases hs : s = t
  · subst hs
    by_cases hinside : s < world.blocks.length
    · exact Or.inr ⟨rfl, tile_changed hinside⟩
    · exact Or.inl (tile_outside_eq length_changeTiles (Nat.le_of_not_lt hinside))
  · exact Or.inl (tile_unchanged hs)

/-- The tiles are locked as before. -/
structure SameLocks (world next : World) : Prop where
  length : next.blocks.length = world.blocks.length
  locked : ∀ t, (tile next t).locked = (tile world t).locked
  origin : ∀ t, (tile next t).lockOrigin = (tile world t).lockOrigin

theorem SameLocks.lockedBy (hsame : SameLocks world next) :
    lockedBy next lock t = lockedBy world lock t := by
  unfold LockReapply.lockedBy
  rw [hsame.locked, hsame.origin]

theorem SameLocks.joins (hsame : SameLocks world next) :
    Joins next lock = Joins world lock := by
  funext s t
  unfold Joins
  rw [hsame.length, hsame.lockedBy]

theorem SameLocks.joined (hsame : SameLocks world next) (hjoined : Joined world lock) :
    Joined next lock := by
  intro t ht
  rw [hsame.joins]
  exact hjoined t (hsame.lockedBy ▸ ht)

theorem SameLocks.change {change : WorldBlock → WorldBlock}
    (hchange : ∀ block, (change block).locked = block.locked ∧
      (change block).lockOrigin = block.lockOrigin) :
    SameLocks world (changeTiles world change [t]) := by
  refine ⟨length_changeTiles, fun s => ?_, fun s => ?_⟩
  · rcases @tile_change world t change s with hs | ⟨-, hs⟩
    · rw [hs]
    · rw [hs, (hchange _).1]
  · rcases @tile_change world t change s with hs | ⟨-, hs⟩
    · rw [hs]
    · rw [hs, (hchange _).2]

theorem lockedBy_freed : lockedBy (freed world lock) other t = true ↔
    other ≠ lock ∧ lockedBy world other t = true := by
  by_cases ht : t < world.blocks.length
  · have hlocked : ∀ lock, lockedBy world lock t = true ↔
        (tile world t).locked = true ∧ (tile world t).lockOrigin = lock := by
      intro lock
      unfold lockedBy
      rw [Bool.and_eq_true, beq_iff_eq]
    have hfreed := @tile_freed world lock t ht
    by_cases hmine : lockedBy world lock t = true
    · rw [if_pos hmine] at hfreed
      constructor
      · intro h
        unfold lockedBy at h
        rw [hfreed] at h
        cases h
      · rintro ⟨hne, hother⟩
        have hsame := ((hlocked other).mp hother).2.symm.trans ((hlocked lock).mp hmine).2
        exact absurd (Int.natCast_inj.mp hsame) hne
    · rw [if_neg hmine] at hfreed
      have hsame : lockedBy (freed world lock) other t = lockedBy world other t := by
        unfold lockedBy
        rw [hfreed]
      rw [hsame]
      exact ⟨fun h => ⟨fun hother => hmine (hother ▸ h), h⟩, And.right⟩
  · have hlength : (freed world lock).blocks.length = world.blocks.length := List.length_map _
    exact iff_of_false (fun h => ht (hlength ▸ lockedBy_inside h))
      fun h => ht (lockedBy_inside h.2)

theorem lockedBy_claims {before after : World} {claimed : List Nat}
    (hclaims : Claims before after lock claimed) :
    lockedBy after other t = true ↔
      (other = lock ∧ t ∈ claimed) ∨ lockedBy before other t = true := by
  by_cases ht : t < before.blocks.length
  · have hblock := hclaims.block t ht
    by_cases hmem : t ∈ claimed
    · rw [if_pos hmem] at hblock
      have hfree := (hclaims.free t hmem).2
      unfold lockedBy
      rw [hblock, hfree]
      simp only [lockTo, Bool.true_and, beq_iff_eq, Bool.false_and, Bool.false_eq_true, or_false]
      exact ⟨fun h => ⟨(Int.natCast_inj.mp h).symm, hmem⟩, fun h => h.1 ▸ rfl⟩
    · rw [if_neg hmem] at hblock
      have hsame : lockedBy after other t = lockedBy before other t := by
        unfold lockedBy
        rw [hblock]
      rw [hsame]
      exact ⟨Or.inr, fun h => h.resolve_left fun hnew => hmem hnew.2⟩
  · refine iff_of_false (fun h => ht (hclaims.length ▸ lockedBy_inside h)) ?_
    rintro (⟨-, hmem⟩ | h)
    · exact ht (hclaims.free t hmem).1
    · exact ht (lockedBy_inside h)

end Tiles

section Invariant

/-- The tiles of a lock. -/
def tilesOf (world : World) (lock : Nat) : List Nat :=
  (List.range world.blocks.length).filter (lockedBy world lock)

/-- The area locks have their items. -/
structure AreaLockItems (items : Items) : Prop where
  lock : ∀ fg, isAreaLock fg = true → (items.item fg.toNat).blockType = .lock
  pickup : ∀ fg, isAreaLock fg = true →
    flagSet (items.item fg.toNat).properties propertyAutoPickup = true

/-- Every locked tile belongs to an area lock that stands, and is joined to it. -/
structure Guarded (world : World) : Prop where
  wide : Wide world
  standing : ∀ t, (tile world t).locked = true →
    ∃ lock : Nat, (tile world t).lockOrigin = lock ∧ isAreaLock (tile world lock).fg = true
  joined : ∀ lock, Joined world lock
  off : ∀ lock, isAreaLock (tile world lock).fg = true → 0 < lock % 100 ∧ lock % 100 < 99
  room : ∀ lock, isAreaLock (tile world lock).fg = true →
    (tilesOf world lock).length ≤ lockSize (tile world lock).fg + 3

variable {items : Items} {world next after : World} {lock t : Nat} {claimed : List Nat}

theorem mem_tilesOf : t ∈ tilesOf world lock ↔ lockedBy world lock t = true := by
  unfold tilesOf
  rw [List.mem_filter, List.mem_range]
  exact ⟨And.right, fun h => ⟨lockedBy_inside h, h⟩⟩

theorem length_tilesOf_le {tiles : List Nat}
    (hsub : ∀ t, lockedBy world lock t = true → t ∈ tiles) :
    (tilesOf world lock).length ≤ tiles.length := by
  have hnodup : (tilesOf world lock).Nodup := List.nodup_range.filter _
  exact (hnodup.subperm fun t ht => hsub t (mem_tilesOf.mp ht)).length_le

theorem Guarded.none_of (hguarded : Guarded world)
    (hlock : isAreaLock (tile world lock).fg = false) (t : Nat) :
    lockedBy world lock t = false := by
  by_contra hlocked
  rw [Bool.not_eq_false] at hlocked
  unfold lockedBy at hlocked
  rw [Bool.and_eq_true, beq_iff_eq] at hlocked
  obtain ⟨other, horigin, hstands⟩ := hguarded.standing t hlocked.1
  rw [hlocked.2, Int.natCast_inj] at horigin
  rw [horigin, hstands] at hlock
  cases hlock

/-- Changes that leave the locked tiles alone: a lock goes when it has no tiles, and comes
without tiles. -/
theorem Guarded.edit (hguarded : Guarded world) (hsame : SameLocks world next)
    (hwide : Wide next)
    (hstay : ∀ t, isAreaLock (tile world t).fg = true →
      isAreaLock (tile next t).fg = true ∨ ∀ s, lockedBy world t s = false)
    (hnew : ∀ t, isAreaLock (tile next t).fg = true →
      (tile next t).fg = (tile world t).fg ∨
        (0 < t % 100 ∧ t % 100 < 99) ∧ ∀ s, lockedBy world t s = false) :
    Guarded next where
  wide := hwide
  standing := by
    intro t ht
    rw [hsame.locked] at ht
    obtain ⟨lock, horigin, hstands⟩ := hguarded.standing t ht
    refine ⟨lock, hsame.origin t ▸ horigin, (hstay lock hstands).resolve_right fun hnone => ?_⟩
    have hlocked : lockedBy world lock t = true := by
      unfold lockedBy
      rw [ht, horigin]
      exact beq_self_eq_true _
    rw [hnone t] at hlocked
    cases hlocked
  joined := fun lock => hsame.joined (hguarded.joined lock)
  off := by
    intro lock hstands
    rcases hnew lock hstands with hkeeps | ⟨hoff, -⟩
    · exact hguarded.off lock (hkeeps ▸ hstands)
    · exact hoff
  room := by
    intro lock hstands
    have hsub : ∀ t, lockedBy next lock t = true → t ∈ tilesOf world lock :=
      fun t ht => mem_tilesOf.mpr (hsame.lockedBy ▸ ht)
    have hlength := length_tilesOf_le hsub
    rcases hnew lock hstands with hkeeps | ⟨-, hnone⟩
    · rw [hkeeps]
      exact hlength.trans (hguarded.room lock (hkeeps ▸ hstands))
    · have hempty : (tilesOf next lock).length ≤ ([] : List Nat).length := by
        refine length_tilesOf_le fun t ht => ?_
        rw [hsame.lockedBy, hnone t] at ht
        cases ht
      exact hempty.trans (Nat.zero_le _)

theorem joins_of_lockedBy (hlength : next.blocks.length = world.blocks.length)
    (hsub : ∀ t, lockedBy world lock t = true → lockedBy next lock t = true)
    (hway : TransGen (Joins world lock) lock t) : TransGen (Joins next lock) lock t :=
  TransGen.mono (fun _ t hstep => ⟨⟨hstep.1.1, hlength ▸ hstep.1.2⟩, hsub t hstep.2⟩) _ _ hway

/-- The tiles of a lock are released. -/
theorem Guarded.freed (hguarded : Guarded world) : Guarded (freed world lock) := by
  have hlength : (LockReapply.freed world lock).blocks.length = world.blocks.length :=
    List.length_map _
  have hfg : ∀ t, (tile (LockReapply.freed world lock) t).fg = (tile world t).fg := by
    intro t
    by_cases ht : t < world.blocks.length
    · exact (freed_kind ht).1
    · rw [tile_outside_eq hlength (Nat.le_of_not_lt ht)]
  refine ⟨freed_wide hguarded.wide, fun t ht => ?_, fun other t ht => ?_,
    fun other hstands => hguarded.off other (hfg other ▸ hstands), fun other hstands => ?_⟩
  · have hinside : t < world.blocks.length := hlength ▸ locked_inside ht
    have hfreed := @tile_freed world lock t hinside
    rw [hfreed] at ht ⊢
    split_ifs at ht ⊢ with hmine
    · cases ht
    · obtain ⟨other, horigin, hstands⟩ := hguarded.standing t ht
      exact ⟨other, horigin, (hfg other).symm ▸ hstands⟩
  · obtain ⟨hne, hlocked⟩ := lockedBy_freed.mp ht
    exact joins_of_lockedBy hlength (fun s hs => lockedBy_freed.mpr ⟨hne, hs⟩)
      (hguarded.joined other t hlocked)
  · rw [hfg] at hstands ⊢
    exact (length_tilesOf_le fun t ht => mem_tilesOf.mpr (lockedBy_freed.mp ht).2).trans
      (hguarded.room other hstands)

/-- A lock without tiles takes some. -/
theorem Guarded.claims (hguarded : Guarded world) (hclaims : Claims world after lock claimed)
    (hwide : Wide after) (hstands : isAreaLock (tile world lock).fg = true)
    (hnone : ∀ t, lockedBy world lock t = false)
    (hchained : ∀ t ∈ claimed, Chained claimed lock t)
    (hroom : claimed.length ≤ lockSize (tile world lock).fg + 3) : Guarded after := by
  have hfg : ∀ t, (tile after t).fg = (tile world t).fg := by
    intro t
    by_cases ht : t < world.blocks.length
    · rw [hclaims.block t ht]
      split_ifs
      · rfl
      · rfl
    · rw [tile_outside_eq hclaims.length (Nat.le_of_not_lt ht)]
  have hmine : ∀ t, lockedBy after lock t = true ↔ t ∈ claimed := by
    intro t
    rw [lockedBy_claims hclaims, hnone t]
    simp
  refine ⟨hwide, fun t ht => ?_, fun other t ht => ?_,
    fun other hother => hguarded.off other (hfg other ▸ hother), fun other hother => ?_⟩
  · have hinside : t < world.blocks.length := hclaims.length ▸ locked_inside ht
    rw [hclaims.block t hinside] at ht ⊢
    split_ifs at ht ⊢ with hmem
    · exact ⟨lock, rfl, (hfg lock).symm ▸ hstands⟩
    · obtain ⟨other, horigin, hother⟩ := hguarded.standing t ht
      exact ⟨other, horigin, (hfg other).symm ▸ hother⟩
  · by_cases hother : other = lock
    · subst hother
      refine TransGen.mono (fun s t hstep => ⟨⟨hstep.1, ?_⟩, (hmine t).mpr hstep.2⟩) _ _
        (hchained t ((hmine t).mp ht))
      rw [hclaims.length]
      exact (hclaims.free t hstep.2).1
    · have hold := ((lockedBy_claims hclaims).mp ht).resolve_left fun h => hother h.1
      exact joins_of_lockedBy hclaims.length
        (fun s hs => (lockedBy_claims hclaims).mpr (Or.inr hs)) (hguarded.joined other t hold)
  · rw [hfg] at hother ⊢
    by_cases hsame : other = lock
    · subst hsame
      exact (length_tilesOf_le fun t ht => (hmine t).mp ht).trans hroom
    · refine (length_tilesOf_le fun t ht => ?_).trans (hguarded.room other hother)
      exact mem_tilesOf.mpr (((lockedBy_claims hclaims).mp ht).resolve_left fun h => hsame h.1)

end Invariant

section Steps

variable {items : Items} {world next : World} {t : Nat}

/-- What a step leaves to the tiles: those of other locks stay locked by them. -/
def Keeps (world next : World) (t : Nat) : Prop :=
  ∀ lock s, lock ≠ t → lockedBy world lock s = true → lockedBy next lock s = true

theorem Keeps.refl : Keeps world world t := fun _ _ _ h => h

theorem SameLocks.keeps (hsame : SameLocks world next) : Keeps world next t :=
  fun _ _ _ h => hsame.lockedBy.trans h

theorem Keeps.trans {last : World} (hfirst : Keeps world next t) (hsecond : Keeps next last t) :
    Keeps world last t := fun lock s hne h => hsecond lock s hne (hfirst lock s hne h)

theorem freed_keeps : Keeps world (freed world t) t :=
  fun _ _ hne h => lockedBy_freed.mpr ⟨hne, h⟩

/-- Changes of one block that leave its kind and its lock alone. -/
theorem Guarded.change {change : WorldBlock → WorldBlock} (hguarded : Guarded world)
    (hchange : ∀ block, (change block).locked = block.locked ∧
      (change block).lockOrigin = block.lockOrigin)
    (hfg : isAreaLock (change (tile world t)).fg = true →
      (change (tile world t)).fg = (tile world t).fg ∨
        (0 < t % 100 ∧ t % 100 < 99) ∧ ∀ s, lockedBy world t s = false)
    (hstay : isAreaLock (tile world t).fg = true →
      isAreaLock (change (tile world t)).fg = true ∨ ∀ s, lockedBy world t s = false) :
    Guarded (changeTiles world change [t]) := by
  refine hguarded.edit (SameLocks.change hchange) (changeTiles_wide hguarded.wide)
    (fun s hs => ?_) (fun s hs => ?_)
  · rcases @tile_change world t change s with hold | ⟨rfl, hnew⟩
    · exact Or.inl (hold.symm ▸ hs)
    · rw [hnew]
      exact hstay hs
  · rcases @tile_change world t change s with hold | ⟨rfl, hnew⟩
    · exact Or.inl (congrArg WorldBlock.fg hold)
    · rw [hnew] at hs ⊢
      exact hfg hs

/-- The tiles stay locked when a lock loses its owner and its administrators. -/
theorem SameLocks.unowned : SameLocks world (changeTiles world
    (fun block => { block with admins := [], ownerName := "" }) [t]) :=
  SameLocks.change fun _ => ⟨rfl, rfl⟩

/-- A broken lock leaves no tile behind, and takes none of another lock. -/
theorem removeLockBroken_freed (hguarded : Guarded world) (ht : t < world.blocks.length) :
    removeLockBroken world t = some (freed (changeTiles world
      (fun block => { block with admins := [], ownerName := "" }) [t]) t) := by
  exact release_freed (changeTiles_wide hguarded.wide) (by rw [length_changeTiles]; exact ht)
    (SameLocks.unowned.joined (hguarded.joined t))

theorem removeLockBroken_guarded (hguarded : Guarded world) (ht : t < world.blocks.length)
    (hremove : removeLockBroken world t = some next) :
    Guarded next ∧ Keeps world next t ∧ (∀ s, lockedBy next t s = false) ∧
      next.blocks.length = world.blocks.length := by
  rw [removeLockBroken_freed hguarded ht] at hremove
  obtain rfl := Option.some.inj hremove
  have hcleared : Guarded (changeTiles world
      (fun block => { block with admins := [], ownerName := "" }) [t]) :=
    hguarded.change (fun _ => ⟨rfl, rfl⟩) (fun _ => Or.inl rfl) Or.inl
  refine ⟨hcleared.freed, SameLocks.unowned.keeps.trans freed_keeps, fun s => ?_, ?_⟩
  · exact Bool.eq_false_iff.mpr fun h => (lockedBy_freed.mp h).1 rfl
  · exact (List.length_map _).trans length_changeTiles

/-- A change beside the blocks. -/
theorem Guarded.beside (hguarded : Guarded world) (hblocks : next.blocks = world.blocks)
    (hmaxX : next.maxX = world.maxX) (hmaxY : next.maxY = world.maxY) : Guarded next := by
  have htile : ∀ s, tile next s = tile world s := by
    intro s
    unfold tile
    rw [hblocks]
  have hsame : SameLocks world next :=
    ⟨congrArg List.length hblocks, fun s => congrArg WorldBlock.locked (htile s),
      fun s => congrArg WorldBlock.lockOrigin (htile s)⟩
  have hwide : Wide next := by
    refine ⟨hmaxX.trans hguarded.wide.width, hmaxY.symm ▸ hguarded.wide.height, ?_⟩
    rw [hblocks, hmaxY]
    exact hguarded.wide.length
  refine hguarded.edit hsame hwide (fun s hs => Or.inl ?_) (fun s _ => Or.inl ?_)
  · rw [htile]
    exact hs
  · rw [htile]

theorem not_areaLock_zero : isAreaLock 0 = false := by decide

theorem reset_guarded (hguarded : Guarded world) (hnone : ∀ s, lockedBy world t s = false) :
    Guarded (reset_ world t) ∧ Keeps world (reset_ world t) t := by
  obtain ⟨machines, hreset⟩ : ∃ machines, reset_ world t =
      changeTiles { world with machines := machines } resetBlock [t] := ⟨_, rfl⟩
  have hmachines : Guarded { world with machines := machines } := hguarded.beside rfl rfl rfl
  have hsame : SameLocks { world with machines := machines }
      (changeTiles { world with machines := machines } resetBlock [t]) :=
    SameLocks.change fun _ => ⟨rfl, rfl⟩
  rw [hreset]
  refine ⟨hmachines.change (fun _ => ⟨rfl, rfl⟩) (fun h => ?_) (fun _ => Or.inr hnone),
    hsame.keeps⟩
  exact absurd (not_areaLock_zero.symm.trans h) Bool.false_ne_true

theorem areaLock_inside (hlock : isAreaLock (tile world t).fg = true) :
    t < world.blocks.length := by
  by_contra hout
  rw [tile_outside (by omega)] at hlock
  exact absurd (not_areaLock_zero.symm.trans hlock) Bool.false_ne_true

theorem breakBlock_guarded (hitems : AreaLockItems items) (hguarded : Guarded world)
    (ht : t < world.blocks.length) {t_ : UInt16} (hlock : isAreaLock t_ = true) {punch : Punch}
    (hbreak : breakBlock items world t t_ punch = some next) :
    Guarded next ∧ Keeps world next t := by
  have hkind : (items.item t_.toNat).blockType = .lock ∧ isAreaLock t_ = true :=
    ⟨hitems.lock t_ hlock, hlock⟩
  unfold breakBlock at hbreak
  dsimp only at hbreak
  rw [hitems.pickup t_ hlock, if_neg (by decide : ¬ true = false), if_pos hkind] at hbreak
  by_cases hhits : punch.hits = false
  · rw [if_pos hhits] at hbreak
    obtain rfl := Option.some.inj hbreak
    exact ⟨hguarded, Keeps.refl⟩
  · rw [if_neg hhits] at hbreak
    by_cases hroom : punch.room = false
    · rw [if_pos hroom] at hbreak
      obtain rfl := Option.some.inj hbreak
      exact ⟨hguarded, Keeps.refl⟩
    · rw [if_neg hroom] at hbreak
      obtain ⟨removed, hremove, rfl⟩ := Option.map_eq_some_iff.mp hbreak
      obtain ⟨hremoved, hkeeps, hnone, -⟩ := removeLockBroken_guarded hguarded ht hremove
      have hcounted : Guarded { removed with
          activeJammers := removed.activeJammers.filter (· != (t_.toNat : Int))
          totalDropUid := removed.totalDropUid + 1 } := hremoved.beside rfl rfl rfl
      obtain ⟨hreset, hlast⟩ := reset_guarded hcounted hnone
      exact ⟨hreset, hkeeps.trans hlast⟩

theorem disintegrate_guarded (hguarded : Guarded world) (ht : t < world.blocks.length)
    (hgone : disintegrate world t = some next) :
    Guarded next ∧ Keeps world next t ∧ next.blocks.length = world.blocks.length := by
  unfold disintegrate at hgone
  obtain ⟨removed, hremove, rfl⟩ := Option.map_eq_some_iff.mp hgone
  obtain ⟨hremoved, hkeeps, hnone, hlength⟩ := removeLockBroken_guarded hguarded ht hremove
  have hsame : SameLocks removed (changeTiles removed (fun block => { block with fg := 0 }) [t]) :=
    SameLocks.change fun _ => ⟨rfl, rfl⟩
  refine ⟨hremoved.change (fun _ => ⟨rfl, rfl⟩) (fun h => ?_) fun _ => Or.inr hnone,
    hkeeps.trans hsame.keeps, length_changeTiles.trans hlength⟩
  exact absurd (not_areaLock_zero.symm.trans h) Bool.false_ne_true

/-- A punch beside the locks never finds a tile whose lock is gone. -/
theorem punchTile_quiet (hitems : AreaLockItems items) (hguarded : Guarded world)
    (hlock : isAreaLock (tile world t).fg = false) (punch : Punch) :
    punchTile items world t punch = some world := by
  unfold punchTile
  dsimp only
  rw [hlock, if_neg Bool.false_ne_true]
  split_ifs with hlocked hgone
  · exfalso
    obtain ⟨lock, horigin, hstands⟩ := hguarded.standing t hlocked
    rw [horigin, Int.toNat_natCast] at hgone
    rcases hgone with hworld | hkind
    · rw [hworld] at hstands
      exact absurd hstands (by decide)
    · exact hkind (hitems.lock _ hstands)
  · rfl
  · rfl

theorem punchTile_guarded (hitems : AreaLockItems items) (hguarded : Guarded world)
    {punch : Punch} (hpunch : punchTile items world t punch = some next) :
    Guarded next ∧ Keeps world next t := by
  cases hlock : isAreaLock (tile world t).fg with
  | false =>
      rw [punchTile_quiet hitems hguarded hlock] at hpunch
      obtain rfl := Option.some.inj hpunch
      exact ⟨hguarded, Keeps.refl⟩
  | true =>
      have ht := areaLock_inside hlock
      unfold punchTile at hpunch
      dsimp only at hpunch
      rw [hlock, if_pos rfl] at hpunch
      by_cases hown : flagSet (items.item (tile world t).fg.toNat).properties propertyPublic
            = true ∨ iequals (tile world t).ownerName punch.tankIDName = true ∨
          (items.item (tile world t).fg.toNat).blockType ≠ .lock
      · rw [if_pos hown] at hpunch
        exact breakBlock_guarded hitems hguarded ht hlock hpunch
      · rw [if_neg hown] at hpunch
        obtain ⟨left, hleft, hpunch⟩ := Option.bind_eq_some_iff.mp hpunch
        have hfirst : Guarded left ∧ Keeps world left t ∧
            left.blocks.length = world.blocks.length := by
          split_ifs at hleft with hexpired
          · exact disintegrate_guarded hguarded ht hleft
          · obtain rfl := Option.some.inj hleft
            exact ⟨hguarded, Keeps.refl, rfl⟩
        obtain ⟨hguard, hkeeps, hlength⟩ := hfirst
        split_ifs at hpunch with htrusted
        · obtain ⟨hlast, hmore⟩ := breakBlock_guarded hitems hguard (hlength ▸ ht) hlock hpunch
          exact ⟨hlast, hkeeps.trans hmore⟩
        · obtain rfl := Option.some.inj hpunch
          exact ⟨hguard, hkeeps⟩

theorem claim_wide {state : World × List Nat} {sq : Int × Int} (hwide : Wide state.1) :
    Wide (claim t state sq).1 := by
  unfold claim
  dsimp only
  split_ifs
  · exact hwide
  · exact changeTiles_wide hwide

theorem foldl_claim_wide {tiles : List (Int × Int)} {state : World × List Nat}
    (hwide : Wide state.1) : Wide (tiles.foldl (claim t) state).1 := by
  induction tiles generalizing state with
  | nil => exact hwide
  | cons sq tiles ih => exact ih (claim_wide hwide)

theorem claimTiles_wide {budget : Nat} {claimed : List Nat} (hwide : Wide world)
    (hclaim : claimTiles items world t budget = some (next, claimed)) : Wide next := by
  unfold claimTiles at hclaim
  dsimp only at hclaim
  split_ifs at hclaim
  · obtain ⟨tiles, -, hresult⟩ := Option.map_eq_some_iff.mp hclaim
    have hfold := @foldl_claim_wide t tiles (world, []) hwide
    rw [hresult] at hfold
    exact hfold
  · obtain ⟨⟨found, tiles⟩, -, hresult⟩ := Option.map_eq_some_iff.mp hclaim
    cases hresult
    exact changeTiles_wide hwide

/-- The tiles can be claimed before or after a change of a block. -/
theorem claims_change {after : World} {claimed : List Nat} {lock : Nat}
    {change : WorldBlock → WorldBlock} (hclaims : Claims world after lock claimed)
    (hlocked : ∀ block, (change block).locked = block.locked)
    (hlock : ∀ block, change (lockTo lock block) = lockTo lock (change block)) :
    Claims (changeTiles world change [t]) (changeTiles after change [t]) lock claimed := by
  refine ⟨fun s hs => ?_, fun s hs => ?_, ?_⟩
  · obtain ⟨hinside, hfree⟩ := hclaims.free s hs
    rw [length_changeTiles, tile_changeTiles hinside]
    refine ⟨hinside, ?_⟩
    split_ifs
    · exact (hlocked _).trans hfree
    · exact hfree
  · rw [length_changeTiles] at hs
    rw [tile_changeTiles (hclaims.length ▸ hs), tile_changeTiles hs, hclaims.block s hs]
    split_ifs
    · exact hlock _
    · rfl
    · rfl
    · rfl
  · rw [length_changeTiles, length_changeTiles, hclaims.length]

theorem applyLock_guarded (hguarded : Guarded world) (ht : t < world.blocks.length)
    (hoff : 0 < t % 100 ∧ t % 100 < 99) {p_ : UInt16} (hp : isAreaLock p_ = true)
    (hempty : (tile world t).fg = 0) {tankIDName : String} {budget : Nat}
    (happly : applyLock items world t p_ tankIDName budget = some next) :
    Guarded next ∧ ∀ lock s, lockedBy world lock s = true → lockedBy next lock s = true := by
  obtain ⟨own, howner⟩ : ∃ own, own =
      changeTiles world (fun block => { block with ownerName := tankIDName }) [t] := ⟨_, rfl⟩
  obtain ⟨put, hput⟩ : ∃ put, put =
      changeTiles own (fun block => { block with fg := p_ }) [t] := ⟨_, rfl⟩
  unfold applyLock at happly
  dsimp only at happly
  rw [← howner] at happly
  obtain ⟨tiles_, htiles, hlast⟩ := Option.map_eq_some_iff.mp happly
  have hownSame : SameLocks world own := howner ▸ SameLocks.change fun _ => ⟨rfl, rfl⟩
  have hputSame : SameLocks own put := hput ▸ SameLocks.change fun _ => ⟨rfl, rfl⟩
  have hfree : isAreaLock (tile world t).fg = false := hempty.symm ▸ not_areaLock_zero
  have hnone : ∀ s, lockedBy own t s = false :=
    fun s => hownSame.lockedBy.trans (hguarded.none_of hfree s)
  have hown : Guarded own :=
    howner ▸ hguarded.change (fun _ => ⟨rfl, rfl⟩) (fun _ => Or.inl rfl) Or.inl
  have hputGuarded : Guarded put := hput ▸ hown.change (fun _ => ⟨rfl, rfl⟩)
    (fun _ => Or.inr ⟨hoff, hnone⟩) (fun _ => Or.inr hnone)
  have hcolumn : Off own (lockX t) :=
    ⟨hown.wide.width, by unfold lockX; omega, by unfold lockX; omega⟩
  obtain ⟨hclaims, hchained, hroom⟩ := foldl_claim_chained hown.wide hcolumn hnone htiles
  have hall : Claims put next t (tiles_.foldl (claim t) (own, [])).2 := by
    rw [← hlast, hput]
    exact claims_change hclaims (fun _ => rfl) (fun _ => rfl)
  have hfg : (tile put t).fg = p_ := by
    rw [hput, tile_changed (hownSame.length.symm ▸ ht)]
  have hwide : Wide next := by
    rw [← hlast]
    exact changeTiles_wide (foldl_claim_wide hown.wide)
  refine ⟨hputGuarded.claims hall hwide (hfg.symm ▸ hp)
    (fun s => hputSame.lockedBy.trans (hnone s)) hchained ?_, fun lock s hs => ?_⟩
  · rw [hfg]
    exact hroom.trans (Nat.le_add_right _ _)
  · refine (lockedBy_claims hall).mpr (Or.inr ?_)
    rw [hputSame.lockedBy, hownSame.lockedBy]
    exact hs

theorem placeLock_guarded (hguarded : Guarded world) (ht : t < world.blocks.length)
    (hoff : 0 < t % 100 ∧ t % 100 < 99) {p_ : UInt16} {tankIDName : String} {budget : Nat}
    (hplace : placeLock items world t p_ tankIDName budget = some next) :
    Guarded next ∧ ∀ lock s, lockedBy world lock s = true → lockedBy next lock s = true := by
  unfold placeLock at hplace
  split_ifs at hplace with hrefused
  · obtain rfl := Option.some.inj hplace
    exact ⟨hguarded, fun _ _ h => h⟩
  · rw [not_or, not_or, not_or, Bool.not_eq_false, not_not, not_not] at hrefused
    obtain ⟨hp, -, hempty, -⟩ := hrefused
    exact applyLock_guarded hguarded ht hoff hp hempty hplace

theorem setIgnore_guarded (hguarded : Guarded world) (ignore : Option Bool) :
    Guarded (setIgnore world t ignore) ∧ SameLocks world (setIgnore world t ignore) := by
  cases ignore with
  | none => exact ⟨hguarded, rfl, fun _ => rfl, fun _ => rfl⟩
  | some invert =>
      exact ⟨hguarded.change (fun _ => ⟨rfl, rfl⟩) (fun _ => Or.inl rfl) Or.inl,
        SameLocks.change fun _ => ⟨rfl, rfl⟩⟩

theorem setIgnore_fg (ht : t < world.blocks.length) (ignore : Option Bool) :
    (tile (setIgnore world t ignore) t).fg = (tile world t).fg := by
  cases ignore with
  | none => rfl
  | some invert =>
      unfold setIgnore
      rw [tile_changed ht]

/-- A lock is applied anew: what its old tiles leave free and is joined to it is its own. -/
theorem reapply_guarded (hguarded : Guarded world) (hlock : isAreaLock (tile world t).fg = true)
    {budget : Nat} {claimed : List Nat}
    (hreapply : reapply items world t budget = some (next, claimed)) :
    Guarded next ∧ Keeps world next t := by
  have ht := areaLock_inside hlock
  unfold reapply at hreapply
  rw [release_freed hguarded.wide ht (hguarded.joined t)] at hreapply
  have hclaim : claimTiles items (freed world t) t budget = some (next, claimed) := hreapply
  have hfreed : Guarded (freed world t) := hguarded.freed
  have hinside : t < (freed world t).blocks.length := by
    rw [freed, List.length_map]
    exact ht
  have hoff := hguarded.off t hlock
  have hcolumn : Off (freed world t) (lockX t) :=
    ⟨hfreed.wide.width, by unfold lockX; omega, by unfold lockX; omega⟩
  have hclaims := claimTiles_claims hfreed.wide hinside hclaim
  have hnone : ∀ s, lockedBy (freed world t) t s = false :=
    fun s => Bool.eq_false_iff.mpr fun h => (lockedBy_freed.mp h).1 rfl
  obtain ⟨hchained, hroom⟩ := claimTiles_chained hfreed.wide hcolumn hinside hnone hclaim
  refine ⟨hfreed.claims hclaims (claimTiles_wide hfreed.wide hclaim)
    ((freed_kind ht).1.symm ▸ hlock) hnone hchained hroom, fun lock s hne hs => ?_⟩
  exact (lockedBy_claims hclaims).mpr (Or.inr (lockedBy_freed.mpr ⟨hne, hs⟩))

theorem lockEdit_guarded (hguarded : Guarded world) {tankIDName : String}
    {administrator recalcLock : Bool} {ignore : Option Bool} {budget : Nat}
    (hedit : lockEdit items world t tankIDName administrator ignore recalcLock budget =
      some next) :
    Guarded next ∧ ∀ lock s, ¬ (recalcLock = true ∧ t = lock) → lockedBy world lock s = true →
      lockedBy next lock s = true := by
  unfold lockEdit at hedit
  dsimp only at hedit
  split_ifs at hedit with hkind howner hrecalc
  · obtain rfl := Option.some.inj hedit
    exact ⟨hguarded, fun _ _ _ h => h⟩
  · obtain rfl := Option.some.inj hedit
    exact ⟨hguarded, fun _ _ _ h => h⟩
  · rw [not_or, Bool.not_eq_false] at hkind
    obtain ⟨⟨after, claimed⟩, hreapply, rfl⟩ := Option.map_eq_some_iff.mp hedit
    obtain ⟨hmarked, hsame⟩ := @setIgnore_guarded world t hguarded ignore
    have hfg := setIgnore_fg (areaLock_inside hkind.1) ignore
    obtain ⟨hlast, hkeeps⟩ := reapply_guarded hmarked (hfg.symm ▸ hkind.1) hreapply
    refine ⟨hlast, fun lock s hne hs => hkeeps lock s ?_ (hsame.lockedBy.trans hs)⟩
    exact fun h => hne ⟨hrecalc, h.symm⟩
  · obtain rfl := Option.some.inj hedit
    obtain ⟨hmarked, hsame⟩ := @setIgnore_guarded world t hguarded ignore
    exact ⟨hmarked, fun lock s _ hs => hsame.lockedBy.trans hs⟩

end Steps

section Runs

variable {items : Items} {world next last : World}

/-- Locks are placed off the first and the last column, and no other change of the world
locks a tile, or puts or takes an area lock. -/
def Allowed (world : World) : Event → Prop
  | .place t _ _ _ => t < world.blocks.length ∧ 0 < t % 100 ∧ t % 100 < 99
  | .edit next => Wide next ∧ SameLocks world next ∧
      ∀ t, isAreaLock (tile world t).fg = true ∨ isAreaLock (tile next t).fg = true →
        (tile next t).fg = (tile world t).fg
  | _ => True

/-- Every step of a run may be taken. -/
def AllowedRun (items : Items) : World → List Event → Prop
  | _, [] => True
  | world, event :: rest => Allowed world event ∧
      ∀ next, serve items world event = some next → AllowedRun items next rest

/-- The steps that can take tiles from a lock. -/
def Touches (lock : Nat) : Event → Prop
  | .punch t _ => t = lock
  | .lockEdit t _ _ _ recalcLock _ => recalcLock = true ∧ t = lock
  | _ => False

/-- One step. -/
theorem serve_guarded (hitems : AreaLockItems items) (hguarded : Guarded world) (event : Event)
    (hallowed : Allowed world event) (hserve : serve items world event = some next) :
    Guarded next ∧ ∀ lock s, ¬ Touches lock event → lockedBy world lock s = true →
      lockedBy next lock s = true := by
  cases event with
  | place t p_ tankIDName budget =>
      obtain ⟨ht, hoff⟩ := hallowed
      obtain ⟨hnext, hkeeps⟩ := placeLock_guarded hguarded ht hoff hserve
      exact ⟨hnext, fun lock s _ hs => hkeeps lock s hs⟩
  | punch t punch =>
      obtain ⟨hnext, hkeeps⟩ := punchTile_guarded hitems hguarded hserve
      exact ⟨hnext, fun lock s hne hs => hkeeps lock s (fun h => hne h.symm) hs⟩
  | lockEdit t tankIDName administrator ignore recalcLock budget =>
      exact lockEdit_guarded hguarded hserve
  | edit other =>
      obtain rfl := Option.some.inj hserve
      obtain ⟨hwide, hsame, hlocks⟩ := hallowed
      refine ⟨hguarded.edit hsame hwide (fun t ht => Or.inl ?_)
        (fun t ht => Or.inl (hlocks t (Or.inr ht))), fun lock s _ hs => hsame.lockedBy.trans hs⟩
      rw [hlocks t (Or.inl ht)]
      exact ht

theorem run_guarded (hitems : AreaLockItems items) (events : List Event)
    (hguarded : Guarded world) (hallowed : AllowedRun items world events)
    (hrun : events.foldlM (serve items) world = some last) :
    Guarded last ∧ ∀ lock s, lockedBy world lock s = true →
      lockedBy last lock s = true ∨ ∃ event ∈ events, Touches lock event := by
  induction events generalizing world with
  | nil =>
      obtain rfl := Option.some.inj hrun
      exact ⟨hguarded, fun _ _ h => Or.inl h⟩
  | cons event rest ih =>
      rw [List.foldlM_cons] at hrun
      obtain ⟨next, hserve, hrest⟩ := Option.bind_eq_some_iff.mp hrun
      obtain ⟨hfirst, hlater⟩ := hallowed
      obtain ⟨hnext, hkeeps⟩ := serve_guarded hitems hguarded event hfirst hserve
      obtain ⟨hlast, hend⟩ := ih hnext (hlater next hserve) hrest
      refine ⟨hlast, fun lock s hs => ?_⟩
      by_cases htouch : Touches lock event
      · exact Or.inr ⟨event, List.mem_cons_self, htouch⟩
      · refine (hend lock s (hkeeps lock s htouch hs)).imp_right ?_
        rintro ⟨other, hother, htouches⟩
        exact ⟨other, List.mem_cons_of_mem _ hother, htouches⟩

/-- After every run each locked tile belongs to a lock that stands and is joined to it; it
has stayed with a lock that was neither punched nor applied anew; no punch finds a tile
whose lock is gone; and a lock that is broken leaves exactly its own tiles free. -/
theorem areas_guarded (hitems : AreaLockItems items) (events : List Event)
    (hguarded : Guarded world) (hallowed : AllowedRun items world events)
    (hrun : events.foldlM (serve items) world = some last) :
    Guarded last ∧
      (∀ lock s, lockedBy world lock s = true →
        lockedBy last lock s = true ∨ ∃ event ∈ events, Touches lock event) ∧
      (∀ t punch, isAreaLock (tile last t).fg = false →
        punchTile items last t punch = some last) ∧
      ∀ lock < last.blocks.length, ∃ after, removeLockBroken last lock = some after ∧
        ∀ other s, lockedBy after other s = true ↔
          other ≠ lock ∧ lockedBy last other s = true := by
  obtain ⟨hlast, hkeeps⟩ := run_guarded hitems events hguarded hallowed hrun
  refine ⟨hlast, hkeeps, fun t punch hlock => punchTile_quiet hitems hlast hlock punch,
    fun lock hlock => ⟨_, removeLockBroken_freed hlast hlock, fun other s => ?_⟩⟩
  rw [lockedBy_freed, SameLocks.unowned.lockedBy]

/-- A world without locks. -/
theorem Guarded.fresh (hwide : Wide world) (hlocked : ∀ t, (tile world t).locked = false)
    (hlock : ∀ t, isAreaLock (tile world t).fg = false) : Guarded world where
  wide := hwide
  standing := fun t ht => absurd ((hlocked t).symm.trans ht) Bool.false_ne_true
  joined := by
    intro lock t ht
    unfold lockedBy at ht
    rw [hlocked] at ht
    cases ht
  off := fun lock hstands => absurd ((hlock lock).symm.trans hstands) Bool.false_ne_true
  room := fun lock hstands => absurd ((hlock lock).symm.trans hstands) Bool.false_ne_true

/-- One row, with dirt on both sides of a free tile. -/
def dirtRow : World where
  maxX := 100
  maxY := 1
  blocks := List.replicate 49 {} ++ [{ fg := 2 }, {}, { fg := 2 }] ++ List.replicate 48 {}

def areaItems : Items :=
  ⟨20299, fun id => if isAreaLock (UInt16.ofNat id.toNat) = true
    then { blockType := .lock, properties := 256 } else {}⟩

theorem areaItems_locks : AreaLockItems areaItems := by
  have hitem : ∀ fg, isAreaLock fg = true → areaItems.item fg.toNat =
      { blockType := .lock, properties := 256 } := by
    intro fg hfg
    unfold areaItems
    dsimp only
    rw [Int.toNat_natCast, UInt16.ofNat_toNat, if_pos hfg]
  refine ⟨fun fg hfg => ?_, fun fg hfg => ?_⟩
  · rw [hitem fg hfg]
  · rw [hitem fg hfg]
    rfl

/-- At the upper border Ann's lock takes no tile, so she has it ignore empty air and applies
it anew; then Bob punches in the area. -/
def annsArea : List Event :=
  [.place 50 202 "Ann" 12, .lockEdit 50 "Ann" false (some true) true 0,
    .punch 49 { tankIDName := "Bob", hits := true }]

theorem dirtRow_guarded : Guarded dirtRow := by
  have hrow : ∀ t < 100, (tile dirtRow t).locked = false ∧
      isAreaLock (tile dirtRow t).fg = false := by decide +kernel
  have hall : ∀ t, (tile dirtRow t).locked = false ∧ isAreaLock (tile dirtRow t).fg = false := by
    intro t
    by_cases ht : t < 100
    · exact hrow t ht
    · rw [tile_outside (Nat.le_of_not_lt ht)]
      exact ⟨rfl, rfl⟩
  exact Guarded.fresh ⟨rfl, by decide, rfl⟩ (fun t => (hall t).1) (fun t => (hall t).2)

/-- The tile beside the lock is Ann's, until she breaks the lock. -/
theorem areas_guarded_annsArea :
    ∃ last, annsArea.foldlM (serve areaItems) dirtRow = some last ∧ Guarded last ∧
      lockedBy last 50 49 = true ∧
      ∃ after, removeLockBroken last 50 = some after ∧ lockedBy after 50 49 = false := by
  have hrun : (annsArea.foldlM (serve areaItems) dirtRow).any
      (fun last => lockedBy last 50 49 && decide (50 < last.blocks.length)) = true := by
    decide +kernel
  obtain ⟨last, hlast, hends⟩ := (Option.any_eq_true _ _).mp hrun
  rw [Bool.and_eq_true, decide_eq_true_iff] at hends
  have hallowed : AllowedRun areaItems dirtRow annsArea :=
    ⟨⟨by decide, by decide, by decide⟩, fun _ _ => ⟨trivial, fun _ _ => ⟨trivial, fun _ _ =>
      trivial⟩⟩⟩
  obtain ⟨hguarded, -, -, hbreaks⟩ :=
    areas_guarded areaItems_locks annsArea dirtRow_guarded hallowed hlast
  obtain ⟨after, hafter, hfree⟩ := hbreaks 50 hends.2
  refine ⟨last, hlast, hguarded, hends.1, after, hafter, Bool.eq_false_iff.mpr fun h => ?_⟩
  exact ((hfree 50 49).mp h).1 rfl

end Runs

end AreaLocks

end NopyServer
