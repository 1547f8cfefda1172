/-
The `reapply` button in the dialog of a small lock.  The tiles of the lock are
released by a fill that starts at the lock and goes from tile to tile of the lock;
then new ones are claimed, by `lock_tiles` or, where empty air is ignored, by a
second fill over the tiles with something in them.

The first fill misses the tiles that are not joined to the lock, and the second one
looks at the size of the lock only between two tiles.
-/
import NopyServer.LockTiles
import NopyServer.PatchPath

namespace NopyServer

namespace LockReapply

open FloodFill LockTiles PatchPath Relation

section Definitions

variable (items : Items) (world : World) (lock : Nat)

/-- The neighbours of a tile that pass a test, in the order of the source. -/
def besides (test : Nat → Bool) (s : Nat) : List Nat :=
  let x := s % 100
  let y := s / 100
  let right := x + 1 + y * 100
  let left := x - 1 + y * 100
  let down := x + (y + 1) * 100
  let up := x + (y - 1) * 100
  (if (x : Int) < world.maxX - 1 ∧ test right = true then [right] else []) ++
  (if 0 < x ∧ test left = true then [left] else []) ++
  (if (y : Int) < world.maxY - 1 ∧ test down = true then [down] else []) ++
  (if 0 < y ∧ test up = true then [up] else [])

/-- The tile is locked by the lock. -/
def lockedBy (t : Nat) : Bool :=
  (tile world t).locked && (tile world t).lockOrigin == lock

def unlock (block : WorldBlock) : WorldBlock :=
  { block with locked := false, lockOrigin := -1 }

def lockTo (block : WorldBlock) : WorldBlock :=
  { block with locked := true, lockOrigin := lock }

/-- Some blocks of a world are changed. -/
def changeTiles (change : WorldBlock → WorldBlock) (tiles : List Nat) : World :=
  { world with
    blocks := world.blocks.mapIdx fun t block => if t ∈ tiles then change block else block }

/-- The tiles of the lock are released; `none` where the budget runs out. -/
def release : Option World :=
  (fill (besides world (lockedBy world lock)) (fun _ _ => false)
    (world.blocks.length + 1) [lock] []).map fun result =>
      changeTiles world unlock result.2

/-- The size of a lock. -/
def lockSize (fg : UInt16) : Nat :=
  if fg = 202 then 10 else if fg = 204 ∨ fg = 10000 then 48 else 200

/-- What is claimed where empty air is ignored. -/
def solid (t : Nat) : Bool :=
  let block := tile world t
  !block.locked &&
    ((block.fg != 0 && notMod items block t world.blocks.length) ||
      (block.bg != 0 && block.fg == 0))

/-- One of the tiles of `lock_tiles` is claimed, unless it is locked. -/
def claim (state : World × List Nat) (sq : Int × Int) : World × List Nat :=
  let t := (index sq).toNat
  if (tile state.1 t).locked = true then state
  else (changeTiles state.1 (lockTo lock) [t], state.2 ++ [t])

/-- The lock is applied to a world in which its tiles are released: the world and
the tiles that are claimed. -/
def claimTiles (budget : Nat) : Option (World × List Nat) :=
  let size := lockSize (tile world lock).fg
  if (tile world lock).invert = false then
    (lockTiles items world (lock % 100 : Nat) (lock / 100 : Nat) size budget).map
      fun tiles => tiles.foldl (claim lock) (world, [])
  else
    (fill (besides world (solid items world))
      (fun tiles _ => decide (size ≤ tiles.length)) (world.blocks.length + 1) [lock] []).map
        fun result => (changeTiles world (lockTo lock) result.2, result.2)

/-- The `reapply` button. -/
def reapply (budget : Nat) : Option (World × List Nat) := do
  claimTiles items (← release world lock) lock budget

end Definitions

section Tiles

variable {items : Items} {world : World} {lock s t : Nat} {test : Nat → Bool}

theorem mem_besides (hwide : Wide world) (hs : s < world.blocks.length) :
    t ∈ besides world test s ↔
      (Beside s t ∧ t < world.blocks.length) ∧ test t = true := by
  have hwidth := hwide.width
  rw [beside_iff hwide hs]
  unfold besides
  simp only [List.mem_append, List.mem_ite_nil_right, List.mem_singleton, or_assoc,
    or_and_right, hwidth]
  refine or_congr ?_ (or_congr ?_ (or_congr ?_ ?_))
  · have hright : s % 100 + 1 + s / 100 * 100 = s + 1 := by omega
    rw [hright]
    constructor
    · rintro ⟨⟨hx, htest⟩, rfl⟩
      exact ⟨⟨by omega, rfl⟩, htest⟩
    · rintro ⟨⟨hx, rfl⟩, htest⟩
      exact ⟨⟨by omega, htest⟩, rfl⟩
  · constructor
    · rintro ⟨⟨hx, htest⟩, rfl⟩
      exact ⟨⟨hx, by omega⟩, htest⟩
    · rintro ⟨⟨hx, ht⟩, htest⟩
      have hleft : s % 100 - 1 + s / 100 * 100 = t := by omega
      rw [hleft]
      exact ⟨⟨hx, htest⟩, rfl⟩
  · have hdown : s % 100 + (s / 100 + 1) * 100 = s + 100 := by omega
    rw [hdown]
    constructor
    · rintro ⟨⟨hy, htest⟩, rfl⟩
      exact ⟨⟨hy, rfl⟩, htest⟩
    · rintro ⟨⟨hy, rfl⟩, htest⟩
      exact ⟨⟨hy, htest⟩, rfl⟩
  · constructor
    · rintro ⟨⟨hy, htest⟩, rfl⟩
      exact ⟨⟨by omega, by omega⟩, htest⟩
    · rintro ⟨⟨hy, ht⟩, htest⟩
      have hup : s % 100 + (s / 100 - 1) * 100 = t := by omega
      rw [hup]
      exact ⟨⟨by omega, htest⟩, rfl⟩

/-- A fill from the lock ends. -/
theorem fill_ends (hwide : Wide world) (hlock : lock < world.blocks.length)
    (stop : List Nat → Nat → Bool) :
    ∃ result, fill (besides world test) stop (world.blocks.length + 1) [lock] [] =
      some result := by
  refine fill_some (Finset.range world.blocks.length) ?_ ?_ ?_
  · intro node hnode t ht
    have hinside := (mem_besides hwide (Finset.mem_range.mp hnode)).mp ht
    exact Finset.mem_range.mpr hinside.1.2
  · intro t ht
    rw [List.mem_singleton.mp ht]
    exact Finset.mem_range.mpr hlock
  · simp
    omega

/-- A fill from the lock finds tiles that pass the test. -/
theorem fill_passes (hwide : Wide world) (hlock : lock < world.blocks.length)
    {stop : List Nat → Nat → Bool} {found : Bool} {last : List Nat}
    (hfill : fill (besides world test) stop (world.blocks.length + 1) [lock] [] =
      some (found, last)) :
    ∀ t ∈ last, t < world.blocks.length ∧ test t = true := by
  obtain ⟨-, -, hlast⟩ := fill_invariant
    (fun pending marked => (∀ t ∈ pending, t < world.blocks.length) ∧
      ∀ t ∈ marked, t < world.blocks.length ∧ test t = true)
    (fun node rest marked fresh hinv _ hfresh => by
      have hnode := hinv.1 node List.mem_cons_self
      have hall : ∀ t ∈ fresh, t < world.blocks.length ∧ test t = true := fun t ht => by
        have hnext := (mem_besides hwide hnode).mp ((hfresh.mem t).mp ht).1
        exact ⟨hnext.1.2, hnext.2⟩
      constructor
      · intro t ht
        rcases List.mem_append.mp ht with h | h
        · exact hinv.1 t (List.mem_cons_of_mem node h)
        · exact (hall t h).1
      · intro t ht
        rcases List.mem_append.mp ht with h | h
        · exact hinv.2 t h
        · exact hall t h)
    ⟨fun t ht => by rwa [List.mem_singleton.mp ht], fun t ht => absurd ht List.not_mem_nil⟩
    hfill
  exact hlast

theorem lockedBy_inside (hlocked : lockedBy world lock t = true) :
    t < world.blocks.length := by
  by_contra hout
  unfold lockedBy tile at hlocked
  rw [List.getD_eq_getElem?_getD, List.getElem?_eq_none (Nat.le_of_not_lt hout)] at hlocked
  cases hlocked

theorem tile_changeTiles {change : WorldBlock → WorldBlock} {tiles : List Nat}
    (ht : t < world.blocks.length) :
    tile (changeTiles world change tiles) t =
      if t ∈ tiles then change (tile world t) else tile world t := by
  unfold tile changeTiles
  rw [List.getD_eq_getElem?_getD, List.getElem?_mapIdx, List.getD_eq_getElem?_getD,
    List.getElem?_eq_getElem ht]
  rfl

@[simp] theorem length_changeTiles {change : WorldBlock → WorldBlock} {tiles : List Nat} :
    (changeTiles world change tiles).blocks.length = world.blocks.length :=
  List.length_mapIdx

theorem changeTiles_wide {change : WorldBlock → WorldBlock} {tiles : List Nat}
    (hwide : Wide world) : Wide (changeTiles world change tiles) :=
  ⟨hwide.width, hwide.height, by rw [length_changeTiles]; exact hwide.length⟩

end Tiles

section Releasing

variable {items : Items} {world : World} {lock s t : Nat}

/-- A step to a tile of the lock. -/
def Joins (world : World) (lock s t : Nat) : Prop :=
  (Beside s t ∧ t < world.blocks.length) ∧ lockedBy world lock t = true

/-- Every tile of the lock is joined to it by tiles of the lock. -/
def Joined (world : World) (lock : Nat) : Prop :=
  ∀ t, lockedBy world lock t = true → TransGen (Joins world lock) lock t

/-- The world without the tiles of the lock. -/
def freed (world : World) (lock : Nat) : World :=
  { world with
    blocks := world.blocks.map fun (block : WorldBlock) =>
      if block.locked = true ∧ block.lockOrigin = lock then unlock block else block }

theorem joins_inside (hlock : lock < world.blocks.length)
    (hway : ReflTransGen (Joins world lock) lock t) : t < world.blocks.length := by
  induction hway with
  | refl => exact hlock
  | tail _ hstep _ => exact hstep.1.2

theorem step_joins_iff {next : Nat → List Nat} (hlock : lock < world.blocks.length)
    (hnext : ∀ s < world.blocks.length, ∀ t, t ∈ next s ↔ Joins world lock s t)
    (hway : ReflTransGen (Joins world lock) lock s) :
    Step next [] s t ↔ Joins world lock s t := by
  unfold Step
  rw [hnext s (joins_inside hlock hway)]
  exact and_iff_left List.not_mem_nil

/-- The fill goes along the tiles of the lock. -/
theorem reach_joins_iff {next : Nat → List Nat} (hlock : lock < world.blocks.length)
    (hnext : ∀ s < world.blocks.length, ∀ t, t ∈ next s ↔ Joins world lock s t) :
    Reach next [] lock t ↔ ReflTransGen (Joins world lock) lock t := by
  constructor
  · intro hreach
    induction hreach with
    | refl => exact ReflTransGen.refl
    | tail _ hstep ih => exact ih.tail ((step_joins_iff hlock hnext ih).mp hstep)
  · intro hway
    induction hway with
    | refl => exact ReflTransGen.refl
    | tail hway hjoins ih => exact ih.tail ((step_joins_iff hlock hnext hway).mpr hjoins)

/-- A fill that asks the neighbours for tiles of the lock marks the ones that are joined
to it. -/
theorem mem_fill_joins {next : Nat → List Nat} {budget : Nat} {found : Bool}
    {tiles : List Nat} (hlock : lock < world.blocks.length)
    (hnext : ∀ s < world.blocks.length, ∀ t, t ∈ next s ↔ Joins world lock s t)
    (hfill : fill next (fun _ _ => false) budget [lock] [] = some (found, tiles)) :
    t ∈ tiles ↔ TransGen (Joins world lock) lock t := by
  have hmarked : (t ∈ [] ∨ ∃ s ∈ [lock], ∃ u, Step next [] s u ∧ Reach next [] u t) ↔
      TransGen (Step next []) lock t := by
    rw [TransGen.head'_iff]
    simp [Reach]
  rw [mem_fill hfill, hmarked, TransGen.tail'_iff, TransGen.tail'_iff]
  refine exists_congr fun s => ?_
  constructor
  · rintro ⟨hreach, hstep⟩
    have hway := (reach_joins_iff hlock hnext).mp hreach
    exact ⟨hway, (step_joins_iff hlock hnext hway).mp hstep⟩
  · rintro ⟨hway, hjoins⟩
    exact ⟨(reach_joins_iff hlock hnext).mpr hway,
      (step_joins_iff hlock hnext hway).mpr hjoins⟩

/-- The tiles that are released are the ones that are joined to the lock. -/
theorem release_eq (hwide : Wide world) (hlock : lock < world.blocks.length) :
    ∃ tiles, release world lock = some (changeTiles world unlock tiles) ∧
      ∀ t, t ∈ tiles ↔ TransGen (Joins world lock) lock t := by
  obtain ⟨⟨found, tiles⟩, hfill⟩ := @fill_ends world lock (lockedBy world lock) hwide hlock
    (fun _ _ => false)
  refine ⟨tiles, ?_, fun t => mem_fill_joins hlock (fun s hs t => ?_) hfill⟩
  · unfold release
    rw [hfill]
    rfl
  · exact mem_besides hwide hs

theorem joins_lockedBy (hway : TransGen (Joins world lock) lock t) :
    lockedBy world lock t = true := by
  cases hway with
  | single hstep => exact hstep.2
  | tail _ hstep => exact hstep.2

/-- Where all tiles of the lock are joined to it, all of them are released. -/
theorem release_freed (hwide : Wide world) (hlock : lock < world.blocks.length)
    (hjoined : Joined world lock) : release world lock = some (freed world lock) := by
  obtain ⟨tiles, hrelease, hmem⟩ := release_eq hwide hlock
  rw [hrelease]
  refine congrArg (fun blocks => some { world with blocks := blocks }) ?_
  refine List.ext_getElem (by simp) fun t ht _ => ?_
  rw [List.getElem_mapIdx, List.getElem_map]
  have hinside : t < world.blocks.length := by simpa using ht
  have hlocked : lockedBy world lock t = true ↔
      world.blocks[t].locked = true ∧ world.blocks[t].lockOrigin = lock := by
    unfold lockedBy tile
    rw [List.getD_eq_getElem?_getD, List.getElem?_eq_getElem hinside, Bool.and_eq_true,
      beq_iff_eq]
    rfl
  refine if_congr ?_ rfl rfl
  rw [hmem, ← hlocked]
  exact ⟨joins_lockedBy, hjoined t⟩

end Releasing

section Claiming

variable {items : Items} {world before after : World} {lock t budget : Nat}
  {claimed : List Nat}

/-- Unlocked tiles are locked by the lock, and nothing else is changed. -/
structure Claims (before after : World) (lock : Nat) (claimed : List Nat) : Prop where
  free : ∀ t ∈ claimed, t < before.blocks.length ∧ (tile before t).locked = false
  block : ∀ t < before.blocks.length, tile after t =
    if t ∈ claimed then lockTo lock (tile before t) else tile before t
  length : after.blocks.length = before.blocks.length

theorem Claims.refl : Claims before before lock [] :=
  ⟨fun t ht => absurd ht List.not_mem_nil, fun t _ => by rw [if_neg List.not_mem_nil], rfl⟩

/-- One tile of `lock_tiles`. -/
theorem Claims.claim {sq : Int × Int} (hclaims : Claims before after lock claimed)
    (hinside : (index sq).toNat < before.blocks.length) :
    Claims before (claim lock (after, claimed) sq).1 lock
      (claim lock (after, claimed) sq).2 := by
  unfold LockReapply.claim
  dsimp only
  have hthere := hclaims.block _ hinside
  split_ifs with hlocked
  · exact hclaims
  · have hnew : (index sq).toNat ∉ claimed := fun h => by
      rw [hthere, if_pos h] at hlocked
      exact hlocked rfl
    rw [hthere, if_neg hnew, Bool.not_eq_true] at hlocked
    refine ⟨fun t ht => ?_, fun t ht => ?_, ?_⟩
    · rcases List.mem_append.mp ht with h | h
      · exact hclaims.free t h
      · rw [List.mem_singleton.mp h]
        exact ⟨hinside, hlocked⟩
    · rw [tile_changeTiles (by rw [hclaims.length]; exact ht), hclaims.block t ht]
      by_cases hsame : t = (index sq).toNat
      · subst hsame
        simp [hnew]
      · simp [hsame]
    · rw [length_changeTiles, hclaims.length]

theorem claim_length (state : World × List Nat) (sq : Int × Int) :
    (claim lock state sq).2.length ≤ state.2.length + 1 := by
  unfold claim
  dsimp only
  split_ifs
  · exact Nat.le_succ _
  · rw [List.length_append]
    exact le_refl _

theorem foldl_claim {tiles : List (Int × Int)} (hclaims : Claims before after lock claimed)
    (hinside : ∀ sq ∈ tiles, (index sq).toNat < before.blocks.length) :
    Claims before (tiles.foldl (claim lock) (after, claimed)).1 lock
        (tiles.foldl (claim lock) (after, claimed)).2 ∧
      (tiles.foldl (claim lock) (after, claimed)).2.length ≤
        claimed.length + tiles.length := by
  induction tiles generalizing after claimed with
  | nil => exact ⟨hclaims, le_refl _⟩
  | cons sq tiles ih =>
      rw [List.foldl_cons]
      have hfirst := hclaims.claim (hinside sq List.mem_cons_self)
      have hlength := @claim_length lock (after, claimed) sq
      obtain ⟨hall, hroom⟩ := ih hfirst fun sq h => hinside sq (List.mem_cons_of_mem _ h)
      refine ⟨hall, hroom.trans ?_⟩
      rw [List.length_cons]
      dsimp only at hlength
      omega

theorem free_inside {sq : Int × Int} (hfree : free items before sq = some true) :
    (index sq).toNat < before.blocks.length := by
  unfold free at? at hfree
  obtain ⟨block, hblock, -⟩ := Option.map_eq_some_iff.mp hfree
  split_ifs at hblock
  exact (List.getElem?_eq_some_iff.mp hblock).1

theorem solid_free (hsolid : solid items before t = true) : (tile before t).locked = false := by
  unfold solid at hsolid
  cases hlocked : (tile before t).locked with
  | false => rfl
  | true =>
      dsimp only at hsolid
      rw [hlocked] at hsolid
      cases hsolid

theorem claims_changeTiles {tiles : List Nat}
    (hfree : ∀ t ∈ tiles, t < before.blocks.length ∧ (tile before t).locked = false) :
    Claims before (changeTiles before (lockTo lock) tiles) lock tiles :=
  ⟨hfree, fun _ ht => tile_changeTiles ht, length_changeTiles⟩

/-- Applying the lock claims unlocked tiles; without the second fill there are not too
many of them. -/
theorem claimTiles_claims (hwide : Wide before) (hlock : lock < before.blocks.length)
    (hclaim : claimTiles items before lock budget = some (after, claimed)) :
    Claims before after lock claimed := by
  unfold claimTiles at hclaim
  dsimp only at hclaim
  split_ifs at hclaim with hinvert
  · obtain ⟨tiles, htiles, hresult⟩ := Option.map_eq_some_iff.mp hclaim
    have hfree := (lockTiles_free htiles).2
    obtain ⟨hall, -⟩ := @foldl_claim before before lock [] tiles Claims.refl
      fun sq h => free_inside (hfree sq h)
    rw [hresult] at hall
    exact hall
  · obtain ⟨⟨found, tiles⟩, hfill, hresult⟩ := Option.map_eq_some_iff.mp hclaim
    cases hresult
    refine claims_changeTiles fun t ht => ?_
    obtain ⟨hinside, hsolid⟩ := fill_passes hwide hlock hfill t ht
    exact ⟨hinside, solid_free hsolid⟩

end Claiming

section Keeping

variable {items : Items} {world after : World} {lock t budget : Nat} {claimed : List Nat}

/-- What is expected: no tile is locked by the lock that is not newly claimed, the
size is kept, and no tile of another lock is taken. -/
structure Kept (world after : World) (lock : Nat) (claimed : List Nat) : Prop where
  only : ∀ t, lockedBy after lock t = true → t ∈ claimed
  room : claimed.length ≤ lockSize (tile world lock).fg
  own : ∀ t ∈ claimed, (tile world t).locked = true → (tile world t).lockOrigin = lock

/-- The second fill meets the size of the lock, or ends below it. -/
def Fits (items : Items) (world : World) (lock size : Nat) : Prop :=
  let found k := (worked (besides world (solid items world)) k ([lock], [])).2.length
  (∃ k, found k = size) ∨ ∀ k, found k ≤ size

/-- `lock_tiles` ends. -/
def Ends (items : Items) (world : World) (lock size : Nat) : Prop :=
  ∃ budget tiles, lockTiles items world (lock % 100 : Nat) (lock / 100 : Nat) size budget =
    some tiles

theorem tile_freed (ht : t < world.blocks.length) :
    tile (freed world lock) t =
      if lockedBy world lock t = true then unlock (tile world t) else tile world t := by
  unfold lockedBy tile freed
  rw [List.getD_eq_getElem?_getD, List.getElem?_map, List.getD_eq_getElem?_getD,
    List.getElem?_eq_getElem ht]
  simp only [Option.map_some, Option.getD_some, Bool.and_eq_true, beq_iff_eq]

theorem freed_wide (hwide : Wide world) : Wide (freed world lock) :=
  ⟨hwide.width, hwide.height, by unfold freed; rw [List.length_map]; exact hwide.length⟩

/-- Freeing leaves the item and the mode of a lock. -/
theorem freed_kind (ht : t < world.blocks.length) :
    (tile (freed world lock) t).fg = (tile world t).fg ∧
      (tile (freed world lock) t).invert = (tile world t).invert := by
  rw [tile_freed ht]
  split_ifs
  · exact ⟨rfl, rfl⟩
  · exact ⟨rfl, rfl⟩

/-- What is still locked by the lock after the release stays locked. -/
theorem Kept.joined (hwide : Wide world) (hlock : lock < world.blocks.length)
    (hreapply : reapply items world lock budget = some (after, claimed))
    (hkept : Kept world after lock claimed) : Joined world lock := by
  intro t hlocked
  have ht := lockedBy_inside hlocked
  obtain ⟨tiles, hrelease, hmem⟩ := release_eq hwide hlock
  unfold reapply at hreapply
  rw [hrelease] at hreapply
  have hclaims := claimTiles_claims (changeTiles_wide hwide)
    (by rw [length_changeTiles]; exact hlock) hreapply
  by_contra hapart
  have hbefore : tile (changeTiles world unlock tiles) t = tile world t := by
    rw [tile_changeTiles ht, if_neg fun h => hapart ((hmem t).mp h)]
  have hnew : t ∉ claimed := fun h => by
    have hfree := (hclaims.free t h).2
    rw [hbefore] at hfree
    unfold lockedBy at hlocked
    rw [hfree] at hlocked
    cases hlocked
  have hafter := hclaims.block t (by rw [length_changeTiles]; exact ht)
  rw [if_neg hnew, hbefore] at hafter
  apply hnew
  apply hkept.only
  unfold lockedBy at hlocked ⊢
  rw [hafter]
  exact hlocked

/-- From the world without the tiles of the lock only the size is a question. -/
theorem Claims.kept_iff (hclaims : Claims (freed world lock) after lock claimed) :
    Kept world after lock claimed ↔ claimed.length ≤ lockSize (tile world lock).fg := by
  have hlength : (freed world lock).blocks.length = world.blocks.length := List.length_map _
  refine ⟨fun hkept => hkept.room, fun hroom => ⟨fun t ht => ?_, hroom, fun t ht hlocked => ?_⟩⟩
  · have hinside := lockedBy_inside ht
    rw [hclaims.length] at hinside
    by_contra hnew
    have hafter := hclaims.block t hinside
    rw [if_neg hnew, tile_freed (hlength ▸ hinside)] at hafter
    unfold lockedBy at ht
    rw [hafter] at ht
    split_ifs at ht with hold
    · cases ht
    · exact hold ht
  · obtain ⟨hinside, hfree⟩ := hclaims.free t ht
    rw [tile_freed (hlength ▸ hinside)] at hfree
    split_ifs at hfree with hold
    · unfold lockedBy at hold
      rw [Bool.and_eq_true, beq_iff_eq] at hold
      exact hold.2
    · rw [hlocked] at hfree
      cases hfree

/-- When a lock claims no more than its size. -/
theorem claimTiles_room_iff (hwide : Wide world) (hlock : lock < world.blocks.length) :
    (∃ budget after claimed, claimTiles items world lock budget = some (after, claimed) ∧
        claimed.length ≤ lockSize (tile world lock).fg) ↔
      if (tile world lock).invert = true
      then Fits items world lock (lockSize (tile world lock).fg)
      else Ends items world lock (lockSize (tile world lock).fg) := by
  unfold claimTiles
  dsimp only
  cases hinvert : (tile world lock).invert with
  | true =>
      rw [if_pos rfl]
      simp only [Bool.true_eq_false, if_false]
      obtain ⟨⟨found, tiles⟩, hfill⟩ := @fill_ends world lock (solid items world) hwide hlock
        fun tiles _ => decide (lockSize (tile world lock).fg ≤ tiles.length)
      rw [hfill]
      constructor
      · rintro ⟨_, _, claimed, hresult, hroom⟩
        cases hresult
        exact (fill_length_le_iff hfill).mp hroom
      · intro hfits
        exact ⟨0, _, tiles, rfl, (fill_length_le_iff hfill).mpr hfits⟩
  | false =>
      rw [if_neg (by decide)]
      simp only [if_true]
      constructor
      · rintro ⟨budget, _, _, hresult, -⟩
        obtain ⟨tiles, htiles, -⟩ := Option.map_eq_some_iff.mp hresult
        exact ⟨budget, tiles, htiles⟩
      · rintro ⟨budget, tiles, htiles⟩
        obtain ⟨hroom, hfree⟩ := lockTiles_free htiles
        obtain ⟨-, hcount⟩ := @foldl_claim world world lock [] tiles Claims.refl
          fun sq h => free_inside (hfree sq h)
        rw [List.length_nil, Nat.zero_add] at hcount
        exact ⟨budget, _, _, by rw [htiles]; rfl, hcount.trans hroom⟩

/-- The `reapply` button does what is expected exactly where every tile of the lock
is joined to it and, where empty air is ignored, the second fill meets the size of the
lock or ends below it; otherwise where `lock_tiles` ends. -/
theorem reapply_kept_iff (hwide : Wide world) (hlock : lock < world.blocks.length) :
    (∃ budget after claimed, reapply items world lock budget = some (after, claimed) ∧
        Kept world after lock claimed) ↔
      Joined world lock ∧
        if (tile world lock).invert = true
        then Fits items (freed world lock) lock (lockSize (tile world lock).fg)
        else Ends items (freed world lock) lock (lockSize (tile world lock).fg) := by
  have hfreed : Wide (freed world lock) := freed_wide hwide
  have hinside : lock < (freed world lock).blocks.length := by
    rw [freed, List.length_map]
    exact hlock
  have hroom := @claimTiles_room_iff items (freed world lock) lock hfreed hinside
  obtain ⟨hfg, hinvert⟩ := @freed_kind world lock lock hlock
  rw [hfg, hinvert] at hroom
  rw [← hroom]
  have hrun : ∀ budget, Joined world lock → reapply items world lock budget =
      claimTiles items (freed world lock) lock budget := by
    intro budget hjoined
    unfold reapply
    rw [release_freed hwide hlock hjoined]
    rfl
  constructor
  · rintro ⟨budget, after, claimed, hreapply, hkept⟩
    have hjoined := hkept.joined hwide hlock hreapply
    rw [hrun budget hjoined] at hreapply
    exact ⟨hjoined, budget, after, claimed, hreapply, hkept.room⟩
  · rintro ⟨hjoined, budget, after, claimed, hclaim, hle⟩
    refine ⟨budget, after, claimed, (hrun budget hjoined).trans hclaim, ?_⟩
    exact (claimTiles_claims hfreed hinside hclaim).kept_iff.mpr hle

/-- Where empty air is ignored there is always a result. -/
theorem claimTiles_ends (hwide : Wide world) (hlock : lock < world.blocks.length)
    (hinvert : (tile world lock).invert = true) :
    ∃ result, claimTiles items world lock budget = some result := by
  obtain ⟨⟨found, last⟩, hfill⟩ := @fill_ends world lock (solid items world) hwide hlock
    fun tiles _ => decide (lockSize (tile world lock).fg ≤ tiles.length)
  refine ⟨(changeTiles world (lockTo lock) last, last), ?_⟩
  unfold claimTiles
  rw [hinvert, if_neg (by decide), hfill]
  rfl

theorem reapply_ends (hwide : Wide world) (hlock : lock < world.blocks.length)
    (hinvert : (tile world lock).invert = true) :
    ∃ result, reapply items world lock budget = some result := by
  obtain ⟨tiles, hrelease, -⟩ := release_eq hwide hlock
  unfold reapply
  rw [hrelease]
  apply claimTiles_ends (changeTiles_wide hwide)
  · rw [length_changeTiles]
    exact hlock
  · rw [tile_changeTiles hlock]
    split_ifs
    · exact hinvert
    · exact hinvert

end Keeping

section Example

def lockItems : Items :=
  ⟨300, fun id => if id = 202 then { blockType := .lock } else {}⟩

/-- A lock in air, with a tile that is not joined to it. -/
def orphaned : World where
  maxX := 100
  maxY := 1
  blocks := { fg := 202, invert := true } :: List.replicate 4 {} ++
    { locked := true, lockOrigin := 0 } :: List.replicate 94 {}

/-- A lock at the border of a filled world. -/
def filled : World where
  maxX := 100
  maxY := 5
  blocks := List.replicate 200 { fg := 2 } ++
    { fg := 202, invert := true } :: List.replicate 299 { fg := 2 }

-- the fifth tile that is worked off leads from eight tiles to eleven
example : (claimTiles lockItems filled 200 0).map (fun result => result.2.length) =
    some 11 := by decide +kernel

/-- A tile that is not joined to the lock stays locked. -/
theorem reapply_leaves_tiles :
    ¬ ∀ items world lock budget after claimed, Wide world → lock < world.blocks.length →
      reapply items world lock budget = some (after, claimed) →
      Kept world after lock claimed := by
  intro hclaim
  have hwide : Wide orphaned := ⟨rfl, by decide, rfl⟩
  have hlock : 0 < orphaned.blocks.length := by decide
  obtain ⟨⟨after, claimed⟩, hreapply⟩ :=
    @reapply_ends lockItems orphaned 0 0 hwide hlock rfl
  have hkept := hclaim lockItems orphaned 0 0 after claimed hwide hlock hreapply
  have hway := hkept.joined hwide hlock hreapply 5 (by decide)
  obtain ⟨t, ⟨⟨hbeside, hinside⟩, hlocked⟩, -⟩ := TransGen.head'_iff.mp hway
  have hlast : t < 100 := hinside
  have hnext : t = 1 := by
    unfold Beside at hbeside
    omega
  rw [hnext] at hlocked
  cases hlocked

/-- A lock in air, with two tiles of its own. -/
def joinedLock : World where
  maxX := 100
  maxY := 1
  blocks := { fg := 202, invert := true } ::
    { fg := 2, locked := true, lockOrigin := 0 } ::
    { locked := true, lockOrigin := 0 } :: List.replicate 97 {}

theorem reapply_kept_joined :
    ∃ budget after claimed, reapply lockItems joinedLock 0 budget = some (after, claimed) ∧
      Kept joinedLock after 0 claimed := by
  refine (reapply_kept_iff ⟨rfl, by decide, rfl⟩ (by decide)).mpr ⟨fun t ht => ?_, ?_⟩
  · have hfirst : TransGen (Joins joinedLock 0) 0 1 :=
      TransGen.single ⟨⟨Or.inl ⟨rfl, Or.inl rfl⟩, by decide⟩, by decide⟩
    have howned : ∀ t < 100, lockedBy joinedLock 0 t = true → t = 1 ∨ t = 2 := by decide
    rcases howned t (lockedBy_inside ht) ht with rfl | rfl
    · exact hfirst
    · exact hfirst.tail ⟨⟨Or.inl ⟨rfl, Or.inl rfl⟩, by decide⟩, by decide⟩
  · rw [if_pos (by decide)]
    refine Or.inr fun k => ?_
    -- after the lock and the tile beside it the fill has ended
    have hdone : worked (besides (freed joinedLock 0)
        (solid lockItems (freed joinedLock 0))) 2 ([0], []) = ([], [1]) := by decide
    refine (worked_length_mono (Nat.le_add_left k 2) _).trans ?_
    rw [worked_add, hdone, worked_nil]
    decide

end Example

end LockReapply

end NopyServer
