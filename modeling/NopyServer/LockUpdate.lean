/-
The area of a lock as the players see it: `upd_lock` collects the tiles of a lock by a
search that marks them in the blocks, sends their numbers to everyone in the world and
takes the marks away again.

The search is a flood fill of the library; the marks in the blocks are its marks as long
as none is set before.
-/
import NopyServer.LockReapply
import NopyServer.VisualBounds

namespace NopyServer

namespace LockUpdate

open FloodFill PatchPath LockReapply Relation

section Definitions

/-- A world with the `scanned` flags of its blocks. -/
structure ScanWorld extends World where
  scanned : List Bool
  sized : scanned.length = blocks.length

def ScanWorld.mark (w : ScanWorld) (t : Nat) (flag : Bool) : ScanWorld :=
  { w with scanned := w.scanned.set t flag, sized := by rw [List.length_set, w.sized] }

/-- No flag is set. -/
def ScanWorld.Clean (w : ScanWorld) : Prop :=
  ∀ t, w.scanned.getD t false = false

/-- The number of a tile in rows of a hundred. -/
def number (tile : Nat × Nat) : Nat := tile.1 + tile.2 * 100

/-- The neighbours of a tile that lie in the world, in the order of the source. -/
def around (world : World) (sq : Nat) : List (Nat × Nat) :=
  let x := sq % 100
  let y := sq / 100
  let inside := fun tile : Nat × Nat => number tile < world.blocks.length
  (if (x : Int) + 1 < world.maxX ∧ inside (x + 1, y) then [(x + 1, y)] else []) ++
  (if 0 < x ∧ inside (x - 1, y) then [(x - 1, y)] else []) ++
  (if (y : Int) + 1 < world.maxY ∧ inside (x, y + 1) then [(x, y + 1)] else []) ++
  (if 0 < y ∧ inside (x, y - 1) then [(x, y - 1)] else [])

/-- What is left of `new_tiles`, and `locked_tiles_around_lock`. -/
structure Scan where
  newTiles : List Nat
  lockedTiles : List (Nat × Nat)
  world : ScanWorld

def visit (origin : Nat) (scan : Scan) (nb : Nat × Nat) : Scan :=
  let t := number nb
  if lockedBy scan.world.toWorld origin t = true ∧ scan.world.scanned.getD t false = false then
    { newTiles := scan.newTiles ++ [t]
      lockedTiles := scan.lockedTiles ++ [nb]
      world := scan.world.mark t true }
  else scan

/-- The loop over `new_tiles`; `none` where the budget runs out. -/
def search (origin : Nat) : Nat → Scan → Option Scan
  | _, ⟨[], lockedTiles, world⟩ => some ⟨[], lockedTiles, world⟩
  | 0, ⟨_ :: _, _, _⟩ => none
  | budget + 1, ⟨sq :: rest, lockedTiles, world⟩ =>
      search origin budget
        ((around world.toWorld sq).foldl (visit origin) ⟨rest, lockedTiles, world⟩)

/-- The two packets: the tiles of a lock, and the lock as `form_visual` writes it. -/
structure LockReport where
  punchX : Nat
  punchY : Nat
  netID : UInt32
  plantingTree : UInt16
  lockedTiles : List (Nat × Nat)
  visual : Option (List UInt8)

/-- The number of tiles, in two bytes. -/
def LockReport.lockSize (report : LockReport) : UInt16 := UInt16.ofNat report.lockedTiles.length

/-- The numbers of the tiles, two bytes each. -/
def LockReport.cells (report : LockReport) : List UInt16 :=
  report.lockedTiles.map fun tile => UInt16.ofNat (number tile)

variable (items : FormVisual.VisualItems) (guilds : List Guild) (players : List Player)
  (now : Int) (peer : Player)

/-- `upd_lock`: the world after it, and what is sent; `none` where the budget runs out. -/
def updLock (budget : Nat) (before : ScanWorld) (block2 : WorldBlock) :
    Option (ScanWorld × Option LockReport) :=
  let x := block2.lockOrigin.toNat % 100
  let y := block2.lockOrigin.toNat / 100
  let origin := number (x, y)
  let block := tile before.toWorld origin
  if before.blocks = [] ∨ block2.lockOrigin < 0 ∨ before.blocks.length ≤ origin ∨
      items.blockType block.fg ≠ .lock then
    some (before, none)
  else
    (search origin budget ⟨[origin], [], before⟩).map fun scan =>
      (scan.lockedTiles.foldl (fun world nb => world.mark (number nb) false) scan.world,
        some {
          punchX := x
          punchY := y
          netID := FormVisual.nameToNumber (toLower block.ownerName)
          plantingTree := block.fg
          lockedTiles := scan.lockedTiles
          visual := FormVisual.tileUpdate items guilds players now before.toWorld
            { block with } peer })

end Definitions

section Marks

variable {w : ScanWorld} {t u : Nat} {flag : Bool}

@[simp] theorem mark_toWorld : (w.mark t flag).toWorld = w.toWorld := rfl

theorem scanned_mark (ht : t < w.blocks.length) :
    (w.mark t flag).scanned.getD u false = if u = t then flag else w.scanned.getD u false := by
  have hsized := w.sized
  simp only [ScanWorld.mark, List.getD_eq_getElem?_getD, List.getElem?_set]
  by_cases hut : u = t
  · rw [if_pos hut.symm, if_pos hut, if_pos (by omega), Option.getD_some]
  · rw [if_neg (Ne.symm hut), if_neg hut]

theorem ScanWorld.ext_flags {w w' : ScanWorld} (hworld : w.toWorld = w'.toWorld)
    (hflags : ∀ t, w.scanned.getD t false = w'.scanned.getD t false) : w = w' := by
  obtain ⟨world, scanned, hsized⟩ := w
  obtain ⟨world', scanned', hsized'⟩ := w'
  dsimp only at hworld hflags hsized hsized'
  subst hworld
  have hscanned : scanned = scanned' := by
    refine List.ext_getElem (hsized.trans hsized'.symm) fun t ht ht' => ?_
    have hflag := hflags t
    rwa [List.getD_eq_getElem?_getD, List.getD_eq_getElem?_getD, List.getElem?_eq_getElem ht,
      List.getElem?_eq_getElem ht'] at hflag
  subst hscanned
  rfl

/-- Taking the marks of some tiles away. -/
theorem scanned_unmark (tiles : List (Nat × Nat)) :
    ∀ w : ScanWorld, (∀ nb ∈ tiles, number nb < w.blocks.length) →
      (tiles.foldl (fun world nb => world.mark (number nb) false) w).toWorld = w.toWorld ∧
        ∀ t, (tiles.foldl (fun world nb => world.mark (number nb) false) w).scanned.getD t false =
          if t ∈ tiles.map number then false else w.scanned.getD t false := by
  induction tiles with
  | nil =>
      intro w _
      exact ⟨rfl, fun t => by simp⟩
  | cons nb tiles ih =>
      intro w hinside
      obtain ⟨hworld, hflags⟩ := ih (w.mark (number nb) false)
        fun nb' hnb' => hinside nb' (List.mem_cons_of_mem nb hnb')
      refine ⟨hworld, fun t => ?_⟩
      rw [List.foldl_cons, hflags, scanned_mark (hinside nb List.mem_cons_self), List.map_cons]
      by_cases ht : t ∈ tiles.map number
      · simp [ht]
      · by_cases hnb : t = number nb
        · simp [hnb]
        · simp [ht, hnb]

end Marks

section Searching

variable {world : World} {origin : Nat}

/-- The neighbours with the origin of the lock. -/
def owned (world : World) (origin s : Nat) : List Nat :=
  ((around world s).map number).filter (lockedBy world origin)

theorem mem_around {s : Nat} {nb : Nat × Nat} :
    nb ∈ around world s ↔ number nb < world.blocks.length ∧
      (((s % 100 : Nat) + 1 < world.maxX ∧ nb = (s % 100 + 1, s / 100)) ∨
        (0 < s % 100 ∧ nb = (s % 100 - 1, s / 100)) ∨
        ((s / 100 : Nat) + 1 < world.maxY ∧ nb = (s % 100, s / 100 + 1)) ∨
        (0 < s / 100 ∧ nb = (s % 100, s / 100 - 1))) := by
  simp only [around, List.mem_append, List.mem_ite_nil_right, List.mem_singleton]
  constructor
  · rintro (((⟨⟨hx, h⟩, rfl⟩ | ⟨⟨hx, h⟩, rfl⟩) | ⟨⟨hy, h⟩, rfl⟩) | ⟨⟨hy, h⟩, rfl⟩)
    · exact ⟨h, Or.inl ⟨hx, rfl⟩⟩
    · exact ⟨h, Or.inr (Or.inl ⟨hx, rfl⟩)⟩
    · exact ⟨h, Or.inr (Or.inr (Or.inl ⟨hy, rfl⟩))⟩
    · exact ⟨h, Or.inr (Or.inr (Or.inr ⟨hy, rfl⟩))⟩
  · rintro ⟨h, ⟨hx, rfl⟩ | ⟨hx, rfl⟩ | ⟨hy, rfl⟩ | ⟨hy, rfl⟩⟩
    · exact Or.inl (Or.inl (Or.inl ⟨⟨hx, h⟩, rfl⟩))
    · exact Or.inl (Or.inl (Or.inr ⟨⟨hx, h⟩, rfl⟩))
    · exact Or.inl (Or.inr ⟨⟨hy, h⟩, rfl⟩)
    · exact Or.inr ⟨⟨hy, h⟩, rfl⟩

theorem mem_owned (hwide : Wide world) (s : Nat) (hs : s < world.blocks.length) (t : Nat) :
    t ∈ owned world origin s ↔ Joins world origin s t := by
  have hwidth := hwide.width
  have hlength := hwide.length
  unfold owned Joins
  rw [List.mem_filter, List.mem_map, beside_iff hwide hs]
  refine and_congr_left fun _ => ?_
  simp only [mem_around, hwidth]
  constructor
  · rintro ⟨nb, ⟨hinside, ⟨hx, rfl⟩ | ⟨hx, rfl⟩ | ⟨hy, rfl⟩ | ⟨hy, rfl⟩⟩, rfl⟩
    · exact Or.inl ⟨by omega, by simp [number]; omega⟩
    · exact Or.inr (Or.inl ⟨hx, by simp [number]; omega⟩)
    · exact Or.inr (Or.inr (Or.inl ⟨by omega, by simp [number]; omega⟩))
    · exact Or.inr (Or.inr (Or.inr ⟨by omega, by simp [number]; omega⟩))
  · rintro (⟨hx, rfl⟩ | ⟨hx, ht⟩ | ⟨hy, rfl⟩ | ⟨hy, ht⟩)
    · have hnumber : number (s % 100 + 1, s / 100) = s + 1 := by
        simp [number]
        omega
      exact ⟨_, ⟨by omega, Or.inl ⟨by omega, rfl⟩⟩, hnumber⟩
    · have hnumber : number (s % 100 - 1, s / 100) = t := by
        simp [number]
        omega
      exact ⟨_, ⟨by omega, Or.inr (Or.inl ⟨hx, rfl⟩)⟩, hnumber⟩
    · have hnumber : number (s % 100, s / 100 + 1) = s + 100 := by
        simp [number]
        omega
      exact ⟨_, ⟨by omega, Or.inr (Or.inr (Or.inl ⟨by omega, rfl⟩))⟩, hnumber⟩
    · have hnumber : number (s % 100, s / 100 - 1) = t := by
        simp [number]
        omega
      exact ⟨_, ⟨by omega, Or.inr (Or.inr (Or.inr ⟨by omega, rfl⟩))⟩, hnumber⟩

/-- The state of a scan, and the queue and the marks of a fill. -/
structure Matches (before : ScanWorld) (scan : Scan) (pending marked : List Nat) : Prop where
  queue : scan.newTiles = pending
  found : scan.lockedTiles.map number = marked
  world : scan.world.toWorld = before.toWorld
  flags : ∀ t, scan.world.scanned.getD t false = decide (t ∈ marked)
  inside : ∀ t ∈ marked, t < before.blocks.length

theorem Matches.visit (origin : Nat) {before : ScanWorld} {scan : Scan} {pending marked : List Nat}
    (hmatches : Matches before scan pending marked) {nb : Nat × Nat}
    (hinside : number nb < before.blocks.length) :
    Matches before (visit origin scan nb)
      (([number nb].filter (lockedBy before.toWorld origin)).foldl push (pending, marked)).1
      (([number nb].filter (lockedBy before.toWorld origin)).foldl push
        (pending, marked)).2 := by
  have hflag := hmatches.flags (number nb)
  unfold LockUpdate.visit
  simp only [hmatches.world, hflag, decide_eq_false_iff_not]
  by_cases hlocked : lockedBy before.toWorld origin (number nb) = true
  · by_cases hmarked : number nb ∈ marked
    · simp only [hlocked, hmarked, not_true, and_false, if_false, List.filter_singleton, if_true,
        List.foldl_cons, List.foldl_nil, push, cond_true]
      exact hmatches
    · simp only [hlocked, hmarked, not_false_iff, and_self, if_true, List.filter_singleton,
        List.foldl_cons, List.foldl_nil, push, if_false, cond_true]
      have hlength := congrArg (fun world : World => world.blocks.length) hmatches.world
      refine ⟨?_, ?_, hmatches.world, fun t => ?_, fun t ht => ?_⟩
      · rw [hmatches.queue]
      · rw [List.map_append, hmatches.found]
        rfl
      · rw [scanned_mark (by omega), hmatches.flags]
        by_cases ht : t = number nb <;> simp [ht]
      · rcases List.mem_append.mp ht with h | h
        · exact hmatches.inside t h
        · rwa [List.mem_singleton.mp h]
  · simp only [hlocked, false_and, if_false, List.filter_singleton, Bool.false_eq_true,
      List.foldl_nil, cond_false]
    exact hmatches

theorem Matches.visits (origin : Nat) {before : ScanWorld} (candidates : List (Nat × Nat)) :
    ∀ {scan : Scan} {pending marked : List Nat}, Matches before scan pending marked →
      (∀ nb ∈ candidates, number nb < before.blocks.length) →
      Matches before (candidates.foldl (LockUpdate.visit origin) scan)
        (((candidates.map number).filter (lockedBy before.toWorld origin)).foldl push
          (pending, marked)).1
        (((candidates.map number).filter (lockedBy before.toWorld origin)).foldl push
          (pending, marked)).2 := by
  induction candidates with
  | nil =>
      intro scan pending marked hmatches _
      exact hmatches
  | cons nb candidates ih =>
      intro scan pending marked hmatches hinside
      have hfirst := hmatches.visit origin (hinside nb List.mem_cons_self)
      have hrest := ih hfirst fun nb' hnb' => hinside nb' (List.mem_cons_of_mem nb hnb')
      have hsplit : (nb :: candidates).map number = [number nb] ++ candidates.map number := rfl
      rw [hsplit, List.filter_append, List.foldl_append]
      exact hrest

/-- The search is the fill. -/
theorem search_matches {before : ScanWorld} {budget : Nat} :
    ∀ {scan : Scan} {pending marked last : List Nat} {found : Bool},
      Matches before scan pending marked →
      fill (owned before.toWorld origin) (fun _ _ => false) budget pending marked =
        some (found, last) →
      ∃ final, search origin budget scan = some final ∧ Matches before final [] last := by
  induction budget with
  | zero =>
      intro scan pending marked last found hmatches hfill
      obtain ⟨newTiles, lockedTiles, world⟩ := scan
      cases pending with
      | nil =>
          cases hfill
          cases hmatches.queue
          exact ⟨_, rfl, hmatches⟩
      | cons sq rest => cases hfill
  | succ budget ih =>
      intro scan pending marked last found hmatches hfill
      obtain ⟨newTiles, lockedTiles, world⟩ := scan
      cases pending with
      | nil =>
          cases hfill
          cases hmatches.queue
          exact ⟨_, rfl, hmatches⟩
      | cons sq rest =>
          cases hmatches.queue
          have hpopped : Matches before ⟨rest, lockedTiles, world⟩ rest marked :=
            ⟨rfl, hmatches.found, hmatches.world, hmatches.flags, hmatches.inside⟩
          have hworld : world.toWorld = before.toWorld := hmatches.world
          have hstep := hpopped.visits origin (around before.toWorld sq)
            fun nb hnb => (mem_around.mp hnb).1
          unfold fill at hfill
          rw [if_neg Bool.false_ne_true] at hfill
          unfold search
          rw [hworld]
          exact ih hstep hfill

theorem search_joins {before : ScanWorld} (hwide : Wide before.toWorld)
    (hclean : before.Clean) (horigin : origin < before.blocks.length) :
    ∃ final tiles,
      search origin (before.blocks.length + 1) ⟨[origin], [], before⟩ = some final ∧
        Matches before final [] tiles ∧ tiles.Nodup ∧
        ∀ t, t ∈ tiles ↔ TransGen (Joins before.toWorld origin) origin t := by
  have hnext := @mem_owned before.toWorld origin hwide
  obtain ⟨⟨found, tiles⟩, hfill⟩ :
      ∃ result, fill (owned before.toWorld origin) (fun _ _ => false)
        (before.blocks.length + 1) [origin] [] = some result := by
    refine fill_some (Finset.range before.blocks.length) ?_ ?_ ?_
    · intro s hs t ht
      have hjoins := (hnext s (Finset.mem_range.mp hs) t).mp ht
      exact Finset.mem_range.mpr hjoins.1.2
    · intro t ht
      rwa [List.mem_singleton.mp ht, Finset.mem_range]
    · simp
      omega
  have hstart : Matches before ⟨[origin], [], before⟩ [origin] [] :=
    ⟨rfl, rfl, rfl, fun t => hclean t, fun t ht => absurd ht List.not_mem_nil⟩
  obtain ⟨final, hsearch, hmatches⟩ := search_matches hstart hfill
  exact ⟨final, tiles, hsearch, hmatches, fill_nodup List.nodup_nil hfill,
    fun t => mem_fill_joins horigin hnext hfill⟩

/-- The marks are taken away from all tiles that were found. -/
theorem Matches.unmark {before : ScanWorld} {final : Scan} {pending marked : List Nat}
    (hmatches : Matches before final pending marked) (hclean : before.Clean) :
    final.lockedTiles.foldl (fun world nb => world.mark (number nb) false) final.world =
      before := by
  have hblocks : final.world.blocks = before.blocks :=
    congrArg World.blocks hmatches.world
  obtain ⟨hworld, hflags⟩ := scanned_unmark final.lockedTiles final.world fun nb hnb => by
    rw [hblocks]
    refine hmatches.inside _ ?_
    rw [← hmatches.found]
    exact List.mem_map_of_mem hnb
  refine ScanWorld.ext_flags (hworld.trans hmatches.world) fun t => ?_
  rw [hflags, hmatches.found, hmatches.flags, hclean]
  split
  · rfl
  · simp_all

end Searching

section Reporting

variable {items : FormVisual.VisualItems} {guilds : List Guild} {players : List Player}
  {now : Int} {peer : Player} {before : ScanWorld} {block2 : WorldBlock}

/-- The block belongs to a lock at this tile. -/
def LockAt (items : FormVisual.VisualItems) (world : World) (block2 : WorldBlock)
    (lock : Nat) : Prop :=
  block2.lockOrigin = lock ∧ lock < world.blocks.length ∧
    items.blockType (tile world lock).fg = .lock

/-- A report has the tiles joined to a lock, each once. -/
structure Reports (world : World) (lock : Nat) (report : LockReport) : Prop where
  place : report.punchX = lock % 100 ∧ report.punchY = lock / 100
  nodup : (report.lockedTiles.map number).Nodup
  mem : ∀ t, t ∈ report.lockedTiles.map number ↔ TransGen (Joins world lock) lock t

/-- Without a lock at its origin nothing is sent for a block. -/
theorem updLock_none (budget : Nat) (hlock : ¬ ∃ lock, LockAt items before.toWorld block2 lock) :
    updLock items guilds players now peer budget before block2 = some (before, none) := by
  unfold updLock
  refine if_pos ?_
  by_contra hall
  simp only [not_or, not_le, ne_eq, not_not, number] at hall
  obtain ⟨-, horigin, hinside, hkind⟩ := hall
  have hnumber : block2.lockOrigin.toNat % 100 + block2.lockOrigin.toNat / 100 * 100 =
      block2.lockOrigin.toNat := by omega
  simp only [hnumber] at hinside hkind
  exact hlock ⟨block2.lockOrigin.toNat, by omega, hinside, hkind⟩

theorem updLock_some (hwide : Wide before.toWorld) (hclean : before.Clean) {lock : Nat}
    (hlock : LockAt items before.toWorld block2 lock) :
    ∃ report,
      updLock items guilds players now peer (before.blocks.length + 1) before block2 =
        some (before, some report) ∧ Reports before.toWorld lock report := by
  obtain ⟨horigin, hinside, hkind⟩ := hlock
  have hnat : block2.lockOrigin.toNat = lock := by omega
  have hnumber : number (lock % 100, lock / 100) = lock := by
    simp [number]
    omega
  obtain ⟨final, tiles, hsearch, hmatches, hnodup, hmem⟩ := search_joins hwide hclean hinside
  unfold updLock
  simp only [hnat, hnumber]
  rw [if_neg, hsearch, Option.map_some, hmatches.unmark hclean]
  · refine ⟨_, rfl, ⟨rfl, rfl⟩, ?_, ?_⟩
    · rw [hmatches.found]
      exact hnodup
    · rw [hmatches.found]
      exact hmem
  · have hne : before.blocks ≠ [] := List.ne_nil_of_length_pos (by omega)
    simp only [not_or, not_le, ne_eq, not_not, hne, not_false_iff, true_and, horigin]
    exact ⟨by omega, hinside, hkind⟩

/-- The two bytes of a number and of the count lose nothing in a world of less than 2^16
tiles. -/
theorem Reports.cells {world : World} {lock : Nat} {report : LockReport}
    (hreports : Reports world lock report) (hsize : world.blocks.length < 65536) :
    report.cells.map UInt16.toNat = report.lockedTiles.map number ∧
      report.lockSize.toNat = report.lockedTiles.length := by
  have hinside : ∀ t ∈ report.lockedTiles.map number, t < world.blocks.length := fun t ht =>
    lockedBy_inside (joins_lockedBy ((hreports.mem t).mp ht))
  constructor
  · rw [LockReport.cells, List.map_map]
    refine List.map_congr_left fun nb hnb => ?_
    have hnumber := hinside (number nb) (List.mem_map_of_mem hnb)
    rw [Function.comp_apply, UInt16.toNat_ofNat', Nat.mod_eq_of_lt (by omega)]
  · have hcount : report.lockedTiles.length ≤ world.blocks.length := by
      have hsub := List.subperm_of_subset hreports.nodup fun t ht =>
        List.mem_range.mpr (hinside t ht)
      have hle := hsub.length_le
      rwa [List.length_map, List.length_range] at hle
    rw [LockReport.lockSize, UInt16.toNat_ofNat', Nat.mod_eq_of_lt (by omega)]

/-- The block of a lock always fits in the second packet. -/
theorem lock_visual_some {lock : Nat} (hlock : LockAt items before.toWorld block2 lock)
    (hrack : items.audioRack (tile before.toWorld lock).fg = false) :
    ∃ bytes, FormVisual.tileUpdate items guilds players now before.toWorld
      { tile before.toWorld lock with } peer = some bytes := by
  rw [FormVisual.tileUpdate_room_iff]
  have hneed : FormVisual.need items players before.toWorld
      { tile before.toWorld lock with } = 0 := by
    unfold FormVisual.need
    dsimp only
    rw [hrack, if_neg Bool.false_ne_true, hlock.2.2]
    exact ite_self 0
  rw [hneed]
  exact Nat.zero_le _

/-- The search ends, the world is as before without a mark, and what is sent are the
tiles joined to the lock; nothing is sent where there is none. -/
theorem updLock_reports (hwide : Wide before.toWorld) (hclean : before.Clean) :
    ∃ sent,
      updLock items guilds players now peer (before.blocks.length + 1) before block2 =
        some (before, sent) ∧
      (∀ lock, LockAt items before.toWorld block2 lock →
        ∃ report, sent = some report ∧ Reports before.toWorld lock report ∧
          (before.blocks.length < 65536 →
            report.cells.map UInt16.toNat = report.lockedTiles.map number ∧
              report.lockSize.toNat = report.lockedTiles.length)) ∧
      ((¬ ∃ lock, LockAt items before.toWorld block2 lock) → sent = none) := by
  by_cases hexists : ∃ lock, LockAt items before.toWorld block2 lock
  · obtain ⟨lock, hlock⟩ := hexists
    obtain ⟨report, hsent, hreports⟩ :=
      @updLock_some items guilds players now peer before block2 hwide hclean lock hlock
    refine ⟨some report, hsent, fun lock' hlock' => ?_, fun hnone => absurd ⟨lock, hlock⟩ hnone⟩
    have hsame : lock' = lock := by
      have horigin := hlock.1
      have horigin' := hlock'.1
      omega
    rw [hsame]
    exact ⟨report, rfl, hreports, hreports.cells⟩
  · exact ⟨none, updLock_none _ hexists,
      fun lock hlock => absurd ⟨lock, hlock⟩ hexists, fun _ => rfl⟩

/-- A lock with two tiles beside it and a third one that is not joined to it. -/
def lockRow : ScanWorld where
  maxX := 100
  maxY := 1
  blocks := { fg := 202 } :: { locked := true, lockOrigin := 0 } ::
    { locked := true, lockOrigin := 0 } :: {} :: { locked := true, lockOrigin := 0 } ::
    List.replicate 95 {}
  scanned := List.replicate 100 false
  sized := rfl

def lockTable : FormVisual.VisualItems where
  size := 300
  item := fun id => if id = 202 then { blockType := .lock } else {}
  audioRack := fun _ => false
  simpleLoad := fun _ => false

-- the tiles 1 and 2, and not the tile 4
example :
    (updLock lockTable [] [] 0 {} 3 lockRow { lockOrigin := 0 }).map (fun result =>
      result.2.map LockReport.lockedTiles) = some (some [(1, 0), (2, 0)]) := by
  decide +kernel

theorem lockRow_reported :
    ∃ report,
      updLock lockTable [] [] 0 {} 101 lockRow { lockOrigin := 0 } =
        some (lockRow, some report) ∧
      Reports lockRow.toWorld 0 report := by
  have hwide : Wide lockRow.toWorld := ⟨rfl, by decide, rfl⟩
  have hclean : lockRow.Clean := by
    intro t
    have hflags : lockRow.scanned = List.replicate 100 false := rfl
    rw [hflags, List.getD_eq_getElem?_getD, List.getElem?_replicate]
    split <;> rfl
  obtain ⟨sent, hsent, hreports, -⟩ :=
    @updLock_reports lockTable [] [] 0 {} lockRow { lockOrigin := 0 } hwide hclean
  obtain ⟨report, rfl, hreport, -⟩ := hreports 0 ⟨rfl, by decide, rfl⟩
  exact ⟨report, hsent, hreport⟩

end Reporting

end LockUpdate

end NopyServer
