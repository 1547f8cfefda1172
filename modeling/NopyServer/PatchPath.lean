/-
Finding a way: `patchPath` looks for a way from the player to a tile.  The test
whether a tile lets the player through is written out five times, for the tile
at which the search starts and for the neighbours on the right, on the left,
below and above.  The copies for the left and below agree; the one for the right
asks the list of a VIP entrance of the tile that is left, the one for above asks
the tile to the upper right whether it is a gateway, and the one for the start
lets solid VIP entrances count.

So a step is misjudged to the right of a tile or above it only, and the answer is right
exactly when the steps that are refused do not cut the target off, and those that are let
through do not lead to it.
-/
import NopyServer.Guilds
import NopyServer.Lib.FloodFill

namespace NopyServer

namespace PatchPath

open FloodFill Relation

section Definitions

/-- `is_false_state`. -/
def isFalseState (items : Items) (block : WorldBlock) (t : Int) : Bool :=
  let collisionType := (items.item block.fg.toNat).collisionType
  if collisionType = 0 then false
  else if collisionType = 1 then true
  else !flagSet block.flags t

/-- `Vip_Bfg`. -/
def vipBfg (block : WorldBlock) (name : String) : Bool :=
  block.adminBfg.any fun element => element.2 == name

variable (items : Items) (guilds : List Guild) (pl : Player) (world : World)

/-- The item in the foreground of a block. -/
def front (block : WorldBlock) : ItemDB := items.item block.fg.toNat

/-- The block of a tile. -/
def tile (t : Nat) : WorldBlock := world.blocks.getD t {}

/-- A gateway or something that is switched. -/
def switched (block : WorldBlock) : Bool :=
  (front items block).blockType == .gateway || (front items block).toggleable

/-- What can let a player through at all. -/
def opens (block : WorldBlock) : Bool :=
  (front items block).collisionType != 1 || switched items block

/-- The world belongs to someone else. -/
def stranger : Bool := world.ownerName != pl.tankIDName && world.ownerName != ""

/-- What turns the player away at a block, where a VIP entrance is asked for the
list of the block `vip`. -/
def refuses (vip block : WorldBlock) : Bool :=
  let item := front items block
  let name := toLower pl.tankIDName
  (item.blockType == .vipEntrance && !block.limitAdmins && stranger pl world &&
      !block.admins.contains name) ||
    (item.blockType == .vipEntrance && vipBfg vip pl.tankIDName) ||
    (item.blockType == .gateway && isFalseState items block 0x00800000 &&
      stranger pl world && !flagSet world.worldSettings 16 &&
      !guildAccess guilds pl world.guildId && !world.admins.contains name) ||
    (item.toggleable && isFalseState items block 0x00400000)

/-- The test for the tile at which the search starts. -/
def starts (block : WorldBlock) : Bool :=
  (opens items block || (front items block).blockType == .vipEntrance) &&
    !refuses items guilds pl world block block

/-- The neighbours that the search goes on to, in its order. -/
def neighbours (t : Nat) : List Nat :=
  let x := t % 100
  let y := t / 100
  let right := x + 1 + y * 100
  let left := x - 1 + y * 100
  let down := x + (y + 1) * 100
  let up := x + (y - 1) * 100
  (if (x : Int) < world.maxX - 1 ∧ opens items (tile world right) = true ∧
      refuses items guilds pl world (tile world t) (tile world right) = false
    then [right] else []) ++
  (if 0 < x ∧ opens items (tile world left) = true ∧
      refuses items guilds pl world (tile world left) (tile world left) = false
    then [left] else []) ++
  (if (y : Int) < world.maxY - 1 ∧ opens items (tile world down) = true ∧
      refuses items guilds pl world (tile world down) (tile world down) = false
    then [down] else []) ++
  (if 0 < y ∧ ((front items (tile world up)).collisionType ≠ 1 ∨
        switched items (tile world (x + 1 + (y - 1) * 100)) = true) ∧
      refuses items guilds pl world (tile world up) (tile world up) = false
    then [up] else [])

/-- The tile of a position in pixels. -/
def tileOf (x y : Int) : Nat := (x / 32 + y / 32 * 100).toNat

/-- `patchPath`; `none` where the budget runs out.  A negative `fg` is compared as
an unsigned number. -/
def patchPath (x y fg : Int) : Option Bool :=
  if x < 0 ∨ world.maxX * 32 ≤ x ∨ y < 0 ∨ world.maxY * 32 ≤ y ∨ fg < 0 ∨
      world.blocks.length < fg ∨ (tile world fg.toNat).fg = 8676 then some false
  else
    let start := tileOf x y
    let pending :=
      if starts items guilds pl world (tile world start) = true then [start] else []
    (fill (neighbours items guilds pl world)
      (fun _ t => decide (t = fg.toNat) &&
        (front items (tile world t)).collisionType != 1)
      (world.blocks.length + 1) pending []).map fun result => !result.1

end Definitions

section Search

variable {items : Items} {guilds : List Guild} {pl : Player} {world : World}
  {x y fg : Int} {s t : Nat}

/-- The player may pass a block, judged by this block alone. -/
def passable (items : Items) (guilds : List Guild) (pl : Player) (world : World)
    (block : WorldBlock) : Bool :=
  opens items block && !refuses items guilds pl world block block

/-- Two tiles of rows of a hundred lie side by side or one above the other. -/
def Beside (s t : Nat) : Prop :=
  (s / 100 = t / 100 ∧ (s % 100 + 1 = t % 100 ∨ t % 100 + 1 = s % 100)) ∨
    (s % 100 = t % 100 ∧ (s / 100 + 1 = t / 100 ∨ t / 100 + 1 = s / 100))

/-- A step to a neighbour that the player may pass. -/
def Goes (items : Items) (guilds : List Guild) (pl : Player) (world : World)
    (s t : Nat) : Prop :=
  Beside s t ∧ t < world.blocks.length ∧
    passable items guilds pl world (tile world t) = true

/-- A way over tiles that the player may pass, the first one included. -/
def Reachable (items : Items) (guilds : List Guild) (pl : Player) (world : World)
    (s t : Nat) : Prop :=
  passable items guilds pl world (tile world s) = true ∧
    ReflTransGen (Goes items guilds pl world) s t

/-- A world of rows of a hundred blocks. -/
structure Wide (world : World) : Prop where
  width : world.maxX = 100
  height : 0 ≤ world.maxY
  length : (world.blocks.length : Int) = 100 * world.maxY

/-- A position of the world and a tile of it. -/
structure Inside (world : World) (x y fg : Int) : Prop where
  left : 0 ≤ x
  right : x < world.maxX * 32
  top : 0 ≤ y
  bottom : y < world.maxY * 32
  target : 0 ≤ fg
  last : fg < world.blocks.length

/-- A step that is misjudged: the tile on the right by the list of the tile that is left,
or the tile above by its neighbour. -/
def Misjudged (items : Items) (guilds : List Guild) (pl : Player) (world : World)
    (s t : Nat) : Prop :=
  (t = s + 1 ∧ opens items (tile world t) = true ∧
      refuses items guilds pl world (tile world s) (tile world t) ≠
        refuses items guilds pl world (tile world t) (tile world t)) ∨
    (t + 100 = s ∧ refuses items guilds pl world (tile world t) (tile world t) = false ∧
      (front items (tile world t)).collisionType = 1 ∧
        switched items (tile world (t + 1)) ≠ switched items (tile world t))

/-- A step to a neighbour that the player may pass and that is not misjudged, or may not
pass and that is. -/
def Takes (items : Items) (guilds : List Guild) (pl : Player) (world : World)
    (s t : Nat) : Prop :=
  Beside s t ∧ t < world.blocks.length ∧
    (passable items guilds pl world (tile world t) = true ↔
      ¬ Misjudged items guilds pl world s t)

/-- A way of such steps from a tile that passes for a start. -/
def Led (items : Items) (guilds : List Guild) (pl : Player) (world : World)
    (s t : Nat) : Prop :=
  starts items guilds pl world (tile world s) = true ∧
    ReflTransGen (Takes items guilds pl world) s t

/-- The misjudged steps matter nothing for the target: what the player can reach is of item
8676 or not cut off, and what the player cannot reach is neither of item 8676 nor led to. -/
structure Harmless (items : Items) (guilds : List Guild) (pl : Player) (world : World)
    (s t : Nat) : Prop where
  within : Reachable items guilds pl world s t → (tile world t).fg = 8676 ∨
    ReflTransGen (Takes items guilds pl world) s t
  beyond : ¬ Reachable items guilds pl world s t → (tile world t).fg ≠ 8676 ∧
    ¬ Led items guilds pl world s t

theorem beside_iff (hwide : Wide world) (hs : s < world.blocks.length) :
    Beside s t ∧ t < world.blocks.length ↔
      (s % 100 < 99 ∧ t = s + 1) ∨ (0 < s % 100 ∧ t + 1 = s) ∨
        (((s / 100 : Nat) : Int) < world.maxY - 1 ∧ t = s + 100) ∨
        (100 ≤ s ∧ t + 100 = s) := by
  have hlength := hwide.length
  unfold Beside
  omega

theorem mem_neighbours (hwide : Wide world) :
    t ∈ neighbours items guilds pl world s ↔
      (s % 100 < 99 ∧ t = s + 1 ∧ opens items (tile world t) = true ∧
        refuses items guilds pl world (tile world s) (tile world t) = false) ∨
      (0 < s % 100 ∧ t + 1 = s ∧
        passable items guilds pl world (tile world t) = true) ∨
      (((s / 100 : Nat) : Int) < world.maxY - 1 ∧ t = s + 100 ∧
        passable items guilds pl world (tile world t) = true) ∨
      (100 ≤ s ∧ t + 100 = s ∧ ((front items (tile world t)).collisionType ≠ 1 ∨
          switched items (tile world (t + 1)) = true) ∧
        refuses items guilds pl world (tile world t) (tile world t) = false) := by
  have hwidth := hwide.width
  have hright : s % 100 + 1 + s / 100 * 100 = s + 1 := by omega
  have hdown : s % 100 + (s / 100 + 1) * 100 = s + 100 := by omega
  unfold neighbours passable
  simp only [List.mem_append, List.mem_ite_nil_right, List.mem_singleton, or_assoc,
    hright, hdown, hwidth, Bool.and_eq_true, Bool.not_eq_true']
  refine or_congr ?_ (or_congr ?_ (or_congr ?_ ?_))
  · constructor
    · rintro ⟨⟨hx, hopens, hrefuses⟩, rfl⟩
      exact ⟨by omega, rfl, hopens, hrefuses⟩
    · rintro ⟨hx, rfl, hopens, hrefuses⟩
      exact ⟨⟨by omega, hopens, hrefuses⟩, rfl⟩
  · constructor
    · rintro ⟨⟨hx, hopens, hrefuses⟩, ht⟩
      rw [← ht] at hopens hrefuses
      exact ⟨hx, by omega, hopens, hrefuses⟩
    · rintro ⟨hx, ht, hopens, hrefuses⟩
      have hleft : s % 100 - 1 + s / 100 * 100 = t := by omega
      rw [hleft]
      exact ⟨⟨hx, hopens, hrefuses⟩, rfl⟩
  · constructor
    · rintro ⟨⟨hy, hopens, hrefuses⟩, rfl⟩
      exact ⟨hy, rfl, hopens, hrefuses⟩
    · rintro ⟨hy, rfl, hopens, hrefuses⟩
      exact ⟨⟨hy, hopens, hrefuses⟩, rfl⟩
  · constructor
    · rintro ⟨⟨hy, hopens, hrefuses⟩, ht⟩
      have hnext : s % 100 + 1 + (s / 100 - 1) * 100 = t + 1 := by omega
      rw [hnext] at hopens
      rw [← ht] at hopens hrefuses
      exact ⟨by omega, by omega, hopens, hrefuses⟩
    · rintro ⟨hy, ht, hopens, hrefuses⟩
      have hup : s % 100 + (s / 100 - 1) * 100 = t := by omega
      have hnext : s % 100 + 1 + (s / 100 - 1) * 100 = t + 1 := by omega
      rw [hup, hnext]
      exact ⟨⟨by omega, hopens, hrefuses⟩, rfl⟩

/-- The search goes on as the misjudged steps have it. -/
theorem mem_neighbours_iff (hwide : Wide world) (hs : s < world.blocks.length) :
    t ∈ neighbours items guilds pl world s ↔ Takes items guilds pl world s t := by
  have hbeside := @beside_iff world s t hwide hs
  unfold Takes
  rw [mem_neighbours hwide]
  refine Iff.trans ?_ and_assoc
  rw [hbeside]
  simp only [or_and_right, and_assoc]
  -- a neighbour on the left or below has no misjudged test
  refine or_congr ?_ (or_congr ?_ (or_congr ?_ ?_))
  · refine and_congr_right fun hx => and_congr_right fun ht => ?_
    have hjudged : Misjudged items guilds pl world s t ↔ opens items (tile world t) = true ∧
        refuses items guilds pl world (tile world s) (tile world t) ≠
          refuses items guilds pl world (tile world t) (tile world t) := by
      unfold Misjudged
      rw [or_iff_left (fun h => by omega), and_iff_right ht]
    rw [hjudged]
    unfold passable
    cases opens items (tile world t) <;>
      cases refuses items guilds pl world (tile world s) (tile world t) <;>
      cases refuses items guilds pl world (tile world t) (tile world t) <;> simp
  · refine and_congr_right fun hx => and_congr_right fun ht => ?_
    have hjudged : ¬ Misjudged items guilds pl world s t := by
      unfold Misjudged
      omega
    rw [iff_true_right hjudged]
  · refine and_congr_right fun hy => and_congr_right fun ht => ?_
    have hjudged : ¬ Misjudged items guilds pl world s t := by
      unfold Misjudged
      omega
    rw [iff_true_right hjudged]
  · refine and_congr_right fun hy => and_congr_right fun ht => ?_
    have hjudged : Misjudged items guilds pl world s t ↔
        refuses items guilds pl world (tile world t) (tile world t) = false ∧
          (front items (tile world t)).collisionType = 1 ∧
            switched items (tile world (t + 1)) ≠ switched items (tile world t) := by
      unfold Misjudged
      rw [or_iff_right (fun h => by omega), and_iff_right ht]
    rw [hjudged]
    unfold passable opens
    by_cases hsolid : (front items (tile world t)).collisionType = 1
    · cases switched items (tile world (t + 1)) <;>
        cases switched items (tile world t) <;>
        cases refuses items guilds pl world (tile world t) (tile world t) <;> simp [hsolid]
    · cases refuses items guilds pl world (tile world t) (tile world t) <;> simp [hsolid]

/-- The search stays in the world. -/
theorem neighbours_inside (hwide : Wide world) (hs : s < world.blocks.length)
    (ht : t ∈ neighbours items guilds pl world s) : t < world.blocks.length := by
  have hlength := hwide.length
  rcases (mem_neighbours hwide).mp ht with h | h | h | h
  · omega
  · omega
  · omega
  · omega

theorem tileOf_inside (hwide : Wide world) (hinside : Inside world x y fg) :
    tileOf x y < world.blocks.length := by
  have hlength := hwide.length
  have hwidth := hwide.width
  obtain ⟨hleft, hright, htop, hbottom, -, -⟩ := hinside
  unfold tileOf
  omega

/-- The search leads where the steps it takes lead. -/
theorem reach_iff (hwide : Wide world) (hs : s < world.blocks.length) :
    Reach (neighbours items guilds pl world) [] s t ↔
      ReflTransGen (Takes items guilds pl world) s t := by
  have hstep : ∀ {u v}, u < world.blocks.length →
      (Step (neighbours items guilds pl world) [] u v ↔ Takes items guilds pl world u v) := by
    intro u v hu
    unfold Step
    rw [mem_neighbours_iff hwide hu]
    exact and_iff_left List.not_mem_nil
  constructor
  · intro hreach
    -- the way stays in the world
    have hway : ReflTransGen (Takes items guilds pl world) s t ∧ t < world.blocks.length := by
      induction hreach with
      | refl => exact ⟨ReflTransGen.refl, hs⟩
      | tail _ hnext ih =>
          have htakes := (hstep ih.2).mp hnext
          exact ⟨ih.1.tail htakes, htakes.2.1⟩
    exact hway.1
  · intro hway
    have hreach : Reach (neighbours items guilds pl world) [] s t ∧
        t < world.blocks.length := by
      induction hway with
      | refl => exact ⟨ReflTransGen.refl, hs⟩
      | tail _ htakes ih => exact ⟨ih.1.tail ((hstep ih.2).mpr htakes), htakes.2.1⟩
    exact hreach.1

/-- A tile the player may pass passes for a start. -/
theorem starts_of_passable {block : WorldBlock}
    (hpass : passable items guilds pl world block = true) :
    starts items guilds pl world block = true := by
  unfold passable at hpass
  unfold starts
  rw [Bool.and_eq_true] at hpass ⊢
  exact ⟨by rw [hpass.1, Bool.true_or], hpass.2⟩

/-- The search always ends. -/
theorem fill_runs (hwide : Wide world) (hs : s < world.blocks.length)
    (stop : List Nat → Nat → Bool) {pending : List Nat}
    (hpending : pending = [s] ∨ pending = []) :
    ∃ result, fill (neighbours items guilds pl world) stop (world.blocks.length + 1)
      pending [] = some result := by
  refine fill_some (Finset.range world.blocks.length) ?_ ?_ ?_
  · intro node hnode t ht
    exact Finset.mem_range.mpr
      (neighbours_inside hwide (Finset.mem_range.mp hnode) ht)
  · rcases hpending with rfl | rfl
    · intro t ht
      rw [List.mem_singleton.mp ht]
      exact Finset.mem_range.mpr hs
    · intro t ht
      exact absurd ht List.not_mem_nil
  · rcases hpending with rfl | rfl
    · simp
      omega
    · simp

/-- `patchPath` ends, and returns false for item 8676 and for what the steps it takes lead
to. -/
theorem patchPath_led_iff (hwide : Wide world) (hinside : Inside world x y fg)
    (hopen : (front items (tile world fg.toNat)).collisionType ≠ 1) :
    ∃ blocked, patchPath items guilds pl world x y fg = some blocked ∧
      (blocked = false ↔ (tile world fg.toNat).fg = 8676 ∨
        Led items guilds pl world (tileOf x y) fg.toNat) := by
  have hs := tileOf_inside hwide hinside
  obtain ⟨hleft, hright, htop, hbottom, htarget, hlast⟩ := hinside
  unfold patchPath
  by_cases hflag : (tile world fg.toNat).fg = 8676
  · refine ⟨false, ?_, iff_of_true rfl (Or.inl hflag)⟩
    rw [if_pos (by simp [hflag])]
  · rw [if_neg (by simp only [hflag, or_false]; omega), or_iff_right hflag]
    dsimp only
    unfold Led
    by_cases hstart : starts items guilds pl world (tile world (tileOf x y)) = true
    · rw [if_pos hstart, and_iff_right hstart, ← reach_iff hwide hs]
      obtain ⟨⟨found, last⟩, hfill⟩ := @fill_runs items guilds pl world _ hwide hs
        (fun _ t => decide (t = fg.toNat) &&
          (front items (tile world t)).collisionType != 1) _ (Or.inl rfl)
      rw [hfill]
      refine ⟨!found, rfl, ?_⟩
      rw [Bool.not_eq_false', fill_found_iff _ hfill]
      constructor
      · rintro ⟨t, hgoal, s, hmem, hreach⟩
        rw [List.mem_singleton.mp hmem] at hreach
        rw [Bool.and_eq_true, decide_eq_true_eq] at hgoal
        exact hgoal.1 ▸ hreach
      · intro hreach
        refine ⟨fg.toNat, ?_, _, List.mem_singleton_self _, hreach⟩
        rw [Bool.and_eq_true, decide_eq_true_eq]
        exact ⟨rfl, bne_iff_ne.mpr hopen⟩
    · rw [if_neg hstart]
      exact ⟨true, rfl, iff_of_false (by decide) fun hled => hstart hled.1⟩

end Search

section Example

/-- An entrance, and walls. -/
def hallItems : Items :=
  ⟨10, fun id =>
    if id = 1 then { blockType := .vipEntrance, collisionType := 2 }
    else if id = 2 then { collisionType := 1 } else {}⟩

/-- A hall of one row: the entrance between two free tiles names the player. -/
def hall : World where
  name := "HALL"
  ownerName := "bob"
  maxX := 100
  maxY := 1
  blocks := {} :: { fg := 1, limitAdmins := true, adminBfg := [(0, "ann")] } :: {} ::
    List.replicate 97 { fg := 2 }

def visitor : Player := { tankIDName := "ann", world := "HALL" }

end Example

end PatchPath

end NopyServer
