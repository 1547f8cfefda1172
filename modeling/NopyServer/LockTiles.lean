/-
The area of a small lock: `lock_tiles` grows a pinwheel of four arms around the
lock.  A work list holds the tile at the end of each arm; an arm asks the next
tile, takes it if it is free, and goes on up to the corner of its ring.  When the
list is worked off, the next ring is started behind the last scanned tile of each
axis.

Each vector access is by `at`, which throws outside the vector; the function then
gives no tiles.  The loop need not end, so that it has a budget here.
-/
import NopyServer.Guilds
import NopyServer.Lib.BoundedLoop
import NopyServer.Lib.FloodFill

namespace NopyServer

namespace LockTiles

open BoundedLoop FloodFill

/-- `at`; `none` where it throws. -/
def at? {α : Type} (v : List α) (i : Int) : Option α :=
  if i < 0 then none else v[i.toNat]?

/-- `not_mod`. -/
def notMod (items : Items) (block : WorldBlock) (total : Int) (maxSize : Nat) : Bool :=
  if total < 0 ∨ (maxSize : Int) ≤ total ∨ block.locked = true ∨
      (items.item block.fg.toNat).blockType = .lock then false
  else if block.fg = 0 then true
  else !flagSet (items.item block.fg.toNat).properties 8

/-- The four arms, with the numbers 1 to 4 of the source. -/
inductive Arm where
  | left | up | right | down
deriving DecidableEq, Repr

/-- The index of a tile in rows of a hundred. -/
def index (tile : Int × Int) : Int := tile.1 + tile.2 * 100

/-- What the loop of `lock_tiles` changes. -/
structure Growth where
  newTiles : List (Int × Arm) := []
  newLock : List (Int × Int) := []
  scanned : List Int := []
  lockSize : Int
  layer : Int := 0
  maxUp : Int := 0
  maxDown : Int := 0
  maxRight : Int := 0
  maxLeft : Int := 0
deriving DecidableEq

section Growing

variable (items : Items) (world : World) (x y : Int) (size : Nat)

/-- A tile that the lock can take. -/
def free (tile : Int × Int) : Option Bool :=
  (at? world.blocks (index tile)).map fun block =>
    notMod items block (index tile) world.blocks.length

/-- The tile that an arm asks next. -/
def Arm.next : Arm → Int × Int → Int × Int
  | .left, (x, y) => (x, y - 1)
  | .up, (x, y) => (x + 1, y)
  | .right, (x, y) => (x, y + 1)
  | .down, (x, y) => (x - 1, y)

/-- The tests at the borders; two of them let one tile too many pass. -/
def Arm.leaves (world : World) : Arm → Int × Int → Bool
  | .left, (_, y) => y - 1 < 0
  | .up, (x, _) => world.maxX < x + 1
  | .right, (_, y) => world.maxY < y + 1
  | .down, (x, _) => x - 1 < 0

/-- An arm goes on to the next tile before the corner of its ring. -/
def Arm.goesOn (world : World) (g : Growth) : Arm → Int × Int → Bool
  | .left, (_, y) => g.maxUp != 0 && g.maxUp + 1 < y && 0 < y - 1
  | .up, (x, _) => g.maxLeft != 0 && x < g.maxLeft - 1 && x + 1 < world.maxX
  | .right, (_, y) => g.maxDown != 0 && y < g.maxDown - 1 && y + 1 < world.maxY
  | .down, (x, _) => g.maxRight != 0 && g.maxRight + 1 < x && 0 < x - 1

/-- One tile of the work list: the arm asks its next tile. -/
def ask (sq : Int) (arm : Arm) (g : Growth) : Option (Next Growth) := do
  let tile := (sq % 100, sq / 100)
  if arm.leaves world tile = true then return .again g
  let next := arm.next tile
  let isFree ← free items world next
  if index next ∈ g.scanned then return .again g
  let _ ← at? world.blocks sq
  let goesOn := arm.goesOn world g tile
  let g := { g with
    scanned := sq :: g.scanned
    newTiles := if goesOn = true then g.newTiles ++ [(index next, arm)] else g.newTiles }
  if isFree = true then
    let g := { g with newLock := g.newLock ++ [next] }
    return if size ≤ g.newLock.length then .stop g else .again g
  else if goesOn = true ∧ size ≤ g.newLock.length then return .stop g
  else return .again { g with lockSize := g.lockSize + 1 }

/-- The tile of an arm in the ring `t`, so far off the axis; the axis itself is at
zero. -/
def Arm.cell (x y : Int) : Arm → Int → Int → Int × Int
  | .left, t, layer => (x - t, y + layer)
  | .up, t, layer => (x - layer, y - t)
  | .right, t, layer => (x + t, y - layer)
  | .down, t, layer => (x + layer, y + t)

/-- The tests of an axis at the borders. -/
def Arm.outside (world : World) (x y : Int) : Arm → Int → Bool
  | .left, t => x - t < 0
  | .up, t => y - t < 0
  | .right, t => world.maxX < x + t
  | .down, t => world.maxY < y + t

/-- The end of an arm of the new ring. -/
def Arm.bound (x y t : Int) (g : Growth) : Arm → Growth
  | .left => { g with maxRight := x - t }
  | .up => { g with maxUp := y - t }
  | .right => { g with maxLeft := x + t }
  | .down => { g with maxDown := y + t }

/-- Whether the tile of an axis is scanned. -/
def scannedAt (g : Growth) (arm : Arm) (t : Int) : Option Bool :=
  (at? world.blocks (index (arm.cell x y t 0))).map fun _ =>
    decide (index (arm.cell x y t 0) ∈ g.scanned)

/-- The first tile of an axis from `t` on that is not scanned, if there is one before
the border. -/
def search (g : Growth) (arm : Arm) : Nat → Int → Option (Option Int)
  | 0, _ => some none
  | budget + 1, t => do
      if arm.outside world x y t = true then return none
      if (← scannedAt world x y g arm t) = true then search g arm budget (t + 1)
      else return some t

/-- The start of an arm in the ring `t`. -/
def startArm (arm : Arm) (t : Int) (g : Growth) : Option Growth := do
  let tile := arm.cell x y t g.layer
  let isFree ← free items world tile
  let placed := { arm.bound x y t g with newTiles := g.newTiles ++ [(index tile, arm)] }
  if isFree = true then return { placed with newLock := g.newLock ++ [tile] }
  else if arm = .down ∧ (x = 0 ∨ y = 0) then return g
  else if size ≤ g.newLock.length then return placed
  else return { placed with lockSize := g.lockSize + 1 }

/-- An arm of the next ring is started where the tile beside the lock is scanned.  On
the right the layer is taken back at the upper border. -/
def start (arm : Arm) (g : Growth) : Option Growth := do
  if arm.outside world x y 1 = true then return g
  if (← scannedAt world x y g arm 1) = false then return g
  if arm.outside world x y 2 = true then return g
  let g := if arm = .right ∧ y - g.layer < 0 then { g with layer := 0 } else g
  match ← search world x y g arm (world.maxX + world.maxY + 2).toNat 2 with
  | none => return g
  | some t => startArm items world x y size arm t g

/-- The next ring. -/
def nextRing (g : Growth) : Option Growth := do
  let layer :=
    if size ≤ 10 ∨ g.lockSize - g.newLock.length ≤ 5 then 0 else g.layer + 1
  let g ← start items world x y size .left { g with layer := layer }
  let g ← start items world x y size .up g
  let g ← start items world x y size .right g
  start items world x y size .down g

/-- One round of the loop, for the tile `sq` in front of the work list. -/
def round (sq : Int) (arm : Arm) (g : Growth) : Option (Next Growth) := do
  match ← ask items world size sq arm g with
  | .stop g => return .stop g
  | .again g =>
      if g.newTiles = [] then return .again (← nextRing items world x y size g)
      else return .again g

/-- The loop: `none` while it goes on, `some none` where an access throws. -/
def grow : Nat → Growth → Option (Option Growth)
  | budget, g =>
      match g.newTiles with
      | [] => some (some g)
      | (sq, arm) :: rest =>
          if size ≤ g.newLock.length then some (some g)
          else
            match budget with
            | 0 => none
            | budget + 1 =>
                match round items world x y size sq arm { g with newTiles := rest } with
                | none => some none
                | some (.stop g) => some (some g)
                | some (.again g) => grow budget g

/-- The tile beside the lock, from which an arm starts. -/
def seed (arm : Arm) (inside : Bool) (g : Growth) : Option Growth := do
  if inside = false then return g
  let tile := arm.cell x y 1 0
  let isFree ← free items world tile
  return { g with
    newTiles := g.newTiles ++ [(index tile, arm)]
    newLock := if isFree = true then g.newLock ++ [tile] else g.newLock }

def seeds : Option Growth := do
  let g ← seed items world x y .left (0 < x - 1) { lockSize := size }
  let g ← seed items world x y .up (0 < y - 1) g
  let g ← seed items world x y .right (x + 1 < world.maxX) g
  seed items world x y .down (y + 1 < world.maxY) g

end Growing

section Area

variable (items : Items) (world : World) (x y : Int) (size : Nat)

/-- A tile belongs to the lock, with the new tiles counted. -/
def owned (newLock : List (Int × Int)) (sq : Int) : Bool :=
  newLock.any (fun tile => index tile == sq) ||
    (at? world.blocks sq).any fun block =>
      block.locked && block.lockOrigin == index (x, y)

/-- The neighbours that belong to the lock; in rows of a hundred none of them lies
outside. -/
def ownedBeside (newLock : List (Int × Int)) (sq : Int) : List Int :=
  let (s, t) := (sq % 100, sq / 100)
  (if s < world.maxX - 1 ∧ owned world x y newLock (sq + 1) = true then [sq + 1] else []) ++
  (if 0 < s ∧ owned world x y newLock (sq - 1) = true then [sq - 1] else []) ++
  (if t < world.maxY - 1 ∧ owned world x y newLock (sq + 100) = true then [sq + 100]
    else []) ++
  (if 0 < t ∧ owned world x y newLock (sq - 100) = true then [sq - 100] else [])

/-- A tile is kept if tiles of the lock lead from it to one whose index differs from
that of the lock by nothing, one or a hundred.  The budget is one for every tile. -/
def reachable (newLock : List (Int × Int)) (tile : Int × Int) : Bool :=
  (fill (ownedBeside world x y newLock)
    (fun _ sq => [0, 1, -1, 100, -100].contains (index (x, y) - sq))
    (world.blocks.length + 1) [index tile] []).any Prod.fst

/-- The loop of `lock_tiles` from the tiles beside the lock on. -/
def growth (budget : Nat) : Option (Option Growth) :=
  match seeds items world x y size with
  | none => some none
  | some g => grow items world x y size budget g

/-- `lock_tiles` up to its `catch`. -/
def lockTilesTry (budget : Nat) : Option (Option (List (Int × Int))) :=
  match at? world.blocks (index (x, y)) with
  | none => some none
  | some block =>
      if block.locked = true then some (some [])
      else
        (growth items world x y size budget).map fun ended => ended.map fun g =>
          let newLock := g.newLock.take size
          newLock.filter (reachable world x y newLock)

/-- `lock_tiles`: where an access throws there are no tiles. -/
def lockTiles (budget : Nat) : Option (List (Int × Int)) :=
  (lockTilesTry items world x y size budget).map fun tiles => tiles.getD []

end Area

section Freedom

variable {items : Items} {world : World} {x y : Int} {size : Nat} {g g' : Growth}

/-- All tiles that are taken are free. -/
def AllFree (items : Items) (world : World) (g : Growth) : Prop :=
  ∀ tile ∈ g.newLock, free items world tile = some true

theorem AllFree.append {tile : Int × Int} (hfree : AllFree items world g)
    (htile : free items world tile = some true) :
    AllFree items world { g with newLock := g.newLock ++ [tile] } := by
  intro other hother
  rcases List.mem_append.mp hother with h | h
  · exact hfree other h
  · rw [List.mem_singleton.mp h]
    exact htile

theorem ask_free {sq : Int} {arm : Arm} {next : Next Growth} (hfree : AllFree items world g)
    (hask : ask items world size sq arm g = some next) : AllFree items world next.state := by
  unfold ask at hask
  dsimp only at hask
  by_cases hleaves : arm.leaves world (sq % 100, sq / 100) = true
  · rw [if_pos hleaves] at hask
    cases hask
    exact hfree
  · rw [if_neg hleaves] at hask
    cases hfound : free items world (arm.next (sq % 100, sq / 100)) with
    | none => simp [hfound] at hask
    | some isFree =>
        rw [hfound] at hask
        cases hthere : at? world.blocks sq with
        | none =>
            simp only [hthere, Option.bind_eq_bind, Option.bind_some, Option.bind_none] at hask
            split_ifs at hask
            cases hask
            exact hfree
        | some block =>
            simp only [hthere, Option.bind_eq_bind, Option.bind_some, Option.pure_def] at hask
            split_ifs at hask with hscanned hfree' hfull hgoes hfull
            all_goals
              cases hask
              first
              | exact hfree
              | exact AllFree.append hfree (by rw [hfound, hfree'])

theorem startArm_free {arm : Arm} {t : Int} (hfree : AllFree items world g)
    (hstart : startArm items world x y size arm t g = some g') : AllFree items world g' := by
  have hbound : (arm.bound x y t g).newLock = g.newLock := by cases arm <;> rfl
  unfold startArm at hstart
  obtain ⟨isFree, hfound, hstart⟩ := Option.bind_eq_some_iff.mp hstart
  dsimp only at hstart
  split_ifs at hstart with hisFree hcorner hfull
  · cases hstart
    exact AllFree.append hfree (by rw [hfound, hisFree])
  · cases hstart
    exact hfree
  · cases hstart
    intro tile htile
    rw [hbound] at htile
    exact hfree tile htile
  · cases hstart
    intro tile htile
    rw [hbound] at htile
    exact hfree tile htile

theorem start_free {arm : Arm} (hfree : AllFree items world g)
    (hstart : start items world x y size arm g = some g') : AllFree items world g' := by
  unfold start at hstart
  by_cases hfirst : arm.outside world x y 1 = true
  · rw [if_pos hfirst] at hstart
    cases hstart
    exact hfree
  · rw [if_neg hfirst] at hstart
    obtain ⟨first, -, hstart⟩ := Option.bind_eq_some_iff.mp hstart
    by_cases hscanned : first = false
    · rw [if_pos hscanned] at hstart
      cases hstart
      exact hfree
    · rw [if_neg hscanned] at hstart
      by_cases hsecond : arm.outside world x y 2 = true
      · rw [if_pos hsecond] at hstart
        cases hstart
        exact hfree
      · rw [if_neg hsecond] at hstart
        obtain ⟨found, -, hstart⟩ := Option.bind_eq_some_iff.mp hstart
        have hlayer : AllFree items world
            (if arm = .right ∧ y - g.layer < 0 then { g with layer := 0 } else g) := by
          split_ifs
          · exact hfree
          · exact hfree
        cases found with
        | none =>
            cases hstart
            exact hlayer
        | some t => exact startArm_free hlayer hstart

theorem nextRing_free (hfree : AllFree items world g)
    (hring : nextRing items world x y size g = some g') : AllFree items world g' := by
  unfold nextRing at hring
  obtain ⟨left, hleft, hring⟩ := Option.bind_eq_some_iff.mp hring
  obtain ⟨up, hup, hring⟩ := Option.bind_eq_some_iff.mp hring
  obtain ⟨right, hright, hring⟩ := Option.bind_eq_some_iff.mp hring
  have hfirst : AllFree items world left := start_free (by exact hfree) hleft
  exact start_free (start_free (start_free hfirst hup) hright) hring

theorem round_free {sq : Int} {arm : Arm} {next : Next Growth}
    (hfree : AllFree items world g)
    (hround : round items world x y size sq arm g = some next) :
    AllFree items world next.state := by
  unfold round at hround
  obtain ⟨asked, hask, hround⟩ := Option.bind_eq_some_iff.mp hround
  have hasked := ask_free hfree hask
  cases asked with
  | stop g =>
      cases hround
      exact hasked
  | again g =>
      dsimp only at hround
      split_ifs at hround with hdone
      · obtain ⟨ring, hring, hround⟩ := Option.bind_eq_some_iff.mp hround
        cases hround
        exact nextRing_free hasked hring
      · cases hround
        exact hasked

theorem grow_free {budget : Nat} (hfree : AllFree items world g)
    (hgrow : grow items world x y size budget g = some (some g')) :
    AllFree items world g' := by
  induction budget generalizing g with
  | zero =>
      unfold grow at hgrow
      split at hgrow
      · cases hgrow
        exact hfree
      · split_ifs at hgrow
        cases hgrow
        exact hfree
  | succ budget ih =>
      unfold grow at hgrow
      split at hgrow
      · cases hgrow
        exact hfree
      · split_ifs at hgrow with hfull
        · cases hgrow
          exact hfree
        · next sq arm rest _ =>
          cases hround : round items world x y size sq arm { g with newTiles := rest } with
          | none =>
              rw [hround] at hgrow
              cases hgrow
          | some next =>
              rw [hround] at hgrow
              have hafter := round_free (by exact hfree) hround
              cases next with
              | stop g =>
                  cases hgrow
                  exact hafter
              | again g => exact ih hafter hgrow

theorem seed_free {arm : Arm} {inside : Bool} (hfree : AllFree items world g)
    (hseed : seed items world x y arm inside g = some g') : AllFree items world g' := by
  unfold seed at hseed
  split_ifs at hseed with hinside
  · cases hseed
    exact hfree
  · obtain ⟨isFree, hfound, hseed⟩ := Option.bind_eq_some_iff.mp hseed
    cases hseed
    cases isFree with
    | false => exact hfree
    | true => exact AllFree.append hfree hfound

theorem seeds_free (hseeds : seeds items world x y size = some g) :
    AllFree items world g := by
  unfold seeds at hseeds
  obtain ⟨left, hleft, hseeds⟩ := Option.bind_eq_some_iff.mp hseeds
  obtain ⟨up, hup, hseeds⟩ := Option.bind_eq_some_iff.mp hseeds
  obtain ⟨right, hright, hseeds⟩ := Option.bind_eq_some_iff.mp hseeds
  have hnone : AllFree items world { lockSize := size } := by
    intro tile htile
    cases htile
  exact seed_free (seed_free (seed_free (seed_free hnone hleft) hup) hright) hseeds

/-- The tiles of `lock_tiles` are free, and there are not too many of them. -/
theorem lockTiles_free {budget : Nat} {tiles : List (Int × Int)}
    (htiles : lockTiles items world x y size budget = some tiles) :
    tiles.length ≤ size ∧ ∀ tile ∈ tiles, free items world tile = some true := by
  unfold lockTiles at htiles
  obtain ⟨found, htry, htiles⟩ := Option.map_eq_some_iff.mp htiles
  subst htiles
  have hnothing : ([] : List (Int × Int)).length ≤ size ∧
      ∀ tile ∈ ([] : List (Int × Int)), free items world tile = some true :=
    ⟨Nat.zero_le size, fun tile htile => by cases htile⟩
  unfold lockTilesTry at htry
  split at htry
  next =>
    cases htry
    exact hnothing
  next block _ =>
    split_ifs at htry with hlocked
    · cases htry
      exact hnothing
    · obtain ⟨ended, hgrowth, hended⟩ := Option.map_eq_some_iff.mp htry
      subst hended
      cases ended with
      | none => exact hnothing
      | some g =>
          have hfree : AllFree items world g := by
            unfold growth at hgrowth
            split at hgrowth
            next => cases hgrowth
            next hseeds => exact grow_free (seeds_free hseeds) hgrowth
          refine ⟨(List.length_filter_le _ _).trans (List.length_take_le _ _), ?_⟩
          intro tile htile
          exact hfree tile (List.mem_of_mem_take (List.mem_of_mem_filter htile))

end Freedom

end LockTiles

end NopyServer
