/-
The three overloads of `create_world`.  Two build a world of a given width and
height, the third one of a given number of blocks with a hundred to a row.
-/
import NopyServer.World

namespace NopyServer

/-- The global `WorldDefault`. -/
structure WorldDefault where
  weather : UInt8 := 0
  fg : UInt16 := 2
  bg : UInt16 := 14
  rock : UInt16 := 10
  lava : UInt16 := 4
deriving DecidableEq

/-- `WorldBlock{ 0, 0, 0 }`: the braces set the first three members, which are
`b`, `roll` and `open`. -/
def emptyBlock : WorldBlock := { b := 0, roll := 0, open_ := 0 }

/-- The blocks of a loop, each with the numbers `rand()` gives it. -/
def generateBlocks (block : Nat → (Nat → Nat) → WorldBlock × (Nat → Nat)) :
    Nat → Nat → (Nat → Nat) → List WorldBlock × (Nat → Nat)
  | 0, _, rands => ([], rands)
  | count + 1, index, rands =>
      let made := block index rands
      let rest := generateBlocks block count (index + 1) made.2
      (made.1 :: rest.1, rest.2)

theorem generateBlocks_length
    (block : Nat → (Nat → Nat) → WorldBlock × (Nat → Nat))
    (count index : Nat) (rands : Nat → Nat) :
    (generateBlocks block count index rands).1.length = count := by
  induction count generalizing index rands with
  | zero => rfl
  | succ count ih => exact congrArg Nat.succ (ih _ _)

/-- What holds of every block a loop makes holds of all its blocks. -/
theorem generateBlocks_forall {P : WorldBlock → Prop}
    {block : Nat → (Nat → Nat) → WorldBlock × (Nat → Nat)}
    (hblock : ∀ index rands, P (block index rands).1) (count index : Nat)
    (rands : Nat → Nat) :
    ∀ made ∈ (generateBlocks block count index rands).1, P made := by
  induction count generalizing index rands with
  | zero => exact fun _ h => absurd h List.not_mem_nil
  | succ count ih =>
      intro made hmade
      rcases List.mem_cons.mp hmade with rfl | hlater
      · exact hblock index rands
      · exact ih _ _ made hlater

/-- Each block of a loop is made for its index. -/
theorem generateBlocks_getElem?
    (block : Nat → (Nat → Nat) → WorldBlock × (Nat → Nat))
    {count k : Nat} (hk : k < count) (index : Nat) (rands : Nat → Nat) :
    ∃ later, (generateBlocks block count index rands).1[k]? =
      some (block (index + k) later).1 := by
  induction count generalizing k index rands with
  | zero => exact absurd hk (Nat.not_lt_zero k)
  | succ count ih =>
      cases k with
      | zero => exact ⟨rands, rfl⟩
      | succ k =>
          obtain ⟨later, hlater⟩ := ih (Nat.lt_of_succ_lt_succ hk) (index + 1)
            (block index rands).2
          refine ⟨later, ?_⟩
          rw [show index + (k + 1) = index + 1 + k by omega]
          exact hlater

/-- The limits on a width or a height. -/
def clampSize (n : Int) : Int :=
  let n := if 255 < n then 255 else n
  if n < 30 then 30 else n

theorem clampSize_bounds (n : Int) : 30 ≤ clampSize n ∧ clampSize n ≤ 255 := by
  unfold clampSize
  dsimp only
  split <;> split <;> omega

/-- The block at the position `x`, `y` of a world with a main door. -/
def sizedBlock (height doorX x y : Int) (rands : Nat → Nat) :
    WorldBlock × (Nat → Nat) :=
  let later := fun n => rands (n + 1)
  let tile := fun fg : UInt16 => { emptyBlock with fg := fg, bg := 14 }
  if height / 2 ≤ y then
    if height - 6 ≤ y then (tile 8, rands)
    else if y = height / 2 ∧ x = doorX then (tile 8, rands)
    else if y ≤ height - 6 ∧ height - 10 ≤ y then
      let rnd := rands 0 % 76
      (tile (if 20 < rnd then 2 else if 4 < rnd then 4 else 10), later)
    else if height / 2 + 2 ≤ y then
      (tile (if 1 < rands 0 % 51 then 2 else 10), later)
    else (tile 2, rands)
  else if y = height / 2 - 1 ∧ x = doorX then (tile 6, rands)
  else (emptyBlock, rands)

/-- The loop of the two overloads with a width and a height; the position of a
block is read off its index. -/
def sizedBlocks (width height : Int) (rands : Nat → Nat) :
    List WorldBlock × (Nat → Nat) :=
  let doorX := (rands 0 : Int) % (width - 4) + 2
  generateBlocks
    (fun index rands =>
      sizedBlock height doorX (index % width) (index / width) rands)
    (width * height).toNat 0 fun n => rands (n + 1)

theorem sizedBlocks_length (width height : Int) (rands : Nat → Nat) :
    (sizedBlocks width height rands).1.length = (width * height).toNat :=
  generateBlocks_length _ _ _ _

/-- `create_world(World*, int, int)`. -/
def resizeWorld (width height : Int) (rands : Nat → Nat) (world : World) :
    World × (Nat → Nat) :=
  let width := clampSize width
  let height := clampSize height
  let blocks := sizedBlocks width height rands
  ({ world with
      freshWorld := true, maxX := width, maxY := height, blocks := blocks.1 },
    blocks.2)

/-- A generated world has a size within the limits, and blocks to fill it. -/
theorem resizeWorld_size (width height : Int) (rands : Nat → Nat)
    (world : World) :
    let made := (resizeWorld width height rands world).1
    (30 ≤ made.maxX ∧ made.maxX ≤ 255) ∧ (30 ≤ made.maxY ∧ made.maxY ≤ 255) ∧
      (made.blocks.length : Int) = made.maxX * made.maxY := by
  have hx := clampSize_bounds width
  have hy := clampSize_bounds height
  refine ⟨hx, hy, ?_⟩
  have hlength := sizedBlocks_length (clampSize width) (clampSize height) rands
  have hnonneg : 0 ≤ clampSize width * clampSize height :=
    Int.mul_nonneg (by omega) (by omega)
  simp only [resizeWorld, hlength]
  exact Int.toNat_of_nonneg hnonneg

/-- The block for a position of a generated world is at the index that counts
rows of `max_x` blocks. -/
theorem resizeWorld_block (width height : Int) (rands : Nat → Nat)
    (world : World) {x y : Int} (hx : 0 ≤ x) (hy : 0 ≤ y)
    (hright : x < (resizeWorld width height rands world).1.maxX)
    (hbottom : y < (resizeWorld width height rands world).1.maxY) :
    let made := (resizeWorld width height rands world).1
    (0 ≤ x + y * made.maxX ∧ x + y * made.maxX < made.blocks.length) ∧
      ∃ later, made.blocks[(x + y * made.maxX).toNat]? =
        some (sizedBlock made.maxY ((rands 0 : Int) % (made.maxX - 4) + 2) x y
          later).1 := by
  intro made
  obtain ⟨hwide, -, hlength⟩ := resizeWorld_size width height rands world
  change x < made.maxX at hright
  change y < made.maxY at hbottom
  change 30 ≤ made.maxX ∧ _ at hwide
  change (made.blocks.length : Int) = made.maxX * made.maxY at hlength
  have hrow : y * made.maxX + made.maxX ≤ made.maxX * made.maxY := by
    have hrows := Int.mul_le_mul_of_nonneg_right
      (by omega : y + 1 ≤ made.maxY) (by omega : 0 ≤ made.maxX)
    rwa [Int.add_mul, Int.one_mul, Int.mul_comm made.maxY] at hrows
  have hstart : 0 ≤ y * made.maxX := Int.mul_nonneg hy (by omega)
  have hlow : 0 ≤ x + y * made.maxX := by omega
  have hhigh : x + y * made.maxX < made.blocks.length := by omega
  refine ⟨⟨hlow, hhigh⟩, ?_⟩
  have hcount : (x + y * made.maxX).toNat < (made.maxX * made.maxY).toNat := by
    omega
  obtain ⟨later, hlater⟩ := generateBlocks_getElem?
    (fun index rands' => sizedBlock made.maxY
      ((rands 0 : Int) % (made.maxX - 4) + 2) (index % made.maxX)
      (index / made.maxX) rands') hcount 0 fun n => rands (n + 1)
  refine ⟨later, ?_⟩
  rw [Nat.zero_add, Int.toNat_of_nonneg hlow, Int.add_mul_emod_self_right,
    Int.emod_eq_of_lt hx hright, Int.add_mul_ediv_right _ _ (by omega),
    Int.ediv_eq_zero_of_lt hx hright, Int.zero_add] at hlater
  exact hlater

/-- The world that `create_world(name, int, int)` pushes. -/
def sizedWorld (name : String) (width height : Int) (rands : Nat → Nat) :
    World × (Nat → Nat) :=
  resizeWorld width height rands { name := name }

/-- A block of `create_world(name, int)`. -/
def plainBlock (world : WorldDefault) (d : Nat) (i : Nat) (rands : Nat → Nat) :
    WorldBlock × (Nat → Nat) :=
  let asksRock : Prop := 3800 ≤ i ∧ i < 5400
  let rock : Prop := asksRock ∧ rands 0 % 50 = 0
  let rands := if asksRock then fun n => rands (n + 1) else rands
  let earth : Prop := 3700 ≤ i ∧ i < 5400
  let asksLava : Prop := ¬ rock ∧ earth ∧ 5000 < i
  let fg :=
    if rock then world.rock
    else if earth then
      if 5000 < i ∧ rands 0 % 8 < 3 then world.lava else world.fg
    else if 5400 ≤ i then 8
    else 0
  let rands := if asksLava then fun n => rands (n + 1) else rands
  let fg := if i = 3600 + d then 6 else fg
  let fg := if i = 3700 + d then 8 else fg
  let bg := if 3700 ≤ i then world.bg else 0
  ({ emptyBlock with fg := fg, bg := bg }, rands)

/-- The world that `create_world(name, int)` pushes.  A size below a hundred
divides by zero in the source. -/
def plainWorld (world : WorldDefault) (name : String) (s_ : Nat)
    (rands : Nat → Nat) : World × (Nat → Nat) :=
  let d := rands 0 % (s_ / (s_ / 100) - 4) + 2
  let blocks := generateBlocks (plainBlock world d) s_ 0 fun n => rands (n + 1)
  let maxY := blocks.1.length / 100
  ({ name := name
     freshWorld := true
     weather := world.weather
     blocks := blocks.1
     maxY := maxY
     maxX := blocks.1.length / maxY }, blocks.2)

/-- A plain world has a hundred blocks to a row, as far as they go. -/
theorem plainWorld_size (world : WorldDefault) (name : String) (s_ : Nat)
    (rands : Nat → Nat) :
    let made := (plainWorld world name s_ rands).1
    made.blocks.length = s_ ∧ made.maxY = (s_ / 100 : Nat) ∧
      made.maxX = (s_ / (s_ / 100) : Nat) := by
  simp only [plainWorld, generateBlocks_length, and_self, Int.natCast_ediv]

end NopyServer
