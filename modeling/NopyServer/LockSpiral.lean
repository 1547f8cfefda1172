/-
When `lock_tiles` does what is expected of it.  The pinwheel around the lock is
described by itself first: rings of four arms, each ring from a layer above the axes
down to its corners, with the layer of the next ring chosen from what has been met.
Away from the borders of the world the loop of `lock_tiles` meets the tiles of the
pinwheel one after the other, so that it ends when enough of them are free.

At the borders it does not: arms are missing, an arm can ask a tile outside of the
world, and the rings can come to a tile again or never to an end.
-/
import NopyServer.LockTiles
import NopyServer.PatchPath

namespace NopyServer

namespace LockSpiral

open BoundedLoop LockTiles PatchPath

section Pinwheel

/-- The arms in the order in which they are worked off. -/
def arms : List Arm := [.left, .up, .right, .down]

/-- The tiles of the four arms at one offset. -/
def lap (x y t k : Int) : List (Int × Int) := arms.map fun arm => arm.cell x y t k

/-- The first laps of a ring, from its layer on. -/
def laps (x y : Int) (t layer : Nat) : Nat → List (Int × Int)
  | 0 => []
  | n + 1 => laps x y t layer n ++ lap x y t ((layer : Int) - n)

/-- A ring, from its layer to its corners. -/
def ringTiles (x y : Int) (t layer : Nat) : List (Int × Int) :=
  laps x y t layer (layer + t + 1)

variable (free : Int × Int → Bool)

/-- The tiles that are not free, the ones beside the lock not counted. -/
def blocked (met : List (Int × Int)) : Nat := (met.drop 4).countP fun tile => !free tile

/-- The layer of the next ring, after some tiles have been met. -/
def nextLayer (size : Nat) (met : List (Int × Int)) (layer : Nat) : Nat :=
  if size ≤ 10 ∨ (size : Int) + blocked free met - met.countP free ≤ 5 then 0 else layer + 1

/-- The tiles of the rings up to `t + 1`, and the layer of the last one. -/
def pinwheel (x y : Int) (size : Nat) : Nat → List (Int × Int) × Nat
  | 0 => (ringTiles x y 1 0, 0)
  | t + 1 =>
      let before := pinwheel x y size t
      let layer := nextLayer free size before.1 before.2
      (before.1 ++ ringTiles x y (t + 2) layer, layer)

end Pinwheel

section Geometry

variable {free : Int × Int → Bool} {x y k j : Int} {size t layer n r s : Nat} {arm other : Arm}
  {tile : Int × Int}

theorem mem_arms (arm : Arm) : arm ∈ arms := by cases arm <;> decide

/-- The number of the ring in which a tile lies. -/
def distance (x y : Int) (tile : Int × Int) : Int := max |tile.1 - x| |tile.2 - y|

theorem cell_distance (hlow : -(t : Int) ≤ k) (hhigh : k ≤ t) :
    distance x y (arm.cell x y t k) = t := by
  have hk : |k| ≤ (t : Int) := abs_le.mpr ⟨hlow, hhigh⟩
  have ht : |(t : Int)| = t := abs_of_nonneg (Int.natCast_nonneg t)
  unfold distance
  cases arm with
  | left =>
      have hx : x - t - x = -(t : Int) := by omega
      have hy : y + k - y = k := by omega
      simp only [Arm.cell, hx, hy, abs_neg, ht]
      exact max_eq_left hk
  | up =>
      have hx : x - k - x = -k := by omega
      have hy : y - t - y = -(t : Int) := by omega
      simp only [Arm.cell, hx, hy, abs_neg, ht]
      exact max_eq_right hk
  | right =>
      have hx : x + t - x = (t : Int) := by omega
      have hy : y - k - y = -k := by omega
      simp only [Arm.cell, hx, hy, abs_neg, ht]
      exact max_eq_left hk
  | down =>
      have hx : x + k - x = k := by omega
      have hy : y + t - y = (t : Int) := by omega
      simp only [Arm.cell, hx, hy, ht]
      exact max_eq_right hk

/-- The arms of a ring do not share a tile. -/
theorem cell_injective (hk : -(t : Int) ≤ k ∧ k < t) (hj : -(t : Int) ≤ j ∧ j < t)
    (hcell : arm.cell x y t k = other.cell x y t j) : arm = other ∧ k = j := by
  cases arm <;> cases other <;> simp only [Arm.cell, Prod.mk.injEq] at hcell <;>
    first
    | exact ⟨rfl, by omega⟩
    | omega

theorem mem_laps :
    tile ∈ laps x y t layer n ↔
      ∃ arm : Arm, ∃ j < n, tile = arm.cell x y t ((layer : Int) - j) := by
  induction n with
  | zero => simp [laps]
  | succ n ih =>
      rw [laps, List.mem_append, ih, lap, List.mem_map]
      constructor
      · rintro (⟨arm, j, hj, rfl⟩ | ⟨arm, -, rfl⟩)
        · exact ⟨arm, j, Nat.lt_succ_of_lt hj, rfl⟩
        · exact ⟨arm, n, Nat.lt_succ_self n, rfl⟩
      · rintro ⟨arm, j, hj, rfl⟩
        rcases Nat.lt_succ_iff_lt_or_eq.mp hj with h | rfl
        · exact Or.inl ⟨arm, j, h, rfl⟩
        · exact Or.inr ⟨arm, mem_arms arm, rfl⟩

theorem lap_nodup (hlow : -(t : Int) ≤ k) (hhigh : k < t) : (lap x y t k).Nodup := by
  unfold lap
  refine List.Nodup.map_on (fun arm _ other _ hcell => ?_) (by decide)
  exact (cell_injective ⟨hlow, hhigh⟩ ⟨hlow, hhigh⟩ hcell).1

theorem laps_nodup (hlayer : layer < t) (hn : n ≤ layer + t + 1) :
    (laps x y t layer n).Nodup := by
  induction n with
  | zero => exact List.nodup_nil
  | succ n ih =>
      rw [laps]
      refine List.nodup_append'.mpr
        ⟨ih (Nat.le_of_succ_le hn), lap_nodup (by omega) (by omega), ?_⟩
      intro tile hbefore hlap
      obtain ⟨arm, j, hj, rfl⟩ := mem_laps.mp hbefore
      obtain ⟨other, -, hcell⟩ := List.mem_map.mp hlap
      have hsame := (cell_injective (by omega) (by omega) hcell).2
      omega

theorem pinwheel_layer (t : Nat) : (pinwheel free x y size t).2 ≤ t := by
  induction t with
  | zero => exact le_refl 0
  | succ t ih =>
      rw [pinwheel]
      dsimp only [nextLayer]
      split_ifs
      · exact Nat.zero_le _
      · exact Nat.succ_le_succ ih

theorem mem_ringTiles (hlayer : layer < t) (htile : tile ∈ ringTiles x y t layer) :
    ∃ arm : Arm, ∃ k : Int, -(t : Int) ≤ k ∧ k < t ∧ tile = arm.cell x y t k := by
  obtain ⟨arm, j, hj, rfl⟩ := mem_laps.mp htile
  exact ⟨arm, _, by omega, by omega, rfl⟩

/-- A pinwheel lies in its rings. -/
theorem mem_pinwheel (htile : tile ∈ (pinwheel free x y size r).1) :
    ∃ arm : Arm, ∃ s : Nat, ∃ k : Int, 1 ≤ s ∧ s ≤ r + 1 ∧ -(s : Int) ≤ k ∧ k < s ∧
      tile = arm.cell x y s k := by
  induction r with
  | zero =>
      obtain ⟨arm, k, hlow, hhigh, rfl⟩ := mem_ringTiles Nat.zero_lt_one htile
      exact ⟨arm, 1, k, le_refl 1, le_refl 1, hlow, hhigh, rfl⟩
  | succ r ih =>
      have hlayer := @pinwheel_layer free x y size (r + 1)
      rw [pinwheel] at htile hlayer
      rcases List.mem_append.mp htile with h | h
      · obtain ⟨arm, s, k, hpos, hs, hlow, hhigh, rfl⟩ := ih h
        exact ⟨arm, s, k, hpos, Nat.le_succ_of_le hs, hlow, hhigh, rfl⟩
      · obtain ⟨arm, k, hlow, hhigh, rfl⟩ := mem_ringTiles (Nat.lt_succ_of_le hlayer) h
        exact ⟨arm, r + 2, k, Nat.succ_pos _, le_refl _, hlow, hhigh, rfl⟩

theorem pinwheel_nodup (r : Nat) : (pinwheel free x y size r).1.Nodup := by
  induction r with
  | zero => exact laps_nodup Nat.zero_lt_one (le_refl _)
  | succ r ih =>
      have hlayer := @pinwheel_layer free x y size (r + 1)
      rw [pinwheel] at hlayer ⊢
      refine List.nodup_append'.mpr
        ⟨ih, laps_nodup (Nat.lt_succ_of_le hlayer) (le_refl _), ?_⟩
      intro tile hbefore hring
      -- a tile lies in the ring of its distance from the lock
      obtain ⟨arm, s, k, -, hs, hlow, hhigh, rfl⟩ := mem_pinwheel hbefore
      obtain ⟨other, j, hj, hk, hcell⟩ := mem_ringTiles (Nat.lt_succ_of_le hlayer) hring
      have hnear := @cell_distance x y k s arm hlow hhigh.le
      rw [hcell, cell_distance hj hk.le] at hnear
      omega

end Geometry

section Inside

variable {items : Items} {world : World} {x y k : Int} {size t r : Nat} {g : Growth}
  {arm : Arm} {tile other : Int × Int}

/-- So many rings around the lock lie in the world. -/
structure Box (world : World) (x y : Int) (r : Nat) : Prop where
  left : (r : Int) < x
  up : (r : Int) < y
  right : x + r < 100
  down : y + r < world.maxY

/-- A tile lies in the world. -/
structure Within (world : World) (tile : Int × Int) : Prop where
  left : 0 ≤ tile.1
  right : tile.1 < 100
  top : 0 ≤ tile.2
  bottom : tile.2 < world.maxY

theorem cell_within (hbox : Box world x y r) (ht : t ≤ r) (hlow : -(t : Int) ≤ k)
    (hhigh : k ≤ t) : Within world (arm.cell x y t k) := by
  obtain ⟨hleft, hup, hright, hdown⟩ := hbox
  cases arm with
  | left => constructor <;> dsimp only [Arm.cell] <;> omega
  | up => constructor <;> dsimp only [Arm.cell] <;> omega
  | right => constructor <;> dsimp only [Arm.cell] <;> omega
  | down => constructor <;> dsimp only [Arm.cell] <;> omega

/-- A tile is found again from its index. -/
theorem tile_index (hwithin : Within world tile) :
    (index tile % 100, index tile / 100) = tile := by
  obtain ⟨hleft, hright, -, -⟩ := hwithin
  unfold index
  refine Prod.ext ?_ ?_
  · change (tile.1 + tile.2 * 100) % 100 = tile.1
    omega
  · change (tile.1 + tile.2 * 100) / 100 = tile.2
    omega

theorem index_injective (htile : Within world tile) (hother : Within world other)
    (hindex : index tile = index other) : tile = other := by
  rw [← tile_index htile, hindex, tile_index hother]

theorem at_index (hwide : Wide world) (hwithin : Within world tile) :
    ∃ block, at? world.blocks (index tile) = some block := by
  have hlength := hwide.length
  obtain ⟨hleft, hright, htop, hbottom⟩ := hwithin
  have hinside : (index tile).toNat < world.blocks.length := by
    unfold index
    omega
  have hpos : ¬ index tile < 0 := by
    unfold index
    omega
  unfold at?
  rw [if_neg hpos]
  exact ⟨_, List.getElem?_eq_getElem hinside⟩

/-- The tile is there and can be taken. -/
def isFree (items : Items) (world : World) (tile : Int × Int) : Bool :=
  free items world tile == some true

theorem free_eq (hwide : Wide world) (hwithin : Within world tile) :
    free items world tile = some (isFree items world tile) := by
  obtain ⟨block, hblock⟩ := at_index hwide hwithin
  unfold isFree free
  rw [hblock]
  cases hmod : notMod items block (index tile) world.blocks.length with
  | true => simp [hmod]
  | false => simp [hmod]

theorem next_cell : arm.next (arm.cell x y t k) = arm.cell x y t (k - 1) := by
  cases arm with
  | left => exact Prod.ext rfl (by dsimp only [Arm.next, Arm.cell]; omega)
  | up => exact Prod.ext (by dsimp only [Arm.next, Arm.cell]; omega) rfl
  | right => exact Prod.ext rfl (by dsimp only [Arm.next, Arm.cell]; omega)
  | down => exact Prod.ext (by dsimp only [Arm.next, Arm.cell]; omega) rfl

/-- The end of an arm in a ring. -/
def BoundAt (x y : Int) (t : Nat) (g : Growth) : Arm → Prop
  | .left => g.maxRight = x - t
  | .up => g.maxUp = y - t
  | .right => g.maxLeft = x + t
  | .down => g.maxDown = y + t

/-- The ends of the arms in a ring; the first ring has none. -/
def Bounded (x y : Int) (t : Nat) (g : Growth) : Prop :=
  if t ≤ 1 then g.maxUp = 0 ∧ g.maxDown = 0 ∧ g.maxRight = 0 ∧ g.maxLeft = 0
  else ∀ arm, BoundAt x y t g arm

theorem leaves_cell (hwide : Wide world) (hbox : Box world x y r) (ht : t ≤ r)
    (hlow : -(t : Int) < k) : arm.leaves world (arm.cell x y t k) = false := by
  have hwidth := hwide.width
  obtain ⟨hleft, hup, hright, hdown⟩ := hbox
  cases arm with
  | left => exact decide_eq_false (by omega)
  | up => exact decide_eq_false (by omega)
  | right => exact decide_eq_false (by omega)
  | down => exact decide_eq_false (by omega)

/-- An arm goes on up to the corner of its ring. -/
theorem goesOn_cell (hwide : Wide world) (hbox : Box world x y r) (ht : t ≤ r)
    (hbounded : Bounded x y t g) (hhigh : k < t) :
    arm.goesOn world g (arm.cell x y t k) = true ↔ 1 - (t : Int) < k := by
  have hwidth := hwide.width
  obtain ⟨hleft, hup, hright, hdown⟩ := hbox
  unfold Bounded at hbounded
  split_ifs at hbounded with hfirst
  · obtain ⟨hmaxUp, hmaxDown, hmaxRight, hmaxLeft⟩ := hbounded
    -- the arms of the first ring end after one tile
    refine iff_of_false ?_ (by omega)
    cases arm with
    | left => simp [Arm.goesOn, Arm.cell, hmaxUp]
    | up => simp [Arm.goesOn, Arm.cell, hmaxLeft]
    | right => simp [Arm.goesOn, Arm.cell, hmaxDown]
    | down => simp [Arm.goesOn, Arm.cell, hmaxRight]
  · have hmaxRight : g.maxRight = x - t := hbounded .left
    have hmaxUp : g.maxUp = y - t := hbounded .up
    have hmaxLeft : g.maxLeft = x + t := hbounded .right
    have hmaxDown : g.maxDown = y + t := hbounded .down
    cases arm with
    | left =>
        dsimp only [Arm.cell]
        simp only [Arm.goesOn, hmaxUp, Bool.and_eq_true, bne_iff_ne, decide_eq_true_eq]
        omega
    | up =>
        dsimp only [Arm.cell]
        simp only [Arm.goesOn, hmaxLeft, hwidth, Bool.and_eq_true, bne_iff_ne,
          decide_eq_true_eq]
        omega
    | right =>
        dsimp only [Arm.cell]
        simp only [Arm.goesOn, hmaxDown, Bool.and_eq_true, bne_iff_ne, decide_eq_true_eq]
        omega
    | down =>
        dsimp only [Arm.cell]
        simp only [Arm.goesOn, hmaxRight, Bool.and_eq_true, bne_iff_ne, decide_eq_true_eq]
        omega

end Inside

section Asking

variable {items : Items} {world : World} {x y k : Int} {size t r : Nat} {g : Growth}
  {arm : Arm} {tile : Int × Int}

/-- A tile is met: it is taken or counted. -/
def meet (items : Items) (world : World) (tile : Int × Int) (g : Growth) : Growth :=
  if isFree items world tile = true then { g with newLock := g.newLock ++ [tile] }
  else { g with lockSize := g.lockSize + 1 }

@[simp] theorem meet_newTiles : (meet items world tile g).newTiles = g.newTiles := by
  unfold meet
  split_ifs <;> rfl

@[simp] theorem meet_scanned : (meet items world tile g).scanned = g.scanned := by
  unfold meet
  split_ifs <;> rfl

@[simp] theorem meet_layer : (meet items world tile g).layer = g.layer := by
  unfold meet
  split_ifs <;> rfl

theorem meet_newLock :
    (meet items world tile g).newLock = g.newLock ++ [tile].filter (isFree items world) := by
  unfold meet
  cases hfree : isFree items world tile with
  | true => simp [hfree]
  | false => simp [hfree]

theorem meet_lockSize :
    (meet items world tile g).lockSize =
      g.lockSize + if isFree items world tile = true then 0 else 1 := by
  unfold meet
  split_ifs
  · exact (Int.add_zero _).symm
  · rfl

theorem meet_bounded (hbounded : Bounded x y t g) :
    Bounded x y t (meet items world tile g) := by
  unfold meet
  split_ifs
  · exact hbounded
  · exact hbounded

/-- An arm goes on from a tile, up to the corner of its ring. -/
def advance (x y : Int) (t : Nat) (k : Int) (arm : Arm) (g : Growth) : Growth :=
  { g with
    scanned := index (arm.cell x y t k) :: g.scanned
    newTiles :=
      if 1 - (t : Int) < k then g.newTiles ++ [(index (arm.cell x y t (k - 1)), arm)]
      else g.newTiles }

/-- The loop stops when enough tiles are taken. -/
def untilFull (size : Nat) (g : Growth) : Next Growth :=
  if size ≤ g.newLock.length then .stop g else .again g

/-- What an arm does in a ring that lies in the world. -/
theorem ask_cell (hwide : Wide world) (hbox : Box world x y r) (ht : t ≤ r)
    (hbounded : Bounded x y t g) (hlow : -(t : Int) < k) (hhigh : k < t)
    (hnew : index (arm.cell x y t (k - 1)) ∉ g.scanned) (hroom : g.newLock.length < size) :
    ask items world size (index (arm.cell x y t k)) arm g =
      some (untilFull size
        (meet items world (arm.cell x y t (k - 1)) (advance x y t k arm g))) := by
  have hwithin : Within world (arm.cell x y t k) := cell_within hbox ht hlow.le hhigh.le
  have hnext : Within world (arm.cell x y t (k - 1)) :=
    cell_within hbox ht (by omega) (by omega)
  have hleaves : ¬ arm.leaves world (arm.cell x y t k) = true := by
    rw [leaves_cell hwide hbox ht hlow]
    exact Bool.false_ne_true
  have hgoes := @goesOn_cell world x y k t r g arm hwide hbox ht hbounded hhigh
  obtain ⟨block, hblock⟩ := at_index hwide hwithin
  unfold ask
  dsimp only
  rw [tile_index hwithin, if_neg hleaves, next_cell, free_eq hwide hnext, hblock]
  simp only [Option.bind_eq_bind, Option.bind_some, if_neg hnew, hgoes]
  have hfull : ¬ (1 - (t : Int) < k ∧ size ≤ g.newLock.length) := fun h => by omega
  unfold untilFull meet advance
  cases hfree : isFree items world (arm.cell x y t (k - 1)) with
  | true =>
      simp only [if_true, Option.pure_def]
  | false =>
      simp only [Bool.false_eq_true, if_false, hfull, Option.pure_def, if_neg hroom.not_ge]

end Asking

section Plan

variable {items : Items} {world : World} {x y : Int} {size t r layer n : Nat} {g g' : Growth}
  {arm : Arm} {tile : Int × Int} {base : List (Int × Int)} {done rest : List Arm}

/-- A ring that lies in the world, after the tiles of the rings before it. -/
structure Plan (world : World) (x y : Int) (r : Nat) (base : List (Int × Int))
    (t layer : Nat) : Prop where
  wide : Wide world
  box : Box world x y r
  pos : 1 ≤ t
  le : t ≤ r
  layer_lt : layer < t
  earlier : ∀ tile ∈ base, ∃ arm : Arm, ∃ s : Nat, ∃ k : Int,
    1 ≤ s ∧ s < t ∧ -(s : Int) ≤ k ∧ k < s ∧ tile = arm.cell x y s k
  nodup : (base ++ ringTiles x y t layer).Nodup

/-- The tiles met before a lap is over. -/
def met (x y : Int) (base : List (Int × Int)) (t layer n : Nat) (done : List Arm) :
    List (Int × Int) :=
  base ++ laps x y t layer n ++ done.map fun arm => arm.cell x y t ((layer : Int) - n)

theorem met_append :
    met x y base t layer n (done ++ [arm]) =
      met x y base t layer n done ++ [arm.cell x y t ((layer : Int) - n)] := by
  simp [met]

theorem met_lap : met x y base t layer n arms = met x y base t layer (n + 1) [] := by
  simp [met, laps, lap]

theorem laps_begin {m : Nat} (hle : m ≤ n) : laps x y t layer m <+: laps x y t layer n := by
  induction n, hle using Nat.le_induction with
  | base => exact List.prefix_refl _
  | succ n _ ih => exact ih.trans (List.prefix_append _ _)

theorem length_met : 4 * n ≤ (met x y base t layer n done).length := by
  have hlaps : (laps x y t layer n).length = 4 * n := by
    induction n with
    | zero => rfl
    | succ n ih =>
        rw [laps, List.length_append, ih]
        rfl
  unfold met
  rw [List.length_append, List.length_append, hlaps]
  omega

/-- What is met is part of the plan. -/
theorem met_nodup (hplan : Plan world x y r base t layer) (hn : n ≤ layer + t)
    (harms : done ++ rest = arms) : (met x y base t layer n done).Nodup := by
  have hpart : met x y base t layer n done <+: met x y base t layer n arms := by
    unfold met
    rw [← harms, List.map_append, ← List.append_assoc]
    exact List.prefix_append _ _
  have hring : met x y base t layer (n + 1) [] <+: base ++ ringTiles x y t layer := by
    unfold met
    rw [List.map_nil, List.append_nil]
    exact (List.prefix_append_right_inj base).mpr (laps_begin (Nat.succ_le_succ hn))
  rw [met_lap] at hpart
  exact (hpart.trans hring).sublist.nodup hplan.nodup

theorem mem_met (hplan : Plan world x y r base t layer) (hn : n ≤ layer + t)
    (htile : tile ∈ met x y base t layer n done) :
    ∃ arm : Arm, ∃ s : Nat, ∃ k : Int, 1 ≤ s ∧ s ≤ t ∧ -(s : Int) ≤ k ∧ k < s ∧
      tile = arm.cell x y s k := by
  have hlayer := hplan.layer_lt
  rcases List.mem_append.mp htile with h | h
  · rcases List.mem_append.mp h with h | h
    · obtain ⟨arm, s, k, hpos, hs, hlow, hhigh, rfl⟩ := hplan.earlier tile h
      exact ⟨arm, s, k, hpos, hs.le, hlow, hhigh, rfl⟩
    · obtain ⟨arm, j, hj, rfl⟩ := mem_laps.mp h
      exact ⟨arm, t, _, hplan.pos, le_refl t, by omega, by omega, rfl⟩
  · obtain ⟨arm, -, rfl⟩ := List.mem_map.mp h
    exact ⟨arm, t, _, hplan.pos, le_refl t, by omega, by omega, rfl⟩

theorem met_within (hplan : Plan world x y r base t layer) (hn : n ≤ layer + t)
    (htile : tile ∈ met x y base t layer n done) : Within world tile := by
  obtain ⟨arm, s, k, -, hs, hlow, hhigh, rfl⟩ := mem_met hplan hn htile
  exact cell_within hplan.box (hs.trans hplan.le) hlow hhigh.le

/-- The lock itself is not met. -/
theorem met_ne (hplan : Plan world x y r base t layer) (hn : n ≤ layer + t)
    (htile : tile ∈ met x y base t layer n done) : tile ≠ (x, y) := by
  obtain ⟨arm, s, k, hpos, -, hlow, hhigh, rfl⟩ := mem_met hplan hn htile
  intro hself
  have hdistance := @cell_distance x y k s arm hlow hhigh.le
  rw [hself] at hdistance
  simp [distance] at hdistance
  omega

/-- The loop in a ring: some arms have asked a tile in this lap, the others wait. -/
structure Clean (items : Items) (world : World) (x y : Int) (size : Nat)
    (base : List (Int × Int)) (t layer n : Nat) (done rest : List Arm) (g : Growth) :
    Prop where
  order : done ++ rest = arms
  newTiles : g.newTiles =
    rest.map (fun arm => (index (arm.cell x y t ((layer : Int) - n + 1)), arm)) ++
      if n < layer + t
      then done.map fun arm => (index (arm.cell x y t ((layer : Int) - n)), arm)
      else []
  newLock : g.newLock = (met x y base t layer n done).filter (isFree items world)
  lockSize : g.newLock.length < size → g.lockSize =
    size + blocked (isFree items world) (met x y base t layer n done)
  layer_eq : g.layer = layer
  bounded : Bounded x y t g
  scanned : ∀ i ∈ g.scanned, ∃ tile ∈ met x y base t layer n done, i = index tile
  axes : ∀ s : Nat, 1 ≤ s → s < t → ∀ arm : Arm, index (arm.cell x y s 0) ∈ g.scanned
  axis : ∀ arm : Arm, layer + 1 < n ∨ layer + 1 = n ∧ arm ∈ done →
    index (arm.cell x y t 0) ∈ g.scanned

/-- What is met more is taken or counted. -/
theorem blocked_append {free : Int × Int → Bool} {tiles : List (Int × Int)}
    (hlength : 4 ≤ tiles.length) :
    blocked free (tiles ++ [tile]) =
      blocked free tiles + if free tile = true then 0 else 1 := by
  unfold blocked
  rw [List.drop_append_of_le_length hlength, List.countP_append]
  cases hfree : free tile with
  | true => simp [hfree]
  | false => simp [hfree]

/-- The tile that an arm asks has not been scanned. -/
theorem Clean.fresh (hplan : Plan world x y r base t layer) (hn : n ≤ layer + t)
    (hclean : Clean items world x y size base t layer n done (arm :: rest) g) :
    index (arm.cell x y t ((layer : Int) - n)) ∉ g.scanned := by
  have harms : (done ++ [arm]) ++ rest = arms := by
    rw [List.append_assoc]
    exact hclean.order
  have hmem : arm.cell x y t ((layer : Int) - n) ∈
      met x y base t layer n (done ++ [arm]) := by
    rw [met_append]
    exact List.mem_append_right _ (List.mem_singleton_self _)
  have hnew : arm.cell x y t ((layer : Int) - n) ∉ met x y base t layer n done := by
    have hnodup := met_nodup hplan hn harms
    rw [met_append] at hnodup
    exact fun h => (List.nodup_append'.mp hnodup).2.2 h (List.mem_singleton_self _)
  intro h
  obtain ⟨tile, htile, hindex⟩ := hclean.scanned _ h
  have hsame := index_injective (met_within hplan hn hmem) (met_within hplan hn htile) hindex
  exact hnew (hsame ▸ htile)

/-- The state after an arm has met its tile. -/
theorem Clean.meet (hplan : Plan world x y r base t layer) (hfirst : 1 ≤ n)
    (hn : n ≤ layer + t)
    (hclean : Clean items world x y size base t layer n done (arm :: rest) g) :
    Clean items world x y size base t layer n (done ++ [arm]) rest
      (LockSpiral.meet items world (arm.cell x y t ((layer : Int) - n))
        (advance x y t ((layer : Int) - n + 1) arm
          { g with newTiles := g.newTiles.tail })) := by
  have hlayer := hplan.layer_lt
  have hprev : (layer : Int) - n + 1 - 1 = (layer : Int) - n := by omega
  refine ⟨?_, ?_, ?_, ?_, ?_, meet_bounded hclean.bounded, ?_, ?_, ?_⟩
  · rw [List.append_assoc]
    exact hclean.order
  · rw [meet_newTiles]
    unfold advance
    rw [hclean.newTiles, hprev]
    by_cases hgoes : n < layer + t
    · rw [if_pos hgoes, if_pos hgoes, if_pos (by omega)]
      simp
    · rw [if_neg hgoes, if_neg hgoes, if_neg (by omega)]
      simp
  · rw [meet_newLock, met_append, List.filter_append, ← hclean.newLock]
    rfl
  · intro hless
    rw [meet_newLock, List.length_append] at hless
    rw [meet_lockSize, met_append, blocked_append
      (le_trans (by omega) (@length_met x y t layer n base done))]
    change g.lockSize + _ = _
    rw [hclean.lockSize (by
      change g.newLock.length + _ < size at hless
      omega)]
    push_cast
    split_ifs <;> omega
  · rw [meet_layer]
    exact hclean.layer_eq
  · intro i hi
    rw [meet_scanned] at hi
    rcases List.mem_cons.mp hi with rfl | h
    · refine ⟨_, ?_, rfl⟩
      have hcast : (layer : Int) - n + 1 = (layer : Int) - (n - 1 : Nat) := by omega
      rw [hcast]
      exact List.mem_append_left _ (List.mem_append_right _
        (mem_laps.mpr ⟨arm, n - 1, by omega, rfl⟩))
    · obtain ⟨tile, htile, hindex⟩ := hclean.scanned i h
      rw [met_append]
      exact ⟨tile, List.mem_append_left _ htile, hindex⟩
  · intro s hpos hs other
    rw [meet_scanned]
    exact List.mem_cons_of_mem _ (hclean.axes s hpos hs other)
  · intro other hother
    rw [meet_scanned]
    rcases hother with h | ⟨hturn, h⟩
    · exact List.mem_cons_of_mem _ (hclean.axis other (Or.inl h))
    · rcases List.mem_append.mp h with h | h
      · exact List.mem_cons_of_mem _ (hclean.axis other (Or.inr ⟨hturn, h⟩))
      · have hzero : (layer : Int) - n + 1 = 0 := by omega
        rw [List.mem_singleton.mp h, ← hzero]
        exact List.mem_cons_self

/-- The arm in front of the work list asks its tile. -/
theorem Clean.ask (hplan : Plan world x y r base t layer) (hfirst : 1 ≤ n)
    (hn : n ≤ layer + t)
    (hclean : Clean items world x y size base t layer n done (arm :: rest) g)
    (hroom : g.newLock.length < size) :
    ∃ g', LockTiles.ask items world size
        (index (arm.cell x y t ((layer : Int) - n + 1))) arm
        { g with newTiles := g.newTiles.tail } = some (untilFull size g') ∧
      Clean items world x y size base t layer n (done ++ [arm]) rest g' := by
  have hlayer := hplan.layer_lt
  have hprev : (layer : Int) - n + 1 - 1 = (layer : Int) - n := by omega
  have hfresh := hclean.fresh hplan hn
  rw [← hprev] at hfresh
  have hasked := @ask_cell items world x y ((layer : Int) - n + 1) size t r
    { g with newTiles := g.newTiles.tail } arm hplan.wide hplan.box hplan.le hclean.bounded
    (by omega) (by omega) hfresh hroom
  rw [hprev] at hasked
  exact ⟨_, hasked, hclean.meet hplan hfirst hn⟩

/-- The tiles that are taken are what is expected. -/
def Good (world : World) (x y : Int) (g : Growth) : Prop :=
  g.newLock.Nodup ∧ ∀ tile ∈ g.newLock, Within world tile ∧ tile ≠ (x, y)

theorem Clean.good (hplan : Plan world x y r base t layer) (hn : n ≤ layer + t)
    (hclean : Clean items world x y size base t layer n done rest g) :
    Good world x y g := by
  unfold Good
  rw [hclean.newLock]
  refine ⟨(met_nodup hplan hn hclean.order).filter _, fun tile htile => ?_⟩
  have hmet := List.mem_of_mem_filter htile
  exact ⟨met_within hplan hn hmet, met_ne hplan hn hmet⟩

/-- The next lap begins when all arms have asked. -/
theorem Clean.lap (hclean : Clean items world x y size base t layer n arms [] g)
    (hgoes : n < layer + t) : Clean items world x y size base t layer (n + 1) [] arms g := by
  obtain ⟨-, hnewTiles, hnewLock, hlockSize, hlayer, hbounded, hscanned, haxes, haxis⟩ := hclean
  have hcast : (layer : Int) - (n + 1 : Nat) + 1 = (layer : Int) - n := by omega
  refine ⟨rfl, ?_, ?_, ?_, hlayer, hbounded, ?_, haxes, ?_⟩
  · rw [hnewTiles, hcast, if_pos hgoes]
    simp
  · rw [← met_lap]
    exact hnewLock
  · rw [← met_lap]
    exact hlockSize
  · rw [← met_lap]
    exact hscanned
  · intro arm harm
    rcases harm with h | ⟨-, h⟩
    · rcases Nat.lt_succ_iff_lt_or_eq.mp h with h | h
      · exact haxis arm (Or.inl h)
      · exact haxis arm (Or.inr ⟨h, mem_arms arm⟩)
    · cases h

end Plan

section Finishing

variable {items : Items} {world : World} {x y : Int} {size t r layer n : Nat} {g g' ring : Growth}
  {arm : Arm} {sq : Int} {base : List (Int × Int)} {done rest : List Arm}
  {tail : List (Int × Arm)}

/-- The loop ends with what is expected. -/
def Finishes (items : Items) (world : World) (x y : Int) (size : Nat) (g : Growth) : Prop :=
  ∃ budget g', grow items world x y size budget g = some (some g') ∧ Good world x y g'

theorem finishes_full (hgood : Good world x y g) (hfull : size ≤ g.newLock.length) :
    Finishes items world x y size g := by
  refine ⟨0, g, ?_, hgood⟩
  unfold grow
  split
  next => rfl
  next => rw [if_pos hfull]

theorem finishes_stop (htiles : g.newTiles = (sq, arm) :: tail)
    (hroom : g.newLock.length < size)
    (hround : round items world x y size sq arm { g with newTiles := tail } = some (.stop g'))
    (hgood : Good world x y g') : Finishes items world x y size g := by
  refine ⟨1, g', ?_, hgood⟩
  unfold grow
  rw [htiles]
  dsimp only
  rw [if_neg hroom.not_ge, hround]

theorem finishes_again (htiles : g.newTiles = (sq, arm) :: tail)
    (hroom : g.newLock.length < size)
    (hround : round items world x y size sq arm { g with newTiles := tail } =
      some (.again g'))
    (hlater : Finishes items world x y size g') : Finishes items world x y size g := by
  obtain ⟨budget, last, hgrow, hgood⟩ := hlater
  refine ⟨budget + 1, last, ?_, hgood⟩
  unfold grow
  rw [htiles]
  dsimp only
  rw [if_neg hroom.not_ge, hround]
  exact hgrow

theorem round_goes (hask : ask items world size sq arm g = some (.again g'))
    (hopen : g'.newTiles ≠ []) : round items world x y size sq arm g = some (.again g') := by
  unfold LockTiles.round
  rw [hask]
  exact if_neg hopen

theorem round_starts (hask : ask items world size sq arm g = some (.again g'))
    (hover : g'.newTiles = []) (hring : nextRing items world x y size g' = some ring) :
    round items world x y size sq arm g = some (.again ring) := by
  unfold LockTiles.round
  rw [hask]
  change (if g'.newTiles = [] then _ else _) = _
  rw [if_pos hover, hring]
  rfl

theorem round_stops (hask : ask items world size sq arm g = some (.stop g')) :
    round items world x y size sq arm g = some (.stop g') := by
  unfold LockTiles.round
  rw [hask]
  rfl

/-- A lap: each arm asks its tile.  After the last lap of a ring the next one is started. -/
theorem lap_finishes (hplan : Plan world x y r base t layer) (hfirst : 1 ≤ n)
    (hn : n ≤ layer + t)
    (hnext : ∀ g, g.newLock.length < size →
      Clean items world x y size base t layer n arms [] g →
      if n < layer + t then Finishes items world x y size g
      else ∃ g', nextRing items world x y size g = some g' ∧
        Finishes items world x y size g')
    (hwork : rest ≠ [] ∨ n < layer + t)
    (hclean : Clean items world x y size base t layer n done rest g) :
    Finishes items world x y size g := by
  induction rest generalizing done g with
  | nil =>
      have hall : done = arms := by simpa using hclean.order
      subst hall
      rcases Nat.lt_or_ge g.newLock.length size with hroom | hfull
      · have hlater := hnext g hroom hclean
        rw [if_pos (hwork.resolve_left (by simp))] at hlater
        exact hlater
      · exact finishes_full (hclean.good hplan hn) hfull
  | cons arm rest ih =>
      rcases Nat.lt_or_ge g.newLock.length size with hroom | hfull
      · obtain ⟨g', hask, hafter⟩ := hclean.ask hplan hfirst hn hroom
        have htiles : g.newTiles =
            (index (arm.cell x y t ((layer : Int) - n + 1)), arm) :: g.newTiles.tail := by
          rw [hclean.newTiles]
          rfl
        rcases Nat.lt_or_ge g'.newLock.length size with hroom' | hfull'
        · rw [untilFull, if_neg hroom'.not_ge] at hask
          by_cases hmore : rest ≠ [] ∨ n < layer + t
          · -- the arm is not the last one of the ring
            have hopen : g'.newTiles ≠ [] := by
              rw [hafter.newTiles]
              rcases hmore with h | h
              · simp [h]
              · simp [h]
            exact finishes_again htiles hroom (round_goes hask hopen) (ih hmore hafter)
          · obtain ⟨hlast, hend⟩ := not_or.mp hmore
            rw [not_not] at hlast
            subst hlast
            have hall : done ++ [arm] = arms := by simpa using hafter.order
            have hover : g'.newTiles = [] := by
              rw [hafter.newTiles, if_neg hend]
              rfl
            rw [hall] at hafter
            have hlater := hnext g' hroom' hafter
            rw [if_neg hend] at hlater
            obtain ⟨g'', hring, hfinishes⟩ := hlater
            exact finishes_again htiles hroom (round_starts hask hover hring) hfinishes
        · rw [untilFull, if_pos hfull'] at hask
          exact finishes_stop htiles hroom (round_stops hask) (hafter.good hplan hn)
      · exact finishes_full (hclean.good hplan hn) hfull

/-- A ring, from any of its laps. -/
theorem ring_finishes (hplan : Plan world x y r base t layer) (hfirst : 1 ≤ n)
    (hn : n ≤ layer + t)
    (hring : ∀ g, g.newLock.length < size →
      Clean items world x y size base t layer (layer + t) arms [] g →
      ∃ g', nextRing items world x y size g = some g' ∧ Finishes items world x y size g')
    (hclean : Clean items world x y size base t layer n [] arms g) :
    Finishes items world x y size g := by
  induction hleft : layer + t - n generalizing n g with
  | zero =>
      have hend : n = layer + t := by omega
      subst hend
      refine lap_finishes hplan hfirst hn (fun g hroom hlap => ?_) (Or.inl (by decide)) hclean
      rw [if_neg (Nat.lt_irrefl _)]
      exact hring g hroom hlap
  | succ left ih =>
      have hgoes : n < layer + t := by omega
      refine lap_finishes hplan hfirst hn (fun g _ hlap => ?_) (Or.inr hgoes) hclean
      rw [if_pos hgoes]
      exact ih (Nat.le_succ_of_le hfirst) hgoes (hlap.lap hgoes) (by omega)

end Finishing

section Starting

variable {items : Items} {world : World} {x y : Int} {size t r s layer budget : Nat}
  {g g' : Growth} {arm other : Arm} {base : List (Int × Int)} {done rest : List Arm}
  {scanned : List Int}

theorem outside_cell (hwide : Wide world) (hbox : Box world x y r) (hs : s ≤ r) :
    arm.outside world x y s = false := by
  have hwidth := hwide.width
  obtain ⟨hleft, hup, hright, hdown⟩ := hbox
  cases arm with
  | left => exact decide_eq_false (by omega)
  | up => exact decide_eq_false (by omega)
  | right => exact decide_eq_false (by omega)
  | down => exact decide_eq_false (by omega)

theorem scannedAt_cell (hwide : Wide world) (hbox : Box world x y r) (hs : s ≤ r) :
    scannedAt world x y g arm s = some (decide (index (arm.cell x y s 0) ∈ g.scanned)) := by
  have hwithin : Within world (arm.cell x y s 0) := cell_within hbox hs (by omega) (by omega)
  obtain ⟨block, hblock⟩ := at_index hwide hwithin
  unfold scannedAt
  rw [hblock]
  rfl

/-- The axes are scanned up to a ring. -/
def Axes (x y : Int) (t : Nat) (scanned : List Int) : Prop :=
  ∀ arm : Arm, (∀ s : Nat, 1 ≤ s → s ≤ t → index (arm.cell x y s 0) ∈ scanned) ∧
    index (arm.cell x y ((t + 1 : Nat) : Int) 0) ∉ scanned

/-- On an axis the next ring is found. -/
theorem search_cell (hwide : Wide world) (hbox : Box world x y r) (ht : t + 1 ≤ r)
    (haxes : Axes x y t g.scanned) (hpos : 1 ≤ s) (hs : s ≤ t + 1)
    (hbudget : t + 1 - s < budget) :
    search world x y g arm budget s = some (some ((t + 1 : Nat) : Int)) := by
  obtain ⟨hscanned, hnew⟩ := haxes arm
  induction budget generalizing s with
  | zero => exact absurd hbudget (Nat.not_lt_zero _)
  | succ budget ih =>
      unfold search
      rw [outside_cell hwide hbox (hs.trans ht), if_neg Bool.false_ne_true,
        scannedAt_cell hwide hbox (hs.trans ht)]
      simp only [Option.bind_eq_bind, Option.bind_some, decide_eq_true_eq]
      rcases Nat.lt_or_ge t s with hlast | hless
      · have heq : s = t + 1 := by omega
        rw [heq, if_neg hnew]
        rfl
      · have hcast : (s : Int) + 1 = ((s + 1 : Nat) : Int) := rfl
        rw [if_pos (hscanned s hpos hless), hcast]
        exact ih (Nat.succ_pos s) (Nat.succ_le_succ hless) (by omega)

/-- An arm of the next ring is started. -/
theorem start_cell (hwide : Wide world) (hbox : Box world x y r) (hpos : 1 ≤ t)
    (ht : t + 1 ≤ r) (haxes : Axes x y t g.scanned) (hlayer : g.layer ≤ t) :
    start items world x y size arm g =
      startArm items world x y size arm ((t + 1 : Nat) : Int) g := by
  have hone : arm.outside world x y 1 = false := @outside_cell world x y r 1 arm hwide hbox
    (by omega)
  have htwo : arm.outside world x y 2 = false := @outside_cell world x y r 2 arm hwide hbox
    (by omega)
  have hfirst : scannedAt world x y g arm 1 = some true := by
    have hcell := @scannedAt_cell world x y r 1 g arm hwide hbox (by omega)
    rw [decide_eq_true ((haxes arm).1 1 (le_refl 1) hpos)] at hcell
    exact hcell
  have hsearch : search world x y g arm (world.maxX + world.maxY + 2).toNat 2 =
      some (some ((t + 1 : Nat) : Int)) := by
    have hwidth := hwide.width
    have hright := hbox.right
    have hleft := hbox.left
    have hheight := hwide.height
    exact @search_cell world x y t r 2 _ g arm hwide hbox ht haxes (by omega) (by omega)
      (by omega)
  have hup := hbox.up
  unfold start
  rw [hone, if_neg Bool.false_ne_true, hfirst, htwo]
  simp only [Option.bind_eq_bind, Option.bind_some, Bool.true_eq_false, Bool.false_eq_true,
    if_false]
  rw [if_neg (by omega), hsearch]
  rfl

/-- Some arms of a ring are started. -/
structure Started (items : Items) (world : World) (x y : Int) (size : Nat)
    (base : List (Int × Int)) (t layer : Nat) (scanned : List Int) (done : List Arm)
    (g : Growth) : Prop where
  newTiles : g.newTiles = done.map fun arm => (index (arm.cell x y t layer), arm)
  newLock : g.newLock =
    (base ++ done.map fun arm => arm.cell x y t layer).filter (isFree items world)
  lockSize : g.newLock.length < size → g.lockSize =
    size + blocked (isFree items world) (base ++ done.map fun arm => arm.cell x y t layer)
  layer_eq : g.layer = layer
  bounds : ∀ arm ∈ done, BoundAt x y t g arm
  scanned_eq : g.scanned = scanned

theorem bound_newLock (t : Int) : (arm.bound x y t g).newLock = g.newLock := by
  cases arm <;> rfl

theorem bound_lockSize (t : Int) : (arm.bound x y t g).lockSize = g.lockSize := by
  cases arm <;> rfl

theorem bound_layer (t : Int) : (arm.bound x y t g).layer = g.layer := by
  cases arm <;> rfl

theorem bound_scanned (t : Int) : (arm.bound x y t g).scanned = g.scanned := by
  cases arm <;> rfl

/-- The state with one arm more, whatever the arm has met. -/
theorem Started.place {newLock : List (Int × Int)} {lockSize : Int}
    (hlength : 4 ≤ base.length)
    (hstarted : Started items world x y size base t layer scanned done g)
    (hnewLock : newLock =
      g.newLock ++ [arm.cell x y t layer].filter (isFree items world))
    (hlockSize : newLock.length < size → lockSize =
      g.lockSize + if isFree items world (arm.cell x y t layer) = true then 0 else 1) :
    Started items world x y size base t layer scanned (done ++ [arm])
      { arm.bound x y t g with
        newTiles := g.newTiles ++ [(index (arm.cell x y t layer), arm)]
        newLock := newLock
        lockSize := lockSize } := by
  have hbase : base ++ (done ++ [arm]).map (fun arm => arm.cell x y t layer) =
      (base ++ done.map fun arm => arm.cell x y t layer) ++ [arm.cell x y t layer] := by
    simp
  refine ⟨?_, ?_, ?_, ?_, ?_, ?_⟩
  · change g.newTiles ++ _ = _
    rw [hstarted.newTiles]
    simp
  · change newLock = _
    rw [hbase, List.filter_append, ← hstarted.newLock]
    exact hnewLock
  · intro hroom
    change newLock.length < size at hroom
    change lockSize = _
    rw [hlockSize hroom, hbase, blocked_append (by rw [List.length_append]; omega)]
    rw [hnewLock, List.length_append] at hroom
    rw [hstarted.lockSize (by omega)]
    push_cast
    split_ifs <;> omega
  · exact (bound_layer t).trans hstarted.layer_eq
  · intro other hother
    have hbound : other = arm ∨ BoundAt x y t g other := by
      rcases List.mem_append.mp hother with h | h
      · exact Or.inr (hstarted.bounds other h)
      · exact Or.inl (List.mem_singleton.mp h)
    rcases hbound with rfl | hbound
    · cases other <;> rfl
    · cases arm <;> cases other <;> first | rfl | exact hbound
  · exact (bound_scanned t).trans hstarted.scanned_eq

/-- What `startArm` does away from the borders. -/
theorem startArm_cell (hwide : Wide world) (hbox : Box world x y r) (ht : t ≤ r)
    (hlayer : layer ≤ t) (hlength : 4 ≤ base.length)
    (hstarted : Started items world x y size base t layer scanned done g) :
    ∃ g', startArm items world x y size arm t g = some g' ∧
      Started items world x y size base t layer scanned (done ++ [arm]) g' := by
  have hwithin : Within world (arm.cell x y t layer) :=
    cell_within hbox ht (by omega) (by omega)
  have hcorner : ¬ (arm = .down ∧ (x = 0 ∨ y = 0)) := by
    have hleft := hbox.left
    have hup := hbox.up
    omega
  unfold startArm
  dsimp only
  rw [hstarted.layer_eq, free_eq hwide hwithin]
  simp only [Option.bind_eq_bind, Option.bind_some, if_neg hcorner]
  cases hfree : isFree items world (arm.cell x y t layer) with
  | true =>
      refine ⟨_, rfl, hstarted.place hlength ?_ ?_⟩
      · simp [hfree]
      · intro _
        rw [bound_lockSize, hfree]
        simp
  | false =>
      rw [if_neg Bool.false_ne_true]
      by_cases hfull : size ≤ g.newLock.length
      · rw [if_pos hfull]
        refine ⟨_, rfl, hstarted.place hlength ?_ ?_⟩
        · simp [hfree, bound_newLock]
        · intro hroom
          rw [bound_newLock] at hroom
          omega
      · rw [if_neg hfull]
        refine ⟨_, rfl, hstarted.place hlength ?_ ?_⟩
        · simp [hfree, bound_newLock]
        · intro _
          simp [hfree]

/-- One arm of the next ring. -/
theorem Started.start (hwide : Wide world) (hbox : Box world x y r) (hpos : 1 ≤ t)
    (ht : t + 1 ≤ r) (haxes : Axes x y t scanned) (hlayer : layer ≤ t)
    (hlength : 4 ≤ base.length)
    (hstarted : Started items world x y size base (t + 1) layer scanned done g) :
    ∃ g', LockTiles.start items world x y size arm g = some g' ∧
      Started items world x y size base (t + 1) layer scanned (done ++ [arm]) g' := by
  have hscanned : Axes x y t g.scanned := by
    rw [hstarted.scanned_eq]
    exact haxes
  have hlevel : g.layer ≤ t := by
    rw [hstarted.layer_eq]
    exact Int.ofNat_le.mpr hlayer
  rw [start_cell hwide hbox hpos ht hscanned hlevel]
  exact startArm_cell hwide hbox ht (Nat.le_succ_of_le hlayer) hlength hstarted

theorem met_ring : met x y base t layer (layer + t) arms = base ++ ringTiles x y t layer := by
  rw [met_lap]
  simp [met, ringTiles]

/-- At the end of a ring the axes are scanned up to it. -/
theorem Clean.scannedAxes (hplan : Plan world x y r base t layer) (ht : t + 1 ≤ r)
    (hclean : Clean items world x y size base t layer (layer + t) arms [] g) :
    Axes x y t g.scanned := by
  have hpos := hplan.pos
  intro arm
  constructor
  · intro s hs hle
    rcases Nat.lt_or_eq_of_le hle with h | rfl
    · exact hclean.axes s hs h arm
    · refine hclean.axis arm ?_
      rcases Nat.lt_or_eq_of_le hs with h | h
      · exact Or.inl (by omega)
      · exact Or.inr ⟨by omega, mem_arms arm⟩
  · intro h
    obtain ⟨tile, htile, hindex⟩ := hclean.scanned _ h
    have hwithin : Within world (arm.cell x y ((t + 1 : Nat) : Int) 0) :=
      cell_within hplan.box ht (by omega) (by omega)
    have hsame := index_injective hwithin (met_within hplan (le_refl _) htile) hindex
    -- what has been met lies nearer to the lock
    obtain ⟨other, s, k, -, hs, hlow, hhigh, hcell⟩ := mem_met hplan (le_refl _) htile
    have hfar := @cell_distance x y 0 (t + 1) arm (by omega) (by omega)
    rw [hsame, hcell, cell_distance hlow hhigh.le] at hfar
    omega

/-- The layer that the loop gives to the next ring. -/
theorem Clean.level (hclean : Clean items world x y size base t layer (layer + t) arms [] g)
    (hroom : g.newLock.length < size) :
    (if size ≤ 10 ∨ g.lockSize - g.newLock.length ≤ 5 then 0 else g.layer + 1) =
      (nextLayer (isFree items world) size (base ++ ringTiles x y t layer) layer : Int) := by
  have hcount : g.newLock.length =
      (base ++ ringTiles x y t layer).countP (isFree items world) := by
    rw [hclean.newLock, met_ring, List.countP_eq_length_filter]
  rw [hclean.lockSize hroom, hclean.layer_eq, met_ring, hcount, nextLayer]
  split_ifs
  · rfl
  · rfl

/-- With all arms started a ring is in its first lap. -/
theorem Started.clean (hpos : 1 ≤ t) (haxes : Axes x y t scanned)
    (hscanned : ∀ i ∈ scanned, ∃ tile ∈ base, i = index tile)
    (hstarted : Started items world x y size base (t + 1) layer scanned arms g) :
    Clean items world x y size base (t + 1) layer 1 [] arms g := by
  have hmet : met x y base (t + 1) layer 1 [] =
      base ++ arms.map fun arm => arm.cell x y ((t + 1 : Nat) : Int) layer := by
    simp [met, laps, lap]
  refine ⟨rfl, ?_, ?_, ?_, hstarted.layer_eq, ?_, ?_, ?_, ?_⟩
  · rw [hstarted.newTiles]
    simp
  · rw [hmet]
    exact hstarted.newLock
  · rw [hmet]
    exact hstarted.lockSize
  · unfold Bounded
    rw [if_neg (by omega)]
    exact fun arm => hstarted.bounds arm (mem_arms arm)
  · intro i hi
    rw [hstarted.scanned_eq] at hi
    obtain ⟨tile, htile, hindex⟩ := hscanned i hi
    rw [hmet]
    exact ⟨tile, List.mem_append_left _ htile, hindex⟩
  · intro s hs hlt arm
    rw [hstarted.scanned_eq]
    exact (haxes arm).1 s hs (Nat.le_of_lt_succ hlt)
  · intro arm harm
    rcases harm with h | ⟨-, h⟩
    · omega
    · cases h

/-- The next ring is started with its first lap. -/
theorem Clean.nextRing (hplan : Plan world x y r base t layer) (ht : t + 1 ≤ r)
    (hclean : Clean items world x y size base t layer (layer + t) arms [] g)
    (hroom : g.newLock.length < size) :
    ∃ g', LockTiles.nextRing items world x y size g = some g' ∧
      Clean items world x y size (base ++ ringTiles x y t layer) (t + 1)
        (nextLayer (isFree items world) size (base ++ ringTiles x y t layer) layer) 1 []
        arms g' := by
  have hpos := hplan.pos
  have haxes := hclean.scannedAxes hplan ht
  have hlevel := hclean.level hroom
  have hle : nextLayer (isFree items world) size (base ++ ringTiles x y t layer) layer ≤ t := by
    unfold nextLayer
    split_ifs
    · exact Nat.zero_le t
    · exact hplan.layer_lt
  have hlength : 4 ≤ (base ++ ringTiles x y t layer).length := by
    have h := @length_met x y t layer (layer + t) base arms
    rw [met_ring] at h
    omega
  generalize nextLayer (isFree items world) size (base ++ ringTiles x y t layer) layer = next
    at hlevel hle ⊢
  have hbegin : Started items world x y size (base ++ ringTiles x y t layer) (t + 1) next
      g.scanned [] { g with layer := next } := by
    refine ⟨?_, ?_, ?_, rfl, fun arm harm => absurd harm List.not_mem_nil, rfl⟩
    · change g.newTiles = _
      rw [hclean.newTiles]
      simp
    · change g.newLock = _
      rw [hclean.newLock, met_ring]
      simp
    · intro h
      change g.lockSize = _
      rw [hclean.lockSize h, met_ring]
      simp
  have hwide := hplan.wide
  have hbox := hplan.box
  obtain ⟨left, hleft, hafterLeft⟩ := @Started.start items world x y size t r next _ .left _ _
    _ hwide hbox hpos ht haxes hle hlength hbegin
  obtain ⟨up, hup, hafterUp⟩ := @Started.start items world x y size t r next _ .up _ _
    _ hwide hbox hpos ht haxes hle hlength hafterLeft
  obtain ⟨right, hright, hafterRight⟩ := @Started.start items world x y size t r next _ .right
    _ _ _ hwide hbox hpos ht haxes hle hlength hafterUp
  obtain ⟨down, hdown, hafterDown⟩ := @Started.start items world x y size t r next _ .down _ _
    _ hwide hbox hpos ht haxes hle hlength hafterRight
  refine ⟨down, ?_, hafterDown.clean hpos haxes fun i hi => ?_⟩
  · unfold LockTiles.nextRing
    dsimp only
    rw [hlevel, hleft]
    simp only [Option.bind_eq_bind, Option.bind_some, hup, hright, hdown]
  · obtain ⟨tile, htile, hindex⟩ := hclean.scanned i hi
    rw [met_ring] at htile
    exact ⟨tile, htile, hindex⟩

end Starting

section Whole

variable {free : Int × Int → Bool} {items : Items} {world : World} {x y : Int}
  {size t r n m : Nat} {g : Growth} {arm : Arm} {ended : Option Growth}

/-- The tiles of the rings before a ring. -/
def before (free : Int × Int → Bool) (x y : Int) (size : Nat) : Nat → List (Int × Int)
  | 0 => []
  | t + 1 => (pinwheel free x y size t).1

theorem pinwheel_eq (t : Nat) :
    (pinwheel free x y size t).1 =
      before free x y size t ++ ringTiles x y (t + 1) (pinwheel free x y size t).2 := by
  cases t with
  | zero => rfl
  | succ t => rfl

/-- The rings of a pinwheel in the world, each after the ones before it. -/
theorem plan_pinwheel (hwide : Wide world) (hbox : Box world x y (r + 1)) (ht : t ≤ r) :
    Plan world x y (r + 1) (before free x y size t) (t + 1)
      (pinwheel free x y size t).2 where
  wide := hwide
  box := hbox
  pos := Nat.succ_pos t
  le := Nat.succ_le_succ ht
  layer_lt := Nat.lt_succ_of_le (pinwheel_layer t)
  earlier := by
    intro tile htile
    cases t with
    | zero => cases htile
    | succ t =>
        obtain ⟨arm, s, k, hpos, hs, hcell⟩ := mem_pinwheel htile
        exact ⟨arm, s, k, hpos, Nat.lt_succ_of_le hs, hcell⟩
  nodup := by
    rw [← pinwheel_eq]
    exact pinwheel_nodup t

/-- The pinwheel is full at the end of a ring when it has enough free tiles. -/
theorem Clean.full (henough : size ≤ (pinwheel (isFree items world) x y size r).1.countP
      (isFree items world))
    (hclean : Clean items world x y size (before (isFree items world) x y size r) (r + 1)
      (pinwheel (isFree items world) x y size r).2
      ((pinwheel (isFree items world) x y size r).2 + (r + 1)) arms [] g) :
    size ≤ g.newLock.length := by
  rw [hclean.newLock, met_ring, ← pinwheel_eq, ← List.countP_eq_length_filter]
  exact henough

/-- From the first lap of any ring the loop ends. -/
theorem rings_finish (hwide : Wide world) (hbox : Box world x y (r + 1))
    (henough : size ≤ (pinwheel (isFree items world) x y size r).1.countP
      (isFree items world))
    (ht : t ≤ r)
    (hclean : Clean items world x y size (before (isFree items world) x y size t) (t + 1)
      (pinwheel (isFree items world) x y size t).2 1 [] arms g) :
    Finishes items world x y size g := by
  induction hleft : r - t generalizing t g with
  | zero =>
      have hlast : t = r := by omega
      subst hlast
      refine ring_finishes (plan_pinwheel hwide hbox ht) (le_refl 1) (by omega)
        (fun g hroom hring => ?_) hclean
      exact absurd (hring.full henough) hroom.not_ge
  | succ left ih =>
      have hplan := @plan_pinwheel (isFree items world) world x y size t r hwide hbox ht
      refine ring_finishes hplan (le_refl 1) (by omega) (fun g hroom hring => ?_) hclean
      obtain ⟨g', hnext, hstarted⟩ := hring.nextRing hplan (by omega) hroom
      rw [← pinwheel_eq] at hstarted
      have hmore : t + 1 ≤ r := by omega
      exact ⟨g', hnext, ih hmore hstarted (by omega)⟩

theorem seed_cell (hwide : Wide world) (hbox : Box world x y 1) (g : Growth) :
    seed items world x y arm true g = some { g with
      newTiles := g.newTiles ++ [(index (arm.cell x y 1 0), arm)]
      newLock := g.newLock ++ [arm.cell x y 1 0].filter (isFree items world) } := by
  have hwithin : Within world (arm.cell x y 1 0) :=
    @cell_within world x y 0 1 1 arm hbox (le_refl 1) (by omega) (by omega)
  unfold seed
  rw [if_neg (by decide)]
  dsimp only
  rw [free_eq hwide hwithin]
  cases hfree : isFree items world (arm.cell x y 1 0) with
  | true => simp [hfree]
  | false => simp [hfree]

/-- The tiles beside the lock begin the first ring. -/
theorem seeds_clean (hwide : Wide world) (hbox : Box world x y 1) :
    ∃ g, seeds items world x y size = some g ∧
      Clean items world x y size [] 1 0 1 [] arms g := by
  have hwidth := hwide.width
  have hleft : decide (0 < x - 1) = true := decide_eq_true (by have := hbox.left; omega)
  have hup : decide (0 < y - 1) = true := decide_eq_true (by have := hbox.up; omega)
  have hright : decide (x + 1 < world.maxX) = true :=
    decide_eq_true (by have := hbox.right; omega)
  have hdown : decide (y + 1 < world.maxY) = true :=
    decide_eq_true (by have := hbox.down; omega)
  have hmet : met x y [] 1 0 1 [] = arms.map fun arm => arm.cell x y 1 0 := rfl
  unfold seeds
  rw [hleft, hup, hright, hdown]
  simp only [seed_cell hwide hbox, Option.bind_eq_bind, Option.bind_some]
  refine ⟨_, rfl, rfl, ?_, ?_, ?_, rfl, ?_, ?_, ?_, ?_⟩
  · rfl
  · rw [hmet]
    simp only [arms, List.map_cons, List.map_nil, List.nil_append, ← List.filter_append]
    rfl
  · intro _
    rw [hmet]
    rfl
  · exact ⟨rfl, rfl, rfl, rfl⟩
  · intro i hi
    cases hi
  · intro s hs hlt
    omega
  · intro arm harm
    rcases harm with h | ⟨-, h⟩
    · omega
    · cases h

end Whole

section Area

variable {items : Items} {world : World} {x y : Int} {size r n m : Nat} {g : Growth}
  {tiles : List (Int × Int)} {ended : Option Growth}

/-- What is expected of the tiles of a lock. -/
structure Expected (items : Items) (world : World) (x y : Int) (size : Nat)
    (tiles : List (Int × Int)) : Prop where
  count : tiles.length ≤ size
  distinct : tiles.Nodup
  inside : ∀ tile ∈ tiles, Within world tile
  other : ∀ tile ∈ tiles, tile ≠ (x, y)
  free : ∀ tile ∈ tiles, LockTiles.free items world tile = some true

/-- The rings that keep clear of the borders have enough free tiles. -/
def Roomy (items : Items) (world : World) (x y : Int) (size : Nat) : Prop :=
  ∃ r : Nat, Box world x y (r + 1) ∧
    size ≤ (pinwheel (isFree items world) x y size r).1.countP (isFree items world)

theorem Box.mono (hbox : Box world x y n) (hle : m ≤ n) : Box world x y m := by
  obtain ⟨hleft, hup, hright, hdown⟩ := hbox
  constructor <;> omega

/-- The loop ends where there is room. -/
theorem growth_ends (hwide : Wide world) (hroomy : Roomy items world x y size) :
    ∃ budget g, growth items world x y size budget = some (some g) ∧ Good world x y g := by
  obtain ⟨r, hbox, henough⟩ := hroomy
  obtain ⟨g, hseeds, hclean⟩ := @seeds_clean items world x y size hwide
    (hbox.mono (by omega))
  have hfinishes := @rings_finish items world x y size 0 r g hwide hbox henough
    (Nat.zero_le r) hclean
  unfold Finishes at hfinishes
  unfold growth
  rw [hseeds]
  exact hfinishes

/-- An end that is reached stays reached with more budget. -/
theorem grow_more (hle : n ≤ m) (hgrow : grow items world x y size n g = some ended) :
    grow items world x y size m g = some ended := by
  induction n generalizing m g with
  | zero =>
      unfold grow at hgrow ⊢
      split at hgrow
      · exact hgrow
      · split_ifs at hgrow with hfull
        rw [if_pos hfull]
        exact hgrow
  | succ n ih =>
      obtain ⟨m, rfl⟩ := Nat.exists_eq_succ_of_ne_zero (Nat.ne_of_gt (Nat.lt_of_lt_of_le
        (Nat.succ_pos n) hle))
      unfold grow at hgrow ⊢
      split at hgrow
      · exact hgrow
      · split_ifs at hgrow ⊢ with hfull
        · exact hgrow
        · dsimp only at hgrow ⊢
          split at hgrow
          · exact hgrow
          · exact hgrow
          · exact ih (Nat.le_of_succ_le_succ hle) hgrow

theorem growth_more (hle : n ≤ m) (hgrowth : growth items world x y size n = some ended) :
    growth items world x y size m = some ended := by
  unfold growth at hgrowth ⊢
  split at hgrowth
  · exact hgrowth
  · exact grow_more hle hgrowth

/-- Where an access throws, the loop ends in no other way. -/
theorem no_tiles_of_throws (hthrows : growth items world x y size n = some none)
    (hunlocked : ∀ block, at? world.blocks (index (x, y)) = some block → block.locked = false)
    (budget : Nat) : lockTilesTry items world x y size budget ≠ some (some tiles) := by
  intro htry
  have hnever : ∀ g, growth items world x y size budget ≠ some (some g) := by
    intro g hends
    rcases Nat.le_total budget n with hle | hle
    · have hboth := growth_more hle hends
      rw [hthrows] at hboth
      cases hboth
    · have hboth := growth_more hle hthrows
      rw [hends] at hboth
      cases hboth
  unfold lockTilesTry at htry
  split at htry
  next => cases htry
  next block hblock =>
    rw [if_neg (by simp [hunlocked block hblock])] at htry
    obtain ⟨reached, hreached, htiles⟩ := Option.map_eq_some_iff.mp htry
    obtain ⟨g, rfl, -⟩ := Option.map_eq_some_iff.mp htiles
    exact hnever g hreached

/-- An unlocked world of some rows, in which each tile can be taken. -/
def meadow (rows : Nat) : World where
  maxX := 100
  maxY := rows
  blocks := List.replicate (100 * rows) {}

/-- An item table in which nothing is special. -/
def plainItems : Items := ⟨20299, fun _ => {}⟩

theorem meadow_wide (rows : Nat) : Wide (meadow rows) where
  width := rfl
  height := Int.natCast_nonneg rows
  length := by simp [meadow]

/-- In the last row but one a tile below the last row is asked. -/
theorem lockTiles_throws :
    Wide (meadow 5) ∧ Within (meadow 5) (50, 3) ∧
      ¬ ∃ budget tiles, lockTilesTry plainItems (meadow 5) 50 3 10 budget = some (some tiles) ∧
        Expected plainItems (meadow 5) 50 3 10 tiles := by
  refine ⟨meadow_wide 5, by constructor <;> decide, ?_⟩
  rintro ⟨budget, tiles, htry, -⟩
  have hthrows : growth plainItems (meadow 5) 50 3 10 10 = some none := by decide +kernel
  refine no_tiles_of_throws hthrows (fun block hblock => ?_) budget htry
  unfold at? at hblock
  split_ifs at hblock
  rw [List.eq_of_mem_replicate (List.mem_of_getElem? hblock)]

end Area

end LockSpiral

end NopyServer
