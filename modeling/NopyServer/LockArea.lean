/-
The tiles that a lock is given are joined to it.  No arm of `lock_tiles` comes back to the
lock, and a tile is kept where tiles of the lock lead from it to one beside the lock, so
that the same tiles lead from the lock to it.  The test for "beside" is on the indices, and
takes the end of a row and the start of the next for neighbours: a lock in the first or
in the last column is left aside here.
-/
import Mathlib.Data.Int.Interval
import NopyServer.LockReapply

namespace NopyServer

namespace LockArea

open BoundedLoop FloodFill LockReapply LockTiles PatchPath Relation

section Arms

variable {items : Items} {world : World} {x y : Int} {size : Nat} {g g' : Growth}

/-- Where the tiles of an arm lie. -/
def Aside (x y : Int) : Arm → Int → Prop
  | .left, sq => sq % 100 ≠ x
  | .up, sq => sq / 100 < y
  | .right, sq => sq % 100 ≠ x
  | .down, sq => y < sq / 100

/-- The arms keep off the lock. -/
structure Apart (x y : Int) (g : Growth) : Prop where
  taken : ∀ tile ∈ g.newLock, index tile ≠ index (x, y)
  waiting : ∀ entry ∈ g.newTiles, Aside x y entry.2 entry.1
  layer : 0 ≤ g.layer

/-- The lock stands neither in the first nor in the last of a hundred columns. -/
structure Off (world : World) (x : Int) : Prop where
  width : world.maxX = 100
  first : 0 < x
  last : x < 99

theorem Aside.ne {arm : Arm} {sq : Int} (hoff : Off world x) (haside : Aside x y arm sq) :
    sq ≠ index (x, y) := by
  have hfirst := hoff.first
  have hlast := hoff.last
  unfold index
  rintro rfl
  cases arm <;> simp only [Aside] at haside <;> omega

theorem next_aside {arm : Arm} {sq : Int} (hoff : Off world x) (haside : Aside x y arm sq)
    (hstays : arm.leaves world (sq % 100, sq / 100) = false) :
    index (arm.next (sq % 100, sq / 100)) ≠ index (x, y) ∧
      (arm.goesOn world g (sq % 100, sq / 100) = true →
        Aside x y arm (index (arm.next (sq % 100, sq / 100)))) := by
  have hwidth := hoff.width
  have hfirst := hoff.first
  have hlast := hoff.last
  cases arm with
  | left =>
      have hsame : Aside x y .left (index (Arm.next .left (sq % 100, sq / 100))) := by
        simp only [Aside, index, Arm.next] at haside ⊢
        omega
      exact ⟨hsame.ne hoff, fun _ => hsame⟩
  | up =>
      simp only [Aside, Arm.leaves, decide_eq_false_iff_not] at haside hstays
      refine ⟨?_, fun hgoes => ?_⟩
      · simp only [index, Arm.next]
        omega
      · have hinside : sq % 100 + 1 < world.maxX := by
          unfold Arm.goesOn at hgoes
          exact of_decide_eq_true (Bool.and_eq_true_iff.mp hgoes).2
        simp only [Aside, index, Arm.next]
        omega
  | right =>
      have hsame : Aside x y .right (index (Arm.next .right (sq % 100, sq / 100))) := by
        simp only [Aside, index, Arm.next] at haside ⊢
        omega
      exact ⟨hsame.ne hoff, fun _ => hsame⟩
  | down =>
      have hsame : Aside x y .down (index (Arm.next .down (sq % 100, sq / 100))) := by
        simp only [Aside, index, Arm.next, Arm.leaves, decide_eq_false_iff_not]
          at haside hstays ⊢
        omega
      exact ⟨hsame.ne hoff, fun _ => hsame⟩

theorem Apart.take {tile : Int × Int} (hapart : Apart x y g)
    (htile : index tile ≠ index (x, y)) :
    Apart x y { g with newLock := g.newLock ++ [tile] } where
  taken := by
    intro other hother
    rcases List.mem_append.mp hother with h | h
    · exact hapart.taken other h
    · rw [List.mem_singleton.mp h]
      exact htile
  waiting := hapart.waiting
  layer := hapart.layer

theorem Apart.wait {arm : Arm} {sq : Int} (hapart : Apart x y g) (hsq : Aside x y arm sq) :
    Apart x y { g with newTiles := g.newTiles ++ [(sq, arm)] } where
  taken := hapart.taken
  waiting := by
    intro other hother
    rcases List.mem_append.mp hother with h | h
    · exact hapart.waiting other h
    · rw [List.mem_singleton.mp h]
      exact hsq
  layer := hapart.layer

theorem ask_apart {sq : Int} {arm : Arm} {next : Next Growth} (hoff : Off world x)
    (hapart : Apart x y g) (hsq : Aside x y arm sq)
    (hask : ask items world size sq arm g = some next) : Apart x y next.state := by
  unfold ask at hask
  dsimp only at hask
  cases hleaves : arm.leaves world (sq % 100, sq / 100) with
  | true =>
      rw [if_pos hleaves] at hask
      cases hask
      exact hapart
  | false =>
      rw [hleaves, if_neg Bool.false_ne_true] at hask
      obtain ⟨hne, haside⟩ := @next_aside world x y g arm sq hoff hsq hleaves
      obtain ⟨isFree, -, hask⟩ := Option.bind_eq_some_iff.mp hask
      have hwaits : Apart x y { g with
          scanned := sq :: g.scanned
          newTiles := if arm.goesOn world g (sq % 100, sq / 100) = true
            then g.newTiles ++ [(index (arm.next (sq % 100, sq / 100)), arm)]
            else g.newTiles } := by
        split_ifs with hgoes
        · have hwait := hapart.wait (haside hgoes)
          exact ⟨hwait.taken, hwait.waiting, hwait.layer⟩
        · exact ⟨hapart.taken, hapart.waiting, hapart.layer⟩
      by_cases hscanned : index (arm.next (sq % 100, sq / 100)) ∈ g.scanned
      · rw [if_pos hscanned] at hask
        cases hask
        exact hapart
      · rw [if_neg hscanned] at hask
        obtain ⟨block, -, hask⟩ := Option.bind_eq_some_iff.mp hask
        have htaken := hwaits.take hne
        by_cases hfree : isFree = true
        · rw [if_pos hfree] at hask
          obtain rfl := Option.some.inj hask
          split
          · exact htaken
          · exact htaken
        · rw [if_neg hfree] at hask
          by_cases hfull : arm.goesOn world g (sq % 100, sq / 100) = true ∧
              size ≤ g.newLock.length
          · rw [if_pos hfull] at hask
            cases hask
            exact hwaits
          · rw [if_neg hfull] at hask
            cases hask
            exact ⟨hwaits.taken, hwaits.waiting, hwaits.layer⟩

theorem search_inside {arm : Arm} {budget : Nat} {t found : Int}
    (hsearch : search world x y g arm budget t = some (some found)) :
    t ≤ found ∧ arm.outside world x y found = false := by
  induction budget generalizing t with
  | zero => cases hsearch
  | succ budget ih =>
      unfold search at hsearch
      cases houtside : arm.outside world x y t with
      | true =>
          rw [if_pos houtside] at hsearch
          cases hsearch
      | false =>
          rw [houtside, if_neg Bool.false_ne_true] at hsearch
          obtain ⟨scanned, -, hsearch⟩ := Option.bind_eq_some_iff.mp hsearch
          split_ifs at hsearch
          · obtain ⟨hle, hinside⟩ := ih hsearch
            exact ⟨by omega, hinside⟩
          · cases hsearch
            exact ⟨le_refl _, houtside⟩

/-- An arm starts in its own column or row. -/
theorem cell_aside {arm : Arm} {t layer : Int} (hoff : Off world x) (ht : 0 < t)
    (hlayer : 0 ≤ layer) (hinside : arm.outside world x y t = false) :
    Aside x y arm (index (arm.cell x y t layer)) := by
  have hwidth := hoff.width
  have hfirst := hoff.first
  have hlast := hoff.last
  cases arm <;>
    simp only [Arm.outside, decide_eq_false_iff_not, Aside, index, Arm.cell] at hinside ⊢ <;>
    omega

theorem startArm_apart {arm : Arm} {t : Int} (hoff : Off world x) (ht : 0 < t)
    (hinside : arm.outside world x y t = false) (hapart : Apart x y g)
    (hstart : startArm items world x y size arm t g = some g') : Apart x y g' := by
  have haside := cell_aside hoff ht hapart.layer hinside
  have hbound : Apart x y (arm.bound x y t g) := by
    cases arm <;> exact ⟨hapart.taken, hapart.waiting, hapart.layer⟩
  have hnewTiles : (arm.bound x y t g).newTiles = g.newTiles := by cases arm <;> rfl
  have hnewLock : (arm.bound x y t g).newLock = g.newLock := by cases arm <;> rfl
  have hplaced := hbound.wait haside
  rw [hnewTiles] at hplaced
  unfold startArm at hstart
  obtain ⟨isFree, -, hstart⟩ := Option.bind_eq_some_iff.mp hstart
  dsimp only at hstart
  split_ifs at hstart with hfree hcorner hfull
  · cases hstart
    have htaken := hplaced.take (haside.ne hoff)
    rw [← hnewLock]
    exact htaken
  · cases hstart
    exact hapart
  · cases hstart
    exact hplaced
  · cases hstart
    exact ⟨hplaced.taken, hplaced.waiting, hplaced.layer⟩

theorem start_apart {arm : Arm} (hoff : Off world x) (hapart : Apart x y g)
    (hstart : start items world x y size arm g = some g') : Apart x y g' := by
  unfold start at hstart
  by_cases hfirst : arm.outside world x y 1 = true
  · rw [if_pos hfirst] at hstart
    cases hstart
    exact hapart
  · rw [if_neg hfirst] at hstart
    obtain ⟨first, -, hstart⟩ := Option.bind_eq_some_iff.mp hstart
    by_cases hscanned : first = false
    · rw [if_pos hscanned] at hstart
      cases hstart
      exact hapart
    · rw [if_neg hscanned] at hstart
      by_cases hsecond : arm.outside world x y 2 = true
      · rw [if_pos hsecond] at hstart
        cases hstart
        exact hapart
      · rw [if_neg hsecond] at hstart
        obtain ⟨found, hfound, hstart⟩ := Option.bind_eq_some_iff.mp hstart
        have hlayer : Apart x y
            (if arm = .right ∧ y - g.layer < 0 then { g with layer := 0 } else g) := by
          split_ifs
          · exact ⟨hapart.taken, hapart.waiting, le_refl _⟩
          · exact hapart
        cases found with
        | none =>
            cases hstart
            exact hlayer
        | some t =>
            obtain ⟨hle, hinside⟩ := search_inside hfound
            exact startArm_apart hoff (by omega) hinside hlayer hstart

theorem nextRing_apart (hoff : Off world x) (hapart : Apart x y g)
    (hring : nextRing items world x y size g = some g') : Apart x y g' := by
  unfold nextRing at hring
  obtain ⟨left, hleft, hring⟩ := Option.bind_eq_some_iff.mp hring
  obtain ⟨up, hup, hring⟩ := Option.bind_eq_some_iff.mp hring
  obtain ⟨right, hright, hring⟩ := Option.bind_eq_some_iff.mp hring
  have hbegin : Apart x y { g with
      layer := if size ≤ 10 ∨ g.lockSize - g.newLock.length ≤ 5 then 0 else g.layer + 1 } := by
    have hlayer := hapart.layer
    refine ⟨hapart.taken, hapart.waiting, ?_⟩
    dsimp only
    split_ifs
    · exact le_refl _
    · omega
  have hfirst := start_apart hoff hbegin hleft
  exact start_apart hoff (start_apart hoff (start_apart hoff hfirst hup) hright) hring

theorem round_apart {sq : Int} {arm : Arm} {next : Next Growth} (hoff : Off world x)
    (hapart : Apart x y g) (hsq : Aside x y arm sq)
    (hround : LockTiles.round items world x y size sq arm g = some next) :
    Apart x y next.state := by
  unfold LockTiles.round at hround
  obtain ⟨asked, hask, hround⟩ := Option.bind_eq_some_iff.mp hround
  have hasked := ask_apart hoff hapart hsq hask
  cases asked with
  | stop g =>
      cases hround
      exact hasked
  | again g =>
      dsimp only at hround
      split_ifs at hround with hdone
      · obtain ⟨ring, hring, hround⟩ := Option.bind_eq_some_iff.mp hround
        cases hround
        exact nextRing_apart hoff hasked hring
      · cases hround
        exact hasked

theorem grow_apart {budget : Nat} (hoff : Off world x) (hapart : Apart x y g)
    (hgrow : grow items world x y size budget g = some (some g')) : Apart x y g' := by
  induction budget generalizing g with
  | zero =>
      unfold grow at hgrow
      split at hgrow
      · cases hgrow
        exact hapart
      · split_ifs at hgrow
        cases hgrow
        exact hapart
  | succ budget ih =>
      unfold grow at hgrow
      split at hgrow
      · cases hgrow
        exact hapart
      · split_ifs at hgrow with hfull
        · cases hgrow
          exact hapart
        · next sq arm rest hwork =>
          have hwaiting := hapart.waiting
          rw [hwork] at hwaiting
          have hrest : Apart x y { g with newTiles := rest } :=
            ⟨hapart.taken, fun entry h => hwaiting entry (List.mem_cons_of_mem _ h),
              hapart.layer⟩
          cases hround :
              LockTiles.round items world x y size sq arm { g with newTiles := rest } with
          | none =>
              rw [hround] at hgrow
              cases hgrow
          | some next =>
              rw [hround] at hgrow
              have hafter :=
                round_apart hoff hrest (hwaiting (sq, arm) List.mem_cons_self) hround
              cases next with
              | stop g =>
                  cases hgrow
                  exact hafter
              | again g => exact ih hafter hgrow

theorem seed_apart {arm : Arm} {inside : Bool} (hoff : Off world x) (hapart : Apart x y g)
    (hinside : inside = true → arm.outside world x y 1 = false)
    (hseed : seed items world x y arm inside g = some g') : Apart x y g' := by
  unfold seed at hseed
  cases inside with
  | false =>
      cases hseed
      exact hapart
  | true =>
      have haside := cell_aside hoff one_pos (le_refl 0) (hinside rfl)
      obtain ⟨isFree, -, hseed⟩ := Option.bind_eq_some_iff.mp hseed
      cases hseed
      have hwait := hapart.wait haside
      cases isFree with
      | false => exact hwait
      | true => exact hwait.take (haside.ne hoff)

theorem seeds_apart (hoff : Off world x) (hseeds : seeds items world x y size = some g) :
    Apart x y g := by
  unfold seeds at hseeds
  obtain ⟨left, hleft, hseeds⟩ := Option.bind_eq_some_iff.mp hseeds
  obtain ⟨up, hup, hseeds⟩ := Option.bind_eq_some_iff.mp hseeds
  obtain ⟨right, hright, hseeds⟩ := Option.bind_eq_some_iff.mp hseeds
  have hnone : Apart x y { lockSize := size } :=
    ⟨List.forall_mem_nil _, List.forall_mem_nil _, le_refl _⟩
  have hleftApart := seed_apart hoff hnone
    (fun h => by simp only [Arm.outside, decide_eq_true_eq, decide_eq_false_iff_not] at *; omega)
    hleft
  have hupApart := seed_apart hoff hleftApart
    (fun h => by simp only [Arm.outside, decide_eq_true_eq, decide_eq_false_iff_not] at *; omega)
    hup
  have hrightApart := seed_apart hoff hupApart
    (fun h => by simp only [Arm.outside, decide_eq_true_eq, decide_eq_false_iff_not] at *; omega)
    hright
  exact seed_apart hoff hrightApart
    (fun h => by simp only [Arm.outside, decide_eq_true_eq, decide_eq_false_iff_not] at *; omega)
    hseeds

theorem growth_apart {budget : Nat} (hoff : Off world x)
    (hgrowth : growth items world x y size budget = some (some g)) : Apart x y g := by
  unfold growth at hgrowth
  split at hgrowth
  · cases hgrowth
  · next hseeds => exact grow_apart hoff (seeds_apart hoff hseeds) hgrowth

theorem growth_free {budget : Nat}
    (hgrowth : growth items world x y size budget = some (some g)) :
    AllFree items world g := by
  unfold growth at hgrowth
  split at hgrowth
  · cases hgrowth
  · next hseeds => exact grow_free (seeds_free hseeds) hgrowth

end Arms

section Ways

variable {items : Items} {world : World} {lock s t : Nat} {newLock : List (Int × Int)}

/-- A way over the tiles of a list. -/
def Chained (tiles : List Nat) (lock t : Nat) : Prop :=
  TransGen (fun s t => Beside s t ∧ t ∈ tiles) lock t

theorem Chained.mono {tiles more : List Nat} (hchained : Chained tiles lock t)
    (hsub : ∀ t ∈ tiles, t ∈ more) : Chained more lock t :=
  TransGen.mono (fun _ t hstep => ⟨hstep.1, hsub t hstep.2⟩) _ _ hchained

theorem Beside.symm (hbeside : Beside s t) : Beside t s := by
  unfold Beside at *
  omega

/-- The lock, as a tile of the world. -/
abbrev lockX (lock : Nat) : Int := ((lock % 100 : Nat) : Int)

abbrev lockY (lock : Nat) : Int := ((lock / 100 : Nat) : Int)

theorem index_lock (lock : Nat) : index (lockX lock, lockY lock) = lock := by
  unfold index lockX lockY
  dsimp only
  omega

/-- A test of `lock_tiles` on the indices of the lock and of another tile. -/
def near (lock : Nat) (sq : Int) : Bool :=
  [0, 1, -1, 100, -100].contains (index (lockX lock, lockY lock) - sq)

theorem near_beside {sq : Int} (hoff : Off world (lockX lock)) (hsq : 0 ≤ sq)
    (hne : sq ≠ lock) (hnear : near lock sq = true) : Beside lock sq.toNat := by
  have hfirst := hoff.first
  have hlast := hoff.last
  have hdiff : (lock : Int) - sq = 0 ∨ (lock : Int) - sq = 1 ∨ (lock : Int) - sq = -1 ∨
      (lock : Int) - sq = 100 ∨ (lock : Int) - sq = -100 := by
    unfold near at hnear
    rw [index_lock] at hnear
    simpa using hnear
  unfold lockX at hfirst hlast
  unfold Beside
  omega

theorem free_nonneg {tile : Int × Int} {isFree : Bool}
    (hfree : free items world tile = some isFree) : 0 ≤ index tile := by
  by_contra hneg
  unfold free at? at hfree
  rw [if_pos (not_le.mp hneg)] at hfree
  cases hfree

theorem free_unlocked {sq : Int × Int} (hfree : free items world sq = some true) :
    (tile world (index sq).toNat).locked = false := by
  unfold free at? at hfree
  obtain ⟨block, hblock, hmod⟩ := Option.map_eq_some_iff.mp hfree
  split_ifs at hblock
  have htile : tile world (index sq).toNat = block := by
    unfold tile
    rw [List.getD_eq_getElem?_getD, hblock]
    rfl
  rw [htile]
  cases hlocked : block.locked with
  | false => rfl
  | true =>
      unfold notMod at hmod
      rw [if_pos (Or.inr (Or.inr (Or.inl hlocked)))] at hmod
      cases hmod

/-- Without tiles of the lock in the world only the new ones count. -/
theorem owned_iff (hnone : ∀ t, lockedBy world lock t = false) {sq : Int} :
    owned world (lockX lock) (lockY lock) newLock sq = true ↔
      ∃ tile ∈ newLock, index tile = sq := by
  have hold : ((at? world.blocks sq).any fun block =>
      block.locked && block.lockOrigin == index (lockX lock, lockY lock)) = false := by
    unfold at?
    split_ifs with hneg
    · rfl
    · have hlocked := hnone sq.toNat
      unfold lockedBy tile at hlocked
      rw [List.getD_eq_getElem?_getD] at hlocked
      rw [index_lock]
      cases hblock : world.blocks[sq.toNat]? with
      | none => rfl
      | some block =>
          rw [hblock] at hlocked
          exact hlocked
  unfold owned
  rw [hold, Bool.or_false, List.any_eq_true]
  simp only [beq_iff_eq]

/-- What is known about the new tiles. -/
structure Taken (world : World) (lock : Nat) (newLock : List (Int × Int)) : Prop where
  inside : ∀ tile ∈ newLock, 0 ≤ index tile ∧ index tile < world.blocks.length
  apart : ∀ tile ∈ newLock, index tile ≠ lock

/-- The numbers of tiles. -/
def numbers (tiles : List (Int × Int)) : List Nat := tiles.map fun tile => (index tile).toNat

theorem mem_ownedBeside {sq next : Int}
    (hnext : next ∈ ownedBeside world (lockX lock) (lockY lock) newLock sq) :
    (Wide world → 0 ≤ sq → 0 ≤ next → Beside next.toNat sq.toNat) ∧
      owned world (lockX lock) (lockY lock) newLock next = true := by
  unfold ownedBeside at hnext
  simp only [List.mem_append, List.mem_ite_nil_right, List.mem_singleton, or_assoc] at hnext
  unfold Beside
  rcases hnext with ⟨⟨hx, howned⟩, rfl⟩ | ⟨⟨hx, howned⟩, rfl⟩ | ⟨⟨hy, howned⟩, rfl⟩ |
    ⟨⟨hy, howned⟩, rfl⟩
  · refine ⟨fun hwide _ _ => ?_, howned⟩
    have hwidth := hwide.width
    omega
  · exact ⟨fun _ _ _ => by omega, howned⟩
  · exact ⟨fun _ _ _ => by omega, howned⟩
  · exact ⟨fun _ _ _ => by omega, howned⟩

/-- A tile is kept exactly when tiles of the lock lead from it to one that passes for a
neighbour of the lock. -/
theorem reachable_iff (htaken : Taken world lock newLock)
    (hnone : ∀ t, lockedBy world lock t = false) {tile : Int × Int} (htile : tile ∈ newLock) :
    reachable world (lockX lock) (lockY lock) newLock tile = true ↔
      ∃ goal, near lock goal = true ∧
        Reach (ownedBeside world (lockX lock) (lockY lock) newLock) [] (index tile) goal := by
  have hstart := htaken.inside tile htile
  obtain ⟨⟨found, last⟩, hfill⟩ : ∃ result, fill
      (ownedBeside world (lockX lock) (lockY lock) newLock) (fun _ sq => near lock sq)
      (world.blocks.length + 1) [index tile] [] = some result := by
    refine fill_some (Finset.Ico 0 (world.blocks.length : Int)) ?_ ?_ ?_
    · intro sq hsq next hnext
      obtain ⟨other, hother, rfl⟩ := (owned_iff hnone).mp (mem_ownedBeside hnext).2
      exact Finset.mem_Ico.mpr (htaken.inside other hother)
    · intro sq hsq
      rw [List.mem_singleton.mp hsq]
      exact Finset.mem_Ico.mpr hstart
    · simp
      omega
  have hfound := fill_found_iff (near lock) hfill
  have hreachable : reachable world (lockX lock) (lockY lock) newLock tile = found := by
    have hrun : reachable world (lockX lock) (lockY lock) newLock tile =
        (fill (ownedBeside world (lockX lock) (lockY lock) newLock) (fun _ sq => near lock sq)
          (world.blocks.length + 1) [index tile] []).any Prod.fst := rfl
    rw [hrun, hfill]
    rfl
  rw [hreachable, hfound]
  refine exists_congr fun goal => and_congr_right fun _ => ?_
  simp only [List.mem_singleton, exists_eq_left]

/-- The tiles that are kept are joined to the lock by tiles that are kept. -/
theorem kept_chained (hwide : Wide world) (hoff : Off world (lockX lock))
    (htaken : Taken world lock newLock) (hnone : ∀ t, lockedBy world lock t = false)
    {goal sq : Int} (hgoal : near lock goal = true)
    (hway : Reach (ownedBeside world (lockX lock) (lockY lock) newLock) [] sq goal) :
    (∃ tile ∈ newLock, index tile = sq) →
      Chained (numbers (newLock.filter (reachable world (lockX lock) (lockY lock) newLock)))
        lock sq.toNat := by
  have hkept : ∀ tile ∈ newLock,
      Reach (ownedBeside world (lockX lock) (lockY lock) newLock) [] (index tile) goal →
      (index tile).toNat ∈
        numbers (newLock.filter (reachable world (lockX lock) (lockY lock) newLock)) := by
    intro tile htile hreach
    exact List.mem_map_of_mem (List.mem_filter.mpr
      ⟨htile, (reachable_iff htaken hnone htile).mpr ⟨goal, hgoal, hreach⟩⟩)
  induction hway using ReflTransGen.head_induction_on with
  | refl =>
      rintro ⟨tile, htile, rfl⟩
      have hbeside := near_beside hoff (htaken.inside tile htile).1 (htaken.apart tile htile) hgoal
      exact TransGen.single ⟨hbeside, hkept tile htile ReflTransGen.refl⟩
  | head hstep hrest ih =>
      rintro ⟨tile, htile, rfl⟩
      have hsq := (htaken.inside tile htile).1
      have howned := (mem_ownedBeside hstep.1).2
      obtain ⟨other, hother, rfl⟩ := (owned_iff hnone).mp howned
      have hnext := (htaken.inside other hother).1
      have hbeside := (mem_ownedBeside hstep.1).1 hwide hsq hnext
      exact TransGen.tail (ih ⟨other, hother, rfl⟩)
        ⟨hbeside, hkept tile htile (ReflTransGen.head hstep hrest)⟩

/-- The tiles of `lock_tiles`. -/
theorem lockTiles_chained {size budget : Nat} {tiles : List (Int × Int)} (hwide : Wide world)
    (hoff : Off world (lockX lock)) (hnone : ∀ t, lockedBy world lock t = false)
    (htiles : lockTiles items world (lockX lock) (lockY lock) size budget = some tiles) :
    ∀ tile ∈ tiles, Chained (numbers tiles) lock (index tile).toNat := by
  have hfree := (lockTiles_free htiles).2
  unfold lockTiles at htiles
  obtain ⟨found, htry, htiles⟩ := Option.map_eq_some_iff.mp htiles
  subst htiles
  unfold lockTilesTry at htry
  split at htry
  · cases htry
    exact List.forall_mem_nil _
  · split_ifs at htry with hlocked
    · cases htry
      exact List.forall_mem_nil _
    · obtain ⟨ended, hgrowth, hended⟩ := Option.map_eq_some_iff.mp htry
      subst hended
      cases ended with
      | none => exact List.forall_mem_nil _
      | some g =>
          have hapart := growth_apart hoff hgrowth
          have hall := growth_free hgrowth
          have htaken : Taken world lock (g.newLock.take size) := by
            refine ⟨fun tile htile => ?_, fun tile htile => ?_⟩
            · have hnew := List.mem_of_mem_take htile
              have hnonneg := free_nonneg (hall tile hnew)
              have hinside := free_inside (hall tile hnew)
              omega
            · rw [← index_lock lock]
              exact hapart.taken tile (List.mem_of_mem_take htile)
          intro tile htile
          obtain ⟨hnew, hreachable⟩ := List.mem_filter.mp htile
          obtain ⟨goal, hgoal, hway⟩ := (reachable_iff htaken hnone hnew).mp hreachable
          exact kept_chained hwide hoff htaken hnone hgoal hway ⟨tile, hnew, rfl⟩

theorem mem_foldl_claim {before after : World} {claimed : List Nat}
    {tiles : List (Int × Int)} (hclaims : Claims before after lock claimed)
    (hinside : ∀ sq ∈ tiles, (index sq).toNat < before.blocks.length)
    (hunlocked : ∀ sq ∈ tiles, (tile before (index sq).toNat).locked = false) (t : Nat) :
    t ∈ (tiles.foldl (claim lock) (after, claimed)).2 ↔ t ∈ claimed ∨ t ∈ numbers tiles := by
  induction tiles generalizing after claimed with
  | nil => simp [numbers]
  | cons sq tiles ih =>
      have hfirst := hclaims.claim (hinside sq List.mem_cons_self)
      have hthere := hclaims.block _ (hinside sq List.mem_cons_self)
      rw [List.foldl_cons]
      have hrest := @ih (claim lock (after, claimed) sq).1 (claim lock (after, claimed) sq).2
        hfirst (fun sq h => hinside sq (List.mem_cons_of_mem _ h))
        (fun sq h => hunlocked sq (List.mem_cons_of_mem _ h))
      have hclaimed : t ∈ (claim lock (after, claimed) sq).2 ↔
          t ∈ claimed ∨ t = (index sq).toNat := by
        unfold claim
        dsimp only
        rw [hthere]
        by_cases hold : (index sq).toNat ∈ claimed
        · have hlocked : (lockTo lock (tile before (index sq).toNat)).locked = true := rfl
          rw [if_pos hold, if_pos hlocked]
          exact ⟨Or.inl, fun h => h.elim id fun hsame => hsame ▸ hold⟩
        · rw [if_neg hold, if_neg (Bool.eq_false_iff.mp (hunlocked sq List.mem_cons_self)),
            List.mem_append, List.mem_singleton]
      rw [hrest, hclaimed, or_assoc]
      exact or_congr_right List.mem_cons.symm

theorem length_besides (world : World) (test : Nat → Bool) (s : Nat) :
    (besides world test s).length ≤ 4 := by
  have hone : ∀ (p : Prop) [Decidable p] (t : Nat), (if p then [t] else []).length ≤ 1 := by
    intro p _ t
    split_ifs
    · exact le_refl _
    · exact Nat.zero_le _
  unfold besides
  dsimp only
  rw [List.length_append, List.length_append, List.length_append]
  exact Nat.add_le_add (Nat.add_le_add (Nat.add_le_add (hone _ _) (hone _ _)) (hone _ _))
    (hone _ _)

/-- The tiles of a fill are joined to its start, and there are at most three more of them
than its limit. -/
theorem fill_chained {test : Nat → Bool} {size budget : Nat} {found : Bool} {last : List Nat}
    (hwide : Wide world) (hlock : lock < world.blocks.length)
    (hfill : fill (besides world test) (fun tiles _ => decide (size ≤ tiles.length)) budget
      [lock] [] = some (found, last)) :
    (∀ t ∈ last, Chained last lock t) ∧ last.length ≤ size + 3 := by
  obtain ⟨-, -, hlast⟩ := fill_invariant
    (fun pending marked => (∀ t ∈ pending, t < world.blocks.length ∧ (t = lock ∨ t ∈ marked)) ∧
      (∀ t ∈ marked, Chained marked lock t) ∧ marked.length ≤ size + 3)
    (fun node rest marked fresh hinv hstop hfresh => by
      obtain ⟨hpending, hmarked, -⟩ := hinv
      obtain ⟨hnode, hfrom⟩ := hpending node List.mem_cons_self
      have hnext : ∀ t ∈ fresh, Beside node t ∧ t < world.blocks.length := by
        intro t ht
        exact ((mem_besides hwide hnode).mp ((hfresh.mem t).mp ht).1).1
      refine ⟨fun t ht => ?_, fun t ht => ?_, ?_⟩
      · rcases List.mem_append.mp ht with h | h
        · obtain ⟨hinside, hold⟩ := hpending t (List.mem_cons_of_mem _ h)
          exact ⟨hinside, hold.imp_right fun h => List.mem_append_left _ h⟩
        · exact ⟨(hnext t h).2, Or.inr (List.mem_append_right _ h)⟩
      · rcases List.mem_append.mp ht with h | h
        · exact (hmarked t h).mono fun t h => List.mem_append_left _ h
        · -- a fresh tile is reached over the one that is worked off
          have hstep : Beside node t ∧ t ∈ marked ++ fresh :=
            ⟨(hnext t h).1, List.mem_append_right _ h⟩
          rcases hfrom with rfl | hold
          · exact TransGen.single hstep
          · exact TransGen.tail ((hmarked node hold).mono fun t h =>
              List.mem_append_left _ h) hstep
      · have hroom := of_decide_eq_false hstop
        have hfour := hfresh.length.trans (length_besides world test node)
        rw [List.length_append]
        omega)
    ⟨fun t ht => by
        rw [List.mem_singleton.mp ht]
        exact ⟨hlock, Or.inl rfl⟩,
      List.forall_mem_nil _, Nat.zero_le _⟩
    hfill
  exact hlast

end Ways

section Claiming

variable {items : Items} {before after : World} {lock budget : Nat} {claimed : List Nat}

/-- The tiles of `lock_tiles`, claimed one by one. -/
theorem foldl_claim_chained {size : Nat} {tiles : List (Int × Int)} (hwide : Wide before)
    (hoff : Off before (lockX lock)) (hnone : ∀ t, lockedBy before lock t = false)
    (htiles : lockTiles items before (lockX lock) (lockY lock) size budget = some tiles) :
    let out := tiles.foldl (claim lock) (before, [])
    Claims before out.1 lock out.2 ∧ (∀ t ∈ out.2, Chained out.2 lock t) ∧
      out.2.length ≤ size := by
  intro out
  obtain ⟨hroom, hfree⟩ := lockTiles_free htiles
  have hinside : ∀ sq ∈ tiles, (index sq).toNat < before.blocks.length :=
    fun sq h => free_inside (hfree sq h)
  obtain ⟨hclaims, hlength⟩ := foldl_claim (@Claims.refl before lock) hinside
  have hmem := mem_foldl_claim (@Claims.refl before lock) hinside
    (fun sq h => free_unlocked (hfree sq h))
  simp only [List.not_mem_nil, false_or] at hmem
  refine ⟨hclaims, fun t ht => ?_, hlength.trans (by simpa using hroom)⟩
  obtain ⟨sq, hsq, rfl⟩ := List.mem_map.mp ((hmem t).mp ht)
  exact (lockTiles_chained hwide hoff hnone htiles sq hsq).mono fun t h => (hmem t).mpr h

/-- Where a lock is applied, its tiles are joined to it, and there are at most three too
many. -/
theorem claimTiles_chained (hwide : Wide before) (hoff : Off before (lockX lock))
    (hlock : lock < before.blocks.length) (hnone : ∀ t, lockedBy before lock t = false)
    (hclaim : claimTiles items before lock budget = some (after, claimed)) :
    (∀ t ∈ claimed, Chained claimed lock t) ∧
      claimed.length ≤ lockSize (tile before lock).fg + 3 := by
  unfold claimTiles at hclaim
  dsimp only at hclaim
  split_ifs at hclaim with hinvert
  · obtain ⟨tiles, htiles, hresult⟩ := Option.map_eq_some_iff.mp hclaim
    obtain ⟨-, hchained, hroom⟩ := foldl_claim_chained hwide hoff hnone htiles
    rw [hresult] at hchained hroom
    exact ⟨hchained, hroom.trans (Nat.le_add_right _ _)⟩
  · obtain ⟨⟨found, tiles⟩, hfill, hresult⟩ := Option.map_eq_some_iff.mp hclaim
    cases hresult
    exact fill_chained hwide hlock hfill

end Claiming

end LockArea

end NopyServer
