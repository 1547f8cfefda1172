/-
The event gacha: `Gacha::Event::Single` and `Gacha::Event::Multi`.  A pull that
brings no legendary item raises the player's pity by one, or by ten inside a
ten-fold pull; the pool of a common draw gets a legendary item when the pity is
exactly ninety.

Every uniform draw of the source is an arbitrary number, reduced to the range
it is drawn from, so a statement about all draws is one about all outcomes.
-/
import Mathlib.Data.List.Induction
import NopyServer.Items

namespace NopyServer

namespace Gacha

/-- `ItemType` of the gacha. -/
inductive ItemType where
  | common | rare | legendary
deriving Repr, DecidableEq

/-- The members of `Player` that the event gacha keeps. -/
structure Pity where
  pity : Int := 0
  pityOn : Bool := false
deriving Repr, DecidableEq

/-- What one call of `Single` draws, in the order of the source. -/
structure Draws where
  cDist : Nat := 2
  cPick : Nat := 0
  draw : Nat := 0
  rarePick : Nat := 0
  legendaryPick : Nat := 0
  pick : Nat := 0

/-- `uniform_int_distribution<>(1, most)`. -/
def uniform (most draw : Nat) : Nat := draw % most + 1

/-- A uniform choice from a list. -/
def choose (pool : List Int) (draw : Nat) : Int :=
  pool.getD (draw % pool.length) 0

/-- `IsCItem`. -/
def isCItem (items : Items) (id : Int) : Bool :=
  1 ≤ id && id < items.size &&
    (items.item id).name.toList.take 4 == ['(', 'C', ')', ' ']

/-- `c_pool`. -/
def cPool (items : Items) : List Int :=
  ((List.range items.size).map Int.ofNat).filter (isCItem items)

def common : List Int :=
  [4676, 4678, 4680, 4682, 5902, 5652, 4534, 40, 78, 538, 1116, 8830, 7356,
    2642, 2158, 2160, 2162, 2164, 2166, 4506, 12132, 12562, 13482, 3966, 3998,
    4030, 156, 678, 1574, 1672, 362, 1936, 818]

def rare : List Int :=
  [5480, 2722, 5020, 9428, 7412, 9422, 4996, 6006, 9554, 9998, 1738, 3144,
    5738, 9322, 8194, 11300, 13198, 13432]

/-- `Legendary_PityOff`. -/
def legendary : List Int := [9772]

/-- `Legendary_Item`. -/
def legendaryItem (id : Int) : Bool := id == 9772 || id == 0

/-- The type of item behind a draw out of a hundred. -/
def itemType (draw : Nat) : ItemType :=
  if draw ≤ 85 then .common
  else if draw ≤ 95 then .rare
  else if draw ≤ 96 then .legendary
  else .common

/-- The pool that `Single` chooses from. -/
def pool (multi : Bool) (type : ItemType) (draws : Draws) (p : Pity) :
    List Int :=
  let pool :=
    match type with
    | .common => common
    | .rare => rare
    | .legendary => legendary
  let pool := if multi then pool ++ [choose rare draws.rarePick] else pool
  if p.pity = 90 then
    if type = .common ∧ p.pityOn = false then
      pool ++ [choose legendary draws.legendaryPick]
    else if type = .legendary then pool ++ [9908]
    else pool
  else pool

/-- The draw of an ultra-rare item, before all others. -/
def ultraRare (items : Items) (draws : Draws) : Bool :=
  uniform 1000 draws.cDist ≤ 2 && !(cPool items).isEmpty

/-- How far one call without a legendary item raises the pity. -/
def raise (multi : Bool) : Int := if multi then 10 else 1

/-- What the result of a call does to the pity. -/
def record (multi : Bool) (result : Int) (p : Pity) : Pity :=
  if legendaryItem result then ⟨0, !p.pityOn⟩
  else ⟨p.pity + raise multi, false⟩

/-- `Gacha::Event::Single`. -/
def single (items : Items) (multi : Bool) (draws : Draws) (p : Pity) :
    Int × Pity :=
  if ultraRare items draws then (choose (cPool items) draws.cPick, p)
  else
    let type := itemType (uniform 100 draws.draw)
    let result := choose (pool multi type draws p) draws.pick
    (result, record multi result p)

/-- `Gacha::Event::Multi`. -/
def multi (items : Items) (draws : Nat → Draws) (p : Pity) :
    List Int × Pity :=
  (List.range 10).foldl (fun (results, p) i =>
    let pulled := single items true (draws i) p
    (results ++ [pulled.1], pulled.2)) ([], p)

/-- What a player does at the gacha. -/
inductive Pull where
  | single (draws : Draws)
  | multi (draws : Nat → Draws)

def Pull.apply (items : Items) (p : Pity) : Pull → Pity
  | .single draws => (Gacha.single items false draws p).2
  | .multi draws => (Gacha.multi items draws p).2

/-- The calls of `Single` behind a pull. -/
def Pull.calls : Pull → List (Bool × Draws)
  | .single draws => [(false, draws)]
  | .multi draws => (List.range 10).map fun i => (true, draws i)

/-- The pity after some calls of `Single`. -/
def after (items : Items) (calls : List (Bool × Draws)) (p : Pity) : Pity :=
  calls.foldl (fun p call => (single items call.1 call.2 p).2) p

section Calls

variable {items : Items} {p : Pity}

theorem after_append (calls more : List (Bool × Draws)) :
    after items (calls ++ more) p = after items more (after items calls p) :=
  List.foldl_append

theorem multi_eq_after (draws : Nat → Draws) :
    (multi items draws p).2 = after items (Pull.multi draws).calls p := by
  have hfold : ∀ (indices : List Nat) (results : List Int) (p : Pity),
      (indices.foldl (fun (results, p) i =>
        let pulled := single items true (draws i) p
        (results ++ [pulled.1], pulled.2)) (results, p)).2 =
        after items (indices.map fun i => (true, draws i)) p := by
    intro indices
    induction indices with
    | nil =>
        intro results p
        rfl
    | cons i indices ih =>
        intro results p
        exact ih _ _
  exact hfold (List.range 10) [] p

/-- A sequence of pulls is a sequence of calls of `Single`; the states of
`guaranteed_along_pulls_iff` are the ones between them. -/
theorem pulls_eq_after (pulls : List Pull) (p : Pity) :
    pulls.foldl (Pull.apply items) p =
      after items (pulls.flatMap Pull.calls) p := by
  induction pulls generalizing p with
  | nil => rfl
  | cons pull pulls ih =>
      rw [List.foldl_cons, ih, List.flatMap_cons, after_append]
      cases pull with
      | single draws => rfl
      | multi draws =>
          rw [← multi_eq_after]
          rfl

end Calls

section Pools

variable {draws : Draws} {p : Pity}

theorem choose_mem {pool : List Int} (hpool : pool ≠ []) (draw : Nat) :
    choose pool draw ∈ pool := by
  have hlt : draw % pool.length < pool.length :=
    Nat.mod_lt draw (List.length_pos_iff.mpr hpool)
  unfold choose
  rw [List.getD_eq_getElem?_getD, List.getElem?_eq_getElem hlt]
  exact List.getElem_mem hlt

theorem common_plain : ∀ id ∈ common, legendaryItem id = false := by decide

theorem rare_plain : ∀ id ∈ rare, legendaryItem id = false := by decide

theorem choose_rare_plain (draw : Nat) :
    legendaryItem (choose rare draw) = false :=
  rare_plain _ (choose_mem (by decide) draw)

theorem choose_legendary (draw : Nat) : choose legendary draw = 9772 :=
  List.mem_singleton.mp (choose_mem (by decide) draw)

/-- The guarantee at a state: with ninety pity or more and the flag off, a
common draw chooses from a pool with a legendary item. -/
def Guaranteed (p : Pity) : Prop :=
  90 ≤ p.pity → p.pityOn = false → ∀ multi draws,
    itemType (uniform 100 draws.draw) = .common →
      ∃ id ∈ pool multi .common draws p, legendaryItem id = true

/-- The test for equality with ninety keeps the guarantee up to ninety. -/
theorem guaranteed_iff : Guaranteed p ↔ p.pity ≤ 90 ∨ p.pityOn = true := by
  constructor
  · intro hguaranteed
    by_contra hnot
    push Not at hnot
    obtain ⟨hover, hon⟩ := hnot
    have hoff : p.pityOn = false := by simpa using hon
    have hne : p.pity ≠ 90 := by omega
    obtain ⟨id, hid, hlegendary⟩ :=
      hguaranteed (by omega) hoff false {} (by decide)
    have hmem : id ∈ common := by simpa [pool, hne] using hid
    rw [common_plain id hmem] at hlegendary
    cases hlegendary
  · intro hle hninety hoff multi draws _
    have hexact : p.pity = 90 := by
      rcases hle with hle | hon
      · omega
      · rw [hoff] at hon
        cases hon
    refine ⟨9772, ?_, by decide⟩
    unfold pool
    rw [if_pos hexact, if_pos ⟨rfl, hoff⟩, choose_legendary]
    simp

/-- The draws choose a legendary item: the first of the legendary pool, or the
one that the guarantee has put at the end of the common pool. -/
def drawsLegendary (multi : Bool) (draws : Draws) (p : Pity) : Bool :=
  let type := itemType (uniform 100 draws.draw)
  let size := (pool multi type draws p).length
  match type with
  | .legendary => draws.pick % size = 0
  | .common =>
      p.pity = 90 && !p.pityOn && decide (draws.pick % size = size - 1)
  | .rare => false

/-- A pool of plain items with one legendary item at an end. -/
theorem choose_append_legendary {pool : List Int}
    (hplain : ∀ id ∈ pool, legendaryItem id = false) (draw : Nat) :
    legendaryItem (choose (pool ++ [9772]) draw) =
      decide (draw % (pool ++ [9772]).length = (pool ++ [9772]).length - 1) := by
  have hlt : draw % (pool ++ [9772]).length < (pool ++ [9772]).length :=
    Nat.mod_lt draw (by simp)
  unfold choose
  generalize draw % (pool ++ [(9772 : Int)]).length = i at hlt ⊢
  rw [List.length_append, List.length_singleton] at hlt ⊢
  rw [List.getD_eq_getElem?_getD]
  by_cases hlast : i = pool.length
  · subst hlast
    simp [legendaryItem]
  · have hbefore : i < pool.length := by omega
    rw [List.getElem?_append_left hbefore, List.getElem?_eq_getElem hbefore,
      Option.getD_some, hplain _ (List.getElem_mem hbefore)]
    simp [hlast]

theorem choose_cons_legendary {pool : List Int}
    (hplain : ∀ id ∈ pool, legendaryItem id = false) (draw : Nat) :
    legendaryItem (choose (9772 :: pool) draw) =
      decide (draw % (9772 :: pool).length = 0) := by
  have hlt : draw % (9772 :: pool).length < (9772 :: pool).length :=
    Nat.mod_lt draw (by simp)
  unfold choose
  generalize draw % ((9772 : Int) :: pool).length = i at hlt ⊢
  rw [List.getD_eq_getElem?_getD]
  cases i with
  | zero => simp [legendaryItem]
  | succ i =>
      have hbefore : i < pool.length := Nat.lt_of_succ_lt_succ hlt
      rw [List.getElem?_cons_succ, List.getElem?_eq_getElem hbefore,
        Option.getD_some, hplain _ (List.getElem_mem hbefore)]
      simp

/-- The pool a draw starts from, before the pity is looked at. -/
def startPool (multi : Bool) (start : List Int) (draws : Draws) : List Int :=
  if multi then start ++ [choose rare draws.rarePick] else start

theorem startPool_plain {start : List Int}
    (hplain : ∀ id ∈ start, legendaryItem id = false) (multi : Bool) :
    ∀ id ∈ startPool multi start draws, legendaryItem id = false := by
  intro id hid
  unfold startPool at hid
  split at hid
  · rcases List.mem_append.mp hid with hold | hnew
    · exact hplain id hold
    · rw [List.mem_singleton.mp hnew]
      exact choose_rare_plain draws.rarePick
  · exact hplain id hid

theorem startPool_ne_nil {start : List Int} (hstart : start ≠ [])
    (multi : Bool) : startPool multi start draws ≠ [] := by
  unfold startPool
  split
  · exact List.append_ne_nil_of_left_ne_nil hstart _
  · exact hstart

/-- At ninety the pool of a common draw has the legendary item at its end. -/
theorem pool_common_guaranteed {p : Pity} (hninety : p.pity = 90)
    (hoff : p.pityOn = false) (multi : Bool) (draws : Draws) :
    pool multi .common draws p = startPool multi common draws ++ [9772] := by
  unfold pool
  rw [if_pos hninety, if_pos ⟨rfl, hoff⟩, choose_legendary]
  rfl

theorem pool_common_plain {p : Pity} (hplain : ¬ (p.pity = 90 ∧ p.pityOn = false))
    (multi : Bool) (draws : Draws) :
    pool multi .common draws p = startPool multi common draws := by
  unfold pool startPool
  simp only [reduceCtorEq, ↓reduceIte, true_and]
  split
  · next hninety => rw [if_neg fun hoff => hplain ⟨hninety, hoff⟩]
  · rfl

theorem pool_rare (multi : Bool) (draws : Draws) (p : Pity) :
    pool multi .rare draws p = startPool multi rare draws := by
  unfold pool startPool
  simp

/-- The legendary pool has its item at the front, and no other. -/
theorem pool_legendary (multi : Bool) (draws : Draws) (p : Pity) :
    ∃ rest, pool multi .legendary draws p = 9772 :: rest ∧
      ∀ id ∈ rest, legendaryItem id = false := by
  have hnothing : ∀ id ∈ ([] : List Int), legendaryItem id = false := by simp
  have hrare := @startPool_plain draws [] hnothing multi
  by_cases hninety : p.pity = 90
  · refine ⟨startPool multi [] draws ++ [9908], ?_, ?_⟩
    · cases multi <;> simp [pool, startPool, hninety, legendary]
    · intro id hid
      rcases List.mem_append.mp hid with hold | hnew
      · exact hrare id hold
      · rw [List.mem_singleton.mp hnew]
        decide
  · refine ⟨startPool multi [] draws, ?_, hrare⟩
    cases multi <;> simp [pool, startPool, hninety, legendary]

/-- The result of a call is legendary exactly when its draws choose it. -/
theorem result_legendary_iff (multi : Bool) (draws : Draws) (p : Pity) :
    legendaryItem (choose (pool multi (itemType (uniform 100 draws.draw)) draws p)
      draws.pick) = drawsLegendary multi draws p := by
  unfold drawsLegendary
  cases itemType (uniform 100 draws.draw) with
  | common =>
      have hplain := @startPool_plain draws common common_plain multi
      by_cases hguaranteed : p.pity = 90 ∧ p.pityOn = false
      · obtain ⟨hninety, hoff⟩ := hguaranteed
        dsimp only
        rw [pool_common_guaranteed hninety hoff, choose_append_legendary hplain,
          hninety, hoff]
        rfl
      · have hnone : (decide (p.pity = 90) && !p.pityOn) = false := by
          simpa using hguaranteed
        rw [pool_common_plain hguaranteed,
          hplain _ (choose_mem (startPool_ne_nil (by decide) multi) _)]
        dsimp only
        rw [hnone, Bool.false_and]
  | rare =>
      rw [pool_rare]
      exact startPool_plain rare_plain multi _
        (choose_mem (startPool_ne_nil (by decide) multi) _)
  | legendary =>
      obtain ⟨rest, hrest, hplain⟩ := pool_legendary multi draws p
      dsimp only
      rw [hrest]
      exact choose_cons_legendary hplain draws.pick

end Pools

section Runs

variable {items : Items} {start : Pity} {calls : List (Bool × Draws)}

/-- The call does not take the pity past ninety: there is room for the raise,
or the draws bring an ultra-rare or a legendary item. -/
def Keeps (items : Items) (call : Bool × Draws) (p : Pity) : Prop :=
  p.pity + raise call.1 ≤ 90 ∨ ultraRare items call.2 = true ∨
    drawsLegendary call.1 call.2 p = true

/-- What one call does to the pity. -/
theorem single_pity (items : Items) (call : Bool × Draws) (p : Pity) :
    (single items call.1 call.2 p).2 =
      if ultraRare items call.2 then p
      else if drawsLegendary call.1 call.2 p then ⟨0, !p.pityOn⟩
      else ⟨p.pity + raise call.1, false⟩ := by
  unfold single record
  split
  · rfl
  · dsimp only
    rw [result_legendary_iff]

/-- Calls that keep to ninety never pass it. -/
theorem pity_le (hstart : start.pity = 0)
    (hkeeps : ∀ before call later, calls = before ++ call :: later →
      Keeps items call (after items before start)) :
    (after items calls start).pity ≤ 90 := by
  induction calls using List.reverseRecOn with
  | nil =>
      change start.pity ≤ 90
      omega
  | append_singleton calls call ih =>
      have hbefore : (after items calls start).pity ≤ 90 := by
        apply ih
        intro before first later heq
        apply hkeeps before first (later ++ [call])
        rw [heq, List.append_assoc, List.cons_append]
      have hlast := hkeeps calls call [] rfl
      rw [after_append]
      change (single items call.1 call.2 (after items calls start)).2.pity ≤ 90
      rw [single_pity]
      generalize after items calls start = p at hbefore hlast ⊢
      rcases hlast with hroom | hultra | hlegendary
      · split_ifs
        · exact hbefore
        · exact Int.zero_le_ofNat 90
        · exact hroom
      · rw [if_pos hultra]
        exact hbefore
      · rw [if_pos hlegendary]
        split_ifs
        · exact hbefore
        · exact Int.zero_le_ofNat 90

/-- Every state of a run is guaranteed exactly when none of its calls takes the
pity past ninety. -/
theorem guaranteed_along_pulls_iff (items : Items) (start : Pity)
    (hstart : start.pity = 0) (pulls : List Pull) :
    (∀ before later, pulls.flatMap Pull.calls = before ++ later →
        Guaranteed (after items before start)) ↔
      ∀ before call later, pulls.flatMap Pull.calls = before ++ call :: later →
        Keeps items call (after items before start) := by
  constructor
  · intro hall before call later heq
    have hnext := hall (before ++ [call]) later (by simp [heq])
    rw [guaranteed_iff, after_append] at hnext
    change (single items call.1 call.2 (after items before start)).2.pity ≤ 90 ∨
      (single items call.1 call.2 (after items before start)).2.pityOn = true
      at hnext
    rw [single_pity] at hnext
    generalize after items before start = p at hnext ⊢
    split at hnext
    · next hultra => exact Or.inr (Or.inl hultra)
    · split at hnext
      · next hlegendary => exact Or.inr (Or.inr hlegendary)
      · exact Or.inl (by simpa using hnext)
  · intro hkeeps before later heq
    rw [guaranteed_iff]
    left
    apply pity_le hstart
    intro first call rest hfirst
    apply hkeeps first call (rest ++ later)
    rw [heq, hfirst, List.append_assoc, List.cons_append]

/-- The first common item again and again. -/
theorem single_plain (multi : Bool) (p : Pity) :
    (single ⟨0, fun _ => {}⟩ multi {} p).2 = ⟨p.pity + raise multi, false⟩ := by
  have hlarge : 1 < (pool multi .common {} p).length := by
    unfold pool
    dsimp only
    split_ifs <;> simp [common]
  have hnone : drawsLegendary multi {} p = false := by
    have hfirst : ¬ 0 = (pool multi .common {} p).length - 1 := by omega
    change (p.pity = 90 && !p.pityOn && decide (0 % (pool multi .common {}
      p).length = (pool multi .common {} p).length - 1)) = false
    simp [hfirst]
  have hstep := single_pity ⟨0, fun _ => {}⟩ (multi, {}) p
  rw [hnone] at hstep
  exact hstep

/-- A single pull before a ten-fold one makes the pity step over ninety. -/
theorem pulls_skip_guarantee :
    ¬ ∀ (items : Items) (start : Pity), start.pity = 0 →
      ∀ (pulls : List Pull) (before later : List (Bool × Draws)),
        pulls.flatMap Pull.calls = before ++ later →
          Guaranteed (after items before start) := by
  intro hall
  have hguaranteed := hall ⟨0, fun _ => {}⟩ {} rfl
    [.single {}, .multi fun _ => {}] _ [] (List.append_nil _).symm
  rw [guaranteed_iff] at hguaranteed
  have hpity : after ⟨0, fun _ => {}⟩
      ([.single {}, .multi fun _ => {}].flatMap Pull.calls) {} =
      ⟨101, false⟩ := by
    simp [after, Pull.calls, List.range_succ, single_plain, raise]
  rw [hpity] at hguaranteed
  exact absurd hguaranteed (by decide)

/-- The first item of the legendary pool is legendary. -/
theorem drawsLegendary_first (multi : Bool) (p : Pity) :
    drawsLegendary multi { draw := 95 } p = true := by
  have hzero := Nat.zero_mod (pool multi .legendary { draw := 95 } p).length
  exact decide_eq_true hzero

/-- Ten legendary items in one pull. -/
theorem legendary_pull_guaranteed :
    Guaranteed (after ⟨0, fun _ => {}⟩
      ([Pull.multi fun _ => { draw := 95 }].flatMap Pull.calls) {}) := by
  refine (guaranteed_along_pulls_iff ⟨0, fun _ => {}⟩ {} rfl
    [.multi fun _ => { draw := 95 }]).mpr ?_ _ [] (List.append_nil _).symm
  intro before call later heq
  have hmem : call ∈ [Pull.multi fun _ => { draw := 95 }].flatMap Pull.calls :=
    heq ▸ List.mem_append_right before List.mem_cons_self
  have hcall : call = (true, { draw := 95 }) := by
    rw [List.flatMap_singleton] at hmem
    obtain ⟨i, -, heq⟩ := List.mem_map.mp hmem
    exact heq.symm
  rw [hcall]
  right
  right
  exact drawsLegendary_first true _

end Runs

end Gacha

end NopyServer
