/-
What `VisualHandle::Drop` does to the amounts lying in a world.  Every item but
gems is conserved as long as the stack it tops up stays an `int`, and uids stay
unique.  Gems are conserved exactly when the change they are given is exact: the
coin laid down must be worth the dropped gems and the stacks that are taken for
it, of each run of neighbouring stacks the larger half.
-/
import Mathlib.Data.List.SplitBy
import NopyServer.Drop

namespace NopyServer

open SlotPack

/-- The drops as stacks of items. -/
def dropStacks (entries : List DropEntry) : List (Int × Int) :=
  entries.map fun entry => (entry.id, entry.count)

@[simp]
theorem dropStacks_nil : dropStacks [] = [] := rfl

@[simp]
theorem dropStacks_cons (entry : DropEntry) (entries : List DropEntry) :
    dropStacks (entry :: entries) =
      (entry.id, entry.count) :: dropStacks entries := rfl

@[simp]
theorem dropStacks_append (left right : List DropEntry) :
    dropStacks (left ++ right) = dropStacks left ++ dropStacks right := by
  simp [dropStacks]

/-- How much of an item lies in a list of drops. -/
def dropTotal (id : Int) (entries : List DropEntry) : Int :=
  total id (dropStacks entries)

@[simp]
theorem dropTotal_nil (id : Int) : dropTotal id [] = 0 := rfl

@[simp]
theorem dropTotal_cons (id : Int) (entry : DropEntry)
    (entries : List DropEntry) :
    dropTotal id (entry :: entries) =
      (if entry.id = id then entry.count else 0) + dropTotal id entries := by
  simp [dropTotal]

@[simp]
theorem dropTotal_append (id : Int) (left right : List DropEntry) :
    dropTotal id (left ++ right) = dropTotal id left + dropTotal id right := by
  simp [dropTotal]

/-- Gems lying in a list of drops, a thousand for each item 4490. -/
def gemTotal (entries : List DropEntry) : Int :=
  dropTotal 112 entries + 1000 * dropTotal 4490 entries

section Erasing

variable (drop : WorldDrop) (gem : Int)

/-- The stacks of gems near a drop, in their order; other entries count
nothing. -/
def gemStacks (entries : List DropEntry) : List Int :=
  entries.map fun entry => if entry.gemNear drop then entry.count else 0

/-- What one pass leaves of some stacks: of each run of neighbouring stacks of the
denomination the smaller half. -/
def thinned (counts : List Int) : List Int :=
  (counts.splitBy (· == ·)).flatMap fun run =>
    if run.head? = some gem then run.take (run.length / 2) else run

theorem gemNear_id {entry : DropEntry} {drop : WorldDrop}
    (hnear : entry.gemNear drop = true) : entry.id = 112 := by
  simp only [DropEntry.gemNear, Bool.and_eq_true, beq_iff_eq] at hnear
  exact hnear.2

theorem eraseGems_sublist (past : Bool) (entries : List DropEntry) :
    (eraseGems drop gem past entries).Sublist entries := by
  induction entries generalizing past with
  | nil => cases past <;> exact List.Sublist.refl []
  | cons entry rest ih =>
      cases past with
      | true => exact List.Sublist.cons_cons entry (ih false)
      | false =>
          by_cases hmet : entry.gemNear drop ∧ entry.count = gem
          · simp only [eraseGems, hmet, and_self, ↓reduceIte]
            exact List.Sublist.cons entry (ih true)
          · simp only [eraseGems, hmet, ↓reduceIte]
            exact List.Sublist.cons_cons entry (ih false)

/-- A pass removes gems and nothing else. -/
theorem dropTotal_eraseGems_of_ne {id : Int} (hid : id ≠ 112) (past : Bool)
    (entries : List DropEntry) :
    dropTotal id (eraseGems drop gem past entries) = dropTotal id entries := by
  induction entries generalizing past with
  | nil => cases past <;> rfl
  | cons entry rest ih =>
      cases past with
      | true => simp [eraseGems, ih]
      | false =>
          by_cases hmet : entry.gemNear drop ∧ entry.count = gem
          · have hgem := gemNear_id hmet.1
            simp [eraseGems, hmet, hgem, Ne.symm hid, ih]
          · simp [eraseGems, hmet, ih]

/-- A pass removes no gems but near ones. -/
theorem dropTotal_eraseGems (past : Bool) (entries : List DropEntry) :
    dropTotal 112 (eraseGems drop gem past entries) + (gemStacks drop entries).sum =
      dropTotal 112 entries + (gemStacks drop (eraseGems drop gem past entries)).sum := by
  induction entries generalizing past with
  | nil => cases past <;> rfl
  | cons entry rest ih =>
      have hkept : ∀ left : List DropEntry,
          dropTotal 112 left + (gemStacks drop rest).sum =
            dropTotal 112 rest + (gemStacks drop left).sum →
          dropTotal 112 (entry :: left) + (gemStacks drop (entry :: rest)).sum =
            dropTotal 112 (entry :: rest) + (gemStacks drop (entry :: left)).sum := by
        intro left hleft
        simp only [dropTotal_cons, gemStacks, List.map_cons, List.sum_cons] at hleft ⊢
        omega
      cases past with
      | true => exact hkept _ (ih false)
      | false =>
          by_cases hmet : entry.gemNear drop ∧ entry.count = gem
          · have hgem := gemNear_id hmet.1
            have hrest := ih true
            simp only [eraseGems, hmet, and_self, ↓reduceIte]
            simp only [dropTotal_cons, hgem, gemStacks, List.map_cons, List.sum_cons, hmet.1,
              ↓reduceIte] at hrest ⊢
            omega
          · simp only [eraseGems, hmet, ↓reduceIte]
            exact hkept _ (ih false)

/-- A pass over the stacks alone. -/
def eraseCounts : Bool → List Int → List Int
  | _, [] => []
  | true, count :: rest => count :: eraseCounts false rest
  | false, count :: rest =>
      if count = gem then eraseCounts true rest else count :: eraseCounts false rest

theorem gemStacks_eraseCounts (hgem : gem ≠ 0) (past : Bool) (entries : List DropEntry) :
    gemStacks drop (eraseGems drop gem past entries) =
      eraseCounts gem past (gemStacks drop entries) := by
  induction entries generalizing past with
  | nil => cases past <;> rfl
  | cons entry rest ih =>
      cases past with
      | true => exact congrArg _ (ih false)
      | false =>
          have hmet : (entry.gemNear drop ∧ entry.count = gem) ↔
              (if entry.gemNear drop then entry.count else 0) = gem := by
            split
            · next hnear => exact and_iff_right hnear
            · next hfar => exact iff_of_false (fun h => hfar h.1) (Ne.symm hgem)
          have hcons : gemStacks drop (entry :: rest) =
            (if entry.gemNear drop then entry.count else 0) :: gemStacks drop rest := rfl
          rw [hcons]
          by_cases hcount : (if entry.gemNear drop then entry.count else 0) = gem
          · rw [eraseGems, if_pos (hmet.mpr hcount), eraseCounts, if_pos hcount]
            exact ih true
          · rw [eraseGems, if_neg (hmet.not.mpr hcount), eraseCounts, if_neg hcount]
            exact congrArg _ (ih false)

/-- Of a run of stacks of the denomination every other one is left. -/
theorem eraseCounts_run (rest : List Int) (hrest : rest.head? ≠ some gem) (n : Nat) :
    eraseCounts gem false (List.replicate n gem ++ rest) =
      List.replicate (n / 2) gem ++ eraseCounts gem false rest := by
  induction n using Nat.twoStepInduction with
  | zero => rfl
  | one =>
      rw [List.replicate_one, List.singleton_append, eraseCounts, if_pos rfl]
      cases rest with
      | nil => rfl
      | cons count rest =>
          have hother : count ≠ gem := fun heq => hrest (heq ▸ rfl)
          rw [eraseCounts, eraseCounts, if_neg hother]
          rfl
  | more n ih _ =>
      have hhalf : (n + 2) / 2 = n / 2 + 1 := by omega
      rw [hhalf, List.replicate_succ, List.replicate_succ, List.cons_append, List.cons_append,
        eraseCounts, if_pos rfl, eraseCounts, ih, List.replicate_succ, List.cons_append]

/-- Stacks of another denomination stay. -/
theorem eraseCounts_other {other : Int} (hother : other ≠ gem) (rest : List Int) (n : Nat) :
    eraseCounts gem false (List.replicate n other ++ rest) =
      List.replicate n other ++ eraseCounts gem false rest := by
  induction n with
  | zero => rfl
  | succ n ih =>
      rw [List.replicate_succ, List.cons_append, eraseCounts, if_neg hother, ih]
      rfl

/-- The first run of a list, and the rest, which starts otherwise. -/
theorem exists_run (count : Int) (counts : List Int) :
    ∃ n rest, count :: counts = List.replicate (n + 1) count ++ rest ∧
      rest.head? ≠ some count ∧ rest.length ≤ counts.length := by
  induction counts with
  | nil => exact ⟨0, [], rfl, by simp, le_refl _⟩
  | cons next counts ih =>
      by_cases hsame : next = count
      · obtain ⟨n, rest, hrun, hhead, hlength⟩ := ih
        refine ⟨n + 1, rest, ?_, hhead, hlength.trans (Nat.le_succ _)⟩
        rw [hsame, hrun]
        rfl
      · exact ⟨0, next :: counts, rfl, by simpa using hsame, le_refl _⟩

theorem splitBy_run {count : Int} {rest : List Int} (hrest : rest.head? ≠ some count)
    (n : Nat) :
    (List.replicate (n + 1) count ++ rest).splitBy (· == ·) =
      List.replicate (n + 1) count :: rest.splitBy (· == ·) := by
  have hchain : (List.replicate (n + 1) count).IsChain fun left right => left == right :=
    List.isChain_replicate_of_rel _ (beq_self_eq_true count)
  rw [List.splitBy_append, List.splitBy_of_isChain (by simp) hchain]
  · rfl
  · intro last hlast first hfirst
    have hlast : last = count := by
      simpa [List.getLast?_replicate] using hlast.symm
    rw [hlast]
    refine beq_false_of_ne fun heq => hrest ?_
    rw [hfirst, ← heq]

/-- One pass leaves the smaller half of each run. -/
theorem eraseCounts_eq_thinned (counts : List Int) :
    eraseCounts gem false counts = thinned gem counts := by
  match counts with
  | [] => rfl
  | count :: counts =>
      obtain ⟨n, rest, hrun, hhead, hlength⟩ := exists_run count counts
      have ih := eraseCounts_eq_thinned rest
      rw [hrun]
      unfold thinned at ih ⊢
      rw [splitBy_run hhead, List.flatMap_cons, ← ih]
      by_cases hgem : count = gem
      · rw [hgem] at hhead ⊢
        rw [eraseCounts_run gem rest hhead, List.length_replicate, List.take_replicate,
          if_pos (by rw [List.replicate_succ, List.head?_cons]), Nat.min_eq_left (by omega)]
      · have hfirst : (List.replicate (n + 1) count).head? ≠ some gem := by
          rw [List.replicate_succ, List.head?_cons]
          simpa using hgem
        rw [eraseCounts_other gem hgem, if_neg hfirst]
termination_by counts.length

theorem gemStacks_eraseGems (hgem : gem ≠ 0) (entries : List DropEntry) :
    gemStacks drop (eraseGems drop gem false entries) = thinned gem (gemStacks drop entries) :=
  (gemStacks_eraseCounts drop gem hgem false entries).trans (eraseCounts_eq_thinned gem _)

/-- All erasing passes, one for each listed denomination. -/
def erasePasses (gems : List Int) (entries : List DropEntry) :
    List DropEntry :=
  gems.foldl (fun left gem => eraseGems drop gem false left) entries

theorem erasePasses_sublist (gems : List Int) (entries : List DropEntry) :
    (erasePasses drop gems entries).Sublist entries := by
  induction gems generalizing entries with
  | nil => exact List.Sublist.refl entries
  | cons gem gems ih =>
      exact (ih (eraseGems drop gem false entries)).trans
        (eraseGems_sublist drop gem false entries)

theorem dropTotal_erasePasses_of_ne {id : Int} (hid : id ≠ 112)
    (gems : List Int) (entries : List DropEntry) :
    dropTotal id (erasePasses drop gems entries) = dropTotal id entries := by
  induction gems generalizing entries with
  | nil => rfl
  | cons gem gems ih =>
      exact (ih (eraseGems drop gem false entries)).trans
        (dropTotal_eraseGems_of_ne drop gem hid false entries)

/-- What all passes leave of some stacks, each in what the earlier ones left. -/
def thinnedAll (gems : List Int) (counts : List Int) : List Int :=
  gems.foldl (fun left gem => thinned gem left) counts

/-- The worth of the stacks that all passes take. -/
def taken (gems : List Int) (counts : List Int) : Int :=
  counts.sum - (thinnedAll gems counts).sum

theorem gemStacks_erasePasses {gems : List Int} (hgems : 0 ∉ gems) (entries : List DropEntry) :
    gemStacks drop (erasePasses drop gems entries) = thinnedAll gems (gemStacks drop entries) := by
  induction gems generalizing entries with
  | nil => rfl
  | cons gem gems ih =>
      rw [List.mem_cons, not_or] at hgems
      have hlater := ih hgems.2 (eraseGems drop gem false entries)
      rw [gemStacks_eraseGems drop gem (Ne.symm hgems.1)] at hlater
      exact hlater

theorem dropTotal_erasePasses {gems : List Int} (hgems : 0 ∉ gems)
    (entries : List DropEntry) :
    dropTotal 112 (erasePasses drop gems entries) =
      dropTotal 112 entries - taken gems (gemStacks drop entries) := by
  have hsum : dropTotal 112 (erasePasses drop gems entries) + (gemStacks drop entries).sum =
      dropTotal 112 entries + (gemStacks drop (erasePasses drop gems entries)).sum := by
    clear hgems
    induction gems generalizing entries with
    | nil => rfl
    | cons gem gems ih =>
        have hfirst := dropTotal_eraseGems drop gem false entries
        have hlater := ih (eraseGems drop gem false entries)
        change dropTotal 112 (erasePasses drop gems (eraseGems drop gem false entries)) + _ =
          _ + (gemStacks drop (erasePasses drop gems (eraseGems drop gem false entries))).sum
        omega
  rw [gemStacks_erasePasses drop hgems] at hsum
  unfold taken
  omega

end Erasing


section Merging

variable (drop : WorldDrop)

/-- The stack an item is added to: the first near one of its kind with room. -/
def firstStack (entries : List DropEntry) : Option DropEntry :=
  entries.find? fun entry =>
    entry.id ≠ 0 ∧ entry.near drop 16 ∧ entry.id = drop.id ∧ entry.count < 200

/-- What is lost when the sum with that stack passes the upper end of `int`. -/
def stackLoss (entries : List DropEntry) : Int :=
  match firstStack drop entries with
  | none => 0
  | some entry => if entry.count + drop.count < 2 ^ 31 then 0 else 2 ^ 32

/-- Merging moves the dropped item between the drop and the stacks. -/
theorem dropTotal_mergeDrop (hcount : drop.count < 2 ^ 31) (id : Int)
    (entries : List DropEntry) :
    dropTotal id (mergeDrop drop entries).1 +
        (if drop.id = id then (mergeDrop drop entries).2 else 0) =
      dropTotal id entries +
        (if drop.id = id then drop.count - stackLoss drop entries else 0) := by
  induction entries with
  | nil => simp [mergeDrop, stackLoss, firstStack]
  | cons entry rest ih =>
      rw [mergeDrop]
      by_cases hfirst : entry.id ≠ 0 ∧ entry.near drop 16 ∧ entry.id = drop.id ∧
          entry.count < 200
      · have hfound : firstStack drop (entry :: rest) = some entry :=
          List.find?_cons_of_pos (decide_eq_true hfirst)
        have hsum : drop.count > 200 - entry.count ∨
            stackSum entry.count drop.count ≤ 200 := by
          unfold stackSum
          split <;> omega
        rw [if_pos ⟨hfirst.1, hfirst.2.1, hfirst.2.2.1, hfirst.2.2.2, hsum⟩]
        simp only [stackLoss, hfound, stackSum]
        have hid := hfirst.2.2.1
        have hroom := hfirst.2.2.2
        split <;> split <;> simp only [dropTotal_cons, hid] <;> split <;> omega
      · have hfound : firstStack drop (entry :: rest) = firstStack drop rest :=
          List.find?_cons_of_neg (fun htrue => hfirst (of_decide_eq_true htrue))
        have hloss : stackLoss drop (entry :: rest) = stackLoss drop rest := by
          unfold stackLoss
          rw [hfound]
        rw [if_neg fun htake =>
          hfirst ⟨htake.1, htake.2.1, htake.2.2.1, htake.2.2.2.1⟩, hloss]
        simp only [dropTotal_cons]
        omega

/-- Merging keeps the number, the uids and the times of the entries. -/
theorem mergeDrop_marks (entries : List DropEntry) :
    (mergeDrop drop entries).1.map (fun entry => (entry.uid, entry.time)) =
      entries.map fun entry => (entry.uid, entry.time) := by
  induction entries with
  | nil => rfl
  | cons entry rest ih =>
      rw [mergeDrop]
      split
      · split <;> rfl
      · simp [ih]

end Merging

/-- None of the drops is removed by the clean-up. -/
def NoneExpired (now : Int) (entries : List DropEntry) : Prop :=
  ∀ entry ∈ entries, entry.expired now = false

/-- Drops among which some more can be laid without any being cleaned up. -/
structure DropsFit (now : Int) (entries : List DropEntry) (more : Nat) :
    Prop where
  length : entries.length + more ≤ 500
  noneExpired : NoneExpired now entries

/-- Drops among which one more can be laid: at most 499 entries, none of them
expired, and uids that are unique and have all been issued. -/
structure DropsReady (now : Int) (entries : List DropEntry)
    (totalDropUid : Int) : Prop where
  length : entries.length ≤ 499
  noneExpired : NoneExpired now entries
  nodup : (entries.map DropEntry.uid).Nodup
  issued : ∀ entry ∈ entries, entry.uid ≤ totalDropUid

theorem autoClearOldWorldDrops_eq_self {now : Int}
    {entries : List DropEntry} (hexpired : NoneExpired now entries)
    (hlength : entries.length ≤ 500) :
    autoClearOldWorldDrops now entries = entries := by
  have hkept : entries.filter (fun entry => !entry.expired now) = entries :=
    List.filter_eq_self.mpr fun entry hentry => by simp [hexpired entry hentry]
  have hnone : entries.length - 500 = 0 := by omega
  simp [autoClearOldWorldDrops, hkept, hnone]

theorem autoClearOldWorldDrops_sublist (now : Int) (entries : List DropEntry) :
    (autoClearOldWorldDrops now entries).Sublist entries :=
  (List.drop_sublist _ _).trans List.filter_sublist

section Laying

variable {now uid : Int} {entries old : List DropEntry} {more : Nat}

theorem DropsReady.fit (hready : DropsReady now entries uid) :
    DropsFit now entries 1 :=
  ⟨Nat.succ_le_succ hready.length, hready.noneExpired⟩

theorem DropsReady.sublist (hready : DropsReady now old uid)
    (hsub : entries.Sublist old) : DropsReady now entries uid where
  length := hsub.length_le.trans hready.length
  noneExpired entry hentry := hready.noneExpired entry (hsub.subset hentry)
  nodup := List.Nodup.sublist (hsub.map DropEntry.uid) hready.nodup
  issued entry hentry := hready.issued entry (hsub.subset hentry)

theorem marks_twin
    (hmarks : entries.map (fun entry => (entry.uid, entry.time)) =
      old.map fun entry => (entry.uid, entry.time)) :
    ∀ entry ∈ entries, ∃ twin ∈ old,
      twin.uid = entry.uid ∧ twin.time = entry.time := by
  intro entry hentry
  have hmem : (entry.uid, entry.time) ∈
      old.map fun entry => (entry.uid, entry.time) :=
    hmarks ▸ List.mem_map.mpr ⟨entry, hentry, rfl⟩
  obtain ⟨twin, htwin, heq⟩ := List.mem_map.mp hmem
  exact ⟨twin, htwin, (Prod.ext_iff.mp heq).1, (Prod.ext_iff.mp heq).2⟩

/-- Whether drops fit only depends on the uids and the times of the entries. -/
theorem DropsFit.of_marks (hfit : DropsFit now old more)
    (hmarks : entries.map (fun entry => (entry.uid, entry.time)) =
      old.map fun entry => (entry.uid, entry.time)) :
    DropsFit now entries more := by
  refine ⟨?_, ?_⟩
  · have hlength := congrArg List.length hmarks
    simp only [List.length_map] at hlength
    exact hlength ▸ hfit.length
  · intro entry hentry
    obtain ⟨twin, htwin, -, htime⟩ := marks_twin hmarks entry hentry
    have hkept := hfit.noneExpired twin htwin
    simpa only [DropEntry.expired, htime] using hkept

theorem DropsReady.of_marks (hready : DropsReady now old uid)
    (hmarks : entries.map (fun entry => (entry.uid, entry.time)) =
      old.map fun entry => (entry.uid, entry.time)) :
    DropsReady now entries uid := by
  have huids : entries.map DropEntry.uid = old.map DropEntry.uid := by
    simpa [List.map_map, Function.comp_def] using
      congrArg (List.map Prod.fst) hmarks
  have hfit := hready.fit.of_marks hmarks
  refine ⟨Nat.le_of_succ_le_succ hfit.length, hfit.noneExpired,
    huids ▸ hready.nodup, ?_⟩
  intro entry hentry
  obtain ⟨twin, htwin, huid, -⟩ := marks_twin hmarks entry hentry
  exact huid ▸ hready.issued twin htwin

/-- A fresh entry fits in and is not cleaned up. -/
theorem DropsFit.push (hfit : DropsFit now entries (more + 1)) (drop : WorldDrop)
    (uid : Int) :
    DropsFit now (entries ++ [⟨drop.id, drop.count, uid, drop.x, drop.y,
      some now⟩]) more := by
  refine ⟨?_, ?_⟩
  · have hlength := hfit.length
    simp only [List.length_append, List.length_singleton]
    omega
  · intro entry hentry
    rcases List.mem_append.mp hentry with hold | hnew
    · exact hfit.noneExpired entry hold
    · rw [List.mem_singleton.mp hnew]
      simp [DropEntry.expired]

theorem DropsFit.cleared (hfit : DropsFit now entries more) :
    autoClearOldWorldDrops now entries = entries :=
  autoClearOldWorldDrops_eq_self hfit.noneExpired
    (le_trans (Nat.le_add_right _ _) hfit.length)

theorem DropsFit.weaken (hfit : DropsFit now entries (more + 1)) :
    DropsFit now entries more :=
  ⟨le_trans (Nat.add_le_add_left (Nat.le_succ more) _) hfit.length,
    hfit.noneExpired⟩

/-- Laying down a rest adds it under its id. -/
theorem dropTotal_pushDrop (hfit : DropsFit now entries (more + 1))
    (drop : WorldDrop) (uid id : Int) :
    dropTotal id (pushDrop now drop entries uid).1 =
      dropTotal id entries + (if drop.id = id then drop.count else 0) ∧
    DropsFit now (pushDrop now drop entries uid).1 more := by
  unfold pushDrop
  split
  · next hzero =>
      refine ⟨by simp [hzero], hfit.weaken⟩
  · have hpushed := hfit.push drop (uid + 1)
    dsimp only
    rw [hpushed.cleared]
    exact ⟨by simp, hpushed⟩

theorem DropsReady.nodup_append (hready : DropsReady now entries uid)
    {new : DropEntry} (hnew : new.uid = uid + 1) :
    ((entries ++ [new]).map DropEntry.uid).Nodup := by
  rw [List.map_append, List.nodup_append]
  refine ⟨hready.nodup, by simp, ?_⟩
  intro left hleft right hright heq
  obtain ⟨entry, hentry, rfl⟩ := List.mem_map.mp hleft
  have hle := hready.issued entry hentry
  simp only [List.map_cons, List.map_nil, List.mem_singleton] at hright
  omega

/-- The next uid is new, and the clean-up only removes entries. -/
theorem pushDrop_nodup (hready : DropsReady now entries uid)
    (drop : WorldDrop) :
    ((pushDrop now drop entries uid).1.map DropEntry.uid).Nodup := by
  unfold pushDrop
  split
  · exact hready.nodup
  · dsimp only
    generalize hentries : entries ++ [(⟨drop.id, drop.count, uid + 1, drop.x,
      drop.y, some now⟩ : DropEntry)] = longer
    have hsub := autoClearOldWorldDrops_sublist now longer
    generalize autoClearOldWorldDrops now longer = cleared at hsub ⊢
    refine List.Nodup.sublist (hsub.map DropEntry.uid) ?_
    rw [← hentries]
    exact hready.nodup_append rfl

variable (items : Items) (drop : WorldDrop)

/-- The loss in a stack when the item is merged at all. -/
def layLoss (entries : List DropEntry) : Int :=
  if drop.id ≠ 112 ∧ items.isFish drop.id = false then stackLoss drop entries else 0

/-- The stack that an item is added to holds the sum. -/
def SumFits (entries : List DropEntry) : Prop :=
  items.isFish drop.id = false →
    ∀ entry ∈ firstStack drop entries, entry.count + drop.count < 2 ^ 31

theorem layLoss_eq_zero_iff (hid : drop.id ≠ 112) (entries : List DropEntry) :
    layLoss items drop entries = 0 ↔ SumFits items drop entries := by
  unfold layLoss SumFits stackLoss
  cases firstStack drop entries with
  | none => simp
  | some entry =>
      by_cases hfish : items.isFish drop.id = false
      · simp [hid, hfish]
      · simp [hfish]

/-- A count that leaves the room of a stack below the upper end loses nothing. -/
theorem layLoss_of_small (hcount : drop.count ≤ 2 ^ 31 - 200) (entries : List DropEntry) :
    layLoss items drop entries = 0 := by
  by_cases hid : drop.id = 112
  · simp [layLoss, hid]
  · rw [layLoss_eq_zero_iff items drop hid]
    intro _ entry hentry
    have hroom := List.find?_some hentry
    rw [decide_eq_true_eq] at hroom
    omega

/-- Merging and laying down together add the drop, less the loss. -/
theorem dropTotal_layDrop (hfit : DropsFit now entries (more + 1))
    (hcount : drop.count < 2 ^ 31) (uid id : Int) :
    dropTotal id (layDrop items now drop entries uid).1 =
      dropTotal id entries +
        (if drop.id = id then drop.count - layLoss items drop entries else 0) ∧
    DropsFit now (layDrop items now drop entries uid).1 more := by
  unfold layDrop layLoss
  split
  · have hmerged := dropTotal_mergeDrop drop hcount id entries
    obtain ⟨htotal, hafter⟩ := dropTotal_pushDrop
      (hfit.of_marks (mergeDrop_marks drop entries))
      { drop with count := (mergeDrop drop entries).2 } uid id
    exact ⟨htotal.trans hmerged, hafter⟩
  · rw [sub_zero]
    exact dropTotal_pushDrop hfit drop uid id

theorem layDrop_nodup (hready : DropsReady now entries uid) :
    ((layDrop items now drop entries uid).1.map DropEntry.uid).Nodup := by
  unfold layDrop
  split
  · exact pushDrop_nodup (hready.of_marks (mergeDrop_marks drop entries)) _
  · exact pushDrop_nodup hready drop

end Laying

/-- What conserving a drop means: the dropped item grows by the dropped count
(gems by their worth), nothing else changes, and no uid occurs twice. -/
def DropConserved (drop : WorldDrop) (before after : World) : Prop :=
  (if normalizeDropId drop.id = 112 then
    gemTotal after.dropNew = gemTotal before.dropNew + drop.count ∧
      ∀ other, other ≠ 112 → other ≠ 4490 →
        dropTotal other after.dropNew = dropTotal other before.dropNew
  else
    dropTotal (normalizeDropId drop.id) after.dropNew =
        dropTotal (normalizeDropId drop.id) before.dropNew + drop.count ∧
      ∀ other, other ≠ normalizeDropId drop.id →
        dropTotal other after.dropNew = dropTotal other before.dropNew) ∧
    (after.dropNew.map DropEntry.uid).Nodup

/-- What the laid-down coin is worth in gems. -/
def coinValue (coin : WorldDrop) : Int :=
  if coin.id = 4490 then 1000 * coin.count else coin.count

/-- A coin of gems: its worth, that of the next coin (none for the last), and the
stacks that are taken for it. -/
structure Coin where
  worth : Int
  next : Int
  replaces : Int
deriving Repr, DecidableEq

/-- The coins in the order in which they are tested. -/
def coins : List Coin :=
  [⟨5, 10, 1⟩, ⟨10, 50, 5⟩, ⟨50, 100, 10⟩, ⟨100, 1000, 50⟩, ⟨1000, 0, 100⟩]

/-- How many coins of a kind an amount is split into. -/
def Coin.digit (coin : Coin) (c : Int) : Int :=
  if c ≤ 0 then 0 else c % coin.next / coin.worth

/-- A coin is reached when its number grows, the three small ones also when it
falls to none. -/
def Coin.Reached (coin : Coin) (before after : Int) : Prop :=
  coin.digit before < coin.digit after ∨
    coin.worth ≤ 50 ∧ coin.digit after = 0 ∧ coin.digit before ≠ 0

instance (coin : Coin) (before after : Int) : Decidable (coin.Reached before after) :=
  inferInstanceAs (Decidable (_ ∨ _))

/-- The coins that are reached between two amounts. -/
def reached (before after : Int) : List Coin :=
  coins.filter fun coin => coin.Reached before after

/-- The last coin reached is laid down in place of the dropped gems. -/
def Coin.lay (coin : Coin) (drop : WorldDrop) : WorldDrop :=
  if coin.worth = 1000 then { drop with id := 4490, count := 1 }
  else { drop with count := coin.worth }

/-- The change given for gems is exact: if a coin is reached, the last one is worth
the dropped gems and the stacks that are taken for the coins. -/
def ExactChange (drop : WorldDrop) (entries : List DropEntry) : Prop :=
  let before := int32 (gemStacks drop entries).sum
  let coins := reached before (int32 (before + drop.count))
  ∀ coin ∈ coins.getLast?,
    coin.worth = drop.count + taken (coins.map Coin.replaces) (gemStacks drop entries)

instance (drop : WorldDrop) (entries : List DropEntry) : Decidable (ExactChange drop entries) :=
  inferInstanceAs (Decidable (∀ coin ∈ List.getLast? _, _ = _))

theorem normalizeDropId_eq_gem {id : Int} (h : normalizeDropId id = 112) :
    id = 112 := by
  unfold normalizeDropId at h
  split at h
  · omega
  · split at h
    · omega
    · exact h

theorem nearGems_eq (drop : WorldDrop) (entries : List DropEntry) :
    nearGems drop entries = int32 (gemStacks drop entries).sum := by
  have hsum : ((entries.filter fun entry => entry.gemNear drop).map DropEntry.count).sum =
      (gemStacks drop entries).sum := by
    induction entries with
    | nil => rfl
    | cons entry rest ih =>
        by_cases hnear : entry.gemNear drop
        · simpa [gemStacks, hnear] using ih
        · simpa [gemStacks, hnear] using ih
  rw [nearGems, hsum]

theorem gemParts_eq (c : Int) :
    gemParts c = ⟨Coin.digit ⟨1000, 0, 100⟩ c, Coin.digit ⟨100, 1000, 50⟩ c,
      Coin.digit ⟨50, 100, 10⟩ c, Coin.digit ⟨10, 50, 5⟩ c, Coin.digit ⟨5, 10, 1⟩ c⟩ := by
  simp only [gemParts, Coin.digit, GemParts.mk.injEq, Int.emod_zero]
  refine ⟨?_, ?_, ?_, ?_, ?_⟩ <;> split_ifs <;> omega

/-- The tests of the gem branch list what the coins reached take, and lay down the
last one. -/
theorem updateGem_eq (before after : Int) (drop : WorldDrop) :
    updateGem (gemParts before) (gemParts after) drop =
      ((reached before after).map Coin.replaces,
        (reached before after).getLast?.elim drop fun coin => coin.lay drop) := by
  have hsmall (worth next replaces : Int) (hworth : worth ≤ 50) :
      (Coin.digit ⟨worth, next, replaces⟩ before < Coin.digit ⟨worth, next, replaces⟩ after ∨
        Coin.digit ⟨worth, next, replaces⟩ after = 0 ∧
          Coin.digit ⟨worth, next, replaces⟩ before ≠ 0) ↔
        Coin.Reached ⟨worth, next, replaces⟩ before after := by
    simp [Coin.Reached, hworth]
  have hlarge (worth next replaces : Int) (hworth : 50 < worth) :
      Coin.digit ⟨worth, next, replaces⟩ before < Coin.digit ⟨worth, next, replaces⟩ after ↔
        Coin.Reached ⟨worth, next, replaces⟩ before after := by
    simp [Coin.Reached, not_le.mpr hworth]
  rw [gemParts_eq, gemParts_eq]
  simp only [updateGem, hsmall 5 10 1 (by decide), hsmall 10 50 5 (by decide),
    hsmall 50 100 10 (by decide), hlarge 100 1000 50 (by decide),
    hlarge 1000 0 100 (by decide), reached, coins, List.filter_cons, List.filter_nil,
    decide_eq_true_eq]
  split_ifs <;> rfl

theorem zero_not_mem_replaces (before after : Int) :
    0 ∉ (reached before after).map Coin.replaces := by
  intro hmem
  obtain ⟨coin, hcoin, hzero⟩ := List.mem_map.mp hmem
  have hall : ∀ coin ∈ coins, coin.replaces ≠ 0 := by decide
  exact hall coin (List.mem_of_mem_filter hcoin) hzero

section Conservation

variable (items : Items) {now : Int} {world : World} {drop : WorldDrop}

/-- A drop of an item that is not gems lays down the drop under its name. -/
theorem visualDrop_item (hid : normalizeDropId drop.id ≠ 112) :
    (visualDrop items now world drop).dropNew =
      (layDrop items now { drop with id := normalizeDropId drop.id }
        world.dropNew world.totalDropUid).1 := by
  simp [visualDrop, hid]

/-- A drop of an item that is not gems adds exactly the drop, unless its count is
next to the upper end of `int`. -/
theorem dropTotal_visualDrop {more : Nat}
    (hfit : DropsFit now world.dropNew (more + 1))
    (hcount : drop.count ≤ 2 ^ 31 - 200)
    (hid : normalizeDropId drop.id ≠ 112) (id : Int) :
    dropTotal id (visualDrop items now world drop).dropNew =
      dropTotal id world.dropNew +
        (if normalizeDropId drop.id = id then drop.count else 0) ∧
    DropsFit now (visualDrop items now world drop).dropNew more := by
  have hlaid := dropTotal_layDrop items { drop with id := normalizeDropId drop.id } hfit
    (by dsimp only; omega) world.totalDropUid id
  rw [layLoss_of_small items { drop with id := normalizeDropId drop.id } hcount,
    sub_zero] at hlaid
  rw [visualDrop_item items hid]
  exact hlaid

/-- An item that is not gems is conserved exactly when the stack it is added to
holds the sum. -/
theorem item_conserved_iff
    (hready : DropsReady now world.dropNew world.totalDropUid)
    (hcount : drop.count < 2 ^ 31) (hid : normalizeDropId drop.id ≠ 112) :
    DropConserved drop world (visualDrop items now world drop) ↔
      SumFits items { drop with id := normalizeDropId drop.id } world.dropNew := by
  have htotal := fun id => (dropTotal_layDrop items
    { drop with id := normalizeDropId drop.id } hready.fit hcount world.totalDropUid id).1
  rw [← layLoss_eq_zero_iff items _ hid]
  generalize layLoss items _ world.dropNew = loss at htotal ⊢
  unfold DropConserved
  rw [if_neg hid, visualDrop_item items hid]
  constructor
  · rintro ⟨⟨hgrown, -⟩, -⟩
    have hlaid := htotal (normalizeDropId drop.id)
    dsimp only at hlaid
    rw [if_pos rfl] at hlaid
    omega
  · rintro rfl
    refine ⟨⟨?_, ?_⟩, layDrop_nodup items _ hready⟩
    · have hlaid := htotal (normalizeDropId drop.id)
      rwa [if_pos rfl, sub_zero] at hlaid
    · intro other hother
      have hlaid := htotal other
      rwa [if_neg (Ne.symm hother), add_zero] at hlaid

/-- A drop of gems lays its coin on the entries that survive the erasing
passes. -/
theorem visualDrop_gems {gems : List Int} {coin : WorldDrop}
    (hid : drop.id = 112) (hgems : dropGems world.dropNew drop =
      (erasePasses drop gems world.dropNew, coin)) :
    (visualDrop items now world drop).dropNew =
      (layDrop items now coin (erasePasses drop gems world.dropNew)
        world.totalDropUid).1 := by
  obtain ⟨id, count, x, y⟩ := drop
  obtain rfl : id = 112 := hid
  have hnorm : normalizeDropId 112 = 112 := by decide
  simp only [visualDrop, hnorm, ↓reduceIte, hgems]

/-- What is laid down for gems: one item 4490, or gems. -/
def GemCoin (coin : WorldDrop) : Prop :=
  coin.id = 4490 ∧ coin.count = 1 ∨ coin.id = 112 ∧ coin.count < 2 ^ 31

/-- Nothing of a coin is lost in a stack. -/
theorem dropTotal_layCoin {entries : List DropEntry} {coin : WorldDrop}
    (hfit : DropsFit now entries 1) (hcoin : GemCoin coin) (uid id : Int) :
    dropTotal id (layDrop items now coin entries uid).1 =
      dropTotal id entries + (if coin.id = id then coin.count else 0) := by
  rcases hcoin with ⟨-, hone⟩ | ⟨hgem, hcount⟩
  · have hlaid := (dropTotal_layDrop items coin hfit (by omega) uid id).1
    rwa [layLoss_of_small items coin (by omega), sub_zero] at hlaid
  · have hlaid := (dropTotal_layDrop items coin hfit hcount uid id).1
    have hloss : layLoss items coin entries = 0 := if_neg fun hother => hother.1 hgem
    rwa [hloss, sub_zero] at hlaid

/-- The worth of all gems after a drop of gems: what survives, and the coin. -/
theorem gemTotal_visualDrop {gems : List Int} {coin : WorldDrop}
    (hready : DropsReady now world.dropNew world.totalDropUid)
    (hid : drop.id = 112) (hzero : 0 ∉ gems) (hgems : dropGems world.dropNew drop =
      (erasePasses drop gems world.dropNew, coin))
    (hcoin : GemCoin coin) :
    gemTotal (visualDrop items now world drop).dropNew =
      gemTotal world.dropNew - taken gems (gemStacks drop world.dropNew) +
        coinValue coin := by
  have hsurvive := hready.sublist (erasePasses_sublist drop gems world.dropNew)
  have hlaid := dropTotal_layCoin items hsurvive.fit hcoin world.totalDropUid
  rw [← visualDrop_gems items hid hgems] at hlaid
  have hgem := hlaid 112
  have hbig := hlaid 4490
  rw [dropTotal_erasePasses drop hzero] at hgem
  rw [dropTotal_erasePasses_of_ne drop (by decide)] at hbig
  unfold gemTotal coinValue
  rcases hcoin with ⟨hcoin, -⟩ | ⟨hcoin, -⟩
  · simp only [hcoin, Int.reduceEq, ↓reduceIte] at hgem hbig ⊢
    omega
  · simp only [hcoin, Int.reduceEq, ↓reduceIte] at hgem hbig ⊢
    omega

/-- A drop of gems never touches another item or repeats a uid. -/
theorem visualDrop_gems_frame {gems : List Int} {coin : WorldDrop}
    (hready : DropsReady now world.dropNew world.totalDropUid)
    (hid : drop.id = 112) (hgems : dropGems world.dropNew drop =
      (erasePasses drop gems world.dropNew, coin))
    (hcoin : GemCoin coin) :
    (∀ other, other ≠ 112 → other ≠ 4490 →
      dropTotal other (visualDrop items now world drop).dropNew =
        dropTotal other world.dropNew) ∧
      ((visualDrop items now world drop).dropNew.map DropEntry.uid).Nodup := by
  have hsurvive := hready.sublist (erasePasses_sublist drop gems world.dropNew)
  rw [visualDrop_gems items hid hgems]
  refine ⟨?_, layDrop_nodup items coin hsurvive⟩
  intro other hgem hbig
  have hne : coin.id ≠ other := by
    rcases hcoin with ⟨hcoin, -⟩ | ⟨hcoin, -⟩
    · exact hcoin ▸ Ne.symm hbig
    · exact hcoin ▸ Ne.symm hgem
  rw [dropTotal_layCoin items hsurvive.fit hcoin, dropTotal_erasePasses_of_ne drop hgem,
    if_neg hne, add_zero]

/-- A drop of gems is conserved exactly when its coin is worth what it stands
for. -/
theorem gems_conserved_iff {gems : List Int} {coin : WorldDrop}
    (hready : DropsReady now world.dropNew world.totalDropUid)
    (hid : drop.id = 112) (hzero : 0 ∉ gems) (hgems : dropGems world.dropNew drop =
      (erasePasses drop gems world.dropNew, coin))
    (hcoin : GemCoin coin) :
    DropConserved drop world (visualDrop items now world drop) ↔
      coinValue coin = drop.count + taken gems (gemStacks drop world.dropNew) := by
  have hnorm : normalizeDropId drop.id = 112 := by
    rw [hid]
    decide
  have htotal := gemTotal_visualDrop items hready hid hzero hgems hcoin
  obtain ⟨hframe, hnodup⟩ :=
    visualDrop_gems_frame items hready hid hgems hcoin
  unfold DropConserved
  rw [if_pos hnorm]
  constructor
  · rintro ⟨⟨hgrown, -⟩, -⟩
    omega
  · intro hexact
    exact ⟨⟨by omega, hframe⟩, hnodup⟩

/-- Gems that find none beside them, or reach no coin, are laid down as they are. -/
theorem gems_conserved_of_plain
    (hready : DropsReady now world.dropNew world.totalDropUid)
    (hcount : drop.count < 2 ^ 31) (hid : drop.id = 112)
    (hgems : dropGems world.dropNew drop = (world.dropNew, drop)) :
    DropConserved drop world (visualDrop items now world drop) := by
  refine (@gems_conserved_iff items now world drop [] drop hready hid List.not_mem_nil hgems
    (Or.inr ⟨hid, hcount⟩)).mpr ?_
  simp [coinValue, hid, taken, thinnedAll]

/-- A coin that is listed is laid down at its worth. -/
theorem lay_coin {coin : Coin} (hcoin : coin ∈ coins) (hid : drop.id = 112) :
    GemCoin (coin.lay drop) ∧ coinValue (coin.lay drop) = coin.worth := by
  have hworth : ∀ coin ∈ coins, coin.worth < 2 ^ 31 := by decide
  have hsmall := hworth coin hcoin
  unfold Coin.lay
  split
  · next hlast => exact ⟨Or.inl ⟨rfl, rfl⟩, by simp [coinValue, hlast]⟩
  · exact ⟨Or.inr ⟨hid, hsmall⟩, by simp [coinValue, hid]⟩

/-- Gems dropped beside others are conserved exactly when their change is exact. -/
theorem beside_conserved_iff
    (hready : DropsReady now world.dropNew world.totalDropUid)
    (hcount : drop.count < 2 ^ 31) (hid : drop.id = 112)
    (hsome : nearGems drop world.dropNew ≠ 0) :
    DropConserved drop world (visualDrop items now world drop) ↔
      ExactChange drop world.dropNew := by
  have hgems : dropGems world.dropNew drop =
      (erasePasses drop ((reached (nearGems drop world.dropNew)
        (int32 (nearGems drop world.dropNew + drop.count))).map Coin.replaces) world.dropNew,
      (reached (nearGems drop world.dropNew)
        (int32 (nearGems drop world.dropNew + drop.count))).getLast?.elim drop
          fun coin => coin.lay drop) := by
    simp only [dropGems, if_neg hsome, updateGem_eq, erasePasses]
  simp only [ExactChange, ← nearGems_eq]
  have hzero := zero_not_mem_replaces (nearGems drop world.dropNew)
    (int32 (nearGems drop world.dropNew + drop.count))
  have hcoins : ∀ coin ∈ reached (nearGems drop world.dropNew)
      (int32 (nearGems drop world.dropNew + drop.count)), coin ∈ coins :=
    fun coin hcoin => List.mem_of_mem_filter hcoin
  generalize reached (nearGems drop world.dropNew) _ = found at *
  cases hlast : found.getLast? with
  | none =>
      have hnone := List.getLast?_eq_none_iff.mp hlast
      rw [hnone] at hgems
      exact iff_of_true (gems_conserved_of_plain items hready hcount hid hgems)
        (by simp)
  | some coin =>
      obtain ⟨hcoin, hworth⟩ := @lay_coin drop coin
        (hcoins coin (List.mem_of_getLast? hlast)) hid
      rw [hlast] at hgems
      rw [gems_conserved_iff items hready hid hzero hgems hcoin]
      simp [hworth]

/-- A drop is conserved exactly when the stack it is added to holds the sum, and
for gems when there are none nearby or their change is exact. -/
theorem visualDrop_conserved_iff
    (hready : DropsReady now world.dropNew world.totalDropUid)
    (hcount : drop.count < 2 ^ 31) :
    DropConserved drop world (visualDrop items now world drop) ↔
      if normalizeDropId drop.id = 112 then
        nearGems drop world.dropNew = 0 ∨ ExactChange drop world.dropNew
      else SumFits items { drop with id := normalizeDropId drop.id } world.dropNew := by
  split
  · next hnorm =>
      have hid := normalizeDropId_eq_gem hnorm
      by_cases hnone : nearGems drop world.dropNew = 0
      · have hgems : dropGems world.dropNew drop = (world.dropNew, drop) := by
          simp [dropGems, hnone]
        exact iff_of_true (gems_conserved_of_plain items hready hcount hid hgems)
          (Or.inl hnone)
      · rw [beside_conserved_iff items hready hcount hid hnone]
        exact (or_iff_right hnone).symm
  · next hnorm => exact item_conserved_iff items hready hcount hnorm

end Conservation

/-- A world with single gems at one spot, one entry for each listed uid. -/
def singleGems (uids : List Int) : World :=
  { dropNew := uids.map fun uid => ⟨112, 1, uid, 0, 0, none⟩
    totalDropUid := uids.length }

theorem singleGems_ready {uids : List Int} (now : Int)
    (hlength : uids.length ≤ 499) (hnodup : uids.Nodup)
    (hissued : ∀ uid ∈ uids, uid ≤ uids.length) :
    DropsReady now (singleGems uids).dropNew
      (singleGems uids).totalDropUid where
  length := by simpa [singleGems] using hlength
  noneExpired entry hentry := by
    obtain ⟨uid, -, rfl⟩ := List.mem_map.mp hentry
    rfl
  nodup := by simpa [singleGems, Function.comp_def] using hnodup
  issued entry hentry := by
    obtain ⟨uid, huid, rfl⟩ := List.mem_map.mp hentry
    exact hissued uid huid

/-- One gem dropped on four single gems leaves seven: the coin of five is laid
down, and of the four neighbouring entries the pass erases only two. -/
theorem visualDrop_four_gems_not_conserved :
    ¬ ∀ (items : Items) (now : Int) (world : World) (drop : WorldDrop),
      DropsReady now world.dropNew world.totalDropUid → 0 < drop.count →
        DropConserved drop world (visualDrop items now world drop) := by
  intro hall
  have hconserved := hall ⟨0, fun _ => {}⟩ 0 (singleGems [1, 2, 3, 4])
    ⟨112, 1, 0, 0⟩ (singleGems_ready 0 (by decide) (by decide) (by decide))
    (by decide)
  exact absurd hconserved.1.1 (by decide)

/-- Four gems dropped on one become the coin of five, and the one goes. -/
theorem visualDrop_conserved_five_gems :
    DropsReady 0 (singleGems [1]).dropNew (singleGems [1]).totalDropUid ∧
      DropConserved ⟨112, 4, 0, 0⟩ (singleGems [1])
        (visualDrop ⟨0, fun _ => {}⟩ 0 (singleGems [1]) ⟨112, 4, 0, 0⟩) :=
  have hready := @singleGems_ready [1] 0 (by decide) (by decide) (by decide)
  ⟨hready, (visualDrop_conserved_iff ⟨0, fun _ => {}⟩ hready (by decide)).mpr
    (Or.inr (by decide))⟩

end NopyServer
