/-
What the clean-up after a drop takes.  `AutoClearOldWorldDrops` runs only where the drop
leaves a new entry: a stack lying near that takes the whole drop lets the drops that are
too old lie where they are, and itself with them.
-/
import NopyServer.DropConservation

namespace NopyServer

open SlotPack

section Sweeping

variable (items : Items) (now : Int) (drop : WorldDrop)

/-- The drops that are not too old. -/
def unlapsed (entries : List DropEntry) : List DropEntry :=
  entries.filter fun entry => !entry.expired now

/-- The drops that make way for a new one: those that are too old, and of the others the
first ones, where there are more than 499. -/
def outdated (entries : List DropEntry) : List DropEntry :=
  (entries.filter fun entry => entry.expired now) ++
    (unlapsed now entries).take ((unlapsed now entries).length - 499)

/-- The drops that are not too old and those that are make up all. -/
theorem dropTotal_unlapsed (id : Int) (entries : List DropEntry) :
    dropTotal id (unlapsed now entries) +
        dropTotal id (entries.filter fun entry => entry.expired now) =
      dropTotal id entries := by
  induction entries with
  | nil => rfl
  | cons entry rest ih =>
      cases hexpired : entry.expired now <;>
        simp only [unlapsed, List.filter_cons, hexpired, Bool.not_false, Bool.not_true,
          Bool.false_eq_true, ↓reduceIte, dropTotal_cons] at ih ⊢ <;> omega

/-- A new entry brings its count, and takes the drops away that make way for it. -/
theorem dropTotal_pushDrop_outdated (entries : List DropEntry) (uid id : Int) :
    dropTotal id (pushDrop now drop entries uid).1 =
      dropTotal id entries + (if drop.id = id then drop.count else 0) -
        if drop.count = 0 then 0 else dropTotal id (outdated now entries) := by
  unfold pushDrop
  by_cases hzero : drop.count = 0
  · simp [hzero]
  · rw [if_neg hzero, if_neg hzero]
    generalize hnew : (⟨drop.id, drop.count, uid + 1, drop.x, drop.y, some now⟩ :
      DropEntry) = new
    have hfresh : new.expired now = false := by
      rw [← hnew]
      simp [DropEntry.expired]
    have hkept : unlapsed now (entries ++ [new]) = unlapsed now entries ++ [new] := by
      simp [unlapsed, hfresh]
    have hclear : autoClearOldWorldDrops now (entries ++ [new]) =
        (unlapsed now entries).drop ((unlapsed now entries).length - 499) ++ [new] := by
      change (unlapsed now (entries ++ [new])).drop
        ((unlapsed now (entries ++ [new])).length - 500) = _
      have hmany : (unlapsed now entries).length + 1 - 500 =
          (unlapsed now entries).length - 499 := by omega
      rw [hkept, List.length_append, List.length_singleton, hmany,
        List.drop_append_of_le_length (Nat.sub_le _ _)]
    have hsplit := dropTotal_append id
      ((unlapsed now entries).take ((unlapsed now entries).length - 499))
      ((unlapsed now entries).drop ((unlapsed now entries).length - 499))
    rw [List.take_append_drop] at hsplit
    have hall := dropTotal_unlapsed now id entries
    dsimp only
    rw [hclear, outdated, dropTotal_append, dropTotal_append, ← hnew]
    simp only [dropTotal_cons, dropTotal_nil, add_zero]
    omega

/-- What the clean-up after a drop takes of an item, out of what the near stack leaves:
nothing where no new entry is laid down. -/
def swept (entries : List DropEntry) (id : Int) : Int :=
  let merged :=
    if items.isFish drop.id = false then mergeDrop drop entries else (entries, drop.count)
  if merged.2 = 0 then 0 else dropTotal id (outdated now merged.1)

/-- Merging and laying down add the drop, less what the clean-up takes. -/
theorem dropTotal_layDrop_swept (hgem : drop.id ≠ 112) (hcount : drop.count ≤ 2 ^ 31 - 200)
    (entries : List DropEntry) (uid id : Int) :
    dropTotal id (layDrop items now drop entries uid).1 =
      dropTotal id entries + (if drop.id = id then drop.count else 0) -
        swept items now drop entries id := by
  unfold layDrop swept
  by_cases hfish : items.isFish drop.id = false
  · rw [if_pos ⟨hgem, hfish⟩, if_pos hfish]
    have hloss := layLoss_of_small items drop hcount entries
    rw [layLoss, if_pos ⟨hgem, hfish⟩] at hloss
    have hmerged := dropTotal_mergeDrop drop (by omega) id entries
    rw [hloss, sub_zero] at hmerged
    have hpushed := dropTotal_pushDrop_outdated now
      { drop with count := (mergeDrop drop entries).2 } (mergeDrop drop entries).1 uid id
    dsimp only at hpushed ⊢
    rw [hpushed]
    omega
  · rw [if_neg (fun hboth => hfish hboth.2), if_neg hfish]
    exact dropTotal_pushDrop_outdated now drop entries uid id

/-- A drop of an item that is not gems adds the drop, less what the clean-up takes. -/
theorem dropTotal_visualDrop_swept {world : World} (hgem : normalizeDropId drop.id ≠ 112)
    (hcount : drop.count ≤ 2 ^ 31 - 200) (id : Int) :
    dropTotal id (visualDrop items now world drop).dropNew =
      dropTotal id world.dropNew + (if normalizeDropId drop.id = id then drop.count else 0) -
        swept items now { drop with id := normalizeDropId drop.id } world.dropNew id := by
  rw [visualDrop_item items hgem]
  exact dropTotal_layDrop_swept items now { drop with id := normalizeDropId drop.id } hgem hcount
    world.dropNew world.totalDropUid id

end Sweeping

end NopyServer
