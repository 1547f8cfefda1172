/-
Writes that are on their way.  A table is written by several writers, each with a list
of writes of its own; what the table will hold once all of them have landed does not
depend on the order in which the writers take their turns, as long as no two of them
write one key.  Beside it, lists that are read as tables by a key of their entries.
-/
import Mathlib.Data.List.Nodup
import Mathlib.Logic.Function.Basic

namespace LateWrites

open Function

universe u v

variable {K : Type u} {V : Type v} [DecidableEq K]

/-- The table once the writes have landed, one after the other. -/
def landed (table : K → V) (writes : List (K × V)) : K → V :=
  writes.foldl (fun table write => update table write.1 write.2) table

/-- The keys that writes go to. -/
def keys (writes : List (K × V)) : List K := writes.map Prod.fst

section Landed

variable (table : K → V) (writes later : List (K × V)) (k : K) (v : V)

theorem landed_append :
    landed table (writes ++ later) = landed (landed table writes) later :=
  List.foldl_append

/-- A key nobody writes keeps its value. -/
theorem landed_of_not_mem {k : K} (hk : k ∉ keys writes) :
    landed table writes k = table k := by
  induction writes generalizing table with
  | nil => rfl
  | cons write rest ih =>
      obtain ⟨hne, hrest⟩ := not_or.mp (mt List.mem_cons.mpr hk)
      have htail := ih (update table write.1 write.2) hrest
      rw [update_of_ne hne] at htail
      exact htail

/-- A value at the end depends on the value under its key alone. -/
theorem landed_congr {other : K → V} {k : K} (hsame : table k = other k) :
    landed table writes k = landed other writes k := by
  induction writes generalizing table other with
  | nil => exact hsame
  | cons write rest ih =>
      refine @ih (update table write.1 write.2) (update other write.1 write.2) ?_
      by_cases hwrite : k = write.1
      · rw [hwrite, update_self, update_self]
      · rw [update_of_ne hwrite, update_of_ne hwrite, hsame]

/-- What is written now, under a key nobody else writes, is there at the end. -/
theorem landed_update {k : K} (hk : k ∉ keys writes) :
    landed (update table k v) writes = update (landed table writes) k v := by
  induction writes generalizing table with
  | nil => rfl
  | cons write rest ih =>
      obtain ⟨hne, hrest⟩ := not_or.mp (mt List.mem_cons.mpr hk)
      have htail := ih (update table write.1 write.2) hrest
      rw [update_comm (Ne.symm hne)] at htail
      exact htail

/-- A write that nobody else's writes to its key come before can land first. -/
theorem landed_first {k : K} (hk : k ∉ keys writes) :
    landed table (writes ++ (k, v) :: later) = landed (update table k v) (writes ++ later) := by
  rw [landed_append, landed_append, landed_update _ _ _ hk]
  rfl

/-- A write that nobody else's writes to its key come after can land last. -/
theorem landed_last {k : K} (hk : k ∉ keys later) :
    landed table (writes ++ (k, v) :: later) = update (landed table (writes ++ later)) k v := by
  rw [landed_append, landed_append, ← landed_update _ _ _ hk]
  rfl

/-- Writes to some of the keys can be brought forward past writes to other keys. -/
theorem landed_brought_forward (p : K → Bool)
    (hwrites : ∀ write ∈ writes, p write.1 = false) :
    landed (landed table (later.filter fun write => p write.1))
        (writes ++ later.filter fun write => !p write.1) =
      landed table (writes ++ later) := by
  induction later generalizing table writes with
  | nil => rfl
  | cons write rest ih =>
      cases hp : p write.1 with
      | true =>
          have hfree : write.1 ∉ keys writes := by
            intro hmem
            obtain ⟨other, hother, hsame⟩ := List.mem_map.mp hmem
            have hnot := hwrites other hother
            rw [hsame, hp] at hnot
            cases hnot
          have htail := ih (update table write.1 write.2) writes hwrites
          rw [landed_append _ writes rest, landed_update _ _ _ hfree] at htail
          rw [List.filter_cons, List.filter_cons, hp, landed_append _ writes (write :: rest)]
          exact htail
      | false =>
          have hmore : ∀ other ∈ writes ++ [write], p other.1 = false := by
            intro other hother
            rcases List.mem_append.mp hother with hmem | hmem
            · exact hwrites other hmem
            · obtain rfl := List.mem_singleton.mp hmem
              exact hp
          have htail := ih table (writes ++ [write]) hmore
          rw [List.append_assoc, List.append_assoc] at htail
          rw [List.filter_cons, List.filter_cons, hp]
          exact htail

end Landed

section Keyed

variable {A : Type v} (key : A → K)

/-- The first entry under a key. -/
def entryAt (entries : List A) (k : K) : Option A :=
  entries.find? fun entry => key entry == k

variable {key} {entries : List A} {entry next : A} {i : Nat} {k : K}

theorem entryAt_eq_none_iff : entryAt key entries k = none ↔ k ∉ entries.map key := by
  unfold entryAt
  rw [List.find?_eq_none, List.mem_map]
  exact ⟨fun hnone ⟨entry, hmem, hkey⟩ => hnone entry hmem (beq_iff_eq.mpr hkey),
    fun hnot entry hmem hkey => hnot ⟨entry, hmem, beq_iff_eq.mp hkey⟩⟩

theorem entryAt_key (hat : entryAt key entries k = some entry) : key entry = k := by
  unfold entryAt at hat
  have hsame := List.find?_some hat
  exact beq_iff_eq.mp hsame

theorem entryAt_mem (hat : entryAt key entries k = some entry) : entry ∈ entries :=
  List.mem_of_find?_eq_some hat

theorem entryAt_cons_self (hk : key entry = k) :
    entryAt key (entry :: entries) k = some entry := by
  unfold entryAt
  rw [List.find?_cons, beq_iff_eq.mpr hk]

theorem entryAt_cons_ne (hk : key entry ≠ k) :
    entryAt key (entry :: entries) k = entryAt key entries k := by
  unfold entryAt
  rw [List.find?_cons, beq_eq_false_iff_ne.mpr hk]

/-- Under distinct keys an entry is the one under its key. -/
theorem entryAt_get (hnodup : (entries.map key).Nodup) (hget : entries[i]? = some entry) :
    entryAt key entries (key entry) = some entry := by
  induction entries generalizing i with
  | nil => cases hget
  | cons head rest ih =>
      obtain ⟨hhead, hrest⟩ := List.nodup_cons.mp hnodup
      cases i with
      | zero =>
          obtain rfl : head = entry := Option.some.inj hget
          exact entryAt_cons_self rfl
      | succ i =>
          have hmem : key entry ∈ rest.map key :=
            List.mem_map_of_mem (List.mem_of_getElem? hget)
          have hne : key head ≠ key entry := fun hsame => hhead (hsame ▸ hmem)
          rw [entryAt_cons_ne hne]
          exact ih hrest hget

/-- A change behind the head changes the table behind the head's key. -/
theorem entryAt_cons_update {changed : List A} {value : Option A} {head : A}
    (hne : key head ≠ k) (hrest : entryAt key changed = update (entryAt key entries) k value) :
    entryAt key (head :: changed) = update (entryAt key (head :: entries)) k value := by
  funext other
  by_cases hhead : key head = other
  · have hother : other ≠ k := fun hsame => hne (hhead.trans hsame)
    rw [update_of_ne hother, entryAt_cons_self hhead, entryAt_cons_self hhead]
  · rw [entryAt_cons_ne hhead, hrest]
    by_cases hsame : other = k
    · rw [hsame, update_self, update_self]
    · rw [update_of_ne hsame, update_of_ne hsame, entryAt_cons_ne hhead]

/-- Replacing an entry under its own key replaces it in the table. -/
theorem entryAt_set (hnodup : (entries.map key).Nodup) (hget : entries[i]? = some entry)
    (hkey : key next = key entry) :
    entryAt key (entries.set i next) =
      update (entryAt key entries) (key entry) (some next) := by
  induction entries generalizing i with
  | nil => cases hget
  | cons head rest ih =>
      obtain ⟨hhead, hrest⟩ := List.nodup_cons.mp hnodup
      cases i with
      | zero =>
          obtain rfl : head = entry := Option.some.inj hget
          funext k
          by_cases hk : k = key head
          · rw [hk, update_self]
            exact entryAt_cons_self hkey
          · rw [update_of_ne hk, entryAt_cons_ne (Ne.symm hk)]
            exact entryAt_cons_ne (hkey.trans_ne (Ne.symm hk))
      | succ i =>
          have hmem : key entry ∈ rest.map key :=
            List.mem_map_of_mem (List.mem_of_getElem? hget)
          have hne : key head ≠ key entry := fun hsame => hhead (hsame ▸ hmem)
          exact entryAt_cons_update hne (ih hrest hget)

/-- An entry taken out is gone from the table. -/
theorem entryAt_eraseIdx (hnodup : (entries.map key).Nodup)
    (hget : entries[i]? = some entry) :
    entryAt key (entries.eraseIdx i) = update (entryAt key entries) (key entry) none := by
  induction entries generalizing i with
  | nil => cases hget
  | cons head rest ih =>
      obtain ⟨hhead, hrest⟩ := List.nodup_cons.mp hnodup
      cases i with
      | zero =>
          obtain rfl : head = entry := Option.some.inj hget
          funext k
          by_cases hk : k = key head
          · rw [hk, update_self]
            exact entryAt_eq_none_iff.mpr hhead
          · rw [update_of_ne hk, entryAt_cons_ne (Ne.symm hk)]
            rfl
      | succ i =>
          have hmem : key entry ∈ rest.map key :=
            List.mem_map_of_mem (List.mem_of_getElem? hget)
          have hne : key head ≠ key entry := fun hsame => hhead (hsame ▸ hmem)
          exact entryAt_cons_update hne (ih hrest hget)

/-- An entry under a new key joins the table. -/
theorem entryAt_append (hnew : key next ∉ entries.map key) :
    entryAt key (entries ++ [next]) =
      update (entryAt key entries) (key next) (some next) := by
  induction entries with
  | nil =>
      funext k
      by_cases hk : k = key next
      · rw [hk, update_self]
        exact entryAt_cons_self rfl
      · rw [update_of_ne hk]
        exact entryAt_cons_ne (Ne.symm hk)
  | cons head rest ih =>
      obtain ⟨hne, hrest⟩ := not_or.mp (mt List.mem_cons.mpr hnew)
      exact entryAt_cons_update (Ne.symm hne) (ih hrest)

/-- Entries of other keys can be taken out unnoticed. -/
theorem entryAt_filter (p : K → Bool) :
    entryAt key (entries.filter fun entry => p (key entry)) k =
      if p k = true then entryAt key entries k else none := by
  induction entries with
  | nil => exact (ite_self none).symm
  | cons head rest ih =>
      rw [List.filter_cons]
      by_cases hk : key head = k
      · rw [hk]
        split
        · rw [entryAt_cons_self hk, entryAt_cons_self hk]
        · rw [ih]
          split
          · contradiction
          · rfl
      · rw [entryAt_cons_ne hk, ← ih]
        split
        · exact entryAt_cons_ne hk
        · rfl

/-- Changing the entries under one key, and not the key. -/
theorem entryAt_mapAt {change : A → A} (k : K)
    (hkey : ∀ entry, key entry = k → key (change entry) = k) :
    entryAt key (entries.map fun entry => if key entry = k then change entry else entry) =
      update (entryAt key entries) k ((entryAt key entries k).map change) := by
  funext other
  induction entries with
  | nil =>
      by_cases hother : other = k
      · rw [hother, update_self]
        rfl
      · rw [update_of_ne hother]
        rfl
  | cons head rest ih =>
      rw [List.map_cons]
      by_cases hhead : key head = k
      · rw [if_pos hhead, entryAt_cons_self hhead]
        by_cases hother : other = k
        · rw [hother, update_self]
          exact entryAt_cons_self (hkey head hhead)
        · rw [update_of_ne hother] at ih ⊢
          rw [entryAt_cons_ne ((hkey head hhead).trans_ne (Ne.symm hother)),
            entryAt_cons_ne (hhead.trans_ne (Ne.symm hother)), ih]
      · rw [if_neg hhead, entryAt_cons_ne hhead]
        by_cases hsame : key head = other
        · have hother : other ≠ k := fun h => hhead (hsame.trans h)
          rw [update_of_ne hother, entryAt_cons_self hsame, entryAt_cons_self hsame]
        · rw [entryAt_cons_ne hsame, ih]
          by_cases hother : other = k
          · rw [hother, update_self, update_self]
          · rw [update_of_ne hother, update_of_ne hother, entryAt_cons_ne hsame]

end Keyed

end LateWrites
