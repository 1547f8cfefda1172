/-
Erasing entries of a list while an index walks over it.  An erase moves the next entry
to the erased place, and the index then steps past it: so of two neighbours that are
to go the second one stays.

Beside it the other way of erasing, one search from the start for each entry.
-/
import Mathlib.Data.List.Chain
import Mathlib.Logic.Function.Iterate

namespace EraseLoop

universe u

variable {α : Type u} {m : α → Bool} {l : List α}

/-- What a walk leaves; `past` says that the entry at hand is stepped over. -/
def sweep (m : α → Bool) : (past : Bool) → List α → List α
  | _, [] => []
  | true, x :: rest => x :: sweep m false rest
  | false, x :: rest => if m x = true then sweep m true rest else x :: sweep m false rest

/-- How many entries a walk erases. -/
def hits (m : α → Bool) : (past : Bool) → List α → Nat
  | _, [] => 0
  | true, _ :: rest => hits m false rest
  | false, x :: rest => if m x = true then hits m true rest + 1 else hits m false rest

/-- No two neighbours are both to go. -/
def Apart (m : α → Bool) (l : List α) : Prop :=
  l.IsChain fun x y => ¬ (m x = true ∧ m y = true)

instance (m : α → Bool) (l : List α) : Decidable (Apart m l) :=
  inferInstanceAs (Decidable (l.IsChain _))

theorem not_mem_filter {x : α} (hx : m x = true) : x ∉ l.filter fun y => !m y := by
  intro hmem
  have hkept := (List.mem_filter.mp hmem).2
  simp [hx] at hkept

theorem apart_cons_of_stays {x : α} (hx : m x = false) : Apart m (x :: l) ↔ Apart m l := by
  unfold Apart
  rw [List.isChain_cons]
  simp [hx]

/-- After an entry that goes, the next one has to stay. -/
theorem apart_cons_of_goes {x : α} (hx : m x = true) :
    Apart m (x :: l) ↔ (∀ y ∈ l.head?, m y = false) ∧ Apart m l := by
  unfold Apart
  rw [List.isChain_cons]
  simp [hx]

theorem sweep_iff (l : List α) :
    (sweep m false l = l.filter (fun y => !m y) ↔ Apart m l) ∧
      (sweep m true l = l.filter (fun y => !m y) ↔
        (∀ y ∈ l.head?, m y = false) ∧ Apart m l) := by
  induction l with
  | nil => simp [sweep, Apart]
  | cons x rest ih =>
      cases hx : m x with
      | true =>
          have hgone := @not_mem_filter α m (x :: rest) x hx
          constructor
          · rw [sweep, if_pos hx, List.filter_cons_of_neg (by simp [hx]), ih.2,
              apart_cons_of_goes hx]
          · refine iff_of_false (fun heq => hgone ?_) fun h => ?_
            · rw [← heq, sweep]
              exact List.mem_cons_self
            · have hstays := h.1 x rfl
              rw [hx] at hstays
              cases hstays
      | false =>
          constructor
          · rw [sweep, if_neg (by simp [hx]), List.filter_cons_of_pos (by simp [hx]),
              List.cons_inj_right, ih.1, apart_cons_of_stays hx]
          · rw [sweep, List.filter_cons_of_pos (by simp [hx]), List.cons_inj_right, ih.1,
              apart_cons_of_stays hx]
            simp [hx]

/-- A walk erases all there is to erase exactly when no two of them are neighbours. -/
theorem sweep_eq_filter_iff :
    sweep m false l = l.filter (fun y => !m y) ↔ Apart m l :=
  (sweep_iff l).1

/-- Such a walk counts all of them. -/
theorem hits_eq (l : List α) :
    (Apart m l → hits m false l = l.countP m) ∧
      ((∀ y ∈ l.head?, m y = false) ∧ Apart m l → hits m true l = l.countP m) := by
  induction l with
  | nil => exact ⟨fun _ => rfl, fun _ => rfl⟩
  | cons x rest ih =>
      cases hx : m x with
      | true =>
          constructor
          · intro hapart
            rw [hits, if_pos hx, ih.2 ((apart_cons_of_goes hx).mp hapart),
              List.countP_cons_of_pos hx]
          · intro h
            have hstays := h.1 x rfl
            rw [hx] at hstays
            cases hstays
      | false =>
          have hnot : ¬ m x = true := by simp [hx]
          constructor
          · intro hapart
            rw [hits, if_neg hnot, ih.1 ((apart_cons_of_stays hx).mp hapart),
              List.countP_cons_of_neg hnot]
          · intro h
            rw [hits, ih.1 ((apart_cons_of_stays hx).mp h.2), List.countP_cons_of_neg hnot]

theorem hits_of_apart (hapart : Apart m l) : hits m false l = l.countP m :=
  (hits_eq l).1 hapart

theorem countP_eraseP_add (l : List α) :
    (l.eraseP m).countP m + min 1 (l.countP m) = l.countP m := by
  induction l with
  | nil => rfl
  | cons x rest ih =>
      cases hx : m x with
      | true =>
          rw [List.eraseP_cons_of_pos hx, List.countP_cons_of_pos hx]
          omega
      | false =>
          have hnot : ¬ m x = true := by simp [hx]
          rw [List.eraseP_cons_of_neg hnot, List.countP_cons_of_neg hnot,
            List.countP_cons_of_neg hnot]
          exact ih

theorem filter_eraseP (l : List α) :
    (l.eraseP m).filter (fun y => !m y) = l.filter fun y => !m y := by
  induction l with
  | nil => rfl
  | cons x rest ih =>
      cases hx : m x with
      | true =>
          rw [List.eraseP_cons_of_pos hx, List.filter_cons_of_neg (by simp [hx])]
      | false =>
          rw [List.eraseP_cons_of_neg (by simp [hx]), List.filter_cons_of_pos (by simp [hx]),
            List.filter_cons_of_pos (by simp [hx]), ih]

/-- What searches erase one by one, and what they leave. -/
theorem iterate_eraseP (n : Nat) (l : List α) :
    ((List.eraseP m)^[n] l).countP m = l.countP m - n ∧
      ((List.eraseP m)^[n] l).filter (fun y => !m y) = l.filter fun y => !m y := by
  induction n generalizing l with
  | zero => exact ⟨rfl, rfl⟩
  | succ n ih =>
      obtain ⟨hcount, hkept⟩ := ih (l.eraseP m)
      have hone := @countP_eraseP_add α m l
      rw [Function.iterate_succ_apply]
      exact ⟨by omega, hkept.trans (filter_eraseP l)⟩

/-- Searches erase all there is to erase exactly when there are enough of them. -/
theorem iterate_eraseP_eq_filter_iff (n : Nat) (l : List α) :
    (List.eraseP m)^[n] l = l.filter (fun y => !m y) ↔ l.countP m ≤ n := by
  obtain ⟨hcount, hkept⟩ := @iterate_eraseP α m n l
  constructor
  · intro heq
    rw [heq] at hcount
    have hnone : (l.filter fun y => !m y).countP m = 0 := by
      rw [List.countP_eq_zero]
      intro x hx hmark
      exact not_mem_filter hmark hx
    omega
  · intro hle
    rw [← hkept, eq_comm, List.filter_eq_self]
    intro x hx
    have hnone : ((List.eraseP m)^[n] l).countP m = 0 := by omega
    have hmark := List.countP_eq_zero.mp hnone x hx
    simpa using hmark

/-- A search leaves what it does not look for. -/
theorem mem_iterate_eraseP {n : Nat} {x : α} (hmem : x ∈ l) (hx : m x = false) :
    x ∈ (List.eraseP m)^[n] l := by
  have hkept := (@iterate_eraseP α m n l).2
  have hin : x ∈ l.filter fun y => !m y := List.mem_filter.mpr ⟨hmem, by simp [hx]⟩
  rw [← hkept] at hin
  exact (List.mem_filter.mp hin).1

end EraseLoop
