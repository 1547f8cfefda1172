/-
How many of some times lie in an interval, or from a time on.  A list of times
that only grows is counted along its end; the times of an interval are those
before a cut and those from it on.
-/
import Mathlib.Data.List.Basic
import Mathlib.Order.Lattice

namespace TimeCounts

variable {α : Type*} [LinearOrder α] {times : List α} {lo hi cut t : α}

/-- How many times lie in an interval. -/
def countIn (times : List α) (lo hi : α) : Nat := times.countP fun t => lo ≤ t ∧ t ≤ hi

/-- How many times lie from a time on. -/
def countFrom (times : List α) (lo : α) : Nat := times.countP fun t => lo ≤ t

theorem countIn_snoc_of_in (hlo : lo ≤ t) (hhi : t ≤ hi) :
    countIn (times ++ [t]) lo hi = countIn times lo hi + 1 := by
  simp [countIn, List.countP_append, hlo, hhi]

theorem countIn_snoc_of_out (hout : ¬ (lo ≤ t ∧ t ≤ hi)) :
    countIn (times ++ [t]) lo hi = countIn times lo hi := by
  simp only [countIn, List.countP_append, List.countP_singleton, decide_eq_true_eq,
    if_neg hout, Nat.add_zero]

theorem countIn_cons_of_in (hlo : lo ≤ t) (hhi : t ≤ hi) :
    countIn (t :: times) lo hi = countIn times lo hi + 1 := by
  simp [countIn, hlo, hhi]

theorem countIn_append (first second : List α) :
    countIn (first ++ second) lo hi = countIn first lo hi + countIn second lo hi :=
  List.countP_append

theorem countIn_replicate_of_in (hlo : lo ≤ t) (hhi : t ≤ hi) (n : Nat) :
    countIn (List.replicate n t) lo hi = n := by
  simp [countIn, List.countP_replicate, hlo, hhi]

theorem countFrom_snoc_le : countFrom (times ++ [t]) lo ≤ countFrom times lo + 1 := by
  simp only [countFrom, List.countP_append, List.countP_singleton]
  split_ifs <;> omega

/-- An interval that no time lies in. -/
theorem countIn_eq_zero (h : ∀ t ∈ times, ¬ (lo ≤ t ∧ t ≤ hi)) : countIn times lo hi = 0 := by
  apply List.countP_eq_zero.mpr
  intro t ht
  simpa using h t ht

theorem countFrom_eq_zero (h : ∀ t ∈ times, t < lo) : countFrom times lo = 0 := by
  apply List.countP_eq_zero.mpr
  intro t ht
  simpa using h t ht

theorem countIn_le {lo' hi' : α} (h : ∀ t ∈ times, lo ≤ t → t ≤ hi → lo' ≤ t ∧ t ≤ hi') :
    countIn times lo hi ≤ countIn times lo' hi' := by
  apply List.countP_mono_left
  intro t ht hin
  obtain ⟨hlo, hhi⟩ := of_decide_eq_true hin
  exact decide_eq_true (h t ht hlo hhi)

/-- The times of an interval lie from a cut on when none of them is before it. -/
theorem countIn_le_countFrom (h : ∀ t ∈ times, lo ≤ t → t ≤ hi → cut ≤ t) :
    countIn times lo hi ≤ countFrom times cut := by
  apply List.countP_mono_left
  intro t ht hin
  obtain ⟨hlo, hhi⟩ := of_decide_eq_true hin
  exact decide_eq_true (h t ht hlo hhi)

/-- The times of an interval are those before a cut and those from it on. -/
theorem countIn_le_add {lo' hi' : α}
    (h : ∀ t ∈ times, lo ≤ t → t ≤ hi → t < cut → lo' ≤ t ∧ t ≤ hi') :
    countIn times lo hi ≤ countIn times lo' hi' + countFrom times cut := by
  induction times with
  | nil => exact Nat.le_refl 0
  | cons t times ih =>
      have hrest := ih fun t ht => h t (List.mem_cons_of_mem _ ht)
      have hhead := h t (List.mem_cons_self ..)
      simp only [countIn, countFrom, List.countP_cons, decide_eq_true_eq] at hrest ⊢
      by_cases hin : lo ≤ t ∧ t ≤ hi
      · by_cases hcut : t < cut
        · rw [if_pos hin, if_pos (hhead hin.1 hin.2 hcut)]
          omega
        · rw [if_pos hin, if_pos (not_lt.mp hcut)]
          omega
      · rw [if_neg hin]
        omega

/-- More than `n` of some falling times lie from a time on exactly when the one
at place `n` does. -/
theorem lt_countFrom_iff_of_falling (hfalling : times.Pairwise (· ≥ ·)) (n : Nat) :
    n < countFrom times lo ↔ ∃ t, times[n]? = some t ∧ lo ≤ t := by
  induction times generalizing n with
  | nil => simp [countFrom]
  | cons first times ih =>
      obtain ⟨hfirst, hrest⟩ := List.pairwise_cons.mp hfalling
      by_cases hlo : lo ≤ first
      · have hcount : countFrom (first :: times) lo = countFrom times lo + 1 := by
          simp [countFrom, hlo]
        rw [hcount]
        cases n with
        | zero => simp [hlo]
        | succ n => simpa using ih hrest n
      · have hall : ∀ t ∈ first :: times, t < lo := by
          intro t ht
          rcases List.mem_cons.mp ht with rfl | hlater
          · exact not_le.mp hlo
          · exact lt_of_le_of_lt (hfirst t hlater) (not_le.mp hlo)
        rw [countFrom_eq_zero hall]
        constructor
        · intro hlt
          exact absurd hlt (Nat.not_lt_zero n)
        · rintro ⟨t, ht, hle⟩
          exact absurd hle (not_le.mpr (hall t (List.mem_of_getElem? ht)))

/-- The same for growing times, counted from their end. -/
theorem lt_countFrom_iff (hgrowing : times.Pairwise (· ≤ ·)) (n : Nat) :
    n < countFrom times lo ↔ ∃ t, times.reverse[n]? = some t ∧ lo ≤ t := by
  have hreverse : countFrom times.reverse lo = countFrom times lo := List.countP_reverse
  rw [← hreverse]
  exact lt_countFrom_iff_of_falling (List.pairwise_reverse.mpr hgrowing) n

end TimeCounts
