/-
Loops on a budget.  A loop body either leaves the loop or asks for another
iteration; the loop is run on an explicit budget of iterations, so it is an
ordinary structural recursion.  The rules are the usual two: an invariant of
the body is an invariant of the loop, and a variant that stays below the
budget shows that the loop was left by its body and not by the budget.  A loop
that may go on for ever is a partial function of the number of iterations.
-/
import Mathlib.Tactic.Common

namespace BoundedLoop

universe u v

variable {S : Type u} {T : Type v}

/-- What one iteration of a loop body asks for. -/
inductive Next (S : Type u) where
  | stop (state : S)
  | again (state : S)

namespace Next

/-- The state an iteration ends in, whether or not the loop goes on. -/
def state : Next S → S
  | .stop s => s
  | .again s => s

@[simp]
theorem state_stop (s : S) : (Next.stop s).state = s := rfl

@[simp]
theorem state_again (s : S) : (Next.again s).state = s := rfl

end Next

/-- Run `body` at most `budget` times. -/
def run (body : S → Next S) : Nat → S → S
  | 0, s => s
  | budget + 1, s =>
      match body s with
      | .stop t => t
      | .again t => run body budget t

theorem run_stop {body : S → Next S} {s t : S} (budget : Nat)
    (hbody : body s = .stop t) : run body (budget + 1) s = t := by
  simp [run, hbody]

theorem run_again {body : S → Next S} {s t : S} (budget : Nat)
    (hbody : body s = .again t) :
    run body (budget + 1) s = run body budget t := by
  simp [run, hbody]

/-- The invariant rule. -/
theorem run_invariant {body : S → Next S} (Inv : S → Prop)
    (hstep : ∀ s, Inv s → Inv (body s).state) (budget : Nat) {s : S}
    (hs : Inv s) : Inv (run body budget s) := by
  induction budget generalizing s with
  | zero => exact hs
  | succ budget ih =>
      have hnext := hstep s hs
      cases hbody : body s with
      | stop t =>
          rw [run_stop budget hbody]
          simpa [hbody] using hnext
      | again t =>
          rw [run_again budget hbody]
          exact ih (by simpa [hbody] using hnext)

/-- The variant rule: when every further iteration lowers a variant that
starts below the budget, the final state is one in which the body stopped. -/
theorem run_exits {body : S → Next S} (Inv : S → Prop) (variant : S → Nat)
    (hstep : ∀ s t, Inv s → body s = .again t →
      Inv t ∧ variant t < variant s)
    (budget : Nat) (s : S) (hs : Inv s) (hbudget : variant s < budget) :
    ∃ last, Inv last ∧ body last = .stop (run body budget s) := by
  induction budget generalizing s with
  | zero => omega
  | succ budget ih =>
      cases hbody : body s with
      | stop t =>
          rw [run_stop budget hbody]
          exact ⟨s, hs, hbody⟩
      | again t =>
          rw [run_again budget hbody]
          obtain ⟨ht, hlt⟩ := hstep s t hs hbody
          exact ih t ht (by omega)

/-- Two bodies that agree on an invariant set of states drive the same loop. -/
theorem run_congr {body other : S → Next S} (Inv : S → Prop)
    (hagree : ∀ s, Inv s → body s = other s)
    (hstep : ∀ s, Inv s → Inv (body s).state) (budget : Nat) {s : S}
    (hs : Inv s) : run body budget s = run other budget s := by
  induction budget generalizing s with
  | zero => rfl
  | succ budget ih =>
      have heq := hagree s hs
      have hnext := hstep s hs
      cases hbody : body s with
      | stop t =>
          rw [run_stop budget hbody, run_stop budget (heq ▸ hbody)]
      | again t =>
          rw [run_again budget hbody, run_again budget (heq ▸ hbody)]
          exact ih (by simpa [hbody] using hnext)

section Unbounded

variable {body : S → Next S} {s t : S} {n : Nat}

/-- A loop without a budget of its own: what it ends in, unless `n` iterations
are not enough. -/
def runs (body : S → Next S) : Nat → S → Option S
  | 0, _ => none
  | n + 1, s =>
      match body s with
      | .stop t => some t
      | .again t => runs body n t

theorem runs_stop (hbody : body s = .stop t) :
    runs body (n + 1) s = some t := by
  simp [runs, hbody]

theorem runs_again (hbody : body s = .again t) :
    runs body (n + 1) s = runs body n t := by
  simp [runs, hbody]

/-- The invariant rule: the loop ends where its body stops. -/
theorem runs_invariant (Inv : S → Prop)
    (hstep : ∀ s t, Inv s → body s = .again t → Inv t)
    (h : runs body n s = some t) (hs : Inv s) :
    ∃ last, Inv last ∧ body last = .stop t := by
  induction n generalizing s with
  | zero => cases h
  | succ n ih =>
      cases hbody : body s with
      | stop u =>
          rw [runs_stop hbody] at h
          exact ⟨s, hs, hbody.trans (congrArg Next.stop (Option.some.inj h))⟩
      | again u =>
          rw [runs_again hbody] at h
          exact ih h (hstep s u hs hbody)

/-- A loop whose body always asks for more never ends. -/
theorem runs_eq_none (Inv : S → Prop)
    (hstep : ∀ s, Inv s → ∃ t, body s = .again t ∧ Inv t) (n : Nat)
    (hs : Inv s) : runs body n s = none := by
  induction n generalizing s with
  | zero => rfl
  | succ n ih =>
      obtain ⟨t, hbody, ht⟩ := hstep s hs
      rw [runs_again hbody]
      exact ih ht

end Unbounded

/-- A loop over indices in which only one iteration does anything. -/
theorem foldl_range_single {f : S → Nat → S} {start next : S} {i n : Nat}
    (hi : i < n) (hbefore : ∀ k, k ≠ i → f start k = start)
    (hat : f start i = next) (hafter : ∀ k, k ≠ i → f next k = next) :
    (List.range n).foldl f start = next := by
  have hinitial : ∀ m, (List.range m).foldl f start = if i < m then next else start := by
    intro m
    induction m with
    | zero => rfl
    | succ m ih =>
        rw [List.range_succ, List.foldl_append, List.foldl_cons, List.foldl_nil, ih]
        rcases Nat.lt_trichotomy i m with hlt | heq | hgt
        · rw [if_pos hlt, if_pos (Nat.lt_succ_of_lt hlt)]
          exact hafter m (Nat.ne_of_gt hlt)
        · subst heq
          rw [if_neg (Nat.lt_irrefl i), if_pos (Nat.lt_succ_self i)]
          exact hat
        · rw [if_neg (Nat.lt_asymm hgt), if_neg (Nat.not_lt.mpr hgt)]
          exact hbefore m (Nat.ne_of_lt hgt)
  rw [hinitial, if_pos hi]

end BoundedLoop
