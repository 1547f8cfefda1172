/-
Double-entry bookkeeping.  A book says what is in every account; a posting takes an
amount out of one account and puts it into another.  A run of postings, each allowed
where it is made, keeps the sum over every set of accounts that no posting leads into
or out of, takes nothing from an account that is never a source, and leaves no account
in debt whose postings are covered.  The sum of what accounts have or owe bounds every
single one of them; a posting that is covered does not raise it.
-/
import Mathlib.Algebra.BigOperators.Group.Finset.Piecewise
import Mathlib.Algebra.Order.BigOperators.Group.Finset
import Mathlib.Logic.Relation
import Mathlib.Tactic.Linarith

namespace Postings

open Relation

universe u

variable {C : Type u} [DecidableEq C]

/-- An amount more in one account. -/
def bump (account : C) (amount : Int) (book : C → Int) : C → Int :=
  fun other => book other + if other = account then amount else 0

/-- An amount that goes from one account to another. -/
structure Posting (C : Type u) where
  source : C
  target : C
  amount : Int

/-- The book after a posting. -/
def Posting.apply (post : Posting C) (book : C → Int) : C → Int :=
  bump post.target post.amount (bump post.source (-post.amount) book)

/-- Postings one after the other, each of them allowed in the book it is made in. -/
def Posted (allowed : (C → Int) → Posting C → Prop) : (C → Int) → (C → Int) → Prop :=
  ReflTransGen fun book next => ∃ post, allowed book post ∧ next = post.apply book

section Bump

variable (book : C → Int) (account other : C) (amount : Int)

@[simp]
theorem bump_self : bump account amount book account = book account + amount := by
  simp [bump]

theorem bump_of_ne (hne : other ≠ account) : bump account amount book other = book other := by
  simp [bump, hne]

@[simp]
theorem bump_zero : bump account 0 book = book := by
  funext cell
  simp [bump]

theorem bump_comm (more : Int) : bump account amount (bump other more book) =
    bump other more (bump account amount book) := by
  funext cell
  unfold bump
  omega

theorem sum_bump_of_mem {cells : Finset C} (hmem : account ∈ cells) :
    ∑ cell ∈ cells, bump account amount book cell = ∑ cell ∈ cells, book cell + amount := by
  simp [bump, Finset.sum_add_distrib, Finset.sum_ite_eq', hmem]

theorem sum_bump_of_not_mem {cells : Finset C} (hmem : account ∉ cells) :
    ∑ cell ∈ cells, bump account amount book cell = ∑ cell ∈ cells, book cell := by
  simp [bump, Finset.sum_add_distrib, Finset.sum_ite_eq', hmem]

/-- What the accounts of a set have, or owe. -/
def stake (cells : Finset C) (book : C → Int) : Int := ∑ cell ∈ cells, |book cell|

omit [DecidableEq C] in
theorem abs_le_stake {cells : Finset C} (hmem : account ∈ cells) :
    |book account| ≤ stake cells book :=
  Finset.single_le_sum (fun cell _ => abs_nonneg (book cell)) hmem

theorem stake_bump_of_not_mem {cells : Finset C} (hmem : account ∉ cells) :
    stake cells (bump account amount book) = stake cells book := by
  refine Finset.sum_congr rfl fun cell hcell => ?_
  have hne : cell ≠ account := ne_of_mem_of_not_mem hcell hmem
  rw [bump_of_ne _ _ _ _ hne]

theorem stake_bump_le (cells : Finset C) :
    stake cells (bump account amount book) ≤ stake cells book + |amount| := by
  by_cases hmem : account ∈ cells
  · calc stake cells (bump account amount book)
        ≤ ∑ cell ∈ cells, bump account |amount| (fun cell => |book cell|) cell := by
          refine Finset.sum_le_sum fun cell _ => ?_
          unfold bump
          split_ifs
          · exact abs_add_le _ _
          · simp
      _ = stake cells book + |amount| := sum_bump_of_mem _ _ _ hmem
  · rw [stake_bump_of_not_mem _ _ _ hmem]
    linarith [abs_nonneg amount]

/-- What an account has is taken out of it. -/
theorem stake_bump_covered {cells : Finset C} (hmem : account ∈ cells) (hamount : 0 ≤ amount)
    (hcovered : amount ≤ book account) :
    stake cells (bump account (-amount) book) = stake cells book - amount := by
  have habs : ∀ cell, |bump account (-amount) book cell| =
      bump account (-amount) (fun cell => |book cell|) cell := by
    intro cell
    unfold bump
    split_ifs with hcell
    · have hleft : 0 ≤ book account + -amount := by linarith
      have hbook : 0 ≤ book account := by linarith
      rw [hcell, abs_of_nonneg hleft]
      dsimp only
      rw [abs_of_nonneg hbook]
    · simp
  unfold stake
  rw [Finset.sum_congr rfl fun cell _ => habs cell, sum_bump_of_mem _ _ _ hmem, sub_eq_add_neg]

end Bump

namespace Posting

variable {post : Posting C} {book : C → Int} {account : C}

/-- A posting within a set of accounts, or outside it, keeps the sum. -/
theorem sum_apply {cells : Finset C} (hboth : post.source ∈ cells ↔ post.target ∈ cells) :
    ∑ cell ∈ cells, post.apply book cell = ∑ cell ∈ cells, book cell := by
  unfold apply
  by_cases hsource : post.source ∈ cells
  · rw [sum_bump_of_mem _ _ _ (hboth.mp hsource), sum_bump_of_mem _ _ _ hsource,
      neg_add_cancel_right]
  · rw [sum_bump_of_not_mem _ _ _ (hboth.not.mp hsource), sum_bump_of_not_mem _ _ _ hsource]

theorem le_apply (hsource : account ≠ post.source) (hamount : 0 ≤ post.amount) :
    book account ≤ post.apply book account := by
  unfold apply
  rw [bump, bump_of_ne _ _ _ _ hsource]
  split_ifs <;> linarith

theorem apply_nonneg (hamount : 0 ≤ post.amount) (hbook : 0 ≤ book account)
    (hcovered : account = post.source → post.amount ≤ book account) :
    0 ≤ post.apply book account := by
  by_cases hsource : account = post.source
  · have henough := hcovered hsource
    unfold apply bump
    rw [if_pos hsource]
    split_ifs <;> linarith
  · exact le_trans hbook (le_apply hsource hamount)

/-- A posting that is covered. -/
theorem stake_apply_le {cells : Finset C} (hboth : post.source ∈ cells ↔ post.target ∈ cells)
    (hamount : 0 ≤ post.amount) (hcovered : post.amount ≤ book post.source) :
    stake cells (post.apply book) ≤ stake cells book := by
  unfold apply
  by_cases hsource : post.source ∈ cells
  · have htarget := stake_bump_le (bump post.source (-post.amount) book) post.target post.amount
      cells
    rw [stake_bump_covered _ _ _ hsource hamount hcovered, abs_of_nonneg hamount] at htarget
    linarith
  · rw [stake_bump_of_not_mem _ _ _ (hboth.not.mp hsource), stake_bump_of_not_mem _ _ _ hsource]

/-- Any posting. -/
theorem stake_apply_le_add (cells : Finset C) (hamount : 0 ≤ post.amount) :
    stake cells (post.apply book) ≤ stake cells book + 2 * post.amount := by
  have hsource := stake_bump_le book post.source (-post.amount) cells
  have htarget := stake_bump_le (bump post.source (-post.amount) book) post.target post.amount
    cells
  rw [abs_neg, abs_of_nonneg hamount] at hsource
  rw [abs_of_nonneg hamount] at htarget
  unfold apply
  linarith

end Posting

namespace Posted

variable {allowed : (C → Int) → Posting C → Prop} {book next : C → Int}

theorem single {post : Posting C} (hallowed : allowed book post) :
    Posted allowed book (post.apply book) :=
  ReflTransGen.single ⟨post, hallowed, rfl⟩

/-- What every allowed posting keeps, a run of them keeps. -/
theorem keeps (P : (C → Int) → Prop) (hposted : Posted allowed book next)
    (hstep : ∀ book post, allowed book post → P book → P (post.apply book)) (hP : P book) :
    P next := by
  induction hposted with
  | refl => exact hP
  | tail _ hlast ih =>
      obtain ⟨post, hallowed, rfl⟩ := hlast
      exact hstep _ post hallowed ih

theorem mono {more : (C → Int) → Posting C → Prop} (hposted : Posted allowed book next)
    (hmore : ∀ book post, allowed book post → more book post) : Posted more book next :=
  ReflTransGen.mono (fun book _ ⟨post, hallowed, heq⟩ => ⟨post, hmore book post hallowed, heq⟩) _ _
    hposted

theorem trans {last : C → Int} (hfirst : Posted allowed book next)
    (hsecond : Posted allowed next last) : Posted allowed book last :=
  ReflTransGen.trans hfirst hsecond

theorem sum (hposted : Posted allowed book next) {cells : Finset C}
    (hboth : ∀ book post, allowed book post → (post.source ∈ cells ↔ post.target ∈ cells)) :
    ∑ cell ∈ cells, next cell = ∑ cell ∈ cells, book cell := by
  refine keeps (fun last => ∑ cell ∈ cells, last cell = ∑ cell ∈ cells, book cell) hposted ?_ rfl
  intro last post hallowed hsame
  exact (Posting.sum_apply (hboth last post hallowed)).trans hsame

theorem le (hposted : Posted allowed book next) {account : C}
    (hspared : ∀ book post, allowed book post → account ≠ post.source ∧ 0 ≤ post.amount) :
    book account ≤ next account := by
  refine keeps (fun last => book account ≤ last account) hposted ?_ le_rfl
  intro last post hallowed hle
  obtain ⟨hsource, hamount⟩ := hspared last post hallowed
  exact le_trans hle (Posting.le_apply hsource hamount)

theorem nonneg (hposted : Posted allowed book next) {account : C}
    (hcovered : ∀ book post, allowed book post →
      0 ≤ post.amount ∧ (account = post.source → post.amount ≤ book account))
    (hbook : 0 ≤ book account) : 0 ≤ next account := by
  refine keeps (fun last => 0 ≤ last account) hposted ?_ hbook
  intro last post hallowed hlast
  obtain ⟨hamount, henough⟩ := hcovered last post hallowed
  exact Posting.apply_nonneg hamount hlast henough

end Posted

end Postings
