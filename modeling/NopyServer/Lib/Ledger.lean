/-
The worth of a list of accounts, and how it follows a change of one of them.
The accounts are of any type; worths are taken in any commutative group.
-/
import Mathlib.Algebra.BigOperators.Group.List.Basic
import Mathlib.Tactic.Abel

namespace Ledger

universe u v

variable {A : Type u} {G : Type v} [AddCommGroup G]

/-- The worth of all accounts together. -/
def worth (value : A → G) (accounts : List A) : G := (accounts.map value).sum

@[simp]
theorem worth_nil (value : A → G) : worth value [] = 0 := rfl

@[simp]
theorem worth_cons (value : A → G) (account : A) (accounts : List A) :
    worth value (account :: accounts) = value account + worth value accounts := by
  simp [worth]

theorem worth_append (value : A → G) (left right : List A) :
    worth value (left ++ right) = worth value left + worth value right := by
  simp [worth]

/-- Closing an account takes its worth away. -/
theorem worth_eraseIdx (value : A → G) {accounts : List A} {i : Nat}
    {account : A} (hget : accounts[i]? = some account) :
    worth value (accounts.eraseIdx i) =
      worth value accounts - value account := by
  induction accounts generalizing i with
  | nil => simp at hget
  | cons first rest ih =>
      cases i with
      | zero =>
          simp only [List.getElem?_cons_zero, Option.some.injEq] at hget
          subst hget
          simp only [List.eraseIdx_cons_zero, worth_cons]
          abel
      | succ i =>
          simp only [List.getElem?_cons_succ] at hget
          simp only [List.eraseIdx_cons_succ, worth_cons, ih hget]
          abel

/-- A change of one account changes the worth by its own difference. -/
theorem worth_modify (value : A → G) (f : A → A) {accounts : List A} {i : Nat}
    {account : A} (hget : accounts[i]? = some account) :
    worth value (accounts.modify i f) =
      worth value accounts + (value (f account) - value account) := by
  induction accounts generalizing i with
  | nil => simp at hget
  | cons first rest ih =>
      cases i with
      | zero =>
          simp only [List.getElem?_cons_zero, Option.some.injEq] at hget
          subst hget
          simp only [List.modify_zero_cons, worth_cons]
          abel
      | succ i =>
          simp only [List.getElem?_cons_succ] at hget
          simp only [List.modify_succ_cons, worth_cons, ih hget]
          abel

theorem worth_modify_of_none (value : A → G) (f : A → A) {accounts : List A}
    {i : Nat} (hget : accounts[i]? = none) :
    worth value (accounts.modify i f) = worth value accounts := by
  rw [List.modify_eq_self (List.getElem?_eq_none_iff.mp hget)]

/-- A change that keeps the value of every account keeps the worth. -/
theorem worth_modify_of_eq (value : A → G) (f : A → A) (accounts : List A)
    (i : Nat) (hf : ∀ account, value (f account) = value account) :
    worth value (accounts.modify i f) = worth value accounts := by
  cases hget : accounts[i]? with
  | none => exact worth_modify_of_none value f hget
  | some account => rw [worth_modify value f hget, hf, sub_self, add_zero]

theorem worth_set (value : A → G) {accounts : List A} {i : Nat}
    {account : A} (hget : accounts[i]? = some account) (next : A) :
    worth value (accounts.set i next) =
      worth value accounts + (value next - value account) := by
  rw [← worth_modify value (fun _ => next) hget, List.set_eq_modify]

/-- A change that leaves its account as it is changes nothing. -/
theorem modify_fixed {f : A → A} {accounts : List A} {i : Nat} {account : A}
    (hget : accounts[i]? = some account) (hf : f account = account) :
    accounts.modify i f = accounts := by
  induction accounts generalizing i with
  | nil => simp at hget
  | cons first rest ih =>
      cases i with
      | zero =>
          simp only [List.getElem?_cons_zero, Option.some.injEq] at hget
          rw [List.modify_zero_cons, hget, hf]
      | succ i =>
          simp only [List.getElem?_cons_succ] at hget
          rw [List.modify_succ_cons, ih hget]

/-- A view of the accounts follows a change of one of them. -/
theorem map_modify {B : Type v} (f : A → A) (view : A → B) (next : B → B)
    (hview : ∀ account, view (f account) = next (view account))
    (accounts : List A) (i : Nat) :
    (accounts.modify i f).map view = (accounts.map view).modify i next := by
  induction accounts generalizing i with
  | nil => simp
  | cons first rest ih =>
      cases i with
      | zero => simp [hview]
      | succ i => simp [ih]

/-- What a change leaves of an account it leaves of all accounts. -/
theorem map_modify_kept {B : Type v} {f : A → A} {view : A → B} {accounts : List A} {i : Nat}
    (hkept : ∀ account, accounts[i]? = some account → view (f account) = view account) :
    (accounts.modify i f).map view = accounts.map view := by
  induction accounts generalizing i with
  | nil => simp
  | cons first rest ih =>
      cases i with
      | zero => simp [hkept first rfl]
      | succ i => simpa using ih fun account haccount => hkept account haccount

/-- A property of all accounts survives a change that gives it to the changed
account. -/
theorem forall_mem_modify {P : A → Prop} {f : A → A} {accounts : List A}
    {i : Nat} (hall : ∀ account ∈ accounts, P account)
    (hchanged : ∀ account, accounts[i]? = some account → P (f account)) :
    ∀ account ∈ accounts.modify i f, P account := by
  induction accounts generalizing i with
  | nil => simp
  | cons first rest ih =>
      have hrest : ∀ account ∈ rest, P account := fun account hmem =>
        hall account (List.mem_cons_of_mem first hmem)
      cases i with
      | zero =>
          simp only [List.modify_zero_cons, List.mem_cons]
          rintro account (rfl | hmem)
          · exact hchanged first rfl
          · exact hrest account hmem
      | succ i =>
          simp only [List.modify_succ_cons, List.mem_cons]
          rintro account (rfl | hmem)
          · exact hall account List.mem_cons_self
          · exact ih hrest (fun account hget => hchanged account hget) account
              hmem

end Ledger
