/-
Reading bytes through a cursor.  A read takes what lies at the cursor and moves
it behind; it fails outside the data.  Passing bytes reads nothing, so the
cursor may come to lie anywhere.

A read `Yields` a value of some bytes when it finds it wherever these bytes lie
and wherever the data are cut: the first so many of them are looked at, and a
cut behind these changes nothing.
-/
import Mathlib.Algebra.GroupWithZero.Nat
import Mathlib.Data.List.Basic
import Mathlib.Tactic.Common

namespace ByteReader

variable {α β : Type}

/-- A read from some data and a place on. -/
def Reader (α : Type) := List UInt8 → Int → Option (α × Int)

instance : Monad Reader where
  pure a := fun _ pos => some (a, pos)
  bind r f := fun data pos => (r data pos).bind fun next => f next.1 data next.2

theorem bind_run (r : Reader α) (f : α → Reader β) (data : List UInt8) (pos : Int) :
    (r >>= f) data pos = (r data pos).bind fun next => f next.1 data next.2 := rfl

/-- The byte at the cursor. -/
def byte : Reader UInt8 := fun data pos =>
  if 0 ≤ pos then (data[pos.toNat]?).map fun b => (b, pos + 1) else none

/-- The cursor is moved. -/
def skip (count : Int) : Reader Unit := fun _ pos => some ((), pos + count)

/-- So many bytes, one after the other. -/
def bytes : Nat → Reader (List UInt8)
  | 0 => pure []
  | count + 1 => do
      let first ← byte
      let rest ← bytes count
      return first :: rest

/-- A number, its lowest byte first. -/
def unsigned : List UInt8 → Nat
  | [] => 0
  | first :: rest => first.toNat + 256 * unsigned rest

/-- The number of so many bytes. -/
def number (width : Nat) : Reader Nat := do
  let bs ← bytes width
  return unsigned bs

/-- The same read with a counter, as often as it says. -/
def repeated (r : Nat → Reader α) : Nat → Nat → Reader (List α)
  | _, 0 => pure []
  | start, count + 1 => do
      let first ← r start
      let rest ← repeated r (start + 1) count
      return first :: rest

/-- A read that is done only under a condition. -/
def given (p : Prop) [Decidable p] (default : α) (r : Reader α) : Reader α :=
  if p then r else pure default

/-- How far the second of two reads looks, or the first when it looks at
nothing. -/
def reach (first length second : Nat) : Nat := if second = 0 then first else length + second

@[simp] theorem reach_zero (first length : Nat) : reach first length 0 = first := rfl

theorem reach_of_ne {first length second : Nat} (hne : second ≠ 0) :
    reach first length second = length + second := if_neg hne

/-- Some bytes are read as a value; the first `need` of them are looked at. -/
structure Yields (r : Reader α) (bs : List UInt8) (a : α) (need : Nat) : Prop where
  need_le : need ≤ bs.length
  run : ∀ (before after : List UInt8) (n : Nat),
    r ((before ++ (bs ++ after)).take n) before.length =
      if need = 0 ∨ before.length + need ≤ n then
        some (a, ((before.length + bs.length : Nat) : Int))
      else none

namespace Yields

variable {r : Reader α} {f : α → Reader β} {bs bs' : List UInt8} {a : α} {b : β}
  {need need' : Nat}

theorem pure (a : α) : Yields (pure a) [] a 0 where
  need_le := Nat.le_refl 0
  run before after n := by
    rw [if_pos (Or.inl rfl)]
    rfl

/-- One read behind the other. -/
theorem bind (h : Yields r bs a need) (h' : Yields (f a) bs' b need') :
    Yields (r >>= f) (bs ++ bs') b (reach need bs.length need') where
  need_le := by
    have hfirst := h.need_le
    have hsecond := h'.need_le
    rw [reach, List.length_append]
    split_ifs <;> omega
  run before after n := by
    have hfirst := h.run before (bs' ++ after) n
    have hsecond := h'.run (before ++ bs) after n
    have hneed := h.need_le
    rw [List.length_append, List.append_assoc] at hsecond
    rw [bind_run, List.append_assoc, hfirst]
    split_ifs with hin hreach hreach
    · rw [Option.bind_some, hsecond, if_pos, List.length_append, Nat.add_assoc]
      rw [reach] at hreach
      split_ifs at hreach <;> omega
    · rw [Option.bind_some, hsecond, if_neg]
      rw [reach] at hreach
      split_ifs at hreach <;> omega
    · rw [reach] at hreach
      split_ifs at hreach <;> omega
    · rfl

theorem map (h : Yields r bs a need) (g : α → β) :
    Yields (do let a ← r; return g a) bs (g a) need := by
  have hmap : Yields (r >>= fun a => Pure.pure (g a)) (bs ++ []) (g a) (reach need bs.length 0) :=
    h.bind (Yields.pure (g a))
  rw [List.append_nil] at hmap
  exact hmap

theorem given {p : Prop} [Decidable p] {default : α} (h : p → Yields r bs a need) :
    Yields (given p default r) (if p then bs else []) (if p then a else default)
      (if p then need else 0) := by
  unfold ByteReader.given
  split_ifs with hp
  · exact h hp
  · exact Yields.pure default

theorem byte (b : UInt8) : Yields byte [b] b 1 where
  need_le := Nat.le_refl 1
  run before after n := by
    have hplace : (before ++ ([b] ++ after))[before.length]? = some b := by simp
    rw [ByteReader.byte, if_pos (Int.natCast_nonneg _), Int.toNat_natCast, List.getElem?_take]
    by_cases hcut : before.length < n
    · rw [if_pos hcut, if_pos (Or.inr (Nat.succ_le_of_lt hcut)), hplace]
      rfl
    · rw [if_neg hcut, if_neg (not_or_intro Nat.one_ne_zero (mt Nat.lt_of_succ_le hcut))]
      rfl

/-- Bytes are passed. -/
theorem skip (bs : List UInt8) {count : Int} (hcount : count = bs.length) :
    Yields (skip count) bs () 0 where
  need_le := Nat.zero_le _
  run before after n := by
    rw [if_pos (Or.inl rfl), ByteReader.skip, hcount, Int.natCast_add]

theorem bytes (bs : List UInt8) : Yields (bytes bs.length) bs bs bs.length := by
  induction bs with
  | nil => exact Yields.pure []
  | cons first rest ih =>
      have hall : Yields (ByteReader.bytes (rest.length + 1)) ([first] ++ rest) (first :: rest)
          (reach 1 [first].length rest.length) :=
        (Yields.byte first).bind (ih.map fun rest => first :: rest)
      have hreach : reach 1 1 rest.length = rest.length + 1 := by
        rw [reach]
        split_ifs <;> omega
      rw [List.length_singleton, hreach] at hall
      exact hall

theorem number {bs : List UInt8} {width : Nat} (hwidth : bs.length = width) :
    Yields (number width) bs (unsigned bs) width := by
  subst hwidth
  exact (Yields.bytes bs).map unsigned

end Yields

/-- Some bytes are read as a value, and all of them are looked at. -/
def Takes (r : Reader α) (bs : List UInt8) (a : α) : Prop := Yields r bs a bs.length

namespace Takes

variable {r : Reader α} {f : α → Reader β} {bs bs' : List UInt8} {a : α} {b : β} {need : Nat}

theorem pure (a : α) : Takes (pure a) [] a := Yields.pure a

theorem yields (h : Takes r bs a) (h' : Yields (f a) bs' b need) :
    Yields (r >>= f) (bs ++ bs') b (bs.length + need) := by
  have hboth := h.bind h'
  have hreach : reach bs.length bs.length need = bs.length + need := by
    rw [reach]
    split_ifs <;> omega
  rw [hreach] at hboth
  exact hboth

theorem bind (h : Takes r bs a) (h' : Takes (f a) bs' b) : Takes (r >>= f) (bs ++ bs') b := by
  unfold Takes
  rw [List.length_append]
  exact h.yields h'

end Takes

section Repeated

variable {r : Nat → Reader α} {bytesOf : β → List UInt8} {value : Nat → β → α}
  {need unread : β → Nat} {items : List β}

/-- How far the reads of several items look. -/
def reachAll (bytesOf : β → List UInt8) (need : β → Nat) : List β → Nat
  | [] => 0
  | x :: items => reach (need x) (bytesOf x).length (reachAll bytesOf need items)

/-- Items one after the other are read one after the other. -/
theorem Yields.repeated (h : ∀ i, ∀ x ∈ items, Yields (r i) (bytesOf x) (value i x) (need x))
    (start : Nat) :
    Yields (repeated r start items.length) (items.flatMap bytesOf)
      (items.mapIdx fun i x => value (start + i) x) (reachAll bytesOf need items) := by
  induction items generalizing start with
  | nil => exact Yields.pure []
  | cons x items ih =>
      obtain hrest := ih (fun i y hy => h i y (List.mem_cons_of_mem _ hy)) (start + 1)
      have hvalues : (x :: items).mapIdx (fun i x => value (start + i) x) =
          value start x :: items.mapIdx fun i x => value (start + 1 + i) x := by
        rw [List.mapIdx_cons, Nat.add_zero]
        congr 2
        funext i x
        rw [Nat.add_assoc start, Nat.add_comm 1]
      rw [hvalues, List.flatMap_cons]
      exact (h start x List.mem_cons_self).bind (hrest.map fun rest => value start x :: rest)

/-- All but what the last read leaves is looked at. -/
theorem reachAll_add_unread (hread : ∀ x ∈ items, need x + unread x = (bytesOf x).length)
    (hneed : ∀ x ∈ items, need x ≠ 0) :
    reachAll bytesOf need items + (items.getLast?.map unread).getD 0 =
      (items.flatMap bytesOf).length := by
  induction items with
  | nil => rfl
  | cons x items ih =>
      obtain ⟨hx, hitems⟩ := List.forall_mem_cons.mp hread
      obtain ⟨hne, hneeds⟩ := List.forall_mem_cons.mp hneed
      have hrest := ih hitems hneeds
      rw [List.flatMap_cons, List.length_append, reachAll]
      cases items with
      | nil => exact hx
      | cons y items =>
          have hlast : (x :: y :: items).getLast? = (y :: items).getLast? := by simp
          have hlater : reachAll bytesOf need (y :: items) ≠ 0 := by
            have hy := hneeds y List.mem_cons_self
            rw [reachAll, reach]
            split_ifs with hzero <;> omega
          rw [reach_of_ne hlater, hlast, Nat.add_assoc, hrest]

end Repeated

end ByteReader
