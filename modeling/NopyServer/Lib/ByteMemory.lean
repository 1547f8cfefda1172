/-
Bytes in memory.  A memory gives the byte at each place; a number stands there
with its lowest byte first.  Bytes are stored one after the other, and what is
read elsewhere stays.
-/
import Mathlib.Algebra.Order.Ring.Nat
import Mathlib.Logic.Function.Basic
import Mathlib.Tactic.Ring

namespace ByteMemory

/-- The lowest bytes of a number, the lowest first. -/
def bytesOf : Nat → Nat → List UInt8
  | 0, _ => []
  | width + 1, n => UInt8.ofNat n :: bytesOf width (n / 256)

@[simp] theorem length_bytesOf (width n : Nat) : (bytesOf width n).length = width := by
  induction width generalizing n with
  | zero => rfl
  | succ width ih => rw [bytesOf, List.length_cons, ih]

/-- The number that the bytes from a place on hold. -/
def number (mem : Nat → UInt8) (place : Nat) : Nat → Nat
  | 0 => 0
  | width + 1 => (mem place).toNat + 256 * number mem (place + 1) width

theorem number_lt (mem : Nat → UInt8) (place width : Nat) :
    number mem place width < 256 ^ width := by
  induction width generalizing place with
  | zero => exact Nat.one_pos
  | succ width ih =>
      have hbyte := (mem place).toNat_lt
      have hrest := ih (place + 1)
      rw [number, Nat.pow_succ]
      omega

theorem number_congr {mem other : Nat → UInt8} {place width : Nat}
    (hsame : ∀ i, place ≤ i → i < place + width → mem i = other i) :
    number mem place width = number other place width := by
  induction width generalizing place with
  | zero => rfl
  | succ width ih =>
      rw [number, number, hsame place (Nat.le_refl _) (by omega),
        ih fun i hlow hhigh => hsame i (by omega) (by omega)]

/-- Bytes are stored from a place on. -/
def store : List UInt8 → Nat → (Nat → UInt8) → Nat → UInt8
  | [], _, mem => mem
  | byte :: bytes, place, mem => store bytes (place + 1) (Function.update mem place byte)

/-- The memory elsewhere is as it was. -/
theorem store_outside {bytes : List UInt8} {place i : Nat} (mem : Nat → UInt8)
    (hout : i < place ∨ place + bytes.length ≤ i) : store bytes place mem i = mem i := by
  induction bytes generalizing place mem with
  | nil => rfl
  | cons byte bytes ih =>
      rw [List.length_cons] at hout
      rw [store, ih _ (by omega), Function.update_of_ne (by omega)]

/-- Where the bytes are stored nothing is left of the memory before. -/
theorem store_inside {bytes : List UInt8} {place i : Nat} (mem other : Nat → UInt8)
    (hlow : place ≤ i) (hhigh : i < place + bytes.length) :
    store bytes place mem i = store bytes place other i := by
  induction bytes generalizing place mem other with
  | nil => exact absurd hhigh (by simpa using hlow)
  | cons byte bytes ih =>
      rw [List.length_cons] at hhigh
      rw [store, store]
      rcases Nat.eq_or_lt_of_le hlow with rfl | hlater
      · rw [store_outside _ (Or.inl (Nat.lt_succ_self _)),
          store_outside _ (Or.inl (Nat.lt_succ_self _)), Function.update_self,
          Function.update_self]
      · exact ih _ _ hlater (by omega)

theorem store_replicate (count place : Nat) (byte : UInt8) :
    store (List.replicate count byte) place (fun _ => byte) = fun _ => byte := by
  induction count generalizing place with
  | zero => rfl
  | succ count ih =>
      rw [List.replicate_succ, store, Function.update_eq_self_iff.mpr rfl, ih]

theorem number_store_elsewhere {bytes : List UInt8} {place start width : Nat}
    (mem : Nat → UInt8) (hout : start + width ≤ place ∨ place + bytes.length ≤ start) :
    number (store bytes place mem) start width = number mem start width := by
  apply number_congr
  intro i hlow hhigh
  exact store_outside mem (by omega)

/-- A number is read back up to the width it is stored in. -/
theorem number_store (mem : Nat → UInt8) (place width n : Nat) :
    number (store (bytesOf width n) place mem) place width = n % 256 ^ width := by
  induction width generalizing place n mem with
  | zero => exact (Nat.mod_one n).symm
  | succ width ih =>
      have hfirst : store (bytesOf width (n / 256)) (place + 1)
          (Function.update mem place (UInt8.ofNat n)) place = UInt8.ofNat n := by
        rw [store_outside _ (Or.inl (Nat.lt_succ_self _)), Function.update_self]
      rw [bytesOf, store, number, ih, hfirst, Nat.pow_succ', Nat.mod_mul]
      simp

/-- A number is its low bytes and the number behind them. -/
theorem number_add (mem : Nat → UInt8) (place low high : Nat) :
    number mem place (low + high) =
      number mem place low + 256 ^ low * number mem (place + low) high := by
  induction low generalizing place with
  | zero => simp [number]
  | succ low ih =>
      have hplace : place + 1 + low = place + (low + 1) := by omega
      rw [Nat.add_right_comm, number, number, ih, hplace, Nat.pow_succ']
      ring

/-- So are its low bytes. -/
theorem number_store_low (mem : Nat → UInt8) (place low high n : Nat) :
    number (store (bytesOf (low + high) n) place mem) place low = n % 256 ^ low := by
  have hall := number_store mem place (low + high) n
  have hlt := number_lt (store (bytesOf (low + high) n) place mem) place low
  rw [number_add] at hall
  rw [← Nat.mod_mod_of_dvd n (pow_dvd_pow 256 (Nat.le_add_right low high)), ← hall,
    Nat.add_mul_mod_self_left, Nat.mod_eq_of_lt hlt]

/-- The highest byte of a number. -/
theorem byte_store_high (mem : Nat → UInt8) (place low n : Nat) :
    (store (bytesOf (low + 1) n) place mem (place + low)).toNat =
      n % 256 ^ (low + 1) / 256 ^ low := by
  have hall := number_store mem place (low + 1) n
  have hlt := number_lt (store (bytesOf (low + 1) n) place mem) place low
  rw [number_add] at hall
  rw [← hall, Nat.add_mul_div_left _ _ (Nat.pow_pos (by decide)), Nat.div_eq_of_lt hlt]
  simp [number]

/-- Two memories agree on the first so many places. -/
def Agree (size : Nat) (mem other : Nat → UInt8) : Prop := ∀ i < size, mem i = other i

/-- It is enough that they agree outside the bytes that are stored. -/
theorem agree_store {size place : Nat} {bytes : List UInt8} {mem other : Nat → UInt8}
    (h : ∀ i < size, i < place ∨ place + bytes.length ≤ i → mem i = other i) :
    Agree size (store bytes place mem) (store bytes place other) := by
  intro i hi
  by_cases hout : i < place ∨ place + bytes.length ≤ i
  · rw [store_outside _ hout, store_outside _ hout, h i hi hout]
  · exact store_inside _ _ (by omega) (by omega)

theorem Agree.store {size : Nat} {mem other : Nat → UInt8} (h : Agree size mem other)
    (bytes : List UInt8) (place : Nat) :
    Agree size (store bytes place mem) (store bytes place other) :=
  agree_store fun i hi _ => h i hi

/-- Numbers of four bytes, each at a place of its own. -/
def storeAll (numbers : List (Nat × UInt32)) (mem : Nat → UInt8) : Nat → UInt8 :=
  numbers.foldl (fun mem n => store (bytesOf 4 n.2.toNat) n.1 mem) mem

/-- The number of four bytes at a place. -/
def word (mem : Nat → UInt8) (place : Nat) : UInt32 := UInt32.ofNat (number mem place 4)

theorem Agree.storeAll {size : Nat} {mem other : Nat → UInt8} (h : Agree size mem other)
    (numbers : List (Nat × UInt32)) :
    Agree size (storeAll numbers mem) (storeAll numbers other) := by
  induction numbers generalizing mem other with
  | nil => exact h
  | cons n numbers ih => exact ih (h.store _ _)

theorem storeAll_append (first second : List (Nat × UInt32)) (mem : Nat → UInt8) :
    storeAll (first ++ second) mem = storeAll second (storeAll first mem) := by
  unfold storeAll
  rw [List.foldl_append]

/-- The numbers lie apart from some places. -/
def Apart (numbers : List (Nat × UInt32)) (place width : Nat) : Prop :=
  ∀ n ∈ numbers, place + width ≤ n.1 ∨ n.1 + 4 ≤ place

theorem number_storeAll {numbers : List (Nat × UInt32)} {place width : Nat}
    (hapart : Apart numbers place width) (mem : Nat → UInt8) :
    number (storeAll numbers mem) place width = number mem place width := by
  induction numbers generalizing mem with
  | nil => rfl
  | cons n numbers ih =>
      obtain ⟨hfirst, hrest⟩ := List.forall_mem_cons.mp hapart
      unfold storeAll
      rw [List.foldl_cons]
      change number (storeAll numbers _) place width = _
      rw [ih hrest]
      exact number_store_elsewhere mem (by simpa using hfirst)

/-- A number is read back when the later ones lie apart from it. -/
theorem word_storeAll {before after : List (Nat × UInt32)} {place : Nat} {value : UInt32}
    (hapart : Apart after place 4) (mem : Nat → UInt8) :
    word (storeAll (before ++ (place, value) :: after) mem) place = value := by
  have hlt : value.toNat < 256 ^ 4 := value.toNat_lt
  rw [← List.singleton_append, storeAll_append, storeAll_append, word, number_storeAll hapart]
  change UInt32.ofNat (number (store (bytesOf 4 value.toNat) place _) place 4) = value
  rw [number_store, Nat.mod_eq_of_lt hlt, UInt32.ofNat_toNat]

/-- Where every number lies behind the one before, each of them is read back. -/
theorem word_storeAll_of_mem {numbers : List (Nat × UInt32)}
    (horder : numbers.Pairwise fun a b => a.1 + 4 ≤ b.1) {n : Nat × UInt32}
    (hn : n ∈ numbers) (mem : Nat → UInt8) : word (storeAll numbers mem) n.1 = n.2 := by
  obtain ⟨before, after, rfl⟩ := List.append_of_mem hn
  have hafter := (List.pairwise_cons.mp (List.pairwise_append.mp horder).2.1).1
  exact word_storeAll (fun other hother => Or.inl (hafter other hother)) mem

end ByteMemory
