/-
Base64.  Three bytes are written as four digits of six bits; one or two bytes
that are left at the end take two or three digits, the last one filled up with
zeros.  A reader collects the bits of the digits and gives out a byte as soon
as it has eight; the bits it keeps stay below eight.
-/
import Mathlib.Data.List.Basic
import Mathlib.Tactic.IntervalCases

namespace Base64

/-- The digits of some bytes. -/
def digits : List UInt8 → List Nat
  | a :: b :: c :: rest =>
      a.toNat / 4 :: (a.toNat % 4 * 16 + b.toNat / 16) ::
        (b.toNat % 16 * 4 + c.toNat / 64) :: c.toNat % 64 :: digits rest
  | [a, b] => [a.toNat / 4, a.toNat % 4 * 16 + b.toNat / 16, b.toNat % 16 * 4]
  | [a] => [a.toNat / 4, a.toNat % 4 * 16]
  | [] => []

theorem digits_lt (bytes : List UInt8) : ∀ d ∈ digits bytes, d < 64 := by
  induction bytes using digits.induct with
  | case1 a b c rest ih =>
      have ha := a.toNat_lt
      have hb := b.toNat_lt
      have hc := c.toNat_lt
      simp only [digits, List.forall_mem_cons]
      exact ⟨by omega, by omega, by omega, by omega, ih⟩
  | case2 a b =>
      have ha := a.toNat_lt
      have hb := b.toNat_lt
      simp only [digits, List.forall_mem_cons, List.not_mem_nil, false_implies,
        implies_true, and_true]
      exact ⟨by omega, by omega, by omega⟩
  | case3 a =>
      have ha := a.toNat_lt
      simp only [digits, List.forall_mem_cons, List.not_mem_nil, false_implies,
        implies_true, and_true]
      exact ⟨by omega, by omega⟩
  | case4 => simp [digits]

/-- How many characters of padding follow the digits of so many bytes. -/
def paddingLength (length : Nat) : Nat := (3 - length % 3) % 3

/-- The bits that are not given out yet, and the bytes that are. -/
structure Reader where
  acc : Nat := 0
  bits : Nat := 0
  out : List UInt8 := []

/-- One more digit. -/
def Reader.read (r : Reader) (digit : Nat) : Reader :=
  let acc := r.acc * 64 + digit
  if 2 ≤ r.bits then
    { acc := acc % 2 ^ (r.bits - 2)
      bits := r.bits - 2
      out := r.out ++ [UInt8.ofNat (acc / 2 ^ (r.bits - 2))] }
  else { r with acc := acc, bits := r.bits + 6 }

def Reader.readAll (r : Reader) (ds : List Nat) : Reader := ds.foldl Reader.read r

/-- The bytes that some digits hold. -/
def decode (ds : List Nat) : List UInt8 := (Reader.readAll {} ds).out

/-- A reader keeps less than a byte. -/
theorem Reader.bits_read_lt {r : Reader} (h : r.bits < 8) (digit : Nat) :
    (r.read digit).bits < 8 := by
  unfold Reader.read
  dsimp only
  split_ifs <;> dsimp only <;> omega

/-- A reader without bits reads the digits of three bytes. -/
theorem readAll_group (a b c : UInt8) (ds : List Nat) (out : List UInt8) :
    Reader.readAll ⟨0, 0, out⟩ (a.toNat / 4 :: (a.toNat % 4 * 16 + b.toNat / 16) ::
        (b.toNat % 16 * 4 + c.toNat / 64) :: c.toNat % 64 :: ds) =
      Reader.readAll ⟨0, 0, out ++ [a, b, c]⟩ ds := by
  have ha := a.toNat_lt
  have hb := b.toNat_lt
  have hc := c.toNat_lt
  have hfirst : (a.toNat / 4 * 64 + (a.toNat % 4 * 16 + b.toNat / 16)) / 16 = a.toNat := by
    omega
  have hfirstLeft : (a.toNat / 4 * 64 + (a.toNat % 4 * 16 + b.toNat / 16)) % 16 =
      b.toNat / 16 := by omega
  have hsecond : (b.toNat / 16 * 64 + (b.toNat % 16 * 4 + c.toNat / 64)) / 4 = b.toNat := by
    omega
  have hsecondLeft : (b.toNat / 16 * 64 + (b.toNat % 16 * 4 + c.toNat / 64)) % 4 =
      c.toNat / 64 := by omega
  have hthird : c.toNat / 64 * 64 + c.toNat % 64 = c.toNat := by omega
  simp [Reader.readAll, Reader.read, hfirst, hfirstLeft, hsecond, hsecondLeft, hthird,
    Nat.mod_one]

theorem out_readAll_digits (bytes out : List UInt8) :
    (Reader.readAll ⟨0, 0, out⟩ (digits bytes)).out = out ++ bytes := by
  induction bytes using digits.induct generalizing out with
  | case1 a b c rest ih =>
      rw [digits, readAll_group, ih, List.append_assoc]
      rfl
  | case2 a b =>
      have hb := b.toNat_lt
      have hfirst : (a.toNat / 4 * 64 + (a.toNat % 4 * 16 + b.toNat / 16)) / 16 =
          a.toNat := by omega
      have hfirstLeft : (a.toNat / 4 * 64 + (a.toNat % 4 * 16 + b.toNat / 16)) % 16 =
          b.toNat / 16 := by omega
      have hsecond : (b.toNat / 16 * 64 + b.toNat % 16 * 4) / 4 = b.toNat := by omega
      simp [digits, Reader.readAll, Reader.read, hfirst, hfirstLeft, hsecond]
  | case3 a =>
      have hfirst : (a.toNat / 4 * 64 + a.toNat % 4 * 16) / 16 = a.toNat := by omega
      simp [digits, Reader.readAll, Reader.read, hfirst]
  | case4 => simp [digits, Reader.readAll]

/-- Reading the digits of some bytes gives the bytes back. -/
theorem decode_digits (bytes : List UInt8) : decode (digits bytes) = bytes :=
  out_readAll_digits bytes []

end Base64

/-- A text with other elements put anywhere into it. -/
inductive Interspersed {α : Type*} (junk : α → Prop) : List α → List α → Prop
  | nil : Interspersed junk [] []
  | keep (c : α) {text longer : List α} (h : Interspersed junk text longer) :
      Interspersed junk (c :: text) (c :: longer)
  | put (c : α) {text longer : List α} (hc : junk c) (h : Interspersed junk text longer) :
      Interspersed junk text (c :: longer)

theorem Interspersed.mem {α : Type*} {junk : α → Prop} {text longer : List α}
    (h : Interspersed junk text longer) {c : α} (hc : c ∈ longer) : c ∈ text ∨ junk c := by
  induction h with
  | nil => exact Or.inl hc
  | keep first _ ih =>
      rcases List.mem_cons.mp hc with rfl | hrest
      · exact Or.inl (List.mem_cons_self ..)
      · exact (ih hrest).imp_left (List.mem_cons_of_mem first)
  | put first hfirst _ ih =>
      rcases List.mem_cons.mp hc with rfl | hrest
      · exact Or.inr hfirst
      · exact ih hrest

/-- What a filter finds in a text is found behind such elements too when it
skips all of them. -/
theorem Interspersed.filterMap_eq {α β : Type*} {junk : α → Prop} {f : α → Option β}
    (hskip : ∀ c, junk c → f c = none) {text longer : List α}
    (h : Interspersed junk text longer) : longer.filterMap f = text.filterMap f := by
  induction h with
  | nil => rfl
  | keep c _ ih => rw [List.filterMap_cons, List.filterMap_cons, ih]
  | put c hc _ ih => rw [List.filterMap_cons_none (hskip c hc), ih]
