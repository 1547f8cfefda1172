/-
Reading the text of a login.  `base64_decode_safe` takes both alphabets and
skips every other character; its accumulator is never masked, and only the bits
that are not given out yet matter.
-/
import Mathlib.Tactic.LinearCombination
import Mathlib.Tactic.Positivity
import NopyServer.Lib.Base64
import NopyServer.Text

namespace NopyServer

namespace LoginHandler

/-- A character of a `std::string`. -/
def byte (c : Char) : UInt8 := UInt8.ofNat c.toNat

/-- `base64_chars`. -/
def base64Chars : List UInt8 :=
  "ABCDEFGHIJKLMNOPQRSTUVWXYZabcdefghijklmnopqrstuvwxyz0123456789+/".toList.map byte

/-- The table `T`. -/
def base64Table (c : UInt8) : Int :=
  if c ∈ base64Chars then base64Chars.idxOf c else -1

/-- The variables of the loop of `base64_decode_safe`. -/
structure DecodeLoop where
  val : Int := 0
  valb : Int := -8
  out : List UInt8 := []

/-- The loop body for a digit. -/
def DecodeLoop.push (st : DecodeLoop) (d : Int) : DecodeLoop :=
  let val := int32 (int32 (st.val * 2 ^ 6) + d)
  let valb := st.valb + 6
  if 0 ≤ valb then
    { val := val
      valb := valb - 8
      out := st.out ++ [UInt8.ofNat (val / 2 ^ valb.toNat % 256).toNat] }
  else { st with val := val, valb := valb }

/-- A character of the other alphabet becomes the one of the table. -/
def plainChar (c : UInt8) : UInt8 :=
  if c = byte '-' then byte '+' else if c = byte '_' then byte '/' else c

/-- The loop over the characters. -/
def DecodeLoop.run : List UInt8 → DecodeLoop → DecodeLoop
  | [], st => st
  | ch :: rest, st =>
      let c := plainChar ch
      if c = byte '=' then st
      else
        let d := base64Table c
        if d = -1 then run rest st else run rest (st.push d)

/-- `base64_decode_safe`. -/
def base64DecodeSafe (input : List UInt8) : List UInt8 := (DecodeLoop.run input {}).out

section Decoding

/-- The digit that a character stands for. -/
def digit? (ch : UInt8) : Option Nat :=
  if plainChar ch ∈ base64Chars then some (base64Chars.idxOf (plainChar ch)) else none

/-- The digits of a text before its padding. -/
def digitsOf (input : List UInt8) : List Nat :=
  (input.takeWhile (· ≠ byte '=')).filterMap digit?

/-- The accumulator agrees with a reader on the bits that are not given out;
whatever stands above them is left from earlier digits. -/
structure Agrees (st : DecodeLoop) (r : Base64.Reader) : Prop where
  bits : r.bits < 8
  acc : st.val % 2 ^ r.bits = r.acc
  valb : st.valb = (r.bits : Int) - 8
  out : st.out = r.out

theorem int32_emod (n : Int) : int32 n % 2 ^ 32 = n % 2 ^ 32 := by
  unfold int32
  rw [Int.bmod_def]
  split <;> omega

/-- The low bits of the accumulator after one more digit. -/
theorem push_val_emod (val d : Int) {k : Nat} (hk : k ≤ 32) :
    int32 (int32 (val * 2 ^ 6) + d) % 2 ^ k = (val * 64 + d) % 2 ^ k := by
  have hdvd : (2 ^ k : Int) ∣ 2 ^ 32 := pow_dvd_pow 2 hk
  have hshift := int32_emod (val * 2 ^ 6)
  have hsum := int32_emod (int32 (val * 2 ^ 6) + d)
  rw [← Int.emod_emod_of_dvd _ hdvd, hsum, Int.emod_emod_of_dvd _ hdvd, Int.add_emod,
    ← Int.emod_emod_of_dvd (int32 (val * 2 ^ 6)) hdvd, hshift, Int.emod_emod_of_dvd _ hdvd,
    ← Int.add_emod]
  rfl

/-- The bits that are read once a digit is put behind those that are kept. -/
theorem low_bits {val : Int} {acc bits d : Nat} (hacc : val % 2 ^ bits = acc) (hd : d < 64) :
    (val * 64 + d) % 2 ^ (bits + 6) = (acc * 64 + d : Nat) := by
  have hval := Int.emod_add_mul_ediv val (2 ^ bits)
  have hlt : (acc : Int) < 2 ^ bits := hacc ▸ Int.emod_lt_of_pos val (by positivity)
  have hpow : (2 : Int) ^ (bits + 6) = 2 ^ bits * 64 := pow_add 2 bits 6
  have hsplit : val * 64 + d = acc * 64 + d + 2 ^ (bits + 6) * (val / 2 ^ bits) := by
    rw [hpow, ← hacc]
    linear_combination (-64) * hval
  rw [hsplit, Int.add_mul_emod_self_left, Int.emod_eq_of_lt (by omega) (by rw [hpow]; omega)]
  push_cast
  rfl

/-- The byte that is given out, and the bits that are kept. -/
theorem give_out {new : Int} {all kept : Nat} (hlow : new % 2 ^ (kept + 8) = all) :
    (new / 2 ^ kept % 256).toNat = all / 2 ^ kept ∧ new % 2 ^ kept = (all % 2 ^ kept : Nat) := by
  have hpow : (2 : Int) ^ (kept + 8) = 2 ^ kept * 256 := pow_add 2 kept 8
  have hlt : (all : Int) < 2 ^ (kept + 8) := hlow ▸ Int.emod_lt_of_pos new (by positivity)
  constructor
  · obtain ⟨q, hq⟩ : ∃ q, new = all + 2 ^ kept * (256 * q) := by
      refine ⟨new / 2 ^ (kept + 8), ?_⟩
      rw [← Int.mul_assoc, ← hpow, ← hlow, Int.emod_add_mul_ediv]
    have hbyte : all / 2 ^ kept < 256 := by
      apply Nat.div_lt_of_lt_mul
      rw [hpow] at hlt
      exact_mod_cast hlt
    have hquotient : new / 2 ^ kept = (all / 2 ^ kept : Nat) + 256 * q := by
      rw [hq, Int.add_mul_ediv_left _ _ (by positivity)]
      push_cast
      rfl
    rw [hquotient, Int.add_mul_emod_self_left,
      Int.emod_eq_of_lt (Int.natCast_nonneg _) (by exact_mod_cast hbyte), Int.toNat_natCast]
  · rw [← Int.emod_emod_of_dvd new (pow_dvd_pow 2 (Nat.le_add_right kept 8)), hlow]
    push_cast
    rfl

theorem Agrees.push {st : DecodeLoop} {r : Base64.Reader} (h : Agrees st r) {d : Nat}
    (hd : d < 64) : Agrees (st.push d) (r.read d) := by
  obtain ⟨hbits, hacc, hvalb, hout⟩ := h
  have hnext := Base64.Reader.bits_read_lt hbits d
  -- the bits that are read so far, and the new ones
  have hlow : int32 (int32 (st.val * 2 ^ 6) + d) % 2 ^ (r.bits + 6) =
      (r.acc * 64 + d : Nat) := by
    rw [push_val_emod st.val d (by omega), low_bits hacc hd]
  unfold DecodeLoop.push Base64.Reader.read at *
  dsimp only at hnext ⊢
  by_cases htwo : 2 ≤ r.bits
  · have hwidth : r.bits + 6 = r.bits - 2 + 8 := by omega
    rw [hwidth] at hlow
    obtain ⟨hbyte, hleft⟩ := give_out hlow
    have hvalb' : 0 ≤ st.valb + 6 := by omega
    have hshift : (st.valb + 6).toNat = r.bits - 2 := by omega
    rw [if_pos htwo] at hnext ⊢
    rw [if_pos hvalb', hshift, hbyte, hout]
    exact ⟨hnext, hleft, by dsimp only; omega, rfl⟩
  · have hvalb' : ¬ 0 ≤ st.valb + 6 := by omega
    rw [if_neg htwo] at hnext ⊢
    rw [if_neg hvalb']
    exact ⟨hnext, hlow, by dsimp only; omega, hout⟩

/-- A reader without bits is what the loop starts as. -/
theorem agrees_start : Agrees {} {} := ⟨by decide, rfl, rfl, rfl⟩

theorem plainChar_eq_pad_iff (ch : UInt8) : plainChar ch = byte '=' ↔ ch = byte '=' := by
  unfold plainChar
  split_ifs with hdash hscore
  · subst hdash
    decide
  · subst hscore
    decide
  · rfl

theorem digit?_lt {ch : UInt8} {d : Nat} (h : digit? ch = some d) : d < 64 := by
  unfold digit? at h
  split_ifs at h with hmem
  cases h
  exact List.idxOf_lt_length_of_mem hmem

/-- The table holds the digit of a character, and -1 for every other one. -/
theorem base64Table_plainChar (ch : UInt8) :
    base64Table (plainChar ch) = (digit? ch).elim (-1) (fun d => (d : Int)) := by
  unfold base64Table digit?
  split_ifs <;> rfl

/-- The loop reads the digits of the text. -/
theorem Agrees.run (input : List UInt8) {st : DecodeLoop} {r : Base64.Reader}
    (h : Agrees st r) : Agrees (DecodeLoop.run input st) (r.readAll (digitsOf input)) := by
  induction input generalizing st r with
  | nil => exact h
  | cons ch rest ih =>
      rw [DecodeLoop.run]
      dsimp only
      by_cases hpad : ch = byte '='
      · have hdigits : digitsOf (ch :: rest) = [] := by simp [digitsOf, hpad]
        rw [if_pos ((plainChar_eq_pad_iff ch).mpr hpad), hdigits]
        exact h
      · have hdigits : digitsOf (ch :: rest) = (digit? ch).toList ++ digitsOf rest := by
          simp [digitsOf, hpad, List.filterMap_cons]
          cases digit? ch <;> rfl
        rw [if_neg (mt (plainChar_eq_pad_iff ch).mp hpad), base64Table_plainChar, hdigits]
        cases hdigit : digit? ch with
        | none => exact ih h
        | some d =>
            simp only [Option.elim_some]
            exact ih (h.push (digit?_lt hdigit))

/-- The decoder gives out the bytes of the digits, whatever overflows. -/
theorem base64DecodeSafe_eq_decode (input : List UInt8) :
    base64DecodeSafe input = Base64.decode (digitsOf input) :=
  (agrees_start.run input).out

end Decoding

section Encodings

inductive Alphabet where
  | standard
  | urlSafe
deriving DecidableEq

def Alphabet.chars : Alphabet → List UInt8
  | .standard => base64Chars
  | .urlSafe =>
      "ABCDEFGHIJKLMNOPQRSTUVWXYZabcdefghijklmnopqrstuvwxyz0123456789-_".toList.map byte

/-- The base64 encoding without padding. -/
def Alphabet.encode (alphabet : Alphabet) (bytes : List UInt8) : List UInt8 :=
  (Base64.digits bytes).map fun d => alphabet.chars.getD d 0

/-- The padding behind the encoding of some bytes. -/
def padding (bytes : List UInt8) : List UInt8 :=
  List.replicate (Base64.paddingLength bytes.length) (byte '=')

/-- A character of neither alphabet that is not padding. -/
def OutsideBoth (c : UInt8) : Prop :=
  c ∉ Alphabet.standard.chars ∧ c ∉ Alphabet.urlSafe.chars ∧ c ≠ byte '='

theorem digit?_chars (alphabet : Alphabet) :
    ∀ d < 64, digit? (alphabet.chars.getD d 0) = some d := by
  cases alphabet <;> decide +kernel

theorem digit?_outside {c : UInt8} (hc : OutsideBoth c) : digit? c = none := by
  obtain ⟨hstandard, hurl, -⟩ := hc
  have hplain : c ∉ base64Chars := hstandard
  have hdash : c ≠ byte '-' := by
    rintro rfl
    exact hurl (by decide)
  have hscore : c ≠ byte '_' := by
    rintro rfl
    exact hurl (by decide)
  unfold digit? plainChar
  rw [if_neg hdash, if_neg hscore, if_neg hplain]

theorem filterMap_digit?_encode (alphabet : Alphabet) (bytes : List UInt8) :
    (alphabet.encode bytes).filterMap digit? = Base64.digits bytes := by
  unfold Alphabet.encode
  have hdigits : ∀ d ∈ Base64.digits bytes,
      (digit? ∘ fun d => alphabet.chars.getD d 0) d = some d :=
    fun d hd => digit?_chars alphabet d (Base64.digits_lt bytes d hd)
  rw [List.filterMap_map, List.filterMap_congr hdigits, List.filterMap_some]

theorem pad_notMem_encode (alphabet : Alphabet) (bytes : List UInt8) :
    byte '=' ∉ alphabet.encode bytes := by
  intro hmem
  obtain ⟨d, hd, hchar⟩ := List.mem_map.mp hmem
  have hdigit := digit?_chars alphabet d (Base64.digits_lt bytes d hd)
  have hnone : digit? (byte '=') = none := by decide
  rw [hchar, hnone] at hdigit
  cases hdigit

/-- The digits of an encoding with other characters in it, padded or not. -/
theorem digitsOf_interspersed {alphabet : Alphabet} {bytes body pad : List UInt8}
    (hbody : Interspersed OutsideBoth (alphabet.encode bytes) body)
    (hpad : pad = [] ∨ pad = padding bytes) :
    digitsOf (body ++ pad) = Base64.digits bytes := by
  have hplain : ∀ c ∈ body, decide (c ≠ byte '=') = true := by
    intro c hc
    rcases hbody.mem hc with hencoded | hjunk
    · apply decide_eq_true
      rintro rfl
      exact pad_notMem_encode alphabet bytes hencoded
    · exact decide_eq_true hjunk.2.2
  have hpadded : pad.takeWhile (· ≠ byte '=') = [] := by
    rcases hpad with rfl | rfl
    · rfl
    · simp [padding]
  unfold digitsOf
  rw [List.takeWhile_append_of_pos hplain, hpadded, List.append_nil,
    hbody.filterMap_eq (fun _ => digit?_outside), filterMap_digit?_encode]

/-- Decoding gives back what was encoded, with other characters put in before
the padding. -/
theorem base64DecodeSafe_encode (alphabet : Alphabet) (bytes body pad : List UInt8)
    (hbody : Interspersed OutsideBoth (alphabet.encode bytes) body)
    (hpad : pad = [] ∨ pad = padding bytes) : base64DecodeSafe (body ++ pad) = bytes := by
  rw [base64DecodeSafe_eq_decode, digitsOf_interspersed hbody hpad, Base64.decode_digits]

theorem base64DecodeSafe_encode_one : base64DecodeSafe
    ([byte 'T', byte '.', byte 'Q'] ++ [byte '=', byte '=']) = [77] :=
  base64DecodeSafe_encode .standard [77] _ _
    (.keep _ (.put _ ⟨by decide, by decide, by decide⟩ (.keep _ .nil))) (Or.inr rfl)

/-- A character of the URL alphabet stands for a digit in a standard text. -/
theorem dash_is_read_in_standard_text :
    ¬ ∀ (alphabet : Alphabet) (bytes body pad : List UInt8),
      Interspersed (fun c => c ∉ alphabet.chars ∧ c ≠ byte '=') (alphabet.encode bytes) body →
      (pad = [] ∨ pad = padding bytes) → base64DecodeSafe (body ++ pad) = bytes := by
  intro h
  have hdecoded := h .standard [77] [byte 'T', byte '-', byte 'Q'] []
    (.keep _ (.put _ ⟨by decide, by decide⟩ (.keep _ .nil))) (Or.inl rfl)
  have hread : base64DecodeSafe ([byte 'T', byte '-', byte 'Q'] ++ []) = [79, 228] := by
    decide
  rw [hread] at hdecoded
  cases hdecoded

end Encodings

end LoginHandler

end NopyServer
