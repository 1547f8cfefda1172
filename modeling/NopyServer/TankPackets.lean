/-
The checks on the length of a received tank packet: `GetStructPointerFromTankPacket`
and `DataToUpdatePacket`.  Both look for the extended data behind the four bytes
of the message type and the 56 bytes of the header, and both miss the end of the
packet by a few bytes for some lengths.
-/
import NopyServer.Lib.ByteMemory
import NopyServer.Text

namespace NopyServer

namespace TankPackets

open ByteMemory

/-- A received packet.  The memory goes on behind its `dataLength` bytes. -/
structure ENetPacket where
  data : Nat → UInt8
  dataLength : Nat

/-- The flag for extended data. -/
def ENetPacket.Extended (packet : ENetPacket) : Prop := packet.data 16 &&& 8 ≠ 0

instance (packet : ENetPacket) : Decidable packet.Extended :=
  inferInstanceAs (Decidable (_ ≠ _))

/-- The length of the extended data. -/
def ENetPacket.ext (packet : ENetPacket) : Nat := number packet.data 56 4

/-- `GetStructPointerFromTankPacket`: where the structure begins, and the packet
afterwards.  The length field is added as an `int`, and the sum is compared as
an `unsigned int`. -/
def getStructPointerFromTankPacket (packet : ENetPacket) : Option Nat × ENetPacket :=
  let packetLenght : Nat := packet.dataLength % 2 ^ 32
  if 0x3C ≤ packetLenght then
    if packet.data 16 &&& 8 ≠ 0 then
      let ext := int32 (number packet.data 56 4 : Nat)
      if (packetLenght : Int) < int32 (ext + 60) % 2 ^ 32 then (none, packet)
      else (some 4, packet)
    else (some 4, { packet with data := store (bytesOf 4 0) 56 packet.data })
  else (none, packet)

/-- What a pointer to the structure promises. -/
structure Checked (packet : ENetPacket) (result : Option Nat × ENetPacket) : Prop where
  header : result.1.isSome → 60 ≤ packet.dataLength
  extended : result.1.isSome → packet.Extended → 60 + packet.ext ≤ packet.dataLength
  cleared : result.1.isSome → ¬ packet.Extended → result.2.ext = 0

section Pointer

/-- The sum that the length is compared with. -/
theorem limit_eq (n : Nat) : int32 (int32 n + 60) % 2 ^ 32 = ((n + 60) % 2 ^ 32 : Nat) := by
  unfold int32
  rw [Int.bmod_def, Int.bmod_def]
  split_ifs <;> omega

theorem getStructPointer_eq (packet : ENetPacket) :
    getStructPointerFromTankPacket packet =
      if 60 ≤ packet.dataLength % 2 ^ 32 then
        if packet.Extended then
          if packet.dataLength % 2 ^ 32 < (packet.ext + 60) % 2 ^ 32 then (none, packet)
          else (some 4, packet)
        else (some 4, { packet with data := store (bytesOf 4 0) 56 packet.data })
      else (none, packet) := by
  unfold getStructPointerFromTankPacket
  dsimp only
  rw [limit_eq]
  simp only [Int.ofNat_lt]
  rfl

/-- The pointer is right unless the length field is so near to `2 ^ 32` that the
sum begins again at zero. -/
theorem getStructPointer_checked_iff (packet : ENetPacket) :
    Checked packet (getStructPointerFromTankPacket packet) ↔
      ¬ (60 ≤ packet.dataLength % 2 ^ 32 ∧ packet.Extended ∧
        2 ^ 32 ≤ packet.ext + 60 ∧ packet.dataLength < packet.ext + 60) := by
  have hfield : packet.ext < 256 ^ 4 := number_lt _ _ _
  have hshort : packet.dataLength % 2 ^ 32 ≤ packet.dataLength := Nat.mod_le _ _
  have hnone : Checked packet (none, packet) := ⟨by simp, by simp, by simp⟩
  rw [getStructPointer_eq]
  by_cases hheader : 60 ≤ packet.dataLength % 2 ^ 32
  · rw [if_pos hheader]
    by_cases hext : packet.Extended
    · rw [if_pos hext]
      split_ifs with hlimit
      · apply iff_of_true hnone
        omega
      · constructor
        · intro hchecked
          have hroom := hchecked.extended rfl hext
          omega
        · intro hnot
          have hroom : 60 + packet.ext ≤ packet.dataLength := by
            by_contra hout
            exact hnot ⟨hheader, hext, by omega, by omega⟩
          exact ⟨fun _ => by omega, fun _ _ => hroom, fun _ hplain => absurd hext hplain⟩
    · rw [if_neg hext]
      apply iff_of_true
      · exact ⟨fun _ => by omega, fun _ hflag => absurd hflag hext,
          fun _ _ => number_store packet.data 56 4 0⟩
      · rintro ⟨-, hflag, -⟩
        exact hext hflag
  · rw [if_neg hheader]
    apply iff_of_true hnone
    rintro ⟨hlong, -⟩
    exact hheader hlong

/-- A packet of a header alone, with the flag and the greatest length field. -/
def greatestExt : ENetPacket where
  data i := if i = 16 then 8 else if 56 ≤ i then 255 else 0
  dataLength := 60

theorem greatestExt_is_accepted :
    ¬ ∀ packet : ENetPacket, Checked packet (getStructPointerFromTankPacket packet) := by
  intro h
  have hroom := (h greatestExt).extended (by decide) (by decide)
  exact absurd hroom (by decide)

end Pointer

/-- The members of `GameUpdatePacket`, a union by its first name. -/
inductive Member where
  | type
  | objectType
  | count1
  | count2
  | netId
  | item
  | flags
  | floatVar
  | intData
  | vecX
  | vecY
  | vec2X
  | vec2Y
  | particleRotation
  | intX
  | intY
  | dataSize
  | data
deriving DecidableEq

/-- The members one behind the other, without gaps. -/
def members : List Member :=
  [.type, .objectType, .count1, .count2, .netId, .item, .flags, .floatVar, .intData, .vecX,
    .vecY, .vec2X, .vec2Y, .particleRotation, .intX, .intY, .dataSize, .data]

def Member.size : Member → Nat
  | .type | .objectType | .count1 | .count2 | .data => 1
  | _ => 4

/-- Where a member begins. -/
def Member.offset (member : Member) : Nat :=
  ((members.takeWhile (· ≠ member)).map Member.size).sum

/-- `sizeof(GameUpdatePacket)`. -/
def sizeofGameUpdatePacket : Nat := (members.map Member.size).sum

/-- A member of the structure that begins behind the message type. -/
def ENetPacket.member (packet : ENetPacket) (member : Member) : Nat :=
  number packet.data (4 + member.offset) member.size

/-- `DataToUpdatePacket`: where the structure begins. -/
def dataToUpdatePacket (packet : ENetPacket) : Option Nat :=
  if packet.dataLength < sizeofGameUpdatePacket - 5 then none
  else if packet.member .flags &&& 8 = 0 then some 4
  else if packet.dataLength < packet.member .dataSize + sizeofGameUpdatePacket then none
  else some 4

/-- What a pointer to the structure promises of the packet. -/
structure Inside (packet : ENetPacket) (result : Option Nat) : Prop where
  header : result.isSome → 60 ≤ packet.dataLength
  extended : result.isSome → packet.member .flags &&& 8 ≠ 0 →
    60 + packet.member .dataSize ≤ packet.dataLength

section Update

theorem sizeofGameUpdatePacket_eq : sizeofGameUpdatePacket = 57 := by decide

/-- The pointer is right except for the lengths up to eight bytes short of the
header, and up to three bytes short of the extended data. -/
theorem dataToUpdatePacket_inside_iff (packet : ENetPacket) :
    Inside packet (dataToUpdatePacket packet) ↔
      (packet.member .flags &&& 8 = 0 →
        packet.dataLength < 52 ∨ 60 ≤ packet.dataLength) ∧
      (packet.member .flags &&& 8 ≠ 0 →
        packet.dataLength < packet.member .dataSize + 57 ∨
          packet.member .dataSize + 60 ≤ packet.dataLength) := by
  have hnone : Inside packet none := ⟨by simp, by simp⟩
  unfold dataToUpdatePacket
  rw [sizeofGameUpdatePacket_eq]
  by_cases hshort : packet.dataLength < 57 - 5
  · rw [if_pos hshort]
    apply iff_of_true hnone
    omega
  · rw [if_neg hshort]
    by_cases hflag : packet.member .flags &&& 8 = 0
    · rw [if_pos hflag]
      constructor
      · intro hinside
        have hheader := hinside.header rfl
        exact ⟨fun _ => Or.inr hheader, fun hext => absurd hflag hext⟩
      · intro hlength
        have hheader := hlength.1 hflag
        exact ⟨fun _ => by omega, fun _ hext => absurd hflag hext⟩
    · rw [if_neg hflag]
      split_ifs with hroom
      · apply iff_of_true hnone
        exact ⟨fun hplain => absurd hplain hflag, fun _ => Or.inl hroom⟩
      · constructor
        · intro hinside
          have hext := hinside.extended rfl hflag
          exact ⟨fun hplain => absurd hplain hflag, fun _ => Or.inr (by omega)⟩
        · intro hlength
          have hext := hlength.2 hflag
          exact ⟨fun _ => by omega, fun _ _ => by omega⟩

/-- A packet of zeros that ends eight bytes short of the header. -/
theorem short_header_is_accepted :
    ¬ ∀ packet : ENetPacket, Inside packet (dataToUpdatePacket packet) := by
  intro h
  have hheader := (h ⟨fun _ => 0, 52⟩).header (by decide)
  exact absurd hheader (by decide)

end Update

end TankPackets

end NopyServer
