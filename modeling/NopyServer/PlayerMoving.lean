/-
The packets that are made of a `PlayerMoving`: packing and unpacking it, and
sending the 56 bytes.  `packPlayerMoving` writes four bytes at place 3, over the
highest byte of the packet type, and `send_raw` looks for the length of the
extended data at byte 13, where the character state is.
-/
import NopyServer.Lib.ByteMemory

namespace NopyServer

namespace TankPackets

open ByteMemory

/-- The members of `PlayerMoving` that are packed or unpacked; a float is its
bits. -/
structure PlayerMoving where
  netID : Int32 := 0
  effectFlagsCheck : Int32 := 0
  packetType : Int32 := 0
  characterState : Int32 := 0
  plantingTree : Int32 := 0
  punchX : Int32 := 0
  punchY : Int32 := 0
  x : UInt32 := 0
  y : UInt32 := 0
  xSpeed : UInt32 := 0
  ySpeed : UInt32 := 0
  packetInt40 : Int32 := 0

/-- `Memory_Set` with zero. -/
def clear (size : Nat) (data : Nat → UInt8) : Nat → UInt8 :=
  store (List.replicate size 0) 0 data

/-- What both packers copy behind the net id. -/
def laterCopies (m : PlayerMoving) : List (Nat × UInt32) :=
  [(12, m.characterState.toUInt32), (20, m.plantingTree.toUInt32), (24, m.x), (28, m.y),
    (32, m.xSpeed), (36, m.ySpeed), (40, m.packetInt40.toUInt32), (44, m.punchX.toUInt32),
    (48, m.punchY.toUInt32)]

/-- `packPlayerMoving` in a new buffer. -/
def packPlayerMoving (m : PlayerMoving) (size : Nat) (someExtra : Int32)
    (data : Nat → UInt8) : Nat → UInt8 :=
  storeAll ((0, m.packetType.toUInt32) :: (3, someExtra.toUInt32) ::
    (4, m.netID.toUInt32) :: laterCopies m) (clear size data)

/-- `packPlayerMovingStack` in a buffer of the caller. -/
def packPlayerMovingStack (data : Nat → UInt8) (m : PlayerMoving) : Nat → UInt8 :=
  storeAll ((0, m.packetType.toUInt32) :: (4, m.netID.toUInt32) :: laterCopies m)
    (clear 56 data)

/-- `unpackPlayerMoving`; nothing is read from a null pointer. -/
def unpackPlayerMoving (data : Option (Nat → UInt8)) : PlayerMoving :=
  match data with
  | none => {}
  | some data =>
      { packetType := (word data 0).toInt32
        netID := (word data 4).toInt32
        effectFlagsCheck := (word data 8).toInt32
        characterState := (word data 12).toInt32
        plantingTree := (word data 20).toInt32
        x := word data 24
        y := word data 28
        xSpeed := word data 32
        ySpeed := word data 36
        punchX := (word data 44).toInt32
        punchY := (word data 48).toInt32 }

/-- The first bytes of a buffer. -/
def bytes (size : Nat) (data : Nat → UInt8) : List UInt8 := (List.range size).map data

/-- The members that unpacking is to restore. -/
structure Restored (m back : PlayerMoving) : Prop where
  packetType : back.packetType = m.packetType
  netID : back.netID = m.netID
  effectFlagsCheck : back.effectFlagsCheck = m.effectFlagsCheck
  characterState : back.characterState = m.characterState
  plantingTree : back.plantingTree = m.plantingTree
  x : back.x = m.x
  y : back.y = m.y
  xSpeed : back.xSpeed = m.xSpeed
  ySpeed : back.ySpeed = m.ySpeed
  punchX : back.punchX = m.punchX
  punchY : back.punchY = m.punchY

section Packing

variable {m : PlayerMoving} {data stack : Nat → UInt8}

theorem clear_agree (size : Nat) (data : Nat → UInt8) :
    Agree size (clear size data) fun _ => 0 := by
  intro i hi
  have hzero : clear size data i = clear size (fun _ => 0) i :=
    store_inside _ _ (Nat.zero_le i) (by simpa using hi)
  rw [hzero, clear, store_replicate]

theorem word_congr {size place : Nat} {data other : Nat → UInt8} (h : Agree size data other)
    (hin : place + 4 ≤ size) : word data place = word other place := by
  unfold word
  rw [number_congr fun i _ hi => h i (by omega)]

/-- The packet type is read back with the extra value as its highest byte. -/
theorem word_packed_type (someExtra : Int32) :
    word (packPlayerMoving m 56 someExtra data) 0 =
      UInt32.ofNat (m.packetType.toUInt32.toNat % 256 ^ 3 +
        256 ^ 3 * (someExtra.toUInt32.toNat % 256 ^ 1)) := by
  have hlater : Apart ((4, m.netID.toUInt32) :: laterCopies m) 0 4 := by
    simp [Apart, laterCopies]
  have hcopies : packPlayerMoving m 56 someExtra data =
      storeAll ((4, m.netID.toUInt32) :: laterCopies m)
        (store (bytesOf 4 someExtra.toUInt32.toNat) 3
          (store (bytesOf 4 m.packetType.toUInt32.toNat) 0 (clear 56 data))) := rfl
  rw [word, hcopies, number_storeAll hlater, number_add _ 0 3 1,
    number_store_elsewhere _ (Or.inl (by decide)), number_store_low _ 0 3 1,
    number_store_low _ 3 1 3]

/-- The numbers from the net id on are read back. -/
theorem word_packed (someExtra : Int32) {n : Nat × UInt32}
    (hn : n ∈ (4, m.netID.toUInt32) :: laterCopies m) :
    word (packPlayerMoving m 56 someExtra data) n.1 = n.2 := by
  apply word_storeAll_of_mem _ hn
  simp [laterCopies]

/-- Nothing is packed at the place of the effect flags. -/
theorem word_packed_effectFlags : word (packPlayerMoving m 56 0 data) 8 = 0 := by
  have hcopies : Apart ((0, m.packetType.toUInt32) :: (3, Int32.toUInt32 0) ::
      (4, m.netID.toUInt32) :: laterCopies m) 8 4 := by
    simp [Apart, laterCopies]
  have hblank := @word_congr 56 8 _ _ (clear_agree 56 data) (by decide)
  unfold word at hblank ⊢
  rw [packPlayerMoving, number_storeAll hcopies, hblank]
  rfl

/-- What unpacking gives of a packed value. -/
theorem unpackPlayerMoving_packPlayerMoving :
    unpackPlayerMoving (some (packPlayerMoving m 56 0 data)) =
      { m with
        packetType := (UInt32.ofNat (m.packetType.toUInt32.toNat % 256 ^ 3)).toInt32
        effectFlagsCheck := 0
        packetInt40 := 0 } := by
  have hread : ∀ n ∈ (4, m.netID.toUInt32) :: laterCopies m,
      word (packPlayerMoving m 56 0 data) n.1 = n.2 := fun n hn => word_packed 0 hn
  simp only [laterCopies, List.forall_mem_cons] at hread
  obtain ⟨hid, hstate, htree, hx, hy, hxSpeed, hySpeed, -, hpunchX, hpunchY, -⟩ := hread
  have hextra : (Int32.toUInt32 0).toNat % 256 ^ 1 = 0 := rfl
  unfold unpackPlayerMoving
  dsimp only at *
  rw [word_packed_type, hextra, Nat.mul_zero, Nat.add_zero, word_packed_effectFlags, hid, hstate,
    htree, hx, hy, hxSpeed, hySpeed, hpunchX, hpunchY]
  simp

/-- A packet type comes back when it has three bytes. -/
theorem packetType_kept_iff : (UInt32.ofNat (m.packetType.toUInt32.toNat % 256 ^ 3)).toInt32 =
    m.packetType ↔ m.packetType.toUInt32.toNat < 256 ^ 3 := by
  constructor
  · intro hsame
    have hlow := Nat.mod_lt m.packetType.toUInt32.toNat (show 0 < 256 ^ 3 by decide)
    have hnumber := congrArg (fun n : Int32 => n.toUInt32.toNat) hsame
    simp only [UInt32.toUInt32_toInt32, UInt32.toNat_ofNat'] at hnumber
    omega
  · intro hlt
    rw [Nat.mod_eq_of_lt hlt, UInt32.ofNat_toNat, Int32.toInt32_toUInt32]

/-- The two packers agree when the packet type has three bytes. -/
theorem bytes_packPlayerMovingStack (hlt : m.packetType.toUInt32.toNat < 256 ^ 3) :
    bytes 56 (packPlayerMovingStack stack m) = bytes 56 (packPlayerMoving m 56 0 data) := by
  have hblank : Agree 56 (clear 56 stack) (clear 56 data) := fun i hi =>
    (clear_agree 56 stack i hi).trans (clear_agree 56 data i hi).symm
  -- the four bytes at place 3 are those of the packet type and of the net id
  have hagree : Agree 56
      (storeAll [(0, m.packetType.toUInt32), (4, m.netID.toUInt32)] (clear 56 stack))
      (storeAll [(0, m.packetType.toUInt32), (3, 0), (4, m.netID.toUInt32)] (clear 56 data)) := by
    apply agree_store
    intro i hi hout
    rw [length_bytesOf] at hout
    have hfirst := hblank.store (bytesOf 4 m.packetType.toUInt32.toNat) 0
    by_cases hthree : i = 3
    · subst hthree
      apply UInt8.toNat_inj.mp
      have hhigh := byte_store_high (clear 56 stack) 0 3 m.packetType.toUInt32.toNat
      have hfits : m.packetType.toUInt32.toNat < 256 ^ (3 + 1) := by omega
      rw [Nat.mod_eq_of_lt hfits, Nat.div_eq_of_lt hlt] at hhigh
      exact hhigh
    · exact (hfirst i hi).trans (store_outside _ (by rw [length_bytesOf]; omega)).symm
  apply List.map_congr_left
  intro i hi
  exact hagree.storeAll (laterCopies m) i (List.mem_range.mp hi)

/-- Unpacking restores the members, and the packers agree, exactly for the
packet types of three bytes and without effect flags. -/
theorem packing_restores_iff (m : PlayerMoving) (data stack : Nat → UInt8) :
    (Restored m (unpackPlayerMoving (some (packPlayerMoving m 56 0 data))) ∧
        bytes 56 (packPlayerMovingStack stack m) = bytes 56 (packPlayerMoving m 56 0 data)) ↔
      m.packetType.toUInt32.toNat < 2 ^ 24 ∧ m.effectFlagsCheck = 0 := by
  rw [unpackPlayerMoving_packPlayerMoving]
  constructor
  · rintro ⟨hrestored, -⟩
    exact ⟨packetType_kept_iff.mp hrestored.packetType, hrestored.effectFlagsCheck.symm⟩
  · rintro ⟨htype, hflags⟩
    refine ⟨?_, bytes_packPlayerMovingStack htype⟩
    exact ⟨packetType_kept_iff.mpr htype, rfl, hflags.symm, rfl, rfl, rfl, rfl, rfl, rfl, rfl,
      rfl⟩

/-- The effect flags that are set by the code for some packets are lost. -/
theorem effectFlags_are_lost :
    ¬ ∀ (m : PlayerMoving) (data stack : Nat → UInt8),
      Restored m (unpackPlayerMoving (some (packPlayerMoving m 56 0 data))) ∧
        bytes 56 (packPlayerMovingStack stack m) =
          bytes 56 (packPlayerMoving m 56 0 data) := by
  intro h
  have hrestored := (h { effectFlagsCheck := 1 } (fun _ => 0) fun _ => 0).1
  exact absurd hrestored.effectFlagsCheck (by decide)

end Packing

/-- What is put on the wire for an `int`. -/
def intBytes (n : Int32) : List UInt8 := bytesOf 4 n.toUInt32.toNat

/-- The number of four bytes in a buffer. -/
def numberAt (packetData : List UInt8) (place : Nat) : Nat :=
  number (fun i => packetData.getD i 0) place 4

/-- `memcpy` into a packet. -/
def overwrite (place : Nat) (source dst : List UInt8) : List UInt8 :=
  dst.take place ++ source ++ dst.drop (place + source.length)

/-- `send_raw` to a connected peer: the packet that is sent, if one is. -/
def sendRaw (a1 : Int32) (packetData : List UInt8) (delay : Int32) : Option (List UInt8) :=
  if packetData.length = 0 then none
  else
    let extraDataLength :=
      if a1 = 4 ∧ 13 + 4 ≤ packetData.length then numberAt packetData 13 else 0
    let finalSize := 4 + packetData.length + extraDataLength
    if 2 ^ 24 < finalSize then none
    else
      let dst := intBytes a1 ++ packetData ++ List.replicate extraDataLength 0
      if delay ≠ 0 then
        let dst := if 24 + 4 ≤ finalSize then overwrite 24 (intBytes delay) dst else dst
        some (if 56 + 4 ≤ finalSize then overwrite 56 (intBytes 0x19) dst else dst)
      else some dst

/-- `SendPacketRaw`; the last byte of its packet is not written. -/
def sendPacketRaw (a1 : Int32) (packetData a4 : List UInt8) (last : UInt8) : List UInt8 :=
  if a1 = 4 ∧ packetData.getD 12 0 &&& 8 ≠ 0 then
    intBytes 4 ++ packetData ++ a4.take (numberAt packetData (4 * 13)) ++ [last]
  else if a1 = 192 then intBytes 4 ++ packetData ++ [last]
  else intBytes a1 ++ packetData ++ [last]

/-- The length of the extended data of a tank packet as `SendPacketRaw` reads it. -/
def extendedLength (packetData : List UInt8) : Nat :=
  if packetData.getD 12 0 &&& 8 ≠ 0 then numberAt packetData (4 * 13) else 0

/-- `send_raw` sends a tank packet with zeros for the extended data that the
other sender would send, and does not drop it while the length of the extended
data is within a cap. -/
structure SendsDeclared (cap : Nat) (packetData : List UInt8) : Prop where
  wire : ∀ out, sendRaw 4 packetData 0 = some out →
    out = intBytes 4 ++ packetData ++ List.replicate (extendedLength packetData) 0
  sent : extendedLength packetData ≤ cap → (sendRaw 4 packetData 0).isSome

section Sending

/-- A tank packet is sent with as many zeros as byte 13 and the next ones say. -/
theorem sendRaw_tank (packetData : Vector UInt8 56) :
    sendRaw 4 packetData.toList 0 =
      if 2 ^ 24 < 60 + numberAt packetData.toList 13 then none
      else some (intBytes 4 ++ packetData.toList ++
        List.replicate (numberAt packetData.toList 13) 0) := by
  have hlength : packetData.toList.length = 56 := by simp
  unfold sendRaw
  rw [hlength]
  simp

/-- Behind the header `SendPacketRaw` has the extended data, as long as `extendedLength`
says, and its last byte. -/
theorem length_sendPacketRaw (packetData : Vector UInt8 56) {a4 : List UInt8} (last : UInt8)
    (ha4 : extendedLength packetData.toList ≤ a4.length) :
    (sendPacketRaw 4 packetData.toList a4 last).length =
      56 + extendedLength packetData.toList + 5 := by
  unfold sendPacketRaw
  unfold extendedLength at *
  by_cases hflag : packetData.toList.getD 12 0 &&& 8 ≠ 0
  · rw [if_pos hflag] at ha4
    rw [if_pos ⟨rfl, hflag⟩, if_pos hflag]
    simp [intBytes, ha4]
    omega
  · rw [if_neg fun hboth => hflag hboth.2, if_neg (by decide), if_neg hflag]
    simp [intBytes]

/-- The two senders agree on a tank packet when both places hold the same
number, and a number within the cap leaves room for the header, or when one
number is dropped and the other is beyond the cap. -/
theorem sendsDeclared_iff (cap : Nat) (packetData : Vector UInt8 56) :
    SendsDeclared cap packetData.toList ↔
      (numberAt packetData.toList 13 = extendedLength packetData.toList ∧
        (extendedLength packetData.toList ≤ cap →
          60 + extendedLength packetData.toList ≤ 2 ^ 24)) ∨
      (2 ^ 24 < 60 + numberAt packetData.toList 13 ∧
        cap < extendedLength packetData.toList) := by
  have hsend := sendRaw_tank packetData
  constructor
  · rintro ⟨hwire, hsent⟩
    by_cases hcap : 2 ^ 24 < 60 + numberAt packetData.toList 13
    · right
      rw [hsend, if_pos hcap] at hsent
      refine ⟨hcap, ?_⟩
      by_contra hfits
      exact absurd (hsent (by omega)) (by simp)
    · left
      rw [if_neg hcap] at hsend
      have hzeros := congrArg List.length (hwire _ hsend)
      simp at hzeros
      exact ⟨hzeros, fun _ => by omega⟩
  · intro hagree
    constructor
    · intro out hout
      rw [hsend] at hout
      split_ifs at hout with hcap
      cases hout
      rcases hagree with ⟨hsame, -⟩ | ⟨hover, -⟩
      · rw [hsame]
      · exact absurd hover hcap
    · intro hfits
      rw [hsend]
      rcases hagree with ⟨hsame, hroom⟩ | ⟨-, hover⟩
      · have hfinal := hroom hfits
        rw [if_neg (by omega)]
        rfl
      · exact absurd hfits (by omega)

/-- A tank packet of zeros with a character state of 256. -/
def state256 : Vector UInt8 56 := Vector.ofFn fun i => if i = 13 then 1 else 0

/-- The character state adds a byte to the packet. -/
theorem characterState_is_read_as_length :
    ¬ ∀ packetData : Vector UInt8 56, SendsDeclared (2 ^ 24 - 60) packetData.toList := by
  intro h
  have hwire := (h state256).wire
  have hsend := sendRaw_tank state256
  have hlength : numberAt state256.toList 13 = 1 := by decide
  have hnone : extendedLength state256.toList = 0 := by decide
  rw [hlength, if_neg (by decide)] at hsend
  have hzeros := congrArg List.length (hwire _ hsend)
  rw [hnone] at hzeros
  simp at hzeros

end Sending

end TankPackets

end NopyServer
