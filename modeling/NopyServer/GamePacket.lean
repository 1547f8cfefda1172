/-
The packets that the server calls functions of the client with: `gamepacket_t`.
Every `Insert` copies the packet, adds an index, a type and the bytes of the
value, and counts the values in byte 60.  What is read back is what was
inserted, as long as the length of the packet fits an `int`; the length of a
string is cut to 32 bits.
-/
import Mathlib.Algebra.GroupWithZero.Nat
import Mathlib.Data.List.Basic

namespace NopyServer

namespace GamePacket

/-- The four bytes of a number, the lowest first. -/
def bytes4 (n : UInt32) : List UInt8 :=
  [UInt8.ofNat n.toNat, UInt8.ofNat (n.toNat / 256),
    UInt8.ofNat (n.toNat / 65536), UInt8.ofNat (n.toNat / 16777216)]

/-- The number that starts a list of bytes, and the bytes after it. -/
def read4 : List UInt8 → Option (UInt32 × List UInt8)
  | a :: b :: c :: d :: rest =>
      some (UInt32.ofNat (a.toNat + 256 * b.toNat + 65536 * c.toNat +
        16777216 * d.toNat), rest)
  | _ => none

@[simp] theorem length_bytes4 (n : UInt32) : (bytes4 n).length = 4 := rfl

@[simp] theorem read4_bytes4 (n : UInt32) (rest : List UInt8) :
    read4 (bytes4 n ++ rest) = some (n, rest) := by
  have hlt := n.toNat_lt
  simp only [bytes4, read4, List.cons_append, List.nil_append, Option.some_inj,
    Prod.mk.injEq, and_true]
  apply UInt32.toNat_inj.mp
  simp only [UInt8.toNat_ofNat', UInt32.toNat_ofNat']
  omega

/-- The arguments of the six overloads of `Insert`; a float is its bits. -/
inductive Value where
  | string (a : List UInt8)
  | int (a : Int32)
  | uint (a : UInt32)
  | float (a : UInt32)
  | float2 (a b : UInt32)
  | float3 (a b c : UInt32)
deriving DecidableEq

/-- A `gamepacket_t`; `packetData` is the buffer up to `len`. -/
structure Packet where
  index : Nat
  len : Nat
  packetData : List UInt8

/-- The constructor. -/
def create (delay netID : Int32) : Packet where
  index := 0
  len := 61
  packetData := bytes4 4 ++ bytes4 1 ++ bytes4 netID.toUInt32 ++
    List.replicate 4 0 ++ bytes4 8 ++ List.replicate 4 0 ++
    bytes4 delay.toUInt32 ++ List.replicate 33 0

namespace Packet

/-- What the overloads of `Insert` share.  There is no result when the new
length leaves `int`. -/
def append (p : Packet) (type : UInt8) (payload : List UInt8) : Option Packet :=
  let len := p.len + 2 + payload.length
  let index := p.index + 1
  let data := p.packetData.take p.len ++
    UInt8.ofNat p.index :: type :: payload
  if 2147483648 ≤ len then none
  else some
    { index := index
      len := len
      packetData := if 60 < len then data.set 60 (UInt8.ofNat index) else data }

/-- `Insert(string a)`: the length is cast to `int` before it is written, and
that many bytes are copied. -/
def insertString (p : Packet) (a : List UInt8) : Option Packet :=
  let strLen := (a.length : Int).bmod 4294967296
  if strLen < 0 then none
  else p.append 2 (bytes4 (UInt32.ofNat strLen.toNat) ++ a.take strLen.toNat)

/-- `Insert(int a)`. -/
def insertInt (p : Packet) (a : Int32) : Option Packet :=
  p.append 9 (bytes4 a.toUInt32)

/-- `Insert(unsigned int a)`. -/
def insertUInt (p : Packet) (a : UInt32) : Option Packet :=
  p.append 5 (bytes4 a)

/-- `Insert(float a)`. -/
def insertFloat (p : Packet) (a : UInt32) : Option Packet :=
  p.append 1 (bytes4 a)

/-- `Insert(float a, float b)`. -/
def insertFloat2 (p : Packet) (a b : UInt32) : Option Packet :=
  p.append 3 (bytes4 a ++ bytes4 b)

/-- `Insert(float a, float b, float c)`. -/
def insertFloat3 (p : Packet) (a b c : UInt32) : Option Packet :=
  p.append 4 (bytes4 a ++ bytes4 b ++ bytes4 c)

/-- The overload that a value selects. -/
def insert (p : Packet) : Value → Option Packet
  | .string a => p.insertString a
  | .int a => p.insertInt a
  | .uint a => p.insertUInt a
  | .float a => p.insertFloat a
  | .float2 a b => p.insertFloat2 a b
  | .float3 a b c => p.insertFloat3 a b c

/-- A sequence of calls of `Insert`. -/
def insertAll (p : Packet) (values : List Value) : Option Packet :=
  values.foldlM insert p

/-- The bytes that `CreatePacket` hands to ENet. -/
def createPacket (p : Packet) : List UInt8 := p.packetData.take p.len

end Packet

/-- The value of a type and the bytes after it. -/
def readValue (type : UInt8) (bytes : List UInt8) :
    Option (Value × List UInt8) :=
  if type = 2 then do
    let (n, rest) ← read4 bytes
    if rest.length < n.toNat then none
    else return (.string (rest.take n.toNat), rest.drop n.toNat)
  else if type = 9 then do
    let (a, rest) ← read4 bytes
    return (.int a.toInt32, rest)
  else if type = 5 then do
    let (a, rest) ← read4 bytes
    return (.uint a, rest)
  else if type = 1 then do
    let (a, rest) ← read4 bytes
    return (.float a, rest)
  else if type = 3 then do
    let (a, rest) ← read4 bytes
    let (b, rest) ← read4 rest
    return (.float2 a b, rest)
  else if type = 4 then do
    let (a, rest) ← read4 bytes
    let (b, rest) ← read4 rest
    let (c, rest) ← read4 rest
    return (.float3 a b c, rest)
  else none

/-- So many values with their index bytes, to the end of the bytes. -/
def readValues : Nat → List UInt8 → Option (List (UInt8 × Value))
  | 0, [] => some []
  | n + 1, index :: type :: bytes => do
      let (value, rest) ← readValue type bytes
      let values ← readValues n rest
      return (index, value) :: values
  | _, _ => none

/-- The values of a packet: byte 60 counts them, the first begins at 61. -/
def decode (bytes : List UInt8) : Option (List (UInt8 × Value)) := do
  let count ← bytes[60]?
  readValues count.toNat (bytes.drop 61)

/-- The values under their indices. -/
def indexed (start : Nat) : List Value → List (UInt8 × Value)
  | [] => []
  | value :: rest => (UInt8.ofNat start, value) :: indexed (start + 1) rest

namespace Value

/-- The type byte of a value. -/
def type : Value → UInt8
  | string _ => 2
  | int _ => 9
  | uint _ => 5
  | float _ => 1
  | float2 _ _ => 3
  | float3 _ _ _ => 4

/-- The bytes of a value. -/
def payload : Value → List UInt8
  | string a => bytes4 (UInt32.ofNat a.length) ++ a
  | int a => bytes4 a.toUInt32
  | uint a => bytes4 a
  | float a => bytes4 a
  | float2 a b => bytes4 a ++ bytes4 b
  | float3 a b c => bytes4 a ++ bytes4 b ++ bytes4 c

end Value

/-- The length of the packet that a sequence of values makes. -/
def packetLength (values : List Value) : Nat :=
  61 + (values.map fun value => 2 + value.payload.length).sum

/-- The part of a packet that holds its values. -/
def body (start : Nat) : List Value → List UInt8
  | [] => []
  | value :: rest =>
      UInt8.ofNat start :: value.type :: (value.payload ++ body (start + 1) rest)

section Layout

theorem body_append (start : Nat) (values more : List Value) :
    body start (values ++ more) =
      body start values ++ body (start + values.length) more := by
  induction values generalizing start with
  | nil => rfl
  | cons value rest ih =>
      simp [body, ih, Nat.add_assoc, Nat.add_comm 1]

theorem length_body (start : Nat) (values : List Value) :
    (body start values).length =
      (values.map fun value => 2 + value.payload.length).sum := by
  induction values generalizing start with
  | nil => rfl
  | cons value rest ih => simp [body, ih]; omega

/-- A packet that holds the values. -/
structure Layout (header : List UInt8) (values : List Value) (p : Packet) :
    Prop where
  index : p.index = values.length
  len : p.len = packetLength values
  data : p.packetData = header ++ UInt8.ofNat values.length :: body 0 values

variable {header : List UInt8} {values : List Value} {p : Packet}

/-- A string under the length that the cast makes of its own. -/
theorem insertString_eq_append {a : List UInt8} {n : Nat}
    (hcast : (a.length : Int).bmod 4294967296 = n) :
    p.insertString a = p.append 2 (bytes4 (UInt32.ofNat n) ++ a.take n) := by
  have hpos : ¬ (n : Int) < 0 := by omega
  unfold Packet.insertString
  simp only [hcast]
  exact if_neg hpos

/-- Under 2 GiB every overload does the same. -/
theorem insert_eq_append {value : Value}
    (hfits : value.payload.length < 2147483648) :
    p.insert value = p.append value.type value.payload := by
  cases value with
  | string a =>
      simp only [Value.payload, List.length_append, length_bytes4] at hfits
      have hcast : (a.length : Int).bmod 4294967296 = a.length :=
        Int.bmod_eq_of_le_mul_two (by omega) (by omega)
      simp only [Packet.insert, insertString_eq_append hcast, List.take_length,
        Value.type, Value.payload]
  | int a => rfl
  | uint a => rfl
  | float a => rfl
  | float2 a b => rfl
  | float3 a b c => rfl

theorem packetLength_append (value : Value) :
    packetLength (values ++ [value]) =
      packetLength values + 2 + value.payload.length := by
  simp [packetLength]
  omega

/-- One call of `Insert`. -/
theorem Layout.insert (hheader : header.length = 60)
    (h : Layout header values p) {value : Value}
    (hfits : packetLength (values ++ [value]) < 2147483648) :
    ∃ p', p.insert value = some p' ∧ Layout header (values ++ [value]) p' := by
  rw [packetLength_append] at hfits
  have hdata : p.packetData.length = p.len := by
    rw [h.data, h.len]
    simp [length_body, packetLength, hheader]
    omega
  have hlen : 60 < p.len + 2 + value.payload.length := by
    rw [h.len, packetLength]
    omega
  rw [insert_eq_append (by omega), Packet.append, if_neg (by rw [h.len]; omega),
    if_pos hlen]
  refine ⟨_, rfl, ?_, ?_, ?_⟩
  · simp [h.index]
  · simp [h.len, packetLength_append]
  · rw [← hdata, List.take_length, h.data, List.append_assoc, List.cons_append,
      List.set_append_right _ _ (Nat.le_of_eq hheader), hheader, Nat.sub_self,
      List.set_cons_zero, body_append, h.index]
    simp [body]

/-- Any number of calls. -/
theorem Layout.insertAll (hheader : header.length = 60) {more : List Value}
    (h : Layout header values p)
    (hfits : packetLength (values ++ more) < 2147483648) :
    ∃ p', p.insertAll more = some p' ∧ Layout header (values ++ more) p' := by
  induction more generalizing values p with
  | nil => exact ⟨p, rfl, by simpa using h⟩
  | cons value rest ih =>
      have hsplit : values ++ value :: rest = values ++ [value] ++ rest := by simp
      rw [hsplit] at hfits ⊢
      have hfirst : packetLength (values ++ [value]) < 2147483648 := by
        refine Nat.lt_of_le_of_lt ?_ hfits
        simp [packetLength]
      obtain ⟨next, hnext, hlayout⟩ := h.insert hheader hfirst
      obtain ⟨last, hlast, hfull⟩ := ih hlayout hfits
      exact ⟨last, by rw [Packet.insertAll, List.foldlM_cons, hnext]; exact hlast,
        hfull⟩

theorem layout_create (delay netID : Int32) :
    Layout ((create delay netID).packetData.take 60) [] (create delay netID) :=
  ⟨rfl, rfl, rfl⟩

/-- The reader gives a value back. -/
theorem readValue_payload {value : Value} (rest : List UInt8)
    (hfits : value.payload.length < 2147483648) :
    readValue value.type (value.payload ++ rest) = some (value, rest) := by
  cases value with
  | string a =>
      have hlen : a.length < 4294967296 := by
        simp only [Value.payload, List.length_append, length_bytes4] at hfits
        omega
      have hcount : (UInt32.ofNat a.length).toNat = a.length :=
        UInt32.toNat_ofNat_of_lt' hlen
      simp [readValue, Value.type, Value.payload, hcount]
  | int a => simp [readValue, Value.type, Value.payload]
  | uint a => simp [readValue, Value.type, Value.payload]
  | float a => simp [readValue, Value.type, Value.payload]
  | float2 a b => simp [readValue, Value.type, Value.payload]
  | float3 a b c => simp [readValue, Value.type, Value.payload]

theorem readValues_body (start : Nat)
    (hfits : ∀ value ∈ values, value.payload.length < 2147483648) :
    readValues values.length (body start values) =
      some (indexed start values) := by
  induction values generalizing start with
  | nil => rfl
  | cons value rest ih =>
      simp only [List.length_cons, body, readValues, indexed,
        readValue_payload _ (hfits value List.mem_cons_self),
        ih (start + 1) fun v hv => hfits v (List.mem_cons_of_mem value hv),
        Option.bind_eq_bind, Option.bind_some, Option.pure_def]

theorem length_payload_lt {value : Value} (hmem : value ∈ values) :
    value.payload.length < packetLength values := by
  induction values with
  | nil => cases hmem
  | cons head rest ih =>
      rw [packetLength, List.map_cons, List.sum_cons]
      rcases List.mem_cons.mp hmem with rfl | hrest
      · omega
      · have hlt := ih hrest
        rw [packetLength] at hlt
        omega

/-- What is read from the bytes of a packet are its values. -/
theorem Layout.decode (hheader : header.length = 60)
    (h : Layout header values p) (hcount : values.length ≤ 255)
    (hfits : packetLength values < 2147483648) :
    decode p.createPacket = some (indexed 0 values) := by
  have hsmall : ∀ value ∈ values, value.payload.length < 2147483648 :=
    fun value hvalue => Nat.lt_trans (length_payload_lt hvalue) hfits
  have hbytes : p.createPacket =
      header ++ UInt8.ofNat values.length :: body 0 values := by
    rw [Packet.createPacket, h.data, List.take_of_length_le]
    simp [h.len, packetLength, length_body, hheader]
    omega
  have hbyte : (UInt8.ofNat values.length).toNat = values.length :=
    UInt8.toNat_ofNat_of_lt' (Nat.lt_succ_of_le hcount)
  have hcountByte : p.createPacket[60]? = some (UInt8.ofNat values.length) := by
    rw [hbytes, List.getElem?_append_right (Nat.le_of_eq hheader), hheader]
    rfl
  have hbody : p.createPacket.drop 61 = body 0 values := by
    rw [hbytes, List.drop_append, hheader, List.drop_of_length_le (by omega)]
    rfl
  simp [GamePacket.decode, hcountByte, hbody, hbyte, readValues_body 0 hsmall]

end Layout

/-- The bytes of a packet of less than 2 GiB give its values back. -/
theorem decode_createPacket (delay netID : Int32) (values : List Value)
    (hcount : values.length ≤ 255) (hfits : packetLength values < 2147483648) :
    ∃ p, (create delay netID).insertAll values = some p ∧
      p.createPacket.length = packetLength values ∧
      decode p.createPacket = some (indexed 0 values) := by
  have hheader : ((create delay netID).packetData.take 60).length = 60 := rfl
  have hempty : packetLength ([] ++ values) < 2147483648 := hfits
  obtain ⟨p, hp, hlayout⟩ := (layout_create delay netID).insertAll hheader hempty
  refine ⟨p, hp, ?_, hlayout.decode hheader hcount hfits⟩
  simp [Packet.createPacket, hlayout.data, hlayout.len, packetLength,
    length_body, hheader]
  omega

theorem decode_createPacket_console :
    ([.string [79, 110], .int (-1), .float2 0 1065353216] : List Value).length ≤
        255 ∧
      ∃ p, (create 0 (-1)).insertAll
          [.string [79, 110], .int (-1), .float2 0 1065353216] = some p ∧
        p.createPacket.length = 85 ∧
        decode p.createPacket = some [(0, .string [79, 110]), (1, .int (-1)),
          (2, .float2 0 1065353216)] :=
  ⟨by decide, decode_createPacket 0 (-1)
    [.string [79, 110], .int (-1), .float2 0 1065353216] (by decide) (by decide)⟩

/-- A string of 4 GiB is sent as the empty one. -/
theorem huge_string_is_emptied :
    ¬ ∀ (delay netID : Int32) (values : List Value), values.length ≤ 255 →
      ∀ p, (create delay netID).insertAll values = some p →
        decode p.createPacket = some (indexed 0 values) := by
  intro hall
  generalize hzeros : List.replicate 4294967296 (0 : UInt8) = zeros at *
  have hlength : zeros.length = 4294967296 := by
    rw [← hzeros, List.length_replicate]
  have hcast : (zeros.length : Int).bmod 4294967296 = (0 : Nat) := by
    rw [hlength]
    decide
  have hp : (create 0 (-1)).insertAll [.string zeros] =
      (create 0 (-1)).append 2 (bytes4 0) := by
    simp only [Packet.insertAll, List.foldlM_cons, List.foldlM_nil,
      Packet.insert, insertString_eq_append hcast, List.take_zero]
    exact bind_pure _
  obtain ⟨p, hpacket, hbytes⟩ : ∃ p, (create 0 (-1)).append 2 (bytes4 0) =
      some p ∧ decode p.createPacket = some [(0, .string [])] :=
    ⟨_, rfl, by decide⟩
  have hsame := hall 0 (-1) [.string zeros] (by simp) p (hp.trans hpacket)
  rw [hbytes] at hsame
  have hempty : [] = zeros := by simpa [indexed] using hsame
  rw [← hempty] at hlength
  cases hlength

end GamePacket

end NopyServer
