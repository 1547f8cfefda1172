/-
`ItemsEncoder`: the items of a JSON file are written one after the other into
a buffer of ten million zeros.  `item_encoder` cuts it behind the last byte
that is not zero and hashes it before.  What it returns is what was written
exactly when the last field of the last item does not end in a zero byte, and
the hash is that of the file exactly when the zeros behind it turn the hash by
a full circle.
-/
import NopyServer.Lib.CursorBuffer
import Mathlib

namespace NopyServer

namespace ItemsEncoder

open CursorBuffer

section Json

/-- A color of an item. -/
structure Color where
  a : Int
  r : Int
  g : Int
  b : Int
deriving Inhabited

/-- An item of the JSON file.  Texts are their bytes; `breakHits` is what
`dump` makes of the member. -/
structure Item where
  itemId : Int
  editableType : Int
  itemCategory : Int
  actionType : Int
  hitSoundType : Int
  name : List UInt8
  texture : List UInt8
  textureHash : Int
  itemKind : Int
  val1 : Int
  textureX : Int
  textureY : Int
  spreadType : Int
  isStripeyWallpaper : Int
  collisionType : Int
  breakHits : List UInt8
  dropChance : Int
  clothingType : Int
  rarity : Int
  maxAmount : Int
  extraFile : List UInt8
  extraFileHash : Int
  audioVolume : Int
  petName : List UInt8
  petPrefix : List UInt8
  petSuffix : List UInt8
  petAbility : List UInt8
  seedBase : Int
  seedOverlay : Int
  treeBase : Int
  treeLeaves : Int
  seedColor : Color
  seedOverlayColor : Color
  growTime : Int
  val2 : Int
  isRayman : Int
  extraOptions : List UInt8
  texture2 : List UInt8
  extraOptions2 : List UInt8
  dataPosition80 : List UInt8
  punchOptions : List UInt8
  dataVersion12 : List UInt8
  intVersion13 : Int
  intVersion14 : Int
  dataVersion15 : List UInt8
  strVersion15 : List UInt8
  strVersion16 : List UInt8
  intVersion17 : Int
  intVersion18 : Int
  intVersion19 : Int
deriving Inhabited

/-- The JSON file. -/
structure Result where
  version : Int
  itemCount : Int
  items : List Item

/-- The items that the loop reaches. -/
def Result.processed (result : Result) : List Item :=
  result.items.take result.itemCount.toNat

end Json

section Writing

/-- `items_secret_key`, before it is cleared: `PBG892FXX982ABC*`. -/
def itemsSecretKey : List UInt8 :=
  [0x50, 0x42, 0x47, 0x38, 0x39, 0x32, 0x46, 0x58,
    0x58, 0x39, 0x38, 0x32, 0x41, 0x42, 0x43, 0x2A]

/-- A number, its lowest byte first. -/
def writeBufferNumber (len : Nat) (value : Int) : Write UInt8 :=
  ⟨(List.range len).map fun a : Nat => UInt8.ofInt (value >>> (a * 8)), len⟩

/-- `encoded_buffer_file[mem_pos++] = value`. -/
def writeByte (value : Int) : Write UInt8 := ⟨[UInt8.ofInt value], 1⟩

/-- A text with its length. -/
def writeText (value : List UInt8) : List (Write UInt8) :=
  [writeBufferNumber 2 value.length, ⟨value, value.length⟩]

/-- A text with its length, under the key. -/
def writeName (key : List UInt8) (itemId : Int) (value : List UInt8) :
    List (Write UInt8) :=
  [writeBufferNumber 2 value.length,
    ⟨value.mapIdx fun a c => c ^^^
        key.getD (((a + itemId) % 2 ^ 64).toNat % key.length) 0,
      value.length⟩]

def writeColor (color : Color) : List (Write UInt8) :=
  [writeByte color.a, writeByte color.r, writeByte color.g, writeByte color.b]

def hexDigit (c : UInt8) : Option Nat :=
  if 48 ≤ c ∧ c ≤ 57 then some (c.toNat - 48)
  else if 65 ≤ c ∧ c ≤ 70 then some (c.toNat - 55)
  else if 97 ≤ c ∧ c ≤ 102 then some (c.toNat - 87)
  else none

/-- The matches of `[\dA-F]{2}` from left to right, as numbers. -/
def hexPairs : List UInt8 → List UInt8
  | high :: low :: rest =>
      match hexDigit high, hexDigit low with
      | some h, some l => UInt8.ofNat (16 * h + l) :: hexPairs rest
      | _, _ => hexPairs (low :: rest)
  | _ => []

/-- The bytes that `hexStringToArrayBuffer` stores. -/
def hexStringToArrayBuffer (hexString : List UInt8) : List UInt8 :=
  hexPairs (hexString.filter (· ≠ 0x20))

/-- Bytes in hexadecimal.  The cursor moves by `len`, however many there are. -/
def writeHex (len : Nat) (hexString : List UInt8) : Write UInt8 :=
  ⟨hexStringToArrayBuffer hexString, len⟩

/-- `std::atoi`. -/
def atoi (text : List UInt8) : Int :=
  let text := text.dropWhile fun c => c = 32 ∨ 9 ≤ c ∧ c ≤ 13
  let digits (text : List UInt8) : Int :=
    (text.takeWhile fun c => 48 ≤ c ∧ c ≤ 57).foldl
      (fun n c => n * 10 + (c.toNat - 48)) 0
  match text with
  | [] => 0
  | c :: rest =>
      if c = 45 then -digits rest else if c = 43 then digits rest else digits text

/-- The byte for `break_hits`: sixths, unless the text ends in `r`. -/
def breakHitsByte (dump : List UInt8) : Int :=
  if dump.getLast? = some 114 then atoi (dump.take (dump.length - 2))
  else atoi dump * 6

/-- One item. -/
def itemWrites (key : List UInt8) (version : Int) (item : Item) :
    List (Write UInt8) :=
  [writeBufferNumber 4 item.itemId,
    writeByte item.editableType,
    writeByte item.itemCategory,
    writeByte item.actionType,
    writeByte item.hitSoundType] ++
  writeName key item.itemId item.name ++
  writeText item.texture ++
  [writeBufferNumber 4 item.textureHash,
    writeByte item.itemKind,
    writeBufferNumber 4 item.val1,
    writeByte item.textureX,
    writeByte item.textureY,
    writeByte item.spreadType,
    writeByte item.isStripeyWallpaper,
    writeByte item.collisionType,
    writeByte (breakHitsByte item.breakHits),
    writeBufferNumber 4 item.dropChance,
    writeByte item.clothingType,
    writeBufferNumber 2 item.rarity,
    writeByte item.maxAmount] ++
  writeText item.extraFile ++
  [writeBufferNumber 4 item.extraFileHash,
    writeBufferNumber 4 item.audioVolume] ++
  writeText item.petName ++
  writeText item.petPrefix ++
  writeText item.petSuffix ++
  writeText item.petAbility ++
  [writeByte item.seedBase,
    writeByte item.seedOverlay,
    writeByte item.treeBase,
    writeByte item.treeLeaves] ++
  writeColor item.seedColor ++
  writeColor item.seedOverlayColor ++
  -- the ingredients are skipped
  [writeBufferNumber 4 0,
    writeBufferNumber 4 item.growTime,
    writeBufferNumber 2 item.val2,
    writeBufferNumber 2 item.isRayman] ++
  writeText item.extraOptions ++
  writeText item.texture2 ++
  writeText item.extraOptions2 ++
  [writeHex 80 item.dataPosition80] ++
  (if 11 ≤ version then writeText item.punchOptions else []) ++
  (if 12 ≤ version then [writeHex 13 item.dataVersion12] else []) ++
  (if 13 ≤ version then [writeBufferNumber 4 item.intVersion13] else []) ++
  (if 14 ≤ version then [writeBufferNumber 4 item.intVersion14] else []) ++
  (if 15 ≤ version then
    writeHex 25 item.dataVersion15 :: writeText item.strVersion15 else []) ++
  (if 16 ≤ version then writeText item.strVersion16 else []) ++
  (if 17 ≤ version then [writeBufferNumber 4 item.intVersion17] else []) ++
  (if 18 ≤ version then [writeBufferNumber 4 item.intVersion18] else []) ++
  -- four bytes are written and nine are passed
  (if 19 ≤ version then
    [⟨(writeBufferNumber 4 item.intVersion19).values, 9⟩] else [])

/-- The whole file. -/
def writes (key : List UInt8) (result : Result) : List (Write UInt8) :=
  [writeBufferNumber 2 result.version, writeBufferNumber 4 result.itemCount] ++
    result.processed.flatMap (itemWrites key result.version)

/-- `process_item_encoder`.  It is `none` where the source has no defined
result: an item or a byte outside its vector, a remainder by an empty key. -/
def processItemEncoder (key : List UInt8) (result : Result)
    (buffer : List UInt8) : Option (Writer UInt8) :=
  if result.items.length < result.itemCount then none
  else if key = [] ∧ ∃ item ∈ result.processed, item.name ≠ [] then none
  else runAll (writes key result) ⟨buffer, 0⟩

end Writing

section Encoding

/-- The static members of the class. -/
structure Statics where
  itemsSecretKey : List UInt8 := ItemsEncoder.itemsSecretKey
  encodedBufferFile : List UInt8 := []
  msg : String := ""

/-- A byte more in the hash. -/
def hashStep (hash : UInt32) (byte : UInt8) : UInt32 :=
  (hash >>> 27) + (hash <<< 5) + byte.toUInt32

def protonHash (buffer : List UInt8) : UInt32 :=
  buffer.foldl hashStep 0x55555555

def hashBuffer (buffer : List UInt8) (text : String) : String :=
  text ++ toString (protonHash buffer)

/-- `encoded_buffer_file.resize(10000000)`. -/
def bufferSize : Nat := 10000000

/-- `item_encoder`, from the parsed file on.  The buffer that it returns is
the static one. -/
def itemEncoder (s : Statics) (result : Result) : Option Statics := do
  let out ← processItemEncoder s.itemsSecretKey result
    (List.replicate bufferSize 0)
  return { s with
    encodedBufferFile := out.buffer.take (usedLength 0 out.buffer)
    msg := hashBuffer out.buffer "Encoded Items dat Hash: " }

end Encoding

section Hash

/-- What a zero byte does to the hash: its bits are turned by five. -/
def turn (hash : UInt32) : UInt32 := (hash >>> 27) + (hash <<< 5)

theorem toNat_turn (hash : UInt32) :
    (turn hash).toNat = hash.toNat / 2 ^ 27 + hash.toNat % 2 ^ 27 * 32 := by
  have hlt := hash.toNat_lt
  unfold turn
  rw [UInt32.toNat_add, UInt32.toNat_shiftRight, UInt32.toNat_shiftLeft,
    Nat.shiftRight_eq_div_pow, Nat.shiftLeft_eq]
  simp only [UInt32.reduceToNat, Nat.reduceMod]
  omega

/-- Turning by five bits multiplies by 32, up to multiples of `2 ^ 32 - 1`. -/
theorem turn_modEq (hash : UInt32) :
    (turn hash).toNat ≡ 32 * hash.toNat [MOD 2 ^ 32 - 1] := by
  have hsplit : 32 * hash.toNat =
      (turn hash).toNat + (2 ^ 32 - 1) * (hash.toNat / 2 ^ 27) := by
    rw [toNat_turn]
    omega
  rw [hsplit]
  exact (Nat.modEq_iff_dvd' (Nat.le_add_right _ _)).mpr
    ⟨hash.toNat / 2 ^ 27, Nat.add_sub_cancel_left _ _⟩

theorem iterate_turn_modEq (n : Nat) (hash : UInt32) :
    (turn^[n] hash).toNat ≡ 32 ^ n * hash.toNat [MOD 2 ^ 32 - 1] := by
  induction n with
  | zero => simp [Nat.ModEq.refl]
  | succ n ih =>
      rw [Function.iterate_succ_apply', pow_succ' 32 n, Nat.mul_assoc]
      exact (turn_modEq _).trans (ih.mul_left 32)

theorem turn_eq_zero {hash : UInt32} (hzero : turn hash = 0) : hash = 0 := by
  have hnat := congrArg UInt32.toNat hzero
  rw [toNat_turn] at hnat
  apply UInt32.toNat_inj.mp
  simp only [UInt32.toNat_zero] at hnat ⊢
  omega

theorem iterate_turn_eq_zero {n : Nat} {hash : UInt32}
    (hzero : turn^[n] hash = 0) : hash = 0 := by
  induction n generalizing hash with
  | zero => exact hzero
  | succ n ih => exact turn_eq_zero (ih hzero)

/-- After 32 zero bytes the hash is the old one. -/
theorem turn_circle (hash : UInt32) : Function.IsPeriodicPt turn 32 hash := by
  change turn^[32] hash = hash
  by_cases hzero : hash = 0
  · subst hzero
    decide
  · have hmod : (turn^[32] hash).toNat ≡ hash.toNat [MOD 2 ^ 32 - 1] := by
      have hpow : 32 ^ 32 ≡ 1 [MOD 2 ^ 32 - 1] := by decide
      simpa using (iterate_turn_modEq 32 hash).trans (hpow.mul_right _)
    have hne : turn^[32] hash ≠ 0 := fun hturned =>
      hzero (iterate_turn_eq_zero hturned)
    have hfirst := (turn^[32] hash).toNat_lt
    have hlast := hash.toNat_lt
    have hpos := mt UInt32.toNat_inj.mp hne
    have hpos' := mt UInt32.toNat_inj.mp hzero
    simp only [UInt32.toNat_zero] at hpos hpos'
    unfold Nat.ModEq at hmod
    apply UInt32.toNat_inj.mp
    omega

theorem turn_of_dvd {n : Nat} (hdvd : 32 ∣ n) (hash : UInt32) :
    turn^[n] hash = hash := (turn_circle hash).trans_dvd hdvd

/-- Behind a file there are as many zeros as turn the hash back. -/
theorem turn_rest_iff {n : Nat} (hn : n ≤ bufferSize) (hash : UInt32) :
    turn^[bufferSize - n] hash = hash ↔ turn^[n] hash = hash := by
  have hall : Function.IsPeriodicPt turn bufferSize hash :=
    turn_of_dvd (by decide) hash
  constructor
  · intro hrest
    have hback := Function.IsPeriodicPt.sub hall hrest
    rw [Nat.sub_sub_self hn] at hback
    exact hback
  · intro hfile
    exact Function.IsPeriodicPt.sub hall hfile

theorem protonHash_zeros (buffer : List UInt8) (n : Nat) :
    protonHash (buffer ++ List.replicate n 0) = turn^[n] (protonHash buffer) := by
  induction n with
  | zero => rw [List.replicate_zero, List.append_nil, Function.iterate_zero_apply]
  | succ n ih =>
      rw [List.replicate_succ', ← List.append_assoc, protonHash, List.foldl_append,
        ← protonHash, ih, Function.iterate_succ_apply']
      simp [hashStep, turn]

theorem hashBuffer_inj {first second : List UInt8} {text : String} :
    hashBuffer first text = hashBuffer second text ↔
      protonHash first = protonHash second := by
  unfold hashBuffer
  rw [String.append_right_inj]
  change Nat.repr _ = Nat.repr _ ↔ _
  rw [Nat.repr_inj, UInt32.toNat_inj]

end Hash

section Layout

/-- How far the fields of a file reach: `mem_pos` at the end. -/
def encodedLength (key : List UInt8) (result : Result) : Nat :=
  ((writes key result).map Write.moved).sum

/-- Where the fields of a file lie. -/
def layout (key : List UInt8) (result : Result) : Image UInt8 :=
  Image.writeAll 0 (writes key result) {}

/-- Nothing is lost behind the file, and the zeros there do not change its
hash. -/
structure Exact (key : List UInt8) (result : Result) : Prop where
  fits : encodedLength key result ≤ bufferSize
  beyond : ∀ byte ∈ (layout key result).ahead, byte = 0
  last : (layout key result).done.getLast? ≠ some 0
  turned : turn^[encodedLength key result]
    (protonHash (layout key result).done) = protonHash (layout key result).done

/-- `item_encoder` returns the `mem_pos` bytes that were written, and reports
their hash. -/
def Whole (s : Statics) (result : Result) : Prop :=
  ∃ out s',
    processItemEncoder s.itemsSecretKey result (List.replicate bufferSize 0) =
      some out ∧
    itemEncoder s result = some s' ∧
    s'.encodedBufferFile = out.buffer.take out.pos ∧
    s'.encodedBufferFile.length = out.pos ∧
    s'.msg = hashBuffer (out.buffer.take out.pos) "Encoded Items dat Hash: "

variable {key : List UInt8} {result : Result} {out : Writer UInt8}

theorem layout_done_length (key : List UInt8) (result : Result) :
    (layout key result).done.length = encodedLength key result := by
  rw [layout, Image.done_length_writeAll]
  exact Nat.zero_add _

theorem processItemEncoder_runAll
    (hout : processItemEncoder key result (List.replicate bufferSize 0) =
      some out) :
    runAll (writes key result) (Image.render 0 bufferSize {}) = some out := by
  unfold processItemEncoder at hout
  split_ifs at hout
  exact hout

theorem processItemEncoder_length
    (hout : processItemEncoder key result (List.replicate bufferSize 0) =
      some out) : out.buffer.length = bufferSize := by
  rw [runAll_buffer_length (processItemEncoder_runAll hout)]
  exact List.length_replicate

/-- What lies in the buffer is the layout of the file. -/
theorem processItemEncoder_layout
    (hout : processItemEncoder key result (List.replicate bufferSize 0) =
      some out) (hpos : out.pos ≤ bufferSize) :
    out = (layout key result).render 0 bufferSize ∧
      (layout key result).extent ≤ bufferSize :=
  Image.runAll_eq_some (Nat.zero_le _) (processItemEncoder_runAll hout) hpos

theorem processItemEncoder_pos
    (hout : processItemEncoder key result (List.replicate bufferSize 0) =
      some out) : out.pos = encodedLength key result := by
  have hpos := runAll_pos (processItemEncoder_runAll hout)
  rw [hpos]
  exact Nat.zero_add _

/-- The hash of the buffer is the hash of the file when its zeros turn it
back. -/
theorem hash_render_iff (hextent : (layout key result).extent ≤ bufferSize)
    (hbeyond : ∀ byte ∈ (layout key result).ahead, byte = 0) :
    protonHash ((layout key result).render 0 bufferSize).buffer =
        protonHash (layout key result).done ↔
      turn^[encodedLength key result] (protonHash (layout key result).done) =
        protonHash (layout key result).done := by
  have hzeros : ((layout key result).render 0 bufferSize).buffer =
      (layout key result).done ++
        List.replicate (bufferSize - encodedLength key result) 0 := by
    unfold Image.render
    dsimp only
    rw [List.eq_replicate_of_mem hbeyond, List.replicate_append_replicate]
    rw [Image.extent, layout_done_length] at hextent ⊢
    congr 2
    omega
  have hfits : encodedLength key result ≤ bufferSize := by
    rw [← layout_done_length]
    exact le_trans (Nat.le_add_right _ _) hextent
  rw [hzeros, protonHash_zeros]
  exact turn_rest_iff hfits _

theorem itemEncoder_of_written {s : Statics}
    (hout : processItemEncoder s.itemsSecretKey result
      (List.replicate bufferSize 0) = some out) :
    itemEncoder s result = some { s with
      encodedBufferFile := out.buffer.take (usedLength 0 out.buffer)
      msg := hashBuffer out.buffer "Encoded Items dat Hash: " } := by
  unfold itemEncoder
  rw [hout]
  rfl

/-- The cut and the hash against the buffer that was written. -/
theorem whole_iff_cut {s : Statics}
    (hout : processItemEncoder s.itemsSecretKey result
      (List.replicate bufferSize 0) = some out) :
    Whole s result ↔ out.pos ≤ bufferSize ∧
      out.buffer.take (usedLength 0 out.buffer) = out.buffer.take out.pos ∧
      protonHash out.buffer = protonHash (out.buffer.take out.pos) := by
  have hlength := processItemEncoder_length hout
  constructor
  · rintro ⟨out', s', hout', hitem, hbytes, hlen, hmsg⟩
    rw [hout] at hout'
    cases hout'
    rw [itemEncoder_of_written hout] at hitem
    cases hitem
    refine ⟨?_, hbytes, hashBuffer_inj.mp hmsg⟩
    rw [← hlength, ← hlen]
    exact List.length_take_le' _ _
  · rintro ⟨hpos, hbytes, hhash⟩
    refine ⟨out, _, hout, itemEncoder_of_written hout, hbytes, ?_,
      hashBuffer_inj.mpr hhash⟩
    change (out.buffer.take (usedLength 0 out.buffer)).length = out.pos
    rw [hbytes, List.length_take, hlength]
    exact Nat.min_eq_left hpos

theorem whole_iff_exact {s : Statics}
    (hout : processItemEncoder s.itemsSecretKey result
      (List.replicate bufferSize 0) = some out) :
    Whole s result ↔ Exact s.itemsSecretKey result := by
  have hpos := processItemEncoder_pos hout
  rw [whole_iff_cut hout]
  constructor
  · rintro ⟨hfits, hbytes, hhash⟩
    obtain ⟨hlayout, hextent⟩ := processItemEncoder_layout hout hfits
    rw [hlayout, Image.take_render] at hbytes hhash
    rw [hpos] at hfits
    have hcut := (Image.take_usedLength_render_iff _ _).mp hbytes
    exact ⟨hfits, hcut.1, hcut.2, (hash_render_iff hextent hcut.1).mp hhash⟩
  · rintro ⟨hfits, hbeyond, hlast, hturned⟩
    rw [← hpos] at hfits
    obtain ⟨hlayout, hextent⟩ := processItemEncoder_layout hout hfits
    rw [hlayout, Image.take_render]
    exact ⟨hlayout ▸ hfits,
      (Image.take_usedLength_render_iff _ _).mpr ⟨hbeyond, hlast⟩,
      (hash_render_iff hextent hbeyond).mpr hturned⟩

end Layout

section Tidy

/-- The hexadecimal members have no more bytes than the cursor passes. -/
def Item.Tidy (version : Int) (item : Item) : Prop :=
  (hexStringToArrayBuffer item.dataPosition80).length ≤ 80 ∧
  (12 ≤ version → (hexStringToArrayBuffer item.dataVersion12).length ≤ 13) ∧
  (15 ≤ version → (hexStringToArrayBuffer item.dataVersion15).length ≤ 25)

def Result.Tidy (result : Result) : Prop :=
  ∀ item ∈ result.processed, item.Tidy result.version

/-- The last of the four bytes of a number. -/
def topByte (value : Int) : UInt8 := UInt8.ofInt (value >>> (24 : Nat))

/-- The last byte of an item: that of the last member of its version. -/
def Item.lastByte (version : Int) (item : Item) : UInt8 :=
  if 19 ≤ version then 0
  else if 18 ≤ version then topByte item.intVersion18
  else if 17 ≤ version then topByte item.intVersion17
  else if 16 ≤ version then item.strVersion16.getLast?.getD 0
  else if 15 ≤ version then item.strVersion15.getLast?.getD 0
  else if 14 ≤ version then topByte item.intVersion14
  else if 13 ≤ version then topByte item.intVersion13
  else if 12 ≤ version then
    (hexStringToArrayBuffer item.dataVersion12).getD 12 0
  else if 11 ≤ version then item.punchOptions.getLast?.getD 0
  else (hexStringToArrayBuffer item.dataPosition80).getD 79 0

/-- The last byte of a file: of the last item, or of the number of items. -/
def Result.lastByte (result : Result) : UInt8 :=
  match result.processed.getLast? with
  | some item => item.lastByte result.version
  | none => topByte result.itemCount

/-- The fields of a file one after the other. -/
def encoded (key : List UInt8) (result : Result) : List UInt8 :=
  (writes key result).flatMap (Image.cells 0)

variable {key : List UInt8} {version : Int} {item : Item} {result : Result}

@[simp] theorem within_number (len : Nat) (value : Int) :
    (writeBufferNumber len value).values.length ≤
      (writeBufferNumber len value).moved := by
  simp [writeBufferNumber]

@[simp] theorem within_byte (value : Int) :
    (writeByte value).values.length ≤ (writeByte value).moved := le_refl _

@[simp] theorem within_text (value : List UInt8) : Within (writeText value) := by
  simp [writeText]

@[simp] theorem within_name (key : List UInt8) (itemId : Int)
    (value : List UInt8) : Within (writeName key itemId value) := by
  simp [writeName]

@[simp] theorem within_color (color : Color) : Within (writeColor color) := by
  simp [writeColor]

/-- A tidy item stores nothing beyond its end. -/
theorem within_item (htidy : item.Tidy version) :
    Within (itemWrites key version item) := by
  obtain ⟨h80, h12, h15⟩ := htidy
  unfold itemWrites
  simp only [within_append, within_cons, within_nil, within_number, within_byte,
    within_text, within_name, within_color, true_and, and_true]
  refine ⟨⟨⟨⟨⟨⟨⟨⟨⟨h80, ?_⟩, ?_⟩, ?_⟩, ?_⟩, ?_⟩, ?_⟩, ?_⟩, ?_⟩, ?_⟩
  all_goals
    apply within_ite
    intro hversion
  · exact within_text _
  · exact within_cons.mpr ⟨h12 hversion, within_nil⟩
  · simp
  · simp
  · exact within_cons.mpr ⟨h15 hversion, within_text _⟩
  · simp
  · simp
  · simp
  · simp [writeBufferNumber]

/-- A tidy file is its fields, one after the other. -/
theorem layout_of_tidy (htidy : result.Tidy) :
    layout key result = ⟨encoded key result, []⟩ := by
  apply Image.writeAll_within
  intro w hw
  rcases List.mem_append.mp hw with hheader | hitem
  · have hwithin : Within [writeBufferNumber 2 result.version,
        writeBufferNumber 4 result.itemCount] := by simp
    exact hwithin w hheader
  · obtain ⟨item, hmem, hw⟩ := List.mem_flatMap.mp hitem
    exact within_item (htidy item hmem) w hw

/-- The last byte of a number, of a text, and of hexadecimal bytes. -/
theorem last_number (value : Int) :
    ([writeBufferNumber 4 value].flatMap (Image.cells 0)).getLast? =
      some (topByte value) := by
  rw [List.flatMap_singleton, Image.getLast?_cells (Nat.succ_ne_zero 3)]
  rfl

theorem last_text (value : List UInt8) :
    ((writeText value).flatMap (Image.cells 0)).getLast? =
      some (value.getLast?.getD 0) := by
  cases value with
  | nil => rfl
  | cons c rest =>
      have hne : (Write.mk (c :: rest) (c :: rest).length).moved ≠ 0 :=
        Nat.succ_ne_zero _
      unfold writeText
      rw [List.flatMap_cons, List.getLast?_append, List.flatMap_singleton,
        Image.getLast?_cells hne, Option.some_or, List.getLast?_eq_getElem?,
        List.getD_eq_getElem?_getD]

theorem last_hex (len : Nat) (hexString : List UInt8) :
    ([writeHex (len + 1) hexString].flatMap (Image.cells 0)).getLast? =
      some ((hexStringToArrayBuffer hexString).getD len 0) := by
  rw [List.flatMap_singleton, Image.getLast?_cells (Nat.succ_ne_zero len)]
  rfl

theorem last_item (key : List UInt8) (version : Int) (item : Item) :
    ((itemWrites key version item).flatMap (Image.cells 0)).getLast? =
      some (item.lastByte version) := by
  have hnine : ([(⟨(writeBufferNumber 4 item.intVersion19).values, 9⟩ :
      Write UInt8)].flatMap (Image.cells 0)).getLast? = some 0 := rfl
  have hfifteen : ((writeHex 25 item.dataVersion15 ::
      writeText item.strVersion15).flatMap (Image.cells 0)).getLast? =
      some (item.strVersion15.getLast?.getD 0) := by
    rw [List.flatMap_cons, List.getLast?_append, last_text, Option.some_or]
  unfold itemWrites Item.lastByte
  -- from the latest version down to the members that every version has
  apply Image.getLast?_cells_ite hnine
  apply Image.getLast?_cells_ite (last_number _)
  apply Image.getLast?_cells_ite (last_number _)
  apply Image.getLast?_cells_ite (last_text _)
  apply Image.getLast?_cells_ite hfifteen
  apply Image.getLast?_cells_ite (last_number _)
  apply Image.getLast?_cells_ite (last_number _)
  apply Image.getLast?_cells_ite (last_hex 12 _)
  apply Image.getLast?_cells_ite (last_text _)
  rw [List.flatMap_append, List.getLast?_append, last_hex 79, Option.some_or]

theorem last_encoded (key : List UInt8) (result : Result) :
    (encoded key result).getLast? = some result.lastByte := by
  unfold encoded writes
  rw [List.flatMap_append, List.getLast?_append]
  rcases List.eq_nil_or_concat result.processed with hnone | ⟨init, item, hitems⟩
  · have hlast : result.lastByte = topByte result.itemCount := by
      simp [Result.lastByte, hnone]
    rw [hnone, hlast, List.flatMap_nil, List.flatMap_nil, List.getLast?_nil,
      Option.none_or, List.flatMap_cons, List.getLast?_append, last_number,
      Option.some_or]
  · have hlast : result.lastByte = item.lastByte result.version := by
      simp [Result.lastByte, hitems]
    rw [hitems, hlast, List.concat_eq_append, List.flatMap_append, List.flatMap_append,
      List.getLast?_append, List.flatMap_singleton, last_item, Option.some_or,
      Option.some_or]

theorem exact_iff_of_tidy (htidy : result.Tidy) :
    Exact key result ↔ encodedLength key result ≤ bufferSize ∧
      result.lastByte ≠ 0 ∧
      turn^[encodedLength key result] (protonHash (encoded key result)) =
        protonHash (encoded key result) := by
  have hlayout := @layout_of_tidy key result htidy
  have hlast : (layout key result).done.getLast? = some result.lastByte := by
    rw [hlayout]
    exact last_encoded key result
  constructor
  · intro hexact
    have hturned := hexact.turned
    rw [hlayout] at hturned
    refine ⟨hexact.fits, ?_, hturned⟩
    intro hzero
    apply hexact.last
    rw [hlast, hzero]
  · rintro ⟨hfits, hne, hturned⟩
    refine ⟨hfits, ?_, ?_, ?_⟩
    · rw [hlayout]
      exact List.forall_mem_nil _
    · rw [hlast]
      exact fun hzero => hne (Option.some_inj.mp hzero)
    · rw [hlayout]
      exact hturned

end Tidy

section Results

variable {key : List UInt8} {result : Result}

/-- A tidy file that fits the buffer is written without an error. -/
theorem processItemEncoder_of_tidy (htidy : result.Tidy) (hkey : key ≠ [])
    (hcount : result.itemCount ≤ result.items.length)
    (hfits : encodedLength key result ≤ bufferSize) :
    processItemEncoder key result (List.replicate bufferSize 0) =
      some ((layout key result).render 0 bufferSize) := by
  have hextent : (layout key result).extent ≤ bufferSize := by
    rw [Image.extent, layout_done_length, layout_of_tidy htidy, List.length_nil,
      Nat.add_zero]
    exact hfits
  unfold processItemEncoder
  rw [if_neg (Int.not_lt.mpr hcount), if_neg fun hempty => hkey hempty.1,
    ← Image.render_blank]
  exact Image.runAll_render _ _ hextent

/-- When the file that `item_encoder` returns, and its hash, are those of the
bytes that were written. -/
theorem itemEncoder_whole_iff {s : Statics} {result : Result}
    {out : Writer UInt8}
    (hout : processItemEncoder s.itemsSecretKey result
      (List.replicate bufferSize 0) = some out) :
    (Whole s result ↔ Exact s.itemsSecretKey result) ∧
      (result.Tidy → (Whole s result ↔
        encodedLength s.itemsSecretKey result ≤ bufferSize ∧
        result.lastByte ≠ 0 ∧
        turn^[encodedLength s.itemsSecretKey result]
            (protonHash (encoded s.itemsSecretKey result)) =
          protonHash (encoded s.itemsSecretKey result))) := by
  constructor
  · exact whole_iff_exact hout
  · intro htidy
    exact (whole_iff_exact hout).trans (exact_iff_of_tidy htidy)

/-- An item whose fields take 186 bytes up to version 10. -/
def gravel : Item :=
  { (default : Item) with
    name := [0x47, 0x72, 0x61, 0x76, 0x65, 0x6C]
    texture := [0x74, 0x69, 0x6C, 0x65, 0x73, 0x5F, 0x70, 0x61, 0x67, 0x65, 0x31,
      0x2E, 0x72, 0x74, 0x74, 0x65, 0x78]
    dataPosition80 := List.replicate 160 0x31 }

theorem gravel_tidy (version itemCount : Int) :
    (Result.mk version itemCount [gravel]).Tidy := by
  intro item hitem
  cases List.mem_singleton.mp (List.mem_of_mem_take hitem)
  have h80 : (hexStringToArrayBuffer gravel.dataPosition80).length ≤ 80 := by decide
  exact ⟨h80, fun _ => Nat.zero_le _, fun _ => Nat.zero_le _⟩

/-- A file of 192 bytes that ends in a byte of its item. -/
theorem itemEncoder_whole_file : Whole {} ⟨10, 1, [gravel]⟩ := by
  have hlength : encodedLength itemsSecretKey ⟨10, 1, [gravel]⟩ = 192 := by decide
  have hfits : encodedLength itemsSecretKey ⟨10, 1, [gravel]⟩ ≤ bufferSize := by
    rw [hlength]
    decide
  have hlast : (Result.mk 10 1 [gravel]).lastByte ≠ 0 := by decide
  have hturned := turn_of_dvd (by decide : 32 ∣ 192)
    (protonHash (encoded itemsSecretKey ⟨10, 1, [gravel]⟩))
  rw [← hlength] at hturned
  have hout := processItemEncoder_of_tidy (gravel_tidy 10 1)
    (List.cons_ne_nil _ _) (le_refl _) hfits
  exact ((@itemEncoder_whole_iff {} _ _ hout).2 (gravel_tidy 10 1)).mpr
    ⟨hfits, hlast, hturned⟩

/-- From version 19 on an item ends in five bytes that are passed. -/
theorem itemEncoder_cuts_file : ¬ Whole {} ⟨19, 1, [gravel]⟩ := by
  intro hwhole
  obtain ⟨out, -, hout, -⟩ := id hwhole
  have hexact := (whole_iff_exact hout).mp hwhole
  have hlast := ((exact_iff_of_tidy (gravel_tidy 19 1)).mp hexact).2.1
  exact hlast (by decide)

end Results

end ItemsEncoder

end NopyServer
