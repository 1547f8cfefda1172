/-
`GetItemManager::Serialize` reads `items.dat`, the file that the encoder writes.
Both pass over the fields of an item in the same order; the reader stops looking
before the end of an item, so a file that is cut behind its last byte that is
not zero may still be whole for it.
-/
import NopyServer.ItemsFile
import NopyServer.Lib.ByteReader
import NopyServer.Text

namespace NopyServer

namespace ItemsData

open ByteReader CursorBuffer ItemsEncoder

section Reading

/-- A `char` and a `short` of some value. -/
def char (n : Int) : Int := Int.bmod n 256

def short (n : Int) : Int := Int.bmod n 65536

def readChar : Reader Int := do
  let b ← byte
  return char b.toNat

def readShort : Reader Int := do
  let n ← number 2
  return short n

def readInt : Reader Int := do
  let n ← number 4
  return int32 n

/-- A text behind its length, byte for byte. -/
def readText : Reader (List UInt8) := do
  let strLen ← readShort
  bytes strLen.toNat

/-- A text that is passed. -/
def passText : Reader Unit := do
  let strLen ← readShort
  skip strLen

/-- `data[memPos] ^ key_[(j + def.id) % key_.length()]`. -/
def decipher (id : Int) (name : List UInt8) : List UInt8 :=
  name.mapIdx fun j c =>
    c ^^^ itemsSecretKey.getD (((j + id) % 2 ^ 64).toNat % itemsSecretKey.length) 0

/-- What is read of an `ItemDB`. -/
structure ItemDef where
  id : Int := 0
  editableType : Int := 0
  multipleSides : Bool := false
  itemCategory : Int := 0
  actionType : Int := 0
  canBeChangedToPublic : Bool := false
  toggleable : Bool := false
  hitSoundType : Int := 0
  name : List UInt8 := []
  texture : List UInt8 := []
  textureHash : Int := 0
  itemKind : Int := 0
  val1 : Int := 0
  textureX : Int := 0
  textureY : Int := 0
  spreadType : Int := 0
  isStripeyWallpaper : Int := 0
  collisionType : Int := 0
  solid : Bool := false
  breakHits : Int := 25
  dropChance : Int := 0
  clothingType : Int := 0
  rarity : Int := 0
  maxAmount : UInt8 := 0
  extraFile : List UInt8 := []
  musicalBlock : Bool := false
  extraFileHash : Int := 0
  baseWeather : Int := 0
  petName : List UInt8 := []
  petPrefix : List UInt8 := []
  petSuffix : List UInt8 := []
  petAbility : List UInt8 := []
  seedBase : Int := 0
  seedOverlay : Int := 0
  treeBase : Int := 0
  treeLeaves : Int := 0
  seedColor : Int := 0
  seedOverlayColor : Int := 0
  growTime : Int := 0
  val2 : Int := 0
  isRayman : Int := 0
  extraOptions : List UInt8 := []
  texture2 : List UInt8 := []
  extraOptions2 : List UInt8 := []
  punchOptions : List UInt8 := []
  description : List UInt8 :=
    "This item has no description.".toList.map fun c => UInt8.ofNat c.toNat
  r1 : Int := 0
  r2 : Int := 0

def isMultipleSided (editableType : Int) : Bool := editableType ∈ [3, 31, 1, 21, 23]

def isToggleable (actionType : Int) : Bool :=
  actionType ∈ [12, 119, 45, 32, 31, 122, 36, 18]

def isChangedToPublic (actionType id : Int) : Bool :=
  isToggleable actionType && (decide (actionType ∈ [31, 36, 12, 18]) || id == 11692)

/-- `breakHits`, with its bounds. -/
def boundedHits (hits : Int) : Int := if hits ≤ 0 ∨ 42 * 6 < hits then 42 * 6 else hits

/-- `extraFile.find("mp3") != string::npos`. -/
def isMusical (extraFile : List UInt8) : Bool := [0x6D, 0x70, 0x33] <:+: extraFile

/-- An item up to its texture. -/
def readKind : Reader ItemDef := do
  let id ← readInt
  let editableType ← readChar
  let itemCategory ← readChar
  let actionType ← readChar
  let hitSoundType ← readChar
  let name ← readText
  return {
    id := id
    editableType := editableType
    multipleSides := isMultipleSided editableType
    itemCategory := itemCategory
    actionType := actionType
    canBeChangedToPublic := isChangedToPublic actionType id
    toggleable := isToggleable actionType
    hitSoundType := hitSoundType
    name := decipher id name }

/-- From the texture to the greatest amount. -/
def readBlock (d : ItemDef) : Reader ItemDef := do
  let texture ← readText
  let textureHash ← readInt
  let itemKind ← readChar
  let val1 ← readInt
  let textureX ← readChar
  let textureY ← readChar
  let spreadType ← readChar
  let isStripeyWallpaper ← readChar
  let collisionType ← readChar
  let breakHits ← readChar
  let dropChance ← readInt
  let clothingType ← readChar
  let rarity ← readShort
  let maxAmount ← byte
  return { d with
    texture := texture
    textureHash := textureHash
    itemKind := itemKind
    val1 := val1
    textureX := textureX
    textureY := textureY
    spreadType := spreadType
    isStripeyWallpaper := isStripeyWallpaper
    collisionType := collisionType
    solid := collisionType == 1
    breakHits := boundedHits breakHits
    dropChance := dropChance
    clothingType := clothingType
    rarity := rarity
    maxAmount := maxAmount }

/-- The extra file and the texts of a pet. -/
def readPet (d : ItemDef) : Reader ItemDef := do
  let extraFile ← readText
  let extraFileHash ← readInt
  let baseWeather ← readInt
  let petName ← readText
  let petPrefix ← readText
  let petSuffix ← readText
  let petAbility ← readText
  return { d with
    extraFile := extraFile
    musicalBlock := isMusical extraFile
    extraFileHash := extraFileHash
    baseWeather := baseWeather
    petName := petName
    petPrefix := petPrefix
    petSuffix := petSuffix
    petAbility := petAbility }

/-- The four bytes of a seed and its colors. -/
def readSeed (d : ItemDef) : Reader ItemDef := do
  let seedBase ← readChar
  let seedOverlay ← readChar
  let treeBase ← readChar
  let treeLeaves ← readChar
  let seedColor ← readInt
  let seedOverlayColor ← readInt
  return { d with
    seedBase := seedBase
    seedOverlay := seedOverlay
    treeBase := treeBase
    treeLeaves := treeLeaves
    seedColor := seedColor
    seedOverlayColor := seedOverlayColor }

/-- From the ingredients, which are passed, to the last text of every version. -/
def readOptions (d : ItemDef) : Reader ItemDef := do
  skip 4
  let growTime ← readInt
  let val2 ← readShort
  let isRayman ← readShort
  let extraOptions ← readText
  let texture2 ← readText
  let extraOptions2 ← readText
  return { d with
    growTime := growTime
    val2 := val2
    isRayman := isRayman
    extraOptions := extraOptions
    texture2 := texture2
    extraOptions2 := extraOptions2 }

/-- The part of an item that depends on the version. -/
def readVersions (version : Int) (d : ItemDef) : Reader ItemDef := do
  skip 80
  let d ← given (11 ≤ version) d do
    let punchOptions ← readText
    return { d with punchOptions := punchOptions }
  given (12 ≤ version) () (skip 13)
  given (13 ≤ version) () (skip 4)
  given (14 ≤ version) () (skip 4)
  given (15 ≤ version) () do
    skip 25
    passText
  given (16 ≤ version) () passText
  given (17 ≤ version) () (skip 4)
  given (18 ≤ version) () (skip 4)
  given (19 ≤ version) () (skip 9)
  given (21 ≤ version) () (skip 2)
  let d ← given (22 ≤ version) d do
    let description ← readText
    return { d with description := description }
  let d ← given (23 ≤ version) d do
    let r1 ← number 2
    let r2 ← number 2
    return { d with r1 := r1, r2 := r2 }
  given (24 ≤ version) () (skip 1)
  given (25 ≤ version) () passText
  given (26 ≤ version) () (skip 5)
  return d

/-- The body of the loop. -/
def readItem (version : Int) (i : Nat) : Reader ItemDef := do
  let d ← readKind
  let d ← readBlock d
  let d ← readPet d
  let d ← readSeed d
  let d ← readOptions d
  let d ← readVersions version d
  return { d with id := i }

/-- The members of the environment about the file, and the items. -/
structure ItemsDat where
  size : Int
  hash : UInt32
  version : Int
  count : Int
  items : List ItemDef

def readItems : Reader (Int × Int × List ItemDef) := do
  let version ← readShort
  let itemCount ← readInt
  let items ← repeated (readItem version) 0 itemCount.toNat
  return (version, itemCount, items)

/-- `Serialize`, up to what is made of each item behind its fields. -/
def serialize (data : List UInt8) : Option ItemsDat := do
  let ((version, itemCount, items), _) ← readItems data 0
  return {
    size := data.length
    hash := protonHash data
    version := version
    count := itemCount
    items := items }

end Reading

section Fields

/-- The bytes of some writes, one after the other. -/
def bytesOf (writes : List (Write UInt8)) : List UInt8 := writes.flatMap (Image.cells 0)

theorem bytesOf_append (first second : List (Write UInt8)) :
    bytesOf (first ++ second) = bytesOf first ++ bytesOf second := List.flatMap_append

theorem length_bytesOf (writes : List (Write UInt8)) :
    (bytesOf writes).length = (writes.map Write.moved).sum := by
  induction writes with
  | nil => rfl
  | cons w writes ih =>
      have hw : (Image.cells 0 w).length = w.moved := Image.cells_length w
      rw [List.map_cons, List.sum_cons, ← ih, ← hw]
      exact List.length_append

/-- A write that stores as much as it passes. -/
theorem cells_of_length {w : Write UInt8} (hlength : w.values.length = w.moved) :
    Image.cells 0 w = w.values := by
  rw [Image.cells, List.take_append_of_le_length (Nat.le_of_eq hlength.symm), ← hlength,
    List.take_length]

theorem cells_number (width : Nat) (n : Int) :
    Image.cells 0 (writeBufferNumber width n) =
      (List.range width).map fun a : Nat => UInt8.ofInt (n >>> (a * 8)) :=
  cells_of_length (by simp [writeBufferNumber])

theorem toNat_ofInt (n : Int) : ((UInt8.ofInt n).toNat : Int) = n % 256 := by
  have hnonneg := Int.emod_nonneg n (by decide : (256 : Int) ≠ 0)
  have hlt := Int.emod_lt_of_pos n (by decide : (0 : Int) < 256)
  have hnat : (n % 256).toNat < 256 := by omega
  change ((UInt8.ofNat (n % 256).toNat).toNat : Int) = n % 256
  rw [UInt8.toNat_ofNat_of_lt' hnat]
  exact Int.toNat_of_nonneg hnonneg

/-- A remainder is its lowest byte and the remainder of what is above it. -/
theorem emod_pow_succ (n : Int) (width : Nat) :
    n % 256 ^ (width + 1) = n % 256 + 256 * (n / 256 % 256 ^ width) := by
  have hpos : (0 : Int) < 256 ^ width := Int.pow_pos (by decide)
  have hlow := Int.emod_nonneg (n / 256) (Int.ne_of_gt hpos)
  have hhigh := Int.emod_lt_of_pos (n / 256) hpos
  have hsplit : n = n % 256 + 256 * (n / 256 % 256 ^ width) +
      n / 256 / 256 ^ width * 256 ^ (width + 1) := by
    have hbyte := Int.emod_add_mul_ediv n 256
    have hrest := Int.emod_add_mul_ediv (n / 256) (256 ^ width)
    rw [pow_succ]
    linear_combination -hbyte - 256 * hrest
  conv_lhs => rw [hsplit]
  rw [Int.add_mul_emod_self_right, Int.emod_eq_of_lt (by omega)]
  rw [pow_succ]
  omega

/-- A number is read back up to its width. -/
theorem unsigned_number (width : Nat) (n : Int) :
    (unsigned (Image.cells 0 (writeBufferNumber width n)) : Int) = n % 256 ^ width := by
  rw [cells_number]
  induction width generalizing n with
  | zero => simp [unsigned]
  | succ width ih =>
      have hshift : (List.range width).map
            ((fun a : Nat => UInt8.ofInt (n >>> (a * 8))) ∘ Nat.succ) =
          (List.range width).map fun a : Nat => UInt8.ofInt ((n >>> (8 : Nat)) >>> (a * 8)) := by
        apply List.map_congr_left
        intro a _
        rw [Function.comp_apply, ← Int.shiftRight_add]
        congr 2
        omega
      have hbyte : (n >>> (8 : Nat)) = n / 256 := Int.shiftRight_eq_div_pow n 8
      have hfirst : n >>> ((0 : Nat) * 8) = n := by rw [Nat.zero_mul, Int.shiftRight_zero]
      rw [List.range_succ_eq_map, List.map_cons, List.map_map, unsigned, Nat.cast_add,
        toNat_ofInt, Nat.cast_mul, hshift, ih, hbyte, emod_pow_succ, hfirst, Nat.cast_ofNat]

theorem takes_char (n : Int) : Takes readChar (Image.cells 0 (writeByte n)) (char n) := by
  have hchar : char n = char (UInt8.ofInt n).toNat := by
    rw [char, char, toNat_ofInt]
    exact (Int.emod_bmod n 256).symm
  rw [hchar]
  exact (Yields.byte _).map fun b => char b.toNat

theorem takes_number (width : Nat) (n : Int) :
    Takes (number width) (Image.cells 0 (writeBufferNumber width n))
      (unsigned (Image.cells 0 (writeBufferNumber width n))) := by
  have hlength : (Image.cells 0 (writeBufferNumber width n)).length = width :=
    Image.cells_length _
  unfold Takes
  rw [hlength]
  exact Yields.number hlength

theorem takes_short (n : Int) :
    Takes readShort (Image.cells 0 (writeBufferNumber 2 n)) (short n) := by
  have hshort : short n = short (unsigned (Image.cells 0 (writeBufferNumber 2 n))) := by
    rw [short, short, unsigned_number]
    exact (Int.emod_bmod n 65536).symm
  rw [hshort]
  exact (takes_number 2 n).map fun n => short n

theorem takes_int (n : Int) :
    Takes readInt (Image.cells 0 (writeBufferNumber 4 n)) (int32 n) := by
  have hint : int32 n = int32 (unsigned (Image.cells 0 (writeBufferNumber 4 n))) := by
    rw [int32, int32, unsigned_number]
    exact (Int.emod_bmod n (2 ^ 32)).symm
  rw [hint]
  exact (takes_number 4 n).map fun n => int32 n

theorem short_of_length {bs : List UInt8} (hshort : bs.length < 2 ^ 15) :
    (short bs.length).toNat = bs.length := by
  rw [short, Int.bmod_eq_of_le (by omega) (by omega), Int.toNat_natCast]

/-- Bytes behind their number. -/
theorem takes_sized {bs : List UInt8} (hshort : bs.length < 2 ^ 15) :
    Takes readText (bytesOf [writeBufferNumber 2 bs.length, ⟨bs, bs.length⟩]) bs := by
  have hbytes : Takes (bytes (short bs.length).toNat) (bytesOf [⟨bs, bs.length⟩]) bs := by
    have hcells : bytesOf [⟨bs, bs.length⟩] = bs := by
      rw [bytesOf, List.flatMap_singleton]
      exact cells_of_length rfl
    rw [hcells, short_of_length hshort]
    exact Yields.bytes bs
  exact (takes_short bs.length).bind hbytes

theorem takes_text {text : List UInt8} (hshort : text.length < 2 ^ 15) :
    Takes readText (bytesOf (writeText text)) text := takes_sized hshort

/-- A text that is passed is looked at up to its length. -/
theorem yields_passText {text : List UInt8} (hshort : text.length < 2 ^ 15) :
    Yields passText (bytesOf (writeText text)) () 2 := by
  have hcount : short text.length = (bytesOf [⟨text, text.length⟩]).length := by
    rw [length_bytesOf, short, Int.bmod_eq_of_le (by omega) (by omega)]
    rfl
  exact (takes_short text.length).yields (Yields.skip _ hcount)

/-- A name as it lies in the file. -/
def enciphered (item : Item) : List UInt8 :=
  item.name.mapIdx fun a c => c ^^^
    itemsSecretKey.getD (((a + item.itemId) % 2 ^ 64).toNat % itemsSecretKey.length) 0

/-- The id is read to 32 bits; the key has 16 bytes. -/
theorem key_place (a id : Int) :
    ((a + int32 id) % 2 ^ 64).toNat % itemsSecretKey.length =
      ((a + id) % 2 ^ 64).toNat % itemsSecretKey.length := by
  have hid : int32 id % 16 = id % 16 := by
    have hmod : int32 id % 2 ^ 32 = id % 2 ^ 32 := Int.bmod_emod
    omega
  have hlength : itemsSecretKey.length = 16 := rfl
  rw [hlength]
  omega

theorem decipher_enciphered (item : Item) :
    decipher (int32 item.itemId) (enciphered item) = item.name := by
  unfold decipher enciphered
  apply List.ext_getElem
  · simp
  · intro a h h'
    simp only [List.getElem_mapIdx, key_place]
    rw [UInt8.xor_assoc, UInt8.xor_self, UInt8.xor_zero]

theorem takes_name {item : Item} (hshort : item.name.length < 2 ^ 15) :
    Takes readText (bytesOf (writeName itemsSecretKey item.itemId item.name))
      (enciphered item) := by
  have hlength : (enciphered item).length = item.name.length := List.length_mapIdx
  have hsized : Takes readText (bytesOf [writeBufferNumber 2 (enciphered item).length,
      ⟨enciphered item, (enciphered item).length⟩]) (enciphered item) :=
    takes_sized (by omega)
  rw [hlength] at hsized
  exact hsized

end Fields

section Blocks

/-- The writes of an item, as far as each part of the reader reads. -/
def kindWrites (item : Item) : List (Write UInt8) :=
  writeBufferNumber 4 item.itemId ::
    writeByte item.editableType ::
    writeByte item.itemCategory ::
    writeByte item.actionType ::
    writeByte item.hitSoundType ::
    writeName itemsSecretKey item.itemId item.name

def blockWrites (item : Item) : List (Write UInt8) :=
  writeText item.texture ++
  [writeBufferNumber 4 item.textureHash,
    writeByte item.itemKind,
    writeBufferNumber 4 item.val1,
    writeByte item.textureX,
    writeByte item.textureY,
    writeByte item.spreadType,
    writeByte item.isStripeyWallpaper,
    writeByte item.collisionType,
    writeByte (breakHitsByte item.breakHits),
    writeBufferNumber 4 item.dropChance,
    writeByte item.clothingType,
    writeBufferNumber 2 item.rarity,
    writeByte item.maxAmount]

def petWrites (item : Item) : List (Write UInt8) :=
  writeText item.extraFile ++
  writeBufferNumber 4 item.extraFileHash ::
  writeBufferNumber 4 item.audioVolume ::
  (writeText item.petName ++
  (writeText item.petPrefix ++
  (writeText item.petSuffix ++
  writeText item.petAbility)))

def seedWrites (item : Item) : List (Write UInt8) :=
  writeByte item.seedBase ::
  writeByte item.seedOverlay ::
  writeByte item.treeBase ::
  writeByte item.treeLeaves ::
  (writeColor item.seedColor ++
  writeColor item.seedOverlayColor)

def optionsWrites (item : Item) : List (Write UInt8) :=
  writeBufferNumber 4 0 ::
  writeBufferNumber 4 item.growTime ::
  writeBufferNumber 2 item.val2 ::
  writeBufferNumber 2 item.isRayman ::
  (writeText item.extraOptions ++
  (writeText item.texture2 ++
  writeText item.extraOptions2))

def versionWrites (version : Int) (item : Item) : List (Write UInt8) :=
  writeHex 80 item.dataPosition80 ::
  ((if 11 ≤ version then writeText item.punchOptions else []) ++
  ((if 12 ≤ version then [writeHex 13 item.dataVersion12] else []) ++
  ((if 13 ≤ version then [writeBufferNumber 4 item.intVersion13] else []) ++
  ((if 14 ≤ version then [writeBufferNumber 4 item.intVersion14] else []) ++
  ((if 15 ≤ version then
    writeHex 25 item.dataVersion15 :: writeText item.strVersion15 else []) ++
  ((if 16 ≤ version then writeText item.strVersion16 else []) ++
  ((if 17 ≤ version then [writeBufferNumber 4 item.intVersion17] else []) ++
  ((if 18 ≤ version then [writeBufferNumber 4 item.intVersion18] else []) ++
  (if 19 ≤ version then
    [⟨(writeBufferNumber 4 item.intVersion19).values, 9⟩] else [])))))))))

theorem itemWrites_eq (version : Int) (item : Item) :
    itemWrites itemsSecretKey version item =
      kindWrites item ++ (blockWrites item ++ (petWrites item ++ (seedWrites item ++
        (optionsWrites item ++ versionWrites version item)))) := by
  unfold itemWrites versionWrites kindWrites blockWrites petWrites seedWrites optionsWrites
  simp only [List.append_assoc, List.cons_append, List.nil_append]

/-- The texts of an item are no longer than a `short` can say. -/
structure Item.Short (item : Item) : Prop where
  name : item.name.length < 2 ^ 15
  texture : item.texture.length < 2 ^ 15
  extraFile : item.extraFile.length < 2 ^ 15
  petName : item.petName.length < 2 ^ 15
  petPrefix : item.petPrefix.length < 2 ^ 15
  petSuffix : item.petSuffix.length < 2 ^ 15
  petAbility : item.petAbility.length < 2 ^ 15
  extraOptions : item.extraOptions.length < 2 ^ 15
  texture2 : item.texture2.length < 2 ^ 15
  extraOptions2 : item.extraOptions2.length < 2 ^ 15
  punchOptions : item.punchOptions.length < 2 ^ 15
  strVersion15 : item.strVersion15.length < 2 ^ 15
  strVersion16 : item.strVersion16.length < 2 ^ 15

/-- The four bytes of a color as one number. -/
def colorNumber (color : Color) : Int := int32 (unsigned (bytesOf (writeColor color)))

/-- What each part of the reader makes of an item. -/
def servedKind (item : Item) : ItemDef where
  id := int32 item.itemId
  editableType := char item.editableType
  multipleSides := isMultipleSided (char item.editableType)
  itemCategory := char item.itemCategory
  actionType := char item.actionType
  canBeChangedToPublic := isChangedToPublic (char item.actionType) (int32 item.itemId)
  toggleable := isToggleable (char item.actionType)
  hitSoundType := char item.hitSoundType
  name := item.name

def servedBlock (item : Item) (d : ItemDef) : ItemDef :=
  { d with
    texture := item.texture
    textureHash := int32 item.textureHash
    itemKind := char item.itemKind
    val1 := int32 item.val1
    textureX := char item.textureX
    textureY := char item.textureY
    spreadType := char item.spreadType
    isStripeyWallpaper := char item.isStripeyWallpaper
    collisionType := char item.collisionType
    solid := char item.collisionType == 1
    breakHits := boundedHits (char (breakHitsByte item.breakHits))
    dropChance := int32 item.dropChance
    clothingType := char item.clothingType
    rarity := short item.rarity
    maxAmount := UInt8.ofInt item.maxAmount }

def servedPet (item : Item) (d : ItemDef) : ItemDef :=
  { d with
    extraFile := item.extraFile
    musicalBlock := isMusical item.extraFile
    extraFileHash := int32 item.extraFileHash
    baseWeather := int32 item.audioVolume
    petName := item.petName
    petPrefix := item.petPrefix
    petSuffix := item.petSuffix
    petAbility := item.petAbility }

def servedSeed (item : Item) (d : ItemDef) : ItemDef :=
  { d with
    seedBase := char item.seedBase
    seedOverlay := char item.seedOverlay
    treeBase := char item.treeBase
    treeLeaves := char item.treeLeaves
    seedColor := colorNumber item.seedColor
    seedOverlayColor := colorNumber item.seedOverlayColor }

def servedOptions (item : Item) (d : ItemDef) : ItemDef :=
  { d with
    growTime := int32 item.growTime
    val2 := short item.val2
    isRayman := short item.isRayman
    extraOptions := item.extraOptions
    texture2 := item.texture2
    extraOptions2 := item.extraOptions2 }

def servedVersions (version : Int) (item : Item) (d : ItemDef) : ItemDef :=
  if 11 ≤ version then { d with punchOptions := item.punchOptions } else d

section Takes

variable {α β : Type} {r : Reader α} {f : α → Reader β} {w : Write UInt8}
  {writes rest : List (Write UInt8)} {a : α} {b : β}

theorem takes_cons (h : Takes r (Image.cells 0 w) a) (h' : Takes (f a) (bytesOf rest) b) :
    Takes (r >>= f) (bytesOf (w :: rest)) b := h.bind h'

theorem takes_append (h : Takes r (bytesOf writes) a) (h' : Takes (f a) (bytesOf rest) b) :
    Takes (r >>= f) (bytesOf (writes ++ rest)) b := by
  rw [bytesOf_append]
  exact h.bind h'

theorem takes_last (h : Takes r (bytesOf writes) a) (h' : Takes (f a) (bytesOf []) b) :
    Takes (r >>= f) (bytesOf writes) b := by
  have hboth := takes_append h h'
  rw [List.append_nil] at hboth
  exact hboth

/-- Bytes that are passed are behind the cursor when more is read. -/
theorem takes_skip {f : Unit → Reader β} {count : Int} {next : Write UInt8}
    (hcount : count = w.moved) (h : Takes (f ()) (bytesOf (next :: rest)) b)
    (hnext : next.moved ≠ 0) :
    Takes (skip count >>= f) (bytesOf (w :: next :: rest)) b := by
  have hw : count = (Image.cells 0 w).length := by rw [hcount, Image.cells_length]
  have hne : (bytesOf (next :: rest)).length ≠ 0 := by
    rw [length_bytesOf, List.map_cons, List.sum_cons]
    omega
  have hall := (Yields.skip _ hw).bind h
  rw [reach_of_ne hne, ← List.length_append] at hall
  exact hall

end Takes

variable {item : Item}

theorem takes_kind (hshort : Item.Short item) :
    Takes readKind (bytesOf (kindWrites item)) (servedKind item) := by
  have hname := takes_name hshort.name
  unfold readKind kindWrites servedKind
  apply takes_cons (takes_int _)
  apply takes_cons (takes_char _)
  apply takes_cons (takes_char _)
  apply takes_cons (takes_char _)
  apply takes_cons (takes_char _)
  apply takes_last hname
  rw [decipher_enciphered]
  exact Takes.pure _

theorem takes_byte (n : Int) : Takes byte (Image.cells 0 (writeByte n)) (UInt8.ofInt n) :=
  Yields.byte _

theorem takes_block (hshort : Item.Short item) (d : ItemDef) :
    Takes (readBlock d) (bytesOf (blockWrites item)) (servedBlock item d) := by
  unfold readBlock blockWrites
  apply takes_append (takes_text hshort.texture)
  apply takes_cons (takes_int _)
  apply takes_cons (takes_char _)
  apply takes_cons (takes_int _)
  apply takes_cons (takes_char _)
  apply takes_cons (takes_char _)
  apply takes_cons (takes_char _)
  apply takes_cons (takes_char _)
  apply takes_cons (takes_char _)
  apply takes_cons (takes_char _)
  apply takes_cons (takes_int _)
  apply takes_cons (takes_char _)
  apply takes_cons (takes_short _)
  apply takes_cons (takes_byte _)
  exact Takes.pure _

theorem takes_pet (hshort : Item.Short item) (d : ItemDef) :
    Takes (readPet d) (bytesOf (petWrites item)) (servedPet item d) := by
  unfold readPet petWrites
  apply takes_append (takes_text hshort.extraFile)
  apply takes_cons (takes_int _)
  apply takes_cons (takes_int _)
  apply takes_append (takes_text hshort.petName)
  apply takes_append (takes_text hshort.petPrefix)
  apply takes_append (takes_text hshort.petSuffix)
  apply takes_last (takes_text hshort.petAbility)
  exact Takes.pure _

theorem takes_color (color : Color) :
    Takes readInt (bytesOf (writeColor color)) (colorNumber color) := by
  have hfour : Takes (number 4) (bytesOf (writeColor color))
      (unsigned (bytesOf (writeColor color))) := Yields.number rfl
  exact hfour.map fun n => int32 n

theorem takes_seed (item : Item) (d : ItemDef) :
    Takes (readSeed d) (bytesOf (seedWrites item)) (servedSeed item d) := by
  unfold readSeed seedWrites
  apply takes_cons (takes_char _)
  apply takes_cons (takes_char _)
  apply takes_cons (takes_char _)
  apply takes_cons (takes_char _)
  apply takes_append (takes_color _)
  apply takes_last (takes_color _)
  exact Takes.pure _

theorem takes_options (hshort : Item.Short item) (d : ItemDef) :
    Takes (readOptions d) (bytesOf (optionsWrites item)) (servedOptions item d) := by
  unfold readOptions optionsWrites
  refine takes_skip rfl ?_ (Nat.succ_ne_zero 3)
  apply takes_cons (takes_int _)
  apply takes_cons (takes_short _)
  apply takes_cons (takes_short _)
  apply takes_append (takes_text hshort.extraOptions)
  apply takes_append (takes_text hshort.texture2)
  apply takes_last (takes_text hshort.extraOptions2)
  exact Takes.pure _

end Blocks

section Versions

/-- How many bytes of an item lie behind the last one that is looked at. -/
def unread (version : Int) (item : Item) : Nat :=
  if 16 ≤ version then
    item.strVersion16.length + (if 17 ≤ version then 4 else 0) +
      (if 18 ≤ version then 4 else 0) + (if 19 ≤ version then 9 else 0)
  else if 15 ≤ version then item.strVersion15.length
  else if 11 ≤ version then
    (if 12 ≤ version then 13 else 0) + (if 13 ≤ version then 4 else 0) +
      (if 14 ≤ version then 4 else 0)
  else 80

variable {version : Int} {item : Item}

/-- How many bytes depend on the version. -/
theorem length_versionWrites (version : Int) (item : Item) :
    (bytesOf (versionWrites version item)).length =
      80 + ((if 11 ≤ version then 2 + item.punchOptions.length else 0) +
      ((if 12 ≤ version then 13 else 0) + ((if 13 ≤ version then 4 else 0) +
      ((if 14 ≤ version then 4 else 0) +
      ((if 15 ≤ version then 27 + item.strVersion15.length else 0) +
      ((if 16 ≤ version then 2 + item.strVersion16.length else 0) +
      ((if 17 ≤ version then 4 else 0) + ((if 18 ≤ version then 4 else 0) +
      (if 19 ≤ version then 9 else 0))))))))) := by
  have htext : ∀ text : List UInt8,
      ((writeText text).map Write.moved).sum = 2 + text.length := fun _ => rfl
  rw [length_bytesOf]
  unfold versionWrites
  simp only [List.map_cons, List.sum_cons, List.map_append, List.sum_append,
    apply_ite (List.map _), apply_ite List.sum, htext, List.map_nil, List.sum_nil]
  simp only [writeHex, writeBufferNumber, Nat.add_zero, ← Nat.add_assoc, Nat.reduceAdd]

theorem unread_le (version : Int) (item : Item) :
    unread version item ≤ (bytesOf (versionWrites version item)).length := by
  rw [length_versionWrites, unread]
  split_ifs <;> omega

variable {α : Type} {p : Prop} [Decidable p] {default a : α} {r : Reader α}
  {ws : List (Write UInt8)} {need : Nat}

theorem yields_given (h : p → Yields r (bytesOf ws) a need) :
    Yields (given p default r) (bytesOf (if p then ws else []))
      (if p then a else default) (if p then need else 0) := by
  rw [apply_ite bytesOf]
  exact Yields.given h

/-- What is only passed is not looked at. -/
theorem yields_pass (count : Int) (w : Write UInt8) (hcount : count = w.moved) :
    Yields (given p () (skip count)) (bytesOf (if p then [w] else [])) () 0 := by
  have hw : count = (bytesOf [w]).length := by
    rw [hcount, length_bytesOf]
    rfl
  have hboth : Yields (given p () (skip count)) (bytesOf (if p then [w] else []))
      (if p then () else ()) (if p then 0 else 0) :=
    yields_given fun _ => Yields.skip _ hw
  simp only [ite_self] at hboth
  exact hboth

/-- No member of a later version is read. -/
theorem yields_later {β : Type} {f : α → Reader β} {b : β} {bs : List UInt8} (hp : ¬p)
    (h : Yields (f default) bs b need) : Yields (given p default r >>= f) bs b need := by
  rw [given, if_neg hp]
  exact h

theorem yields_append {β : Type} {f : α → Reader β} {b : β} {rest : List (Write UInt8)}
    {need' : Nat} (h : Yields r (bytesOf ws) a need) (h' : Yields (f a) (bytesOf rest) b need') :
    Yields (r >>= f) (bytesOf (ws ++ rest)) b (reach need (bytesOf ws).length need') := by
  rw [bytesOf_append]
  exact h.bind h'

theorem yields_punch (hshort : Item.Short item) (d : ItemDef) :
    Yields (do let punchOptions ← readText; return { d with punchOptions := punchOptions })
      (bytesOf (writeText item.punchOptions)) { d with punchOptions := item.punchOptions }
      (2 + item.punchOptions.length) := by
  have htext := takes_text hshort.punchOptions
  rw [Takes, length_bytesOf] at htext
  exact htext.map fun punchOptions => { d with punchOptions := punchOptions }

theorem yields_fifteen (hshort : Item.Short item) :
    Yields (do skip 25; passText)
      (bytesOf (writeHex 25 item.dataVersion15 :: writeText item.strVersion15)) () 27 := by
  have hpassed : (25 : Int) = (bytesOf [writeHex 25 item.dataVersion15]).length := by
    rw [length_bytesOf]
    rfl
  have hboth : Yields (skip 25 >>= fun _ => passText)
      (bytesOf ([writeHex 25 item.dataVersion15] ++ writeText item.strVersion15)) ()
      (reach 0 (bytesOf [writeHex 25 item.dataVersion15]).length 2) :=
    yields_append (Yields.skip _ hpassed) (yields_passText hshort.strVersion15)
  rw [length_bytesOf] at hboth
  exact hboth

/-- All but the unread bytes of the part that depends on the version are looked
at. -/
theorem yields_versions (hshort : Item.Short item) (hversion : version ≤ 20) (d : ItemDef) :
    ∃ need, Yields (readVersions version d) (bytesOf (versionWrites version item))
        (servedVersions version item d) need ∧
      need + unread version item = (bytesOf (versionWrites version item)).length := by
  have hpassed : (80 : Int) = (bytesOf [writeHex 80 item.dataPosition80]).length := by
    rw [length_bytesOf]
    rfl
  constructor
  constructor
  · unfold readVersions versionWrites
    apply yields_append (Yields.skip (bytesOf [_]) hpassed)
    apply yields_append (yields_given fun _ => yields_punch hshort d)
    apply yields_append (yields_pass 13 (writeHex 13 _) rfl)
    apply yields_append (yields_pass 4 (writeBufferNumber 4 _) rfl)
    apply yields_append (yields_pass 4 (writeBufferNumber 4 _) rfl)
    apply yields_append (yields_given fun _ => yields_fifteen hshort)
    apply yields_append (yields_given fun _ => yields_passText hshort.strVersion16)
    apply yields_append (yields_pass 4 (writeBufferNumber 4 _) rfl)
    apply yields_append (yields_pass 4 (writeBufferNumber 4 _) rfl)
    rw [← List.append_nil (ite _ _ _)]
    apply yields_append (yields_pass 9 ⟨_, 9⟩ rfl)
    -- the members of the versions from 21 on are not read
    apply yields_later (by omega)
    apply yields_later (by omega)
    apply yields_later (by omega)
    apply yields_later (by omega)
    apply yields_later (by omega)
    apply yields_later (by omega)
    exact Yields.pure _
  · have htext : ∀ text : List UInt8,
        ((writeText text).map Write.moved).sum = 2 + text.length := fun _ => rfl
    rw [length_versionWrites]
    simp only [length_bytesOf, apply_ite (List.map _), apply_ite List.sum, List.map_cons,
      List.sum_cons, htext, List.map_nil, List.sum_nil, writeHex, writeBufferNumber,
      reach_zero, Nat.add_zero]
    rw [unread]
    -- the last text that is looked at is that of version 16, 15 or 11, or an older one
    by_cases h16 : 16 ≤ version
    · have h15 : 15 ≤ version := by omega
      have h11 : 11 ≤ version := by omega
      simp [h16, h15, h11, reach]
      omega
    have h17 : ¬ 17 ≤ version := by omega
    have h18 : ¬ 18 ≤ version := by omega
    have h19 : ¬ 19 ≤ version := by omega
    by_cases h15 : 15 ≤ version
    · have h11 : 11 ≤ version := by omega
      simp [h19, h18, h17, h16, h15, h11, reach]
      omega
    by_cases h11 : 11 ≤ version
    · simp [h19, h18, h17, h16, h15, h11, reach]
      omega
    · have h12 : ¬ 12 ≤ version := by omega
      have h13 : ¬ 13 ≤ version := by omega
      have h14 : ¬ 14 ≤ version := by omega
      simp [h19, h18, h17, h16, h15, h14, h13, h12, h11, reach]

end Versions

section Items

variable {version : Int} {item : Item}

/-- What the reader makes of an item; its place becomes its id. -/
def served (version : Int) (i : Nat) (item : Item) : ItemDef :=
  { servedVersions version item
      (servedOptions item (servedSeed item (servedPet item (servedBlock item
        (servedKind item))))) with
    id := i }

/-- How far an item is looked at. -/
def needed (version : Int) (item : Item) : Nat :=
  (bytesOf (itemWrites itemsSecretKey version item)).length - unread version item

theorem length_itemWrites (version : Int) (item : Item) :
    (bytesOf (itemWrites itemsSecretKey version item)).length =
      (bytesOf (kindWrites item)).length + ((bytesOf (blockWrites item)).length +
        ((bytesOf (petWrites item)).length + ((bytesOf (seedWrites item)).length +
          ((bytesOf (optionsWrites item)).length +
            (bytesOf (versionWrites version item)).length)))) := by
  rw [itemWrites_eq]
  simp only [bytesOf_append, List.length_append]

theorem needed_add_unread (version : Int) (item : Item) :
    needed version item + unread version item =
      (bytesOf (itemWrites itemsSecretKey version item)).length := by
  have hle := unread_le version item
  rw [needed, length_itemWrites]
  omega

theorem needed_ne_zero (version : Int) (item : Item) : needed version item ≠ 0 := by
  have hle := unread_le version item
  have hkind : (bytesOf (kindWrites item)).length = 10 + item.name.length := by
    rw [length_bytesOf]
    change 4 + (1 + (1 + (1 + (1 + (2 + (item.name.length + 0)))))) = 10 + item.name.length
    omega
  rw [needed, length_itemWrites]
  omega

theorem yields_takes {α β : Type} {r : Reader α} {f : α → Reader β} {a : α} {b : β}
    {ws rest : List (Write UInt8)} {need : Nat} (h : Takes r (bytesOf ws) a)
    (h' : Yields (f a) (bytesOf rest) b need) :
    Yields (r >>= f) (bytesOf (ws ++ rest)) b ((bytesOf ws).length + need) := by
  rw [bytesOf_append]
  exact h.yields h'

theorem yields_item (hshort : Item.Short item) (hversion : version ≤ 20) (i : Nat) :
    Yields (readItem version i) (bytesOf (itemWrites itemsSecretKey version item))
      (served version i item) (needed version item) := by
  obtain ⟨need, hversions, hunread⟩ := yields_versions hshort hversion
    (servedOptions item (servedSeed item (servedPet item (servedBlock item
      (servedKind item)))))
  have hneed : (bytesOf (kindWrites item)).length + ((bytesOf (blockWrites item)).length +
      ((bytesOf (petWrites item)).length + ((bytesOf (seedWrites item)).length +
        ((bytesOf (optionsWrites item)).length + need)))) = needed version item := by
    rw [needed, length_itemWrites]
    omega
  rw [← hneed, itemWrites_eq]
  unfold readItem
  apply yields_takes (takes_kind hshort)
  apply yields_takes (takes_block hshort _)
  apply yields_takes (takes_pet hshort _)
  apply yields_takes (takes_seed item _)
  apply yields_takes (takes_options hshort _)
  exact hversions.map fun d => { d with id := (i : Int) }

/-- The numbers and texts of a file that the reader can take. -/
structure Readable (result : Result) : Prop where
  version : -2 ^ 15 ≤ result.version ∧ result.version ≤ 20
  itemCount : -2 ^ 31 ≤ result.itemCount ∧ result.itemCount < 2 ^ 31
  short : ∀ item ∈ result.processed, Item.Short item

/-- How many bytes of a file lie behind the last one that is looked at. -/
def fileUnread (result : Result) : Nat :=
  (result.processed.getLast?.map (unread result.version)).getD 0

/-- What the reader makes of a file of which these bytes are left. -/
def servedFile (result : Result) (bytes : List UInt8) : ItemsDat where
  size := bytes.length
  hash := protonHash bytes
  version := result.version
  count := result.itemCount
  items := result.processed.mapIdx fun i item => served result.version i item

variable {result : Result}

/-- The bytes of the items, one after the other. -/
theorem bytesOf_items (version : Int) (items : List Item) :
    bytesOf (items.flatMap (itemWrites itemsSecretKey version)) =
      items.flatMap fun item => bytesOf (itemWrites itemsSecretKey version item) :=
  List.flatMap_assoc

theorem length_encoded (result : Result) :
    encodedLength itemsSecretKey result = 6 + (result.processed.flatMap fun item =>
      bytesOf (itemWrites itemsSecretKey result.version item)).length := by
  rw [encodedLength, ← length_bytesOf, writes, bytesOf_append, List.length_append,
    bytesOf_items, length_bytesOf]
  rfl

/-- How far a file is looked at. -/
theorem reachAll_items (result : Result) :
    reachAll (fun item => bytesOf (itemWrites itemsSecretKey result.version item))
        (needed result.version) result.processed + fileUnread result + 6 =
      encodedLength itemsSecretKey result := by
  have hall := reachAll_add_unread
    (fun item (_ : item ∈ result.processed) => needed_add_unread result.version item)
    (fun item _ => needed_ne_zero result.version item)
  rw [length_encoded, fileUnread, hall, Nat.add_comm]

/-- The header and the items of a file. -/
theorem yields_items (hreadable : Readable result)
    (hcount : result.itemCount ≤ result.items.length) :
    Yields readItems (encoded itemsSecretKey result)
      (result.version, result.itemCount,
        result.processed.mapIdx fun i item => served result.version i item)
      (encodedLength itemsSecretKey result - fileUnread result) := by
  have hversion : short result.version = result.version :=
    Int.bmod_eq_of_le (by have := hreadable.version; omega) (by have := hreadable.version; omega)
  have hitemCount : int32 result.itemCount = result.itemCount :=
    Int.bmod_eq_of_le (by have := hreadable.itemCount; omega)
      (by have := hreadable.itemCount; omega)
  have hlength : result.processed.length = result.itemCount.toNat := by
    rw [Result.processed, List.length_take]
    omega
  have hitems : Yields (repeated (readItem result.version) 0 result.itemCount.toNat)
      (bytesOf (result.processed.flatMap (itemWrites itemsSecretKey result.version)))
      (result.processed.mapIdx fun i item => served result.version i item)
      (reachAll (fun item => bytesOf (itemWrites itemsSecretKey result.version item))
        (needed result.version) result.processed) := by
    have hrepeated := Yields.repeated
      (fun i item hitem => yields_item (hreadable.short item hitem) hreadable.version.2 i) 0
    simp only [Nat.zero_add] at hrepeated
    rw [bytesOf_items, ← hlength]
    exact hrepeated
  have hneed : 2 + (4 + reachAll
      (fun item => bytesOf (itemWrites itemsSecretKey result.version item))
        (needed result.version) result.processed) =
      encodedLength itemsSecretKey result - fileUnread result := by
    have hreach := reachAll_items result
    omega
  rw [← hneed]
  have hversionRead := takes_short result.version
  have hcountRead := takes_int result.itemCount
  rw [hversion] at hversionRead
  rw [hitemCount] at hcountRead
  exact hversionRead.yields (hcountRead.yields (hitems.map fun items =>
    (result.version, result.itemCount, items)))

/-- A file that is cut somewhere is read to its items, as if it were whole, when
nothing is cut that is looked at, and fails otherwise. -/
theorem serialize_cut (hreadable : Readable result)
    (hcount : result.itemCount ≤ result.items.length) (n : Nat) :
    serialize ((encoded itemsSecretKey result).take n) =
      if encodedLength itemsSecretKey result ≤ n + fileUnread result then
        some (servedFile result ((encoded itemsSecretKey result).take n))
      else none := by
  have hrun := (yields_items hreadable hcount).run [] [] n
  have hreach := reachAll_items result
  rw [List.nil_append, List.append_nil] at hrun
  unfold serialize
  rw [show (0 : Int) = (([] : List UInt8).length : Int) from rfl, hrun]
  split_ifs with hlooked hall hall
  · rfl
  · simp at hlooked
    omega
  · simp at hlooked
    omega
  · rfl

/-- The cells in use of the fields of a tidy file. -/
theorem take_usedLength_tidy (htidy : result.Tidy) :
    ((layout itemsSecretKey result).render 0 bufferSize).buffer.take
        (usedLength 0 ((layout itemsSecretKey result).render 0 bufferSize).buffer) =
      (encoded itemsSecretKey result).rdropWhile (· = 0) := by
  rw [layout_of_tidy htidy]
  exact take_usedLength_replicate _ _

/-- `encode_items_dat` writes the fields of a tidy file, up to the last byte that
is not zero. -/
theorem written_of_tidy {s' : Statics} {bytes : List UInt8} (htidy : result.Tidy)
    (hfits : encodedLength itemsSecretKey result ≤ bufferSize)
    (hwritten : encodeItemsDat {} (.readable result) .opens = some (s', some bytes)) :
    bytes = (encoded itemsSecretKey result).take bytes.length ∧
      result.itemCount ≤ result.items.length := by
  obtain ⟨-, out, hout, hcut⟩ := encodeItemsDat_eq_some_iff.mp hwritten
  have hpos : out.pos ≤ bufferSize := by
    rw [processItemEncoder_pos hout]
    exact hfits
  obtain ⟨hlayout, -⟩ := processItemEncoder_layout hout hpos
  constructor
  · rw [← List.prefix_iff_eq_take, ← hcut, hlayout, take_usedLength_tidy htidy]
    exact List.rdropWhile_prefix _ _
  · unfold processItemEncoder at hout
    split_ifs at hout with hcount
    exact Int.not_lt.mp hcount

/-- A tidy file with its items is written. -/
theorem encodeItemsDat_tidy (htidy : result.Tidy) (hcount : result.itemCount ≤ result.items.length)
    (hfits : encodedLength itemsSecretKey result ≤ bufferSize) :
    encodeItemsDat {} (.readable result) .opens =
      some (.cleared, some ((encoded itemsSecretKey result).rdropWhile (· = 0))) :=
  encodeItemsDat_eq_some_iff.mpr ⟨rfl, _,
    processItemEncoder_of_tidy htidy (List.cons_ne_nil _ _) hcount hfits,
    take_usedLength_tidy htidy⟩

/-- The file that `encode_items_dat` writes is read to the items it was made of,
as far as the cut at its end leaves all that is looked at. -/
theorem serialize_encodeItemsDat {s' : Statics} {bytes : List UInt8} (htidy : result.Tidy)
    (hreadable : Readable result)
    (hfits : encodedLength itemsSecretKey result ≤ bufferSize)
    (hwritten : encodeItemsDat {} (.readable result) .opens = some (s', some bytes)) :
    serialize bytes =
      if encodedLength itemsSecretKey result ≤ bytes.length + fileUnread result then
        some (servedFile result bytes)
      else none := by
  obtain ⟨hbytes, hcount⟩ := written_of_tidy htidy hfits hwritten
  have hcut := serialize_cut hreadable hcount bytes.length
  rw [← hbytes] at hcut
  exact hcut

/-- An item whose data of 80 bytes ends in thirty zeros. -/
def sand : Item :=
  { gravel with
    itemId := 1
    name := [0x53, 0x61, 0x6E, 0x64]
    dataPosition80 := List.replicate 100 0x31 ++ List.replicate 60 0x30 }

/-- An item of nothing but its id. -/
def blank : Item := { (default : Item) with itemId := 1 }

theorem pair_ready {item : Item} (hitem : item = sand ∨ item = blank) :
    (Result.mk 10 2 [gravel, item]).Tidy ∧ Readable ⟨10, 2, [gravel, item]⟩ := by
  have htidy : ∀ item, item = gravel ∨ item = sand ∨ item = blank → item.Tidy 10 := by
    rintro item (rfl | rfl | rfl)
    · exact gravel_tidy 10 1 gravel (List.mem_singleton.mpr rfl)
    · exact ⟨by decide, fun _ => Nat.zero_le _, fun _ => Nat.zero_le _⟩
    · exact ⟨by decide, fun _ => Nat.zero_le _, fun _ => Nat.zero_le _⟩
  have hshort : ∀ item, item = gravel ∨ item = sand ∨ item = blank → Item.Short item := by
    rintro item (rfl | rfl | rfl) <;> constructor <;> decide
  have hmem : ∀ other ∈ (Result.mk 10 2 [gravel, item]).processed,
      other = gravel ∨ other = sand ∨ other = blank := by
    intro other hother
    rcases List.mem_cons.mp (List.mem_of_mem_take hother) with rfl | hother
    · exact Or.inl rfl
    · rw [List.mem_singleton.mp hother]
      exact Or.inr hitem
  have hversion : -2 ^ 15 ≤ (10 : Int) ∧ (10 : Int) ≤ 20 := by decide
  have hcount : -2 ^ 31 ≤ (2 : Int) ∧ (2 : Int) < 2 ^ 31 := by decide
  exact ⟨fun other hother => htidy other (hmem other hother), hversion, hcount,
    fun other hother => hshort other (hmem other hother)⟩

/-- Two files that are cut.  One loses thirty of the last 80 bytes, which are not looked
at, and is read to its two items; the other is cut behind the id of its second item. -/
theorem twoItems_served :
    (∃ s' bytes, encodeItemsDat {} (.readable ⟨10, 2, [gravel, sand]⟩) .opens =
        some (s', some bytes) ∧ bytes.length = 346 ∧
      encodedLength itemsSecretKey ⟨10, 2, [gravel, sand]⟩ = 376 ∧
      serialize bytes = some (servedFile ⟨10, 2, [gravel, sand]⟩ bytes)) ∧
    ∃ s' bytes, encodeItemsDat {} (.readable ⟨10, 2, [gravel, blank]⟩) .opens =
        some (s', some bytes) ∧ bytes.length = 193 ∧ serialize bytes = none := by
  have hlengths : encodedLength itemsSecretKey ⟨10, 2, [gravel, sand]⟩ = 376 ∧
      ((encoded itemsSecretKey ⟨10, 2, [gravel, sand]⟩).rdropWhile (· = 0)).length = 346 ∧
      encodedLength itemsSecretKey ⟨10, 2, [gravel, blank]⟩ = 355 ∧
      ((encoded itemsSecretKey ⟨10, 2, [gravel, blank]⟩).rdropWhile (· = 0)).length = 193 := by
    decide +kernel
  obtain ⟨hsand, hsandCut, hblank, hblankCut⟩ := hlengths
  have hfits : ∀ n, n ≤ 376 → n ≤ bufferSize := fun n hn => hn.trans (by decide)
  obtain ⟨hsandTidy, hsandReadable⟩ := pair_ready (Or.inl rfl)
  obtain ⟨hblankTidy, hblankReadable⟩ := pair_ready (Or.inr rfl)
  have hsandWritten := encodeItemsDat_tidy hsandTidy (le_refl _) (hfits _ (by omega))
  have hblankWritten := encodeItemsDat_tidy hblankTidy (le_refl _) (hfits _ (by omega))
  refine ⟨⟨_, _, hsandWritten, hsandCut, hsand, ?_⟩, _, _, hblankWritten, hblankCut, ?_⟩
  · rw [serialize_encodeItemsDat hsandTidy hsandReadable (hfits _ (by omega)) hsandWritten, if_pos]
    rw [hsand, hsandCut]
    decide
  · rw [serialize_encodeItemsDat hblankTidy hblankReadable (hfits _ (by omega)) hblankWritten,
      if_neg]
    rw [hblank, hblankCut]
    decide

end Items

end ItemsData

end NopyServer
