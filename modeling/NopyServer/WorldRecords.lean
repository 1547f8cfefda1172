/-
The JSON forms of the records inside a world: `to_json` and `from_json` of the
source, with the codec each pair makes.  Apart from numbers that JSON cannot
write and the `uid` of an NPC everything comes back.
-/
import NopyServer.Lib.Json
import NopyServer.World

namespace NopyServer

open Json Codec

def Portrait.toJson (p : Portrait) : Json :=
  .obj [("c_expression", ofUInt32.write p.cExpression),
    ("c_hair_colour", ofUInt32.write p.cHairColour),
    ("c_skin", ofUInt32.write p.cSkin), ("c_face", ofUInt16.write p.cFace),
    ("c_head", ofUInt16.write p.cHead), ("c_hair", ofUInt16.write p.cHair)]

def Portrait.fromJson (j : Json) : Option Portrait := do
  return {
    cSkin := ← j.member "c_skin" ofUInt32.read
    cFace := ← j.member "c_face" ofUInt16.read
    cHead := ← j.member "c_head" ofUInt16.read
    cHair := ← j.member "c_hair" ofUInt16.read
    cExpression := ← j.member "c_expression" ofUInt32.read
    cHairColour := ← j.member "c_hair_colour" ofUInt32.read }

theorem Portrait.fromJson_toJson (p : Portrait) :
    fromJson p.toJson = some p := by
  simp [fromJson, toJson, member, find, List.lookup_cons,
    ofUInt16_faithful.read_write, ofUInt32_faithful.read_write]

def Portrait.codec : Codec Portrait := total toJson fromJson fromJson_toJson

def Mannequin.toJson (p : Mannequin) : Json :=
  .obj [("c_head", ofUInt16.write p.cHead), ("c_shirt", ofUInt16.write p.cShirt),
    ("c_pants", ofUInt16.write p.cPants), ("c_feet", ofUInt16.write p.cFeet),
    ("c_mask", ofUInt16.write p.cMask), ("c_hand", ofUInt16.write p.cHand),
    ("c_back", ofUInt16.write p.cBack), ("c_hair", ofUInt16.write p.cHair),
    ("c_neck", ofUInt16.write p.cNeck)]

def Mannequin.fromJson (j : Json) : Option Mannequin := do
  return {
    cHead := ← j.member "c_head" ofUInt16.read
    cFeet := ← j.member "c_feet" ofUInt16.read
    cMask := ← j.member "c_mask" ofUInt16.read
    cHand := ← j.member "c_hand" ofUInt16.read
    cBack := ← j.member "c_back" ofUInt16.read
    cHair := ← j.member "c_hair" ofUInt16.read
    cNeck := ← j.member "c_neck" ofUInt16.read
    cShirt := ← j.member "c_shirt" ofUInt16.read
    cPants := ← j.member "c_pants" ofUInt16.read }

theorem Mannequin.fromJson_toJson (p : Mannequin) :
    fromJson p.toJson = some p := by
  simp [fromJson, toJson, member, find, List.lookup_cons,
    ofUInt16_faithful.read_write]

def Mannequin.codec : Codec Mannequin := total toJson fromJson fromJson_toJson

def Phonebooth.toJson (p : Phonebooth) : Json :=
  .obj [("c_ances", ofUInt16.write p.cAnces), ("c_head", ofUInt16.write p.cHead),
    ("c_shirt", ofUInt16.write p.cShirt), ("c_pants", ofUInt16.write p.cPants),
    ("c_feet", ofUInt16.write p.cFeet), ("c_mask", ofUInt16.write p.cMask),
    ("c_hand", ofUInt16.write p.cHand), ("c_back", ofUInt16.write p.cBack),
    ("c_hair", ofUInt16.write p.cHair), ("c_neck", ofUInt16.write p.cNeck)]

def Phonebooth.fromJson (j : Json) : Option Phonebooth := do
  return { ← Mannequin.fromJson j with
    cAnces := ← j.member "c_ances" ofUInt16.read }

theorem Phonebooth.fromJson_toJson (p : Phonebooth) :
    fromJson p.toJson = some p := by
  simp [fromJson, toJson, Mannequin.fromJson, member, find, List.lookup_cons,
    ofUInt16_faithful.read_write]

def Phonebooth.codec : Codec Phonebooth := total toJson fromJson fromJson_toJson

def Donate.toJson (p : Donate) : Json :=
  .obj [("item", ofInt.write p.item), ("count", ofInt.write p.count),
    ("name", ofStr.write p.name), ("text", ofStr.write p.text)]

def Donate.fromJson (j : Json) : Option Donate := do
  return {
    item := ← j.member "item" ofInt.read
    name := ← j.member "name" ofStr.read
    text := ← j.member "text" ofStr.read
    count := ← j.member "count" ofInt.read }

theorem Donate.fromJson_toJson (p : Donate) : fromJson p.toJson = some p := by
  simp [fromJson, toJson, member, find, List.lookup_cons,
    ofInt_faithful.read_write, ofStr_faithful.read_write]

def Donate.codec : Codec Donate := total toJson fromJson fromJson_toJson

/-- The food of an oven, written and read inside the loops over blocks. -/
def FoodType.toJson (p : FoodType) : Json :=
  .obj [("id", ofInt.write p.id), ("time", ofInt.write p.time)]

def FoodType.fromJson (j : Json) : Option FoodType := do
  return {
    id := ← j.member "id" ofInt.read
    time := ← j.member "time" ofInt.read }

theorem FoodType.fromJson_toJson (p : FoodType) :
    fromJson p.toJson = some p := by
  simp [fromJson, toJson, member, find, List.lookup_cons,
    ofInt_faithful.read_write]

def FoodType.codec : Codec FoodType := total toJson fromJson fromJson_toJson

def WorldSBOX1.toJson (p : WorldSBOX1) : Json :=
  .obj [("i", ofInt.write p.id), ("c", ofInt.write p.count),
    ("x", ofInt.write p.x), ("y", ofInt.write p.y)]

def WorldSBOX1.fromJson (j : Json) : Option WorldSBOX1 := do
  return {
    x := ← j.member "x" ofInt.read
    y := ← j.member "y" ofInt.read
    id := ← j.member "i" ofInt.read
    count := ← j.member "c" ofInt.read }

theorem WorldSBOX1.fromJson_toJson (p : WorldSBOX1) :
    fromJson p.toJson = some p := by
  simp [fromJson, toJson, member, find, List.lookup_cons,
    ofInt_faithful.read_write]

def WorldSBOX1.codec : Codec WorldSBOX1 := total toJson fromJson fromJson_toJson

def WorldCCTV.toJson (p : WorldCCTV) : Json :=
  .obj [("x", ofInt.write p.x), ("y", ofInt.write p.y),
    ("l", ofStr.write p.logs)]

def WorldCCTV.fromJson (j : Json) : Option WorldCCTV := do
  return {
    x := ← j.member "x" ofInt.read
    y := ← j.member "y" ofInt.read
    logs := ← j.member "l" ofStr.read }

theorem WorldCCTV.fromJson_toJson (p : WorldCCTV) :
    fromJson p.toJson = some p := by
  simp [fromJson, toJson, member, find, List.lookup_cons,
    ofInt_faithful.read_write, ofStr_faithful.read_write]

def WorldCCTV.codec : Codec WorldCCTV := total toJson fromJson fromJson_toJson

def WorldBulletin.toJson (p : WorldBulletin) : Json :=
  .obj [("x", ofInt.write p.x), ("y", ofInt.write p.y),
    ("n", ofStr.write p.name), ("t", ofStr.write p.text)]

def WorldBulletin.fromJson (j : Json) : Option WorldBulletin := do
  return {
    x := ← j.member "x" ofInt.read
    y := ← j.member "y" ofInt.read
    name := ← j.member "n" ofStr.read
    text := ← j.member "t" ofStr.read }

theorem WorldBulletin.fromJson_toJson (p : WorldBulletin) :
    fromJson p.toJson = some p := by
  simp [fromJson, toJson, member, find, List.lookup_cons,
    ofInt_faithful.read_write, ofStr_faithful.read_write]

def WorldBulletin.codec : Codec WorldBulletin :=
  total toJson fromJson fromJson_toJson

def WorldMachines.toJson (p : WorldMachines) : Json :=
  .obj [("i", ofUInt16.write p.id), ("x", ofUInt16.write p.x),
    ("y", ofUInt16.write p.y), ("ti", ofUInt16.write p.targetItem),
    ("en", ofBool.write p.enabled), ("bm", ofBool.write p.buildmode),
    ("l", ofInt.write p.last_)]

def WorldMachines.fromJson (j : Json) : Option WorldMachines := do
  return {
    x := ← j.member "x" ofUInt16.read
    y := ← j.member "y" ofUInt16.read
    id := ← j.member "i" ofUInt16.read
    last_ := ← j.member "l" ofInt.read
    enabled := ← j.member "en" ofBool.read
    buildmode := ← j.member "bm" ofBool.read
    targetItem := ← j.member "ti" ofUInt16.read }

theorem WorldMachines.fromJson_toJson (p : WorldMachines) :
    fromJson p.toJson = some p := by
  simp [fromJson, toJson, member, find, List.lookup_cons,
    ofInt_faithful.read_write, ofBool_faithful.read_write,
    ofUInt16_faithful.read_write]

def WorldMachines.codec : Codec WorldMachines :=
  total toJson fromJson fromJson_toJson

/-- An entry of `drop_new`: a list of five integers, or of six. -/
def DropEntry.toJson (entry : DropEntry) : Json :=
  ofInt.list.write
    ([entry.id, entry.count, entry.uid, entry.x, entry.y] ++ entry.time.toList)

def DropEntry.fromJson (j : Json) : Option DropEntry :=
  (ofInt.list.read j).bind fun
    | id :: count :: uid :: x :: y :: rest =>
        some ⟨id, count, uid, x, y, rest.head?⟩
    | _ => none

theorem DropEntry.fromJson_toJson (entry : DropEntry) :
    fromJson entry.toJson = some entry := by
  unfold fromJson toJson
  rw [ofInt_faithful.list.read_write]
  cases entry with
  | mk id count uid x y time => cases time <;> rfl

def DropEntry.codec : Codec DropEntry := total toJson fromJson fromJson_toJson

/-- A floating-point member. -/
def Real64.codec : Codec Real64 where
  write r := double.write r.bits
  read j := (double.read j).map Real64.mk
  ok r := finite r.bits = true
  kept := id
  read_write r hok := by
    rw [double.read_write _ hok]
    rfl
  read_write_none r hnot := by
    rw [double.read_write_none _ hnot]
    rfl

/-- The two coordinates of a position. -/
def WorldGhost.posCodec : Codec (Real64 × Real64) :=
  Real64.codec.pair Real64.codec

def WorldGhost.toJson (p : WorldGhost) : Json :=
  .obj [("type", ofUInt8.write p.type), ("id", ofUInt8.write p.id),
    ("action", ofUInt8.write p.action), ("last_pos", posCodec.write p.lastPos),
    ("new_pos", posCodec.write p.newPos), ("speed", Real64.codec.write p.speed),
    ("isCaught", ofUInt32.write p.isCaught), ("state", ofUInt32.write p.state),
    ("distance", Real64.codec.write p.distance),
    ("time", Real64.codec.write p.time),
    ("visual_pos", posCodec.write p.visualPos),
    ("maxTime", Real64.codec.write p.maxTime)]

def WorldGhost.fromJson (j : Json) : Option WorldGhost := do
  return {
    type := ← j.member "type" ofUInt8.read
    id := ← j.member "id" ofUInt8.read
    action := ← j.member "action" ofUInt8.read
    lastPos := ← j.member "last_pos" posCodec.read
    newPos := ← j.member "new_pos" posCodec.read
    speed := ← j.member "speed" Real64.codec.read
    isCaught := ← j.member "isCaught" ofUInt32.read
    state := ← j.member "state" ofUInt32.read
    distance := ← j.member "distance" Real64.codec.read
    time := ← j.member "time" Real64.codec.read
    visualPos := ← j.member "visual_pos" posCodec.read
    maxTime := ← j.member "maxTime" Real64.codec.read }

/-- All numbers of a ghost are finite. -/
structure WorldGhost.Finite (p : WorldGhost) : Prop where
  lastPos : posCodec.ok p.lastPos
  newPos : posCodec.ok p.newPos
  speed : Real64.codec.ok p.speed
  distance : Real64.codec.ok p.distance
  time : Real64.codec.ok p.time
  visualPos : posCodec.ok p.visualPos
  maxTime : Real64.codec.ok p.maxTime

theorem WorldGhost.fromJson_toJson {p : WorldGhost} (hok : p.Finite) :
    fromJson p.toJson = some p := by
  simp [fromJson, toJson, member, find, List.lookup_cons,
    ofUInt8_faithful.read_write, ofUInt32_faithful.read_write,
    posCodec.read_write _ hok.lastPos, posCodec.read_write _ hok.newPos,
    posCodec.read_write _ hok.visualPos, Real64.codec.read_write _ hok.speed,
    Real64.codec.read_write _ hok.distance, Real64.codec.read_write _ hok.time,
    Real64.codec.read_write _ hok.maxTime]
  rfl

theorem WorldGhost.fromJson_toJson_none {p : WorldGhost} (hnot : ¬ p.Finite) :
    fromJson p.toJson = none := by
  refine Option.eq_none_iff_forall_ne_some.mpr fun back hback => hnot ?_
  simp [fromJson, toJson, member, find, List.lookup_cons,
    ofUInt8_faithful.read_write, ofUInt32_faithful.read_write,
    Option.bind_eq_some_iff] at hback
  obtain ⟨_, _, hlast, _, _, hnew, _, hspeed, _, hdistance, _, htime, _, _,
    hvisual, _, hmax, -⟩ := hback
  exact ⟨ok_of_read_write hlast, ok_of_read_write hnew,
    ok_of_read_write hspeed, ok_of_read_write hdistance,
    ok_of_read_write htime, ok_of_read_write hvisual, ok_of_read_write hmax⟩

def WorldGhost.codec : Codec WorldGhost where
  write := toJson
  read := fromJson
  ok := Finite
  kept p := p
  read_write _ := fromJson_toJson
  read_write_none _ := fromJson_toJson_none

def WorldNPC.toJson (p : WorldNPC) : Json :=
  .obj [("i", ofUInt16.write p.id), ("x", ofUInt16.write p.x),
    ("y", ofUInt16.write p.y), ("ps", ofUInt16.write p.projectileSpeed),
    ("rf", ofUInt16.write p.rateOfFire), ("kr", Real64.codec.write p.kryptis),
    ("en", ofBool.write p.enabled), ("l", ofInt.write p.last_),
    ("sm", ofInt.write p.startedMoving)]

def WorldNPC.fromJson (j : Json) : Option WorldNPC := do
  return {
    x := ← j.member "x" ofUInt16.read
    y := ← j.member "y" ofUInt16.read
    id := ← j.member "i" ofUInt16.read
    last_ := ← j.member "l" ofInt.read
    kryptis := ← j.member "kr" Real64.codec.read
    enabled := ← j.member "en" ofBool.read
    rateOfFire := ← j.member "rf" ofUInt16.read
    startedMoving := ← j.member "sm" ofInt.read
    projectileSpeed := ← j.member "ps" ofUInt16.read }

/-- What the file has of an NPC: all but its `uid`. -/
def WorldNPC.kept (p : WorldNPC) : WorldNPC := { p with uid := 0 }

def WorldNPC.codec : Codec WorldNPC where
  write := toJson
  read := fromJson
  ok p := Real64.codec.ok p.kryptis
  kept := kept
  read_write p hok := by
    simp [fromJson, toJson, member, find, List.lookup_cons,
      ofInt_faithful.read_write, ofBool_faithful.read_write,
      ofUInt16_faithful.read_write, Real64.codec.read_write _ hok, kept]
    rfl
  read_write_none p hnot := by
    simp [fromJson, toJson, member, find, List.lookup_cons,
      ofInt_faithful.read_write, ofBool_faithful.read_write,
      ofUInt16_faithful.read_write, Real64.codec.read_write_none _ hnot]

section Dumped

theorem Portrait.dumps_toJson (p : Portrait) : p.toJson.dumps = true := by
  simp [toJson, between]

theorem Mannequin.dumps_toJson (p : Mannequin) : p.toJson.dumps = true := by
  simp [toJson, between]

theorem Phonebooth.dumps_toJson (p : Phonebooth) : p.toJson.dumps = true := by
  simp [toJson, between]

@[simp]
theorem dumps_donate (p : Donate) : (Donate.codec.write p).dumps = true ↔
    utf8 p.name.toList = true ∧ utf8 p.text.toList = true := by
  change p.toJson.dumps = true ↔ _
  simp [Donate.toJson, between]

@[simp]
theorem dumps_foodType (p : FoodType) : (FoodType.codec.write p).dumps = true := by
  change p.toJson.dumps = true
  simp [FoodType.toJson, between]

@[simp]
theorem dumps_sbox1 (p : WorldSBOX1) : (WorldSBOX1.codec.write p).dumps = true := by
  change p.toJson.dumps = true
  simp [WorldSBOX1.toJson, between]

@[simp]
theorem dumps_cctv (p : WorldCCTV) :
    (WorldCCTV.codec.write p).dumps = true ↔ utf8 p.logs.toList = true := by
  change p.toJson.dumps = true ↔ _
  simp [WorldCCTV.toJson, between]

@[simp]
theorem dumps_bulletin (p : WorldBulletin) : (WorldBulletin.codec.write p).dumps = true ↔
    utf8 p.name.toList = true ∧ utf8 p.text.toList = true := by
  change p.toJson.dumps = true ↔ _
  simp [WorldBulletin.toJson, between]

@[simp]
theorem dumps_machines (p : WorldMachines) : (WorldMachines.codec.write p).dumps = true := by
  change p.toJson.dumps = true
  simp [WorldMachines.toJson, between]

@[simp]
theorem dumps_dropEntry (entry : DropEntry) : (DropEntry.codec.write entry).dumps = true := by
  change (ofInt.list.write _).dumps = true
  simp

@[simp]
theorem dumps_real64 (r : Real64) : (Real64.codec.write r).dumps = true := dumps_double r.bits

@[simp]
theorem dumps_ghost (p : WorldGhost) : (WorldGhost.codec.write p).dumps = true := by
  change p.toJson.dumps = true
  simp [WorldGhost.toJson, WorldGhost.posCodec, between]

@[simp]
theorem dumps_npc (p : WorldNPC) : (WorldNPC.codec.write p).dumps = true := by
  change p.toJson.dumps = true
  simp [WorldNPC.toJson, between]

end Dumped

end NopyServer
