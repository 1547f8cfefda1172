/-
JSON values and codecs.  A codec is a pair of a writer and a reader together
with the values that survive: the reader gives these back and rejects what the
writer makes of the others.  Objects are written member by member, a member
being present or not, and read by key.
-/
import Mathlib.Algebra.Group.Int.Defs
import Mathlib.Algebra.Group.Nat.Defs
import Mathlib.Data.List.Nodup

/-- A JSON value.  A number with a point is kept as the bits of its double. -/
inductive Json where
  | null
  | bool (value : Bool)
  | int (value : Int)
  | real (bits : UInt64)
  | str (value : String)
  | arr (items : List Json)
  | obj (members : List (String × Json))

namespace Json

/-- The member under a key, if there is one. -/
def find (key : String) : Json → Option Json
  | obj members => members.lookup key
  | _ => none

/-- The object with the members that are present; `null` when there is none. -/
def object (members : List (String × Option Json)) : Json :=
  match members.filterMap fun member => member.2.map (member.1, ·) with
  | [] => null
  | present => obj present

theorem lookup_present {key : String} {value : Option Json}
    {members : List (String × Option Json)}
    (hkeys : (members.map Prod.fst).Nodup) (hmem : (key, value) ∈ members) :
    (members.filterMap fun member => member.2.map (member.1, ·)).lookup key =
      value := by
  induction members with
  | nil => cases hmem
  | cons head tail ih =>
      obtain ⟨hfresh, htail⟩ := List.nodup_cons.mp hkeys
      rcases List.mem_cons.mp hmem with rfl | hlater
      · cases value with
        | some present => simp
        | none =>
            rw [List.filterMap_cons_none rfl, List.lookup_eq_none_iff]
            intro member hpresent
            obtain ⟨old, hold, hsame⟩ := List.mem_filterMap.mp hpresent
            obtain ⟨written, -, rfl⟩ := Option.map_eq_some_iff.mp hsame
            have hne : key ≠ old.1 := fun heq =>
              hfresh (List.mem_map.mpr ⟨old, hold, heq.symm⟩)
            simpa using hne
      · have hne : key ≠ head.1 := fun heq =>
          hfresh (List.mem_map.mpr ⟨(key, value), hlater, heq⟩)
        cases hpresent : head.2 with
        | none =>
            rw [List.filterMap_cons_none (by simp [hpresent])]
            exact ih htail hlater
        | some present =>
            rw [List.filterMap_cons_some (b := (head.1, present))
              (by simp [hpresent]), List.lookup_cons]
            simp only [beq_false_of_ne hne]
            exact ih htail hlater

/-- A member is found under its key, or it is absent. -/
theorem find_object {key : String} {value : Option Json}
    {members : List (String × Option Json)}
    (hkeys : (members.map Prod.fst).Nodup) (hmem : (key, value) ∈ members) :
    (object members).find key = value := by
  have hlookup := lookup_present hkeys hmem
  unfold object
  split
  · next hnone =>
      rw [hnone] at hlookup
      exact hlookup
  · exact hlookup

/-- `map[key] = value` on a list of entries: the entry of the key is
overwritten, or one is added. -/
def setKey {α : Type} (key : String) (value : α) :
    List (String × α) → List (String × α)
  | [] => [(key, value)]
  | entry :: rest =>
      if entry.1 = key then (key, value) :: rest
      else entry :: setKey key value rest

theorem mem_keys_setKey {α : Type} {key other : String} {value : α}
    {entries : List (String × α)} :
    other ∈ (setKey key value entries).map Prod.fst ↔
      other = key ∨ other ∈ entries.map Prod.fst := by
  induction entries with
  | nil => simp [setKey]
  | cons entry rest ih =>
      by_cases hkey : entry.1 = key
      · simp [setKey, hkey]
      · simp only [setKey, hkey, ↓reduceIte, List.map_cons, List.mem_cons, ih]
        exact or_left_comm

theorem mem_of_mem_setKey {α : Type} {key : String} {value : α}
    {entries : List (String × α)} {entry : String × α}
    (hmem : entry ∈ setKey key value entries) :
    entry = (key, value) ∨ entry ∈ entries := by
  induction entries with
  | nil => exact Or.inl (List.mem_singleton.mp hmem)
  | cons head rest ih =>
      by_cases hkey : head.1 = key
      · simp only [setKey, hkey, ↓reduceIte, List.mem_cons] at hmem
        exact hmem.imp_right (List.mem_cons_of_mem head)
      · simp only [setKey, hkey, ↓reduceIte, List.mem_cons] at hmem
        rcases hmem with rfl | hlater
        · exact Or.inr List.mem_cons_self
        · exact (ih hlater).imp_right (List.mem_cons_of_mem head)

/-- Setting a key keeps the keys distinct. -/
theorem nodup_setKey {α : Type} {entries : List (String × α)}
    (hkeys : (entries.map Prod.fst).Nodup) (key : String) (value : α) :
    ((setKey key value entries).map Prod.fst).Nodup := by
  induction entries with
  | nil => simp [setKey]
  | cons entry rest ih =>
      obtain ⟨hfresh, hrest⟩ := List.nodup_cons.mp hkeys
      by_cases hkey : entry.1 = key
      · simp only [setKey, hkey, ↓reduceIte, List.map_cons]
        exact List.nodup_cons.mpr ⟨hkey ▸ hfresh, hrest⟩
      · simp only [setKey, hkey, ↓reduceIte, List.map_cons, List.nodup_cons]
        refine ⟨fun hmem => ?_, ih hrest⟩
        rcases mem_keys_setKey.mp hmem with hsame | hold
        · exact hkey hsame
        · exact hfresh hold

/-- The value that was set is found. -/
theorem lookup_setKey {α : Type} (key : String) (value : α) (entries : List (String × α)) :
    (setKey key value entries).lookup key = some value := by
  induction entries with
  | nil => simp [setKey]
  | cons entry rest ih =>
      by_cases hkey : entry.1 = key
      · simp [setKey, hkey]
      · have hne : key ≠ entry.1 := fun h => hkey h.symm
        obtain ⟨other, old⟩ := entry
        rw [setKey, if_neg hkey, List.lookup_cons, beq_false_of_ne hne]
        exact ih

/-- The last value that is set stays. -/
theorem setKey_setKey {α : Type} (key : String) (first second : α)
    (entries : List (String × α)) :
    setKey key second (setKey key first entries) = setKey key second entries := by
  induction entries with
  | nil => simp [setKey]
  | cons entry rest ih =>
      by_cases hkey : entry.1 = key
      · simp [setKey, hkey]
      · simp only [setKey, hkey, ↓reduceIte, ih]

/-- Setting what is there already changes nothing. -/
theorem setKey_of_lookup {α : Type} {key : String} {value : α} {entries : List (String × α)}
    (hlookup : entries.lookup key = some value) : setKey key value entries = entries := by
  induction entries with
  | nil => cases hlookup
  | cons entry rest ih =>
      obtain ⟨other, old⟩ := entry
      by_cases hkey : other = key
      · subst hkey
        rw [List.lookup_cons_self] at hlookup
        rw [setKey, if_pos rfl, Option.some.inj hlookup]
      · have hne : key ≠ other := fun h => hkey h.symm
        simp only [List.lookup_cons, beq_false_of_ne hne] at hlookup
        simp only [setKey, hkey, ↓reduceIte, ih hlookup]

/-- A key that is not there is added at the end. -/
theorem setKey_of_notMem {α : Type} {key : String} {value : α}
    {entries : List (String × α)} (hkey : key ∉ entries.map Prod.fst) :
    setKey key value entries = entries ++ [(key, value)] := by
  induction entries with
  | nil => rfl
  | cons entry rest ih =>
      have hne : ¬ entry.1 = key := fun heq => hkey (heq ▸ List.mem_cons_self)
      have hrest : key ∉ rest.map Prod.fst := fun hmem =>
        hkey (List.mem_cons_of_mem _ hmem)
      simp only [setKey, hne, ↓reduceIte, ih hrest, List.cons_append]

/-- A double that JSON can write: neither an infinity nor a NaN. -/
def finite (bits : UInt64) : Bool := (bits >>> 52) &&& 0x7ff != 0x7ff

/-- The integral part of a double. -/
def truncate (bits : UInt64) : Int :=
  let exponent := ((bits >>> 52) &&& 0x7ff).toNat
  let mantissa := (bits &&& 0xfffffffffffff).toNat + 2 ^ 52
  let whole : Nat :=
    if exponent = 0 then 0
    else if 1075 ≤ exponent then mantissa * 2 ^ (exponent - 1075)
    else mantissa / 2 ^ (1075 - exponent)
  if bits >>> 63 = 0 then whole else -whole

/-- Any number as an integer; other values have none. -/
def asInt : Json → Option Int
  | int value => some value
  | bool value => some (if value then 1 else 0)
  | real bits => some (truncate bits)
  | _ => none

def asBool : Json → Option Bool
  | bool value => some value
  | _ => none

def asStr : Json → Option String
  | str value => some value
  | _ => none

/-- Any number as a double. -/
def asReal : Json → Option UInt64
  | real bits => some bits
  | int value => some (Float.ofInt value).toBits
  | _ => none

/-- A double is written as `null` where JSON has no number for it. -/
def ofReal (bits : UInt64) : Json := if finite bits then real bits else null

/-- The elements of a list. -/
def asList : Json → Option (List Json)
  | arr items => some items
  | _ => none

/-- A member that has to be there. -/
def member {α : Type} (json : Json) (key : String)
    (read : Json → Option α) : Option α :=
  (json.find key).bind read

/-- A member that may be absent, with its default. -/
def value {α : Type} (json : Json) (key : String) (default : α)
    (read : Json → Option α) : Option α :=
  match json.find key with
  | none => some default
  | some found => read found

/-- A byte between two others, a byte being one character. -/
def between (low high : Nat) (c : Char) : Bool := low ≤ c.toNat && c.toNat ≤ high

/-- The first two of three bytes: neither overlong nor a surrogate. -/
def leadsThree (a b : Char) : Bool :=
  (between 0xE0 0xE0 a && between 0xA0 0xBF b) || (between 0xED 0xED a && between 0x80 0x9F b) ||
    ((between 0xE1 0xEC a || between 0xEE 0xEF a) && between 0x80 0xBF b)

/-- The first two of four bytes: neither overlong nor past the last code point. -/
def leadsFour (a b : Char) : Bool :=
  (between 0xF0 0xF0 a && between 0x90 0xBF b) || (between 0xF4 0xF4 a && between 0x80 0x8F b) ||
    (between 0xF1 0xF3 a && between 0x80 0xBF b)

/-- The bytes of a text are UTF-8. -/
def utf8 : List Char → Bool
  | [] => true
  | a :: rest =>
      if between 0 0x7F a then utf8 rest
      else
        match rest with
        | [] => false
        | b :: rest =>
            if between 0xC2 0xDF a && between 0x80 0xBF b then utf8 rest
            else
              match rest with
              | [] => false
              | c :: rest =>
                  if leadsThree a b && between 0x80 0xBF c then utf8 rest
                  else
                    match rest with
                    | [] => false
                    | d :: rest =>
                        leadsFour a b && between 0x80 0xBF c && between 0x80 0xBF d && utf8 rest

@[simp]
theorem utf8_nil : utf8 [] = true := rfl

@[simp]
theorem utf8_ascii {a : Char} {rest : List Char} (ha : between 0 0x7F a = true) :
    utf8 (a :: rest) = utf8 rest := by
  conv_lhs => rw [utf8.eq_def]
  exact if_pos ha

mutual

/-- `dump` writes a value, unless it throws at a text that is not UTF-8. -/
def dumps : Json → Bool
  | str value => utf8 value.toList
  | arr items => dumpsItems items
  | obj members => dumpsMembers members
  | _ => true

def dumpsItems : List Json → Bool
  | [] => true
  | item :: rest => item.dumps && dumpsItems rest

def dumpsMembers : List (String × Json) → Bool
  | [] => true
  | (key, value) :: rest => utf8 key.toList && value.dumps && dumpsMembers rest

end

@[simp]
theorem dumps_arr (items : List Json) :
    (arr items).dumps = true ↔ ∀ item ∈ items, item.dumps = true := by
  change dumpsItems items = true ↔ _
  induction items with
  | nil => simp [dumpsItems]
  | cons item rest ih => simp [dumpsItems, ih]

@[simp]
theorem dumps_obj (members : List (String × Json)) :
    (obj members).dumps = true ↔
      ∀ member ∈ members, utf8 member.1.toList = true ∧ member.2.dumps = true := by
  change dumpsMembers members = true ↔ _
  induction members with
  | nil => simp [dumpsMembers]
  | cons member rest ih => simp [dumpsMembers, ih]

/-- An object is written when its keys and the members that are present are. -/
theorem dumps_object {members : List (String × Option Json)}
    (hkeys : ∀ key ∈ members.map Prod.fst, utf8 key.toList = true) :
    (object members).dumps = true ↔
      ∀ member ∈ members, ∀ value ∈ member.2, value.dumps = true := by
  have hpresent : (∀ present ∈ members.filterMap fun member => member.2.map (member.1, ·),
        utf8 present.1.toList = true ∧ present.2.dumps = true) ↔
      ∀ member ∈ members, ∀ value ∈ member.2, value.dumps = true := by
    constructor
    · intro hall member hmem value hvalue
      refine (hall (member.1, value) (List.mem_filterMap.mpr ⟨member, hmem, ?_⟩)).2
      rw [hvalue, Option.map_some]
    · rintro hall present hmem
      obtain ⟨member, hmember, hsome⟩ := List.mem_filterMap.mp hmem
      obtain ⟨value, hvalue, rfl⟩ := Option.map_eq_some_iff.mp hsome
      exact ⟨hkeys _ (List.mem_map_of_mem hmember), hall member hmember value hvalue⟩
  rw [← hpresent]
  unfold object
  split
  · next hnone => simp [hnone, dumps]
  · exact dumps_obj _

/-- A writer and a reader: a value that is `ok` comes back as what is `kept`
of it, and what is written of another value is rejected. -/
structure Codec (α : Type) where
  write : α → Json
  read : Json → Option α
  ok : α → Prop
  kept : α → α
  read_write : ∀ a, ok a → read (write a) = some (kept a)
  read_write_none : ∀ a, ¬ ok a → read (write a) = none

namespace Codec

variable {α β : Type}

theorem ok_of_read_write {codec : Codec α} {a back : α}
    (hread : codec.read (codec.write a) = some back) : codec.ok a := by
  by_contra hnot
  rw [codec.read_write_none a hnot] at hread
  cases hread

/-- A codec that gives every value back as it is. -/
structure Faithful (codec : Codec α) : Prop where
  ok : ∀ a, codec.ok a
  kept : ∀ a, codec.kept a = a

theorem Faithful.read_write {codec : Codec α} (h : codec.Faithful) (a : α) :
    codec.read (codec.write a) = some a := by
  rw [codec.read_write a (h.ok a), h.kept]

/-- The codec of a type all of whose values survive. -/
def total (write : α → Json) (read : Json → Option α)
    (h : ∀ a, read (write a) = some a) : Codec α where
  write := write
  read := read
  ok _ := True
  kept := id
  read_write a _ := h a
  read_write_none _ hnot := (hnot trivial).elim

theorem total_faithful (write : α → Json) (read : Json → Option α)
    (h : ∀ a, read (write a) = some a) : (total write read h).Faithful :=
  ⟨fun _ => trivial, fun _ => rfl⟩

def ofInt : Codec Int := total int asInt fun _ => rfl

def ofBool : Codec Bool := total bool asBool fun _ => rfl

def ofStr : Codec String := total str asStr fun _ => rfl

def ofUInt8 : Codec UInt8 :=
  total (fun n => int n.toNat) (fun json => json.asInt.map UInt8.ofInt)
    fun n => by
      have hlt := n.toNat_lt
      simp only [asInt, UInt8.ofInt, Option.map_some]
      rw [Int.emod_eq_of_lt (by omega) (by omega)]
      simp

def ofUInt16 : Codec UInt16 :=
  total (fun n => int n.toNat) (fun json => json.asInt.map UInt16.ofInt)
    fun n => by
      have hlt := n.toNat_lt
      simp only [asInt, UInt16.ofInt, Option.map_some]
      rw [Int.emod_eq_of_lt (by omega) (by omega)]
      simp

def ofUInt32 : Codec UInt32 :=
  total (fun n => int n.toNat) (fun json => json.asInt.map UInt32.ofInt)
    fun n => by
      have hlt := n.toNat_lt
      simp only [asInt, UInt32.ofInt, Option.map_some]
      rw [Int.emod_eq_of_lt (by omega) (by omega)]
      simp

def ofInt32 : Codec Int32 :=
  total (fun n => int n.toInt) (fun json => json.asInt.map Int32.ofInt)
    fun n => by simp [asInt]

def ofInt64 : Codec Int64 :=
  total (fun n => int n.toInt) (fun json => json.asInt.map Int64.ofInt)
    fun n => by simp [asInt]

theorem ofInt_faithful : ofInt.Faithful := total_faithful _ _ _

theorem ofBool_faithful : ofBool.Faithful := total_faithful _ _ _

theorem ofStr_faithful : ofStr.Faithful := total_faithful _ _ _

theorem ofUInt8_faithful : ofUInt8.Faithful := total_faithful _ _ _

theorem ofUInt16_faithful : ofUInt16.Faithful := total_faithful _ _ _

theorem ofUInt32_faithful : ofUInt32.Faithful := total_faithful _ _ _

theorem ofInt32_faithful : ofInt32.Faithful := total_faithful _ _ _

theorem ofInt64_faithful : ofInt64.Faithful := total_faithful _ _ _

/-- Doubles survive when they are finite. -/
def double : Codec UInt64 where
  write := ofReal
  read := asReal
  ok bits := finite bits = true
  kept := id
  read_write bits hok := by simp [ofReal, hok, asReal]
  read_write_none bits hnot := by simp [ofReal, hnot, asReal]

theorem mapM_write (codec : Codec α) {items : List α}
    (hok : ∀ a ∈ items, codec.ok a) :
    (items.map codec.write).mapM codec.read =
      some (items.map codec.kept) := by
  induction items with
  | nil => rfl
  | cons head tail ih =>
      rw [List.map_cons, List.mapM_cons,
        codec.read_write head (hok head List.mem_cons_self),
        ih fun a ha => hok a (List.mem_cons_of_mem head ha)]
      rfl

theorem mapM_write_none (codec : Codec α) {items : List α}
    (hnot : ¬ ∀ a ∈ items, codec.ok a) :
    (items.map codec.write).mapM codec.read = none := by
  induction items with
  | nil => simp at hnot
  | cons head tail ih =>
      rw [List.map_cons, List.mapM_cons]
      by_cases hhead : codec.ok head
      · rw [codec.read_write head hhead, ih fun htail => hnot fun a ha =>
          (List.mem_cons.mp ha).elim (fun heq => heq ▸ hhead) (htail a)]
        rfl
      · rw [codec.read_write_none head hhead]
        rfl

def list (codec : Codec α) : Codec (List α) where
  write items := arr (items.map codec.write)
  read json := json.asList.bind fun items => items.mapM codec.read
  ok items := ∀ a ∈ items, codec.ok a
  kept items := items.map codec.kept
  read_write _ hok := codec.mapM_write hok
  read_write_none _ hnot := codec.mapM_write_none hnot

theorem Faithful.list {codec : Codec α} (h : codec.Faithful) :
    codec.list.Faithful where
  ok _ a _ := h.ok a
  kept items := by
    change items.map codec.kept = items
    rw [funext h.kept, List.map_id']

/-- A vector is a list of fixed length. -/
def vector (n : Nat) (codec : Codec α) : Codec (Vector α n) where
  write items := codec.list.write items.toList
  read json := (codec.list.read json).bind fun items =>
    if h : items.length = n then some ⟨items.toArray, h⟩ else none
  ok items := codec.list.ok items.toList
  kept items := items.map codec.kept
  read_write items hok := by
    have hlength : (codec.list.kept items.toList).length = n := by
      change (items.toList.map codec.kept).length = n
      simp
    rw [codec.list.read_write _ hok, Option.bind_some, dif_pos hlength]
    refine congrArg some (Vector.toArray_inj.mp ?_)
    change (items.toList.map codec.kept).toArray = (items.map codec.kept).toArray
    rw [Vector.toArray_map, ← List.map_toArray, Vector.toList,
      Array.toArray_toList]
  read_write_none items hnot := by
    rw [codec.list.read_write_none _ hnot]
    rfl

theorem Faithful.vector {codec : Codec α} (h : codec.Faithful) (n : Nat) :
    (codec.vector n).Faithful where
  ok _ a _ := h.ok a
  kept items := by
    change items.map codec.kept = items
    rw [funext h.kept, Vector.map_id']

/-- A pair is a list of two; what follows is ignored. -/
def pair (left : Codec α) (right : Codec β) : Codec (α × β) where
  write p := arr [left.write p.1, right.write p.2]
  read json := json.asList.bind fun
    | a :: b :: _ => (left.read a).bind fun a =>
        (right.read b).map fun b => (a, b)
    | _ => none
  ok p := left.ok p.1 ∧ right.ok p.2
  kept p := (left.kept p.1, right.kept p.2)
  read_write p hok := by
    simp [asList, left.read_write _ hok.1, right.read_write _ hok.2]
  read_write_none p hnot := by
    by_cases hleft : left.ok p.1
    · have hright : ¬ right.ok p.2 := fun hright => hnot ⟨hleft, hright⟩
      simp [asList, left.read_write _ hleft, right.read_write_none _ hright]
    · simp [asList, left.read_write_none _ hleft]

theorem Faithful.pair {left : Codec α} {right : Codec β} (hl : left.Faithful)
    (hr : right.Faithful) : (left.pair right).Faithful where
  ok p := ⟨hl.ok p.1, hr.ok p.2⟩
  kept p := Prod.ext (hl.kept p.1) (hr.kept p.2)

section Dumped

@[simp]
theorem dumps_ofInt (n : Int) : (ofInt.write n).dumps = true := rfl

@[simp]
theorem dumps_ofBool (b : Bool) : (ofBool.write b).dumps = true := rfl

@[simp]
theorem dumps_ofStr (text : String) :
    (ofStr.write text).dumps = true ↔ utf8 text.toList = true := Iff.rfl

@[simp]
theorem dumps_ofUInt8 (n : UInt8) : (ofUInt8.write n).dumps = true := rfl

@[simp]
theorem dumps_ofUInt16 (n : UInt16) : (ofUInt16.write n).dumps = true := rfl

@[simp]
theorem dumps_ofUInt32 (n : UInt32) : (ofUInt32.write n).dumps = true := rfl

@[simp]
theorem dumps_double (bits : UInt64) : (double.write bits).dumps = true := by
  change (ofReal bits).dumps = true
  unfold ofReal
  split <;> rfl

@[simp]
theorem dumps_list (codec : Codec α) (items : List α) :
    (codec.list.write items).dumps = true ↔ ∀ a ∈ items, (codec.write a).dumps = true := by
  change (arr (items.map codec.write)).dumps = true ↔ _
  simp

@[simp]
theorem dumps_vector {n : Nat} (codec : Codec α) (items : Vector α n) :
    ((codec.vector n).write items).dumps = true ↔
      ∀ a ∈ items.toList, (codec.write a).dumps = true :=
  dumps_list codec items.toList

@[simp]
theorem dumps_pair (left : Codec α) (right : Codec β) (p : α × β) :
    ((left.pair right).write p).dumps = true ↔
      (left.write p.1).dumps = true ∧ (right.write p.2).dumps = true := by
  change (arr [left.write p.1, right.write p.2]).dumps = true ↔ _
  simp

end Dumped

variable {json : Json} {key : String} {a default : α}

/-- A member that is always written is read back. -/
theorem value_written (codec : Codec α)
    (hfind : json.find key = some (codec.write a)) (hok : codec.ok a) :
    json.value key default codec.read = some (codec.kept a) := by
  unfold value
  rw [hfind]
  exact codec.read_write a hok

theorem Faithful.value_written {codec : Codec α} (h : codec.Faithful)
    (hfind : json.find key = some (codec.write a)) :
    json.value key default codec.read = some a := by
  rw [codec.value_written hfind (h.ok a), h.kept]

/-- A member that is written when needed is read back, or its default is. -/
theorem Faithful.value_saved {codec : Codec α} (h : codec.Faithful)
    {keep : Prop} [Decidable keep]
    (hfind : json.find key = if keep then some (codec.write a) else none)
    (hdefault : ¬ keep → a = default) :
    json.value key default codec.read = some a := by
  by_cases hkeep : keep
  · rw [if_pos hkeep] at hfind
    exact h.value_written hfind
  · rw [if_neg hkeep] at hfind
    unfold value
    rw [hfind, hdefault hkeep]

end Codec

end Json
