/-
The fields of a login token.  `getValue` looks for the key and an equals sign
anywhere in the token: the first field that contains them gives the value, be it
behind a longer key or inside another value.
-/
import NopyServer.Lib.TextSearch
import NopyServer.LoginHandler

namespace NopyServer

namespace LoginHandler

/-- `getValue`: `find` gives the first place of the key with its equals sign. -/
def getValue (str key : List UInt8) : List UInt8 :=
  match str.dropInfix? (key ++ [byte '=']) with
  | some (_, rest) => rest.takeWhile (· ≠ byte '&')
  | none => []

/-- A field of a token, without the sign that is put between the fields. -/
structure Field where
  key : List UInt8
  value : List UInt8
  key_plain : byte '&' ∉ key
  value_plain : byte '&' ∉ value

def Field.text (f : Field) : List UInt8 := f.key ++ byte '=' :: f.value

/-- The fields joined with `&`. -/
def joined (fields : List Field) : List UInt8 :=
  List.intercalate [byte '&'] (fields.map Field.text)

/-- The value of the first field with a key, empty when there is none. -/
def valueOf (fields : List Field) (key : List UInt8) : List UInt8 :=
  ((fields.find? (·.key == key)).map Field.value).getD []

/-- What stands in a field behind the first place of the key with an equals
sign. -/
def Field.behind (f : Field) (key : List UInt8) : Option (List UInt8) :=
  (f.text.dropInfix? (key ++ [byte '='])).map Prod.snd

/-- The first field that contains the key and an equals sign has this very key,
unless what is behind them happens to be the value that is looked for.  A key
with the sign between the fields is the key of none; it is found with an empty
value or not at all. -/
structure Undisturbed (fields : List Field) (key : List UInt8) : Prop where
  inside : byte '&' ∉ key → ∀ f ∈ fields.find? (fun f => (f.behind key).isSome),
    f.key = key ∨ f.behind key = some (valueOf fields key)
  across : byte '&' ∈ key → ∀ found ∈ (joined fields).dropInfix? (key ++ [byte '=']),
    ∀ c ∈ found.2.head?, c = byte '&'

section Lookup

variable {key : List UInt8}

theorem behind_of_key {f : Field} (hkey : f.key = key) : f.behind key = some f.value := by
  have hfound : f.text.dropInfix? (key ++ [byte '=']) = some ([], f.value) := by
    apply TextSearch.dropInfix?_eq_some_iff.mpr
    refine ⟨?_, fun front' _ _ => Nat.zero_le _⟩
    simp [Field.text, hkey]
  rw [Field.behind, hfound]
  rfl

/-- What is behind the key holds no sign between fields. -/
theorem behind_plain {f : Field} {behind : List UInt8} (h : f.behind key = some behind) :
    byte '&' ∉ behind := by
  obtain ⟨⟨front, rest⟩, hfound, rfl⟩ := Option.map_eq_some_iff.mp h
  have htext := (TextSearch.dropInfix?_eq_some_iff.mp hfound).1
  intro hmem
  have hin : byte '&' ∈ f.text := by
    rw [htext]
    exact List.mem_append_right _ hmem
  rcases List.mem_append.mp hin with hkey | hvalue
  · exact f.key_plain hkey
  · rcases List.mem_cons.mp hvalue with hsign | hvalue
    · exact absurd hsign (by decide)
    · exact f.value_plain hvalue

theorem takeWhile_behind {behind rest : List UInt8} (hplain : byte '&' ∉ behind)
    (hrest : rest = [] ∨ ∃ more, rest = byte '&' :: more) :
    (behind ++ rest).takeWhile (· ≠ byte '&') = behind := by
  have hall : ∀ c ∈ behind, decide (c ≠ byte '&') = true := by
    intro c hc
    apply decide_eq_true
    rintro rfl
    exact hplain hc
  rw [List.takeWhile_append_of_pos hall]
  rcases hrest with rfl | ⟨more, rfl⟩
  · simp
  · simp

/-- The value comes from the first field that contains the key and an equals
sign. -/
theorem getValue_joined (fields : List Field) (hkey : byte '&' ∉ key) :
    getValue (joined fields) key = (fields.findSome? (Field.behind · key)).getD [] := by
  have hsep : byte '&' ∉ key ++ [byte '='] := by
    intro hmem
    rcases List.mem_append.mp hmem with hin | hsign
    · exact hkey hin
    · exact absurd (List.mem_singleton.mp hsign) (by decide)
  have hsearch := TextSearch.dropInfix?_intercalate hsep (by simp) (fields.map Field.text)
  have hwords : fields.findSome? (Field.behind · key) =
      ((fields.map Field.text).findSome? (·.dropInfix? (key ++ [byte '=']))).map Prod.snd := by
    rw [List.findSome?_map, List.map_findSome?]
    rfl
  rw [hwords]
  cases hfound : (fields.map Field.text).findSome? (·.dropInfix? (key ++ [byte '='])) with
  | none =>
      rw [hfound] at hsearch
      unfold getValue joined
      rw [hsearch]
      rfl
  | some found =>
      rw [hfound] at hsearch
      obtain ⟨front, rest, hrest, hsome⟩ := hsearch
      have hplain : byte '&' ∉ found.2 := by
        rw [hfound] at hwords
        obtain ⟨f, -, hbehind⟩ := List.exists_of_findSome?_eq_some hwords
        exact behind_plain hbehind
      unfold getValue joined
      rw [hsome]
      exact takeWhile_behind hplain hrest

/-- With a key that fields can have, the first field that contains it decides. -/
theorem getValue_inside_iff (fields : List Field) (hkey : byte '&' ∉ key) :
    getValue (joined fields) key = valueOf fields key ↔
      ∀ f ∈ fields.find? (fun f => (f.behind key).isSome),
        f.key = key ∨ f.behind key = some (valueOf fields key) := by
  rw [getValue_joined fields hkey]
  cases hfind : fields.find? (fun f => (f.behind key).isSome) with
  | none =>
      have hnone := List.find?_eq_none.mp hfind
      have hvalue : valueOf fields key = [] := by
        have hno : fields.find? (·.key == key) = none := by
          apply List.find?_eq_none.mpr
          intro f hf hsame
          apply hnone f hf
          rw [behind_of_key (by simpa using hsame)]
          rfl
        rw [valueOf, hno]
        rfl
      have hbehind : fields.findSome? (Field.behind · key) = none := by
        apply List.findSome?_eq_none_iff.mpr
        intro f hf
        simpa using hnone f hf
      simp [hvalue, hbehind]
  | some f =>
      obtain ⟨hholds, before, after, rfl, hbefore⟩ := List.find?_eq_some_iff_append.mp hfind
      obtain ⟨behind, hbehind⟩ := Option.isSome_iff_exists.mp hholds
      have hfirst : (before ++ f :: after).findSome? (Field.behind · key) = some behind := by
        have hearlier : before.findSome? (Field.behind · key) = none := by
          apply List.findSome?_eq_none_iff.mpr
          intro g hg
          simpa using hbefore g hg
        rw [List.findSome?_append, hearlier, List.findSome?_cons, hbehind]
        rfl
      rw [hfirst]
      simp only [Option.getD_some, Option.mem_some_iff, forall_eq', hbehind, Option.some_inj]
      constructor
      · exact Or.inr
      · rintro (hsame | hequal)
        · have hkeyed : (before ++ f :: after).find? (·.key == key) = some f := by
            apply List.find?_eq_some_iff_append.mpr
            refine ⟨by simpa using hsame, before, after, rfl, fun g hg => ?_⟩
            by_contra hother
            have hnot := hbefore g hg
            rw [behind_of_key (by simpa using hother)] at hnot
            cases hnot
          have hvalue := behind_of_key hsame
          rw [hbehind, Option.some_inj] at hvalue
          rw [valueOf, hkeyed, hvalue]
          rfl
        · exact hequal

/-- A key with the sign between the fields is no field's key. -/
theorem valueOf_of_sign (fields : List Field) (hkey : byte '&' ∈ key) :
    valueOf fields key = [] := by
  have hno : fields.find? (·.key == key) = none := by
    apply List.find?_eq_none.mpr
    intro f _ hsame
    have hsame' : f.key = key := by simpa using hsame
    exact f.key_plain (hsame' ▸ hkey)
  rw [valueOf, hno]
  rfl

/-- With a key that no field can have, the value is empty. -/
theorem getValue_across_iff (fields : List Field) (hkey : byte '&' ∈ key) :
    getValue (joined fields) key = valueOf fields key ↔
      ∀ found ∈ (joined fields).dropInfix? (key ++ [byte '=']),
        ∀ c ∈ found.2.head?, c = byte '&' := by
  rw [valueOf_of_sign fields hkey, getValue]
  cases (joined fields).dropInfix? (key ++ [byte '=']) with
  | none => simp
  | some found =>
      obtain ⟨front, rest⟩ := found
      cases rest with
      | nil => simp
      | cons c rest => simp [List.takeWhile_cons]

/-- `getValue` gives the value of the first field with the key exactly when no
other field disturbs it. -/
theorem getValue_eq_iff (fields : List Field) (key : List UInt8) :
    getValue (joined fields) key = valueOf fields key ↔ Undisturbed fields key := by
  by_cases hkey : byte '&' ∈ key
  · rw [getValue_across_iff fields hkey]
    constructor
    · intro hacross
      exact ⟨fun hplain => absurd hkey hplain, fun _ => hacross⟩
    · intro hundisturbed
      exact hundisturbed.across hkey
  · rw [getValue_inside_iff fields hkey]
    constructor
    · intro hinside
      exact ⟨fun _ => hinside, fun hsign => absurd hsign hkey⟩
    · intro hundisturbed
      exact hundisturbed.inside hkey

/-- The password is taken from a field whose key ends in the same letters. -/
theorem oldpassword_is_taken :
    ¬ ∀ (fields : List Field) (key : List UInt8),
      getValue (joined fields) key = valueOf fields key := by
  intro h
  have hvalue := h
    [⟨"oldpassword".toList.map byte, [byte 'a'], by decide, by decide⟩,
      ⟨"password".toList.map byte, [byte 'b'], by decide, by decide⟩]
    ("password".toList.map byte)
  exact absurd hvalue (by decide)

end Lookup

end LoginHandler

end NopyServer
