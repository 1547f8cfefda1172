/-
`encode_items_dat` clears the static members of its class behind each call, the
secret key among them, which nothing sets again.  A name cannot be written
under an empty key.
-/
import NopyServer.ItemsEncoder

namespace NopyServer

namespace ItemsEncoder

open CursorBuffer

/-- What is found at the path of the input: no file, a file at which
`json::parse` throws, or the items. -/
inductive InputFile where
  | missing
  | malformed
  | readable (result : Result)

/-- Whether the output can be written: the directories cannot be created, the
file cannot be opened, or it opens. -/
inductive OutputFile where
  | noDirectory
  | closed
  | opens
deriving DecidableEq

/-- The static members behind a call. -/
def Statics.cleared : Statics where
  itemsSecretKey := []
  encodedBufferFile := []
  msg := ""

/-- `encode_items_dat`: the static members and the bytes that are written. -/
def encodeItemsDat (s : Statics) (input : InputFile) (output : OutputFile) :
    Option (Statics × Option (List UInt8)) :=
  match input with
  | .missing => some (s, none)
  | .malformed => some (.cleared, none)
  | .readable result => do
      let s ← itemEncoder s result
      match output with
      | .noDirectory => some (.cleared, none)
      -- the function returns before it clears anything
      | .closed => some (s, none)
      | .opens => some (.cleared, some s.encodedBufferFile)

section Again

variable {s s' : Statics} {result : Result} {bytes : List UInt8}

/-- No item of the file has a name. -/
def Result.Nameless (result : Result) : Prop := ∀ item ∈ result.processed, item.name = []

/-- Without names nothing is written under the key. -/
theorem writes_of_nameless (h : result.Nameless) (key key' : List UInt8) :
    writes key result = writes key' result := by
  have hitem : ∀ item ∈ result.processed,
      itemWrites key result.version item = itemWrites key' result.version item := by
    intro item hitem
    have hname : writeName key item.itemId item.name = writeName key' item.itemId item.name := by
      rw [h item hitem]
      rfl
    unfold itemWrites
    rw [hname]
  rw [writes, List.flatMap_congr hitem, ← writes]

/-- An empty key writes the files without names as any other key does. -/
theorem processItemEncoder_of_nameless (h : result.Nameless) (key : List UInt8)
    (buffer : List UInt8) :
    processItemEncoder [] result buffer = processItemEncoder key result buffer := by
  have hno : ¬ ∃ item ∈ result.processed, item.name ≠ [] := by
    rintro ⟨item, hitem, hname⟩
    exact hname (h item hitem)
  unfold processItemEncoder
  rw [if_neg (not_and_of_not_right _ hno), if_neg (not_and_of_not_right _ hno),
    writes_of_nameless h [] key]

/-- An empty key writes nothing else. -/
theorem nameless_of_written {buffer : List UInt8} {out : Writer UInt8}
    (hout : processItemEncoder [] result buffer = some out) : result.Nameless := by
  intro item hitem
  by_contra hname
  unfold processItemEncoder at hout
  have hnamed : ([] : List UInt8) = [] ∧ ∃ item ∈ result.processed, item.name ≠ [] :=
    ⟨rfl, item, hitem, hname⟩
  rw [if_pos hnamed, ite_self] at hout
  cases hout

/-- What a call that writes its output leaves behind. -/
theorem encodeItemsDat_eq_some_iff :
    encodeItemsDat s (.readable result) .opens = some (s', some bytes) ↔
      s' = .cleared ∧ ∃ out, processItemEncoder s.itemsSecretKey result
        (List.replicate bufferSize 0) = some out ∧
        out.buffer.take (usedLength 0 out.buffer) = bytes := by
  have hcall : encodeItemsDat s (.readable result) .opens =
      (processItemEncoder s.itemsSecretKey result (List.replicate bufferSize 0)).map
        fun out => (.cleared, some (out.buffer.take (usedLength 0 out.buffer))) := by
    unfold encodeItemsDat itemEncoder
    dsimp only
    cases processItemEncoder s.itemsSecretKey result (List.replicate bufferSize 0) <;> rfl
  rw [hcall, Option.map_eq_some_iff]
  constructor
  · rintro ⟨out, hout, hpair⟩
    obtain ⟨hcleared, hbytes⟩ := Prod.mk.inj hpair
    exact ⟨hcleared.symm, out, hout, Option.some_inj.mp hbytes⟩
  · rintro ⟨rfl, out, hout, rfl⟩
    exact ⟨out, hout, rfl⟩

/-- The second of two calls writes what the first one wrote exactly when no item
has a name. -/
theorem encodeItemsDat_again_iff
    (hfirst : encodeItemsDat s (.readable result) .opens = some (s', some bytes)) :
    (∃ s'', encodeItemsDat s' (.readable result) .opens = some (s'', some bytes)) ↔
      result.Nameless := by
  obtain ⟨rfl, out, hout, hbytes⟩ := encodeItemsDat_eq_some_iff.mp hfirst
  constructor
  · rintro ⟨s'', hsecond⟩
    obtain ⟨-, out', hout', -⟩ := encodeItemsDat_eq_some_iff.mp hsecond
    exact nameless_of_written hout'
  · intro hnameless
    refine ⟨.cleared, encodeItemsDat_eq_some_iff.mpr ⟨rfl, out, ?_, hbytes⟩⟩
    rw [← hout]
    exact processItemEncoder_of_nameless hnameless _ _

/-- An item with a name of its own. -/
def named (name : List UInt8) : Item := { gravel with name := name }

theorem processItemEncoder_named {name : List UInt8}
    (hfits : encodedLength itemsSecretKey ⟨10, 1, [named name]⟩ ≤ bufferSize) :
    ∃ out, processItemEncoder itemsSecretKey ⟨10, 1, [named name]⟩
      (List.replicate bufferSize 0) = some out := by
  have htidy : (Result.mk 10 1 [named name]).Tidy := by
    intro item hitem
    cases List.mem_singleton.mp (List.mem_of_mem_take hitem)
    exact gravel_tidy 10 1 gravel (List.mem_singleton.mpr rfl)
  exact ⟨_, processItemEncoder_of_tidy htidy (List.cons_ne_nil _ _) (le_refl _) hfits⟩

/-- A file whose item has no name is written twice. -/
theorem nameless_written_twice : ∃ s' bytes,
    encodeItemsDat {} (.readable ⟨10, 1, [named []]⟩) .opens = some (s', some bytes) ∧
      ∃ s'', encodeItemsDat s' (.readable ⟨10, 1, [named []]⟩) .opens =
        some (s'', some bytes) := by
  have hlength : encodedLength itemsSecretKey ⟨10, 1, [named []]⟩ = 186 := by decide
  have hfits : encodedLength itemsSecretKey ⟨10, 1, [named []]⟩ ≤ bufferSize := by
    rw [hlength]
    decide
  obtain ⟨out, hout⟩ := processItemEncoder_named hfits
  have hfirst : encodeItemsDat {} (.readable ⟨10, 1, [named []]⟩) .opens =
      some (.cleared, some (out.buffer.take (usedLength 0 out.buffer))) :=
    encodeItemsDat_eq_some_iff.mpr ⟨rfl, out, hout, rfl⟩
  refine ⟨_, _, hfirst, (encodeItemsDat_again_iff hfirst).mpr ?_⟩
  intro item hitem
  cases List.mem_singleton.mp (List.mem_of_mem_take hitem)
  rfl

/-- The second call on a file whose item has a name divides by zero. -/
theorem named_written_once :
    ¬ ∀ (s s' : Statics) (result : Result) (bytes : List UInt8),
      encodeItemsDat s (.readable result) .opens = some (s', some bytes) →
      ∃ s'', encodeItemsDat s' (.readable result) .opens = some (s'', some bytes) := by
  intro h
  have hlength : encodedLength itemsSecretKey ⟨10, 1, [named [0x47]]⟩ = 187 := by decide
  have hfits : encodedLength itemsSecretKey ⟨10, 1, [named [0x47]]⟩ ≤ bufferSize := by
    rw [hlength]
    decide
  obtain ⟨out, hout⟩ := processItemEncoder_named hfits
  obtain ⟨s'', hsecond⟩ := h {} .cleared ⟨10, 1, [named [0x47]]⟩ _
    (encodeItemsDat_eq_some_iff.mpr ⟨rfl, out, hout, rfl⟩)
  obtain ⟨-, out', hout', -⟩ := encodeItemsDat_eq_some_iff.mp hsecond
  have hname := nameless_of_written hout' (named [0x47]) (List.mem_singleton.mpr rfl)
  cases hname

end Again

end ItemsEncoder

end NopyServer
