/-
Writing into a blank buffer of fixed size through a cursor.  A write stores
some values from the cursor on and moves the cursor by a number of its own, so
values may be stored beyond it or cells skipped; it fails when a value does not
lie in the buffer.  An `Image` is what such a buffer holds, without its size:
the cells before the cursor and what is already stored beyond.  Every write on
a buffer is the same write on its image.

Pokes are stores at places of their own, without a cursor.
-/
import Mathlib.Algebra.GroupWithZero.Nat
import Mathlib.Data.List.DropRight
import Mathlib.Tactic.Common

namespace CursorBuffer

universe u

variable {α : Type u}

/-- Store values one after the other; `none` outside the buffer. -/
def store (pos : Nat) : List α → List α → Option (List α)
  | [], buffer => some buffer
  | value :: values, buffer =>
      if pos < buffer.length then
        store (pos + 1) values (buffer.set pos value)
      else none

/-- Stored values replace the cells they are stored in. -/
theorem store_append (before values rest : List α)
    (hroom : values.length ≤ rest.length) :
    store before.length values (before ++ rest) =
      some (before ++ (values ++ rest.drop values.length)) := by
  induction values generalizing before rest with
  | nil => simp [store]
  | cons value values ih =>
      cases rest with
      | nil => simp at hroom
      | cons old rest =>
          have hnext := ih (before ++ [value]) rest (by simpa using hroom)
          rw [List.length_append, List.length_singleton] at hnext
          rw [store, if_pos (by simp), List.set_append_right _ _ (le_refl _),
            Nat.sub_self, List.set_cons_zero, ← List.singleton_append,
            ← List.append_assoc, hnext]
          simp

/-- Nothing is stored outside the buffer. -/
theorem store_room {values buffer stored : List α} {pos : Nat}
    (hstored : store pos values buffer = some stored) (hne : values ≠ []) :
    pos + values.length ≤ buffer.length := by
  induction values generalizing pos buffer with
  | nil => exact absurd rfl hne
  | cons value values ih =>
      rw [store] at hstored
      split_ifs at hstored with hpos
      cases values with
      | nil => exact hpos
      | cons next values =>
          have hroom := ih hstored (List.cons_ne_nil _ _)
          rw [List.length_set] at hroom
          rw [List.length_cons]
          omega

theorem store_length {values buffer stored : List α} {pos : Nat}
    (hstored : store pos values buffer = some stored) :
    stored.length = buffer.length := by
  induction values generalizing pos buffer with
  | nil =>
      cases hstored
      rfl
  | cons value values ih =>
      rw [store] at hstored
      split_ifs at hstored
      rw [ih hstored, List.length_set]

/-- A buffer and the position of its cursor. -/
structure Writer (α : Type u) where
  buffer : List α
  pos : Nat

/-- Values for the cells from the cursor on, and how far it moves. -/
structure Write (α : Type u) where
  values : List α
  moved : Nat

/-- Writes that store nothing beyond the cells they pass. -/
def Within (writes : List (Write α)) : Prop :=
  ∀ w ∈ writes, w.values.length ≤ w.moved

@[simp] theorem within_nil : Within ([] : List (Write α)) :=
  List.forall_mem_nil _

@[simp] theorem within_cons {w : Write α} {writes : List (Write α)} :
    Within (w :: writes) ↔ w.values.length ≤ w.moved ∧ Within writes :=
  List.forall_mem_cons

@[simp] theorem within_append {first second : List (Write α)} :
    Within (first ++ second) ↔ Within first ∧ Within second :=
  List.forall_mem_append

theorem within_ite {p : Prop} [Decidable p] {writes : List (Write α)}
    (hwithin : p → Within writes) : Within (if p then writes else []) := by
  split_ifs with hp
  · exact hwithin hp
  · exact within_nil

def Write.run (w : Write α) (out : Writer α) : Option (Writer α) :=
  (store out.pos w.values out.buffer).map (⟨·, out.pos + w.moved⟩)

/-- Writes one after the other. -/
def runAll (writes : List (Write α)) (out : Writer α) : Option (Writer α) :=
  writes.foldlM (fun out w => w.run out) out

theorem runAll_buffer_length {writes : List (Write α)} {out last : Writer α}
    (hrun : runAll writes out = some last) :
    last.buffer.length = out.buffer.length := by
  induction writes generalizing out with
  | nil =>
      cases hrun
      rfl
  | cons w writes ih =>
      rw [runAll, List.foldlM_cons] at hrun
      obtain ⟨next, hnext, hlast⟩ := Option.bind_eq_some_iff.mp hrun
      obtain ⟨stored, hstored, rfl⟩ := Option.map_eq_some_iff.mp hnext
      rw [ih hlast]
      exact store_length hstored

theorem runAll_pos {writes : List (Write α)} {out last : Writer α}
    (hrun : runAll writes out = some last) :
    last.pos = out.pos + (writes.map Write.moved).sum := by
  induction writes generalizing out with
  | nil =>
      cases hrun
      rfl
  | cons w writes ih =>
      rw [runAll, List.foldlM_cons] at hrun
      obtain ⟨next, hnext, hlast⟩ := Option.bind_eq_some_iff.mp hrun
      obtain ⟨stored, -, rfl⟩ := Option.map_eq_some_iff.mp hnext
      rw [ih hlast, List.map_cons, List.sum_cons, ← Nat.add_assoc]

/-- The cells before the cursor, and those stored beyond it. -/
@[ext]
structure Image (α : Type u) where
  done : List α := []
  ahead : List α := []

namespace Image

variable {blank : α} {size : Nat} {img : Image α} {w : Write α}

/-- How many cells are in use. -/
def extent (img : Image α) : Nat := img.done.length + img.ahead.length

/-- A buffer that holds an image. -/
def render (blank : α) (size : Nat) (img : Image α) : Writer α :=
  ⟨img.done ++ (img.ahead ++ List.replicate (size - img.extent) blank),
    img.done.length⟩

theorem render_blank (blank : α) (size : Nat) :
    render blank size {} = ⟨List.replicate size blank, 0⟩ := rfl

theorem take_render (img : Image α) :
    (img.render blank size).buffer.take (img.render blank size).pos = img.done :=
  List.take_left

/-- One write. -/
def write (blank : α) (img : Image α) (w : Write α) : Image α :=
  let ahead := w.values ++ img.ahead.drop w.values.length
  ⟨img.done ++ (ahead ++ List.replicate w.moved blank).take w.moved,
    ahead.drop w.moved⟩

theorem done_length_write (img : Image α) (w : Write α) :
    (img.write blank w).done.length = img.done.length + w.moved := by
  simp only [write, List.length_append, List.length_take, List.length_replicate]
  omega

theorem extent_write (img : Image α) (w : Write α) :
    (img.write blank w).extent = img.done.length +
      max w.moved (max w.values.length img.ahead.length) := by
  unfold extent
  rw [done_length_write]
  simp only [write, List.length_drop, List.length_append]
  omega

theorem extent_le_write (img : Image α) (w : Write α) :
    img.extent ≤ (img.write blank w).extent := by
  rw [extent_write, extent]
  omega

/-- A write on a buffer is the write on its image. -/
theorem run_render (hsize : (img.write blank w).extent ≤ size) :
    w.run (img.render blank size) =
      some ((img.write blank w).render blank size) := by
  have hextent := hsize
  rw [extent_write] at hextent
  have hroom : w.values.length ≤
      (img.ahead ++ List.replicate (size - img.extent) blank).length := by
    rw [List.length_append, List.length_replicate, extent]
    omega
  have hstored : w.values ++ (img.ahead ++
      List.replicate (size - img.extent) blank).drop w.values.length =
      (w.values ++ img.ahead.drop w.values.length) ++ List.replicate
        (size - img.done.length - max w.values.length img.ahead.length) blank := by
    rw [List.drop_append, List.drop_replicate, List.append_assoc, extent]
    congr 3
    omega
  have hsplit : ∀ (ahead : List α) (k : Nat), w.moved ≤ ahead.length + k →
      ahead ++ List.replicate k blank =
        (ahead ++ List.replicate w.moved blank).take w.moved ++
          (ahead.drop w.moved ++
            List.replicate (k - (w.moved - ahead.length)) blank) := by
    intro ahead k hk
    have hfirst : (ahead ++ List.replicate w.moved blank).take w.moved =
        (ahead ++ List.replicate k blank).take w.moved := by
      rw [List.take_append, List.take_append, List.take_replicate,
        List.take_replicate]
      congr 2
      omega
    have hlast : ahead.drop w.moved ++
        List.replicate (k - (w.moved - ahead.length)) blank =
        (ahead ++ List.replicate k blank).drop w.moved := by
      rw [List.drop_append, List.drop_replicate]
    rw [hfirst, hlast, List.take_append_drop]
  have hlength : (w.values ++ img.ahead.drop w.values.length).length =
      max w.values.length img.ahead.length := by
    rw [List.length_append, List.length_drop]
    omega
  unfold Write.run render
  dsimp only
  rw [store_append _ _ _ hroom, hstored, hsplit _ _ (by rw [hlength]; omega),
    done_length_write]
  simp only [write, List.append_assoc, extent, List.length_append, List.length_drop,
    List.length_take, List.length_replicate, Option.map_some, Option.some_inj,
    Writer.mk.injEq, and_true]
  congr 4
  omega

/-- An image after any number of writes. -/
def writeAll (blank : α) (writes : List (Write α)) (img : Image α) : Image α :=
  writes.foldl (Image.write blank) img

theorem extent_le_writeAll (writes : List (Write α)) (img : Image α) :
    img.extent ≤ (writeAll blank writes img).extent := by
  induction writes generalizing img with
  | nil => exact le_refl _
  | cons w writes ih => exact le_trans (extent_le_write img w) (ih _)

theorem done_length_writeAll (writes : List (Write α)) (img : Image α) :
    (writeAll blank writes img).done.length =
      img.done.length + (writes.map Write.moved).sum := by
  induction writes generalizing img with
  | nil => rfl
  | cons w writes ih =>
      have hrest := ih (img.write blank w)
      rw [done_length_write] at hrest
      rw [List.map_cons, List.sum_cons, ← Nat.add_assoc]
      exact hrest

/-- Any number of writes. -/
theorem runAll_render (writes : List (Write α)) (img : Image α)
    (hsize : (writeAll blank writes img).extent ≤ size) :
    runAll writes (img.render blank size) =
      some ((writeAll blank writes img).render blank size) := by
  induction writes generalizing img with
  | nil => rfl
  | cons w writes ih =>
      have hfirst := le_trans (extent_le_writeAll writes _) hsize
      rw [runAll, List.foldlM_cons, run_render hfirst]
      exact ih _ hsize

theorem render_buffer_length (hsize : img.extent ≤ size) :
    (img.render blank size).buffer.length = size := by
  rw [extent] at hsize
  simp only [render, extent, List.length_append, List.length_replicate]
  omega

/-- A write leaves room for the cursor's cells when it does not fail and the
cursor stays in the buffer. -/
theorem extent_write_le {out : Writer α} (hsize : img.extent ≤ size)
    (hrun : w.run (img.render blank size) = some out) (hpos : out.pos ≤ size) :
    (img.write blank w).extent ≤ size := by
  obtain ⟨stored, hstored, rfl⟩ := Option.map_eq_some_iff.mp hrun
  have hmoved : img.done.length + w.moved ≤ size := hpos
  have hroom : img.done.length + w.values.length ≤ size := by
    cases hvalues : w.values with
    | nil =>
        rw [List.length_nil]
        omega
    | cons value values =>
        have hne : w.values ≠ [] := by simp [hvalues]
        have hfit := store_room hstored hne
        rw [render_buffer_length hsize, hvalues] at hfit
        exact hfit
  rw [extent] at hsize
  rw [extent_write]
  omega

/-- Writes that do not fail end at the image, if the cursor is still in the
buffer. -/
theorem runAll_eq_some {writes : List (Write α)} {out : Writer α}
    (hsize : img.extent ≤ size)
    (hrun : runAll writes (img.render blank size) = some out)
    (hpos : out.pos ≤ size) :
    out = (writeAll blank writes img).render blank size ∧
      (writeAll blank writes img).extent ≤ size := by
  induction writes generalizing img with
  | nil =>
      cases hrun
      exact ⟨rfl, hsize⟩
  | cons w writes ih =>
      rw [runAll, List.foldlM_cons] at hrun
      obtain ⟨next, hnext, hlast⟩ := Option.bind_eq_some_iff.mp hrun
      have hnextPos : next.pos ≤ size := by
        rw [runAll_pos hlast] at hpos
        exact le_trans (Nat.le_add_right _ _) hpos
      have hfirst := extent_write_le hsize hnext hnextPos
      rw [run_render hfirst] at hnext
      cases hnext
      exact ih hfirst hlast

/-- The cells a write passes, when nothing is stored in them yet. -/
def cells (blank : α) (w : Write α) : List α :=
  (w.values ++ List.replicate w.moved blank).take w.moved

theorem cells_length (w : Write α) : (cells blank w).length = w.moved := by
  simp only [cells, List.length_take, List.length_append, List.length_replicate]
  omega

theorem getLast?_cells (hmoved : w.moved ≠ 0) :
    (cells blank w).getLast? = some (w.values.getD (w.moved - 1) blank) := by
  rw [List.getLast?_eq_getElem?, cells_length, cells,
    List.getElem?_take_of_lt (by omega), List.getElem?_append,
    List.getD_eq_getElem?_getD]
  split_ifs with hvalue
  · rw [List.getElem?_eq_getElem hvalue, Option.getD_some]
  · rw [List.getElem?_replicate_of_lt (by omega),
      List.getElem?_eq_none (by omega), Option.getD_none]

/-- The last cell, where the last writes are left out under a condition. -/
theorem getLast?_cells_ite {p : Prop} [Decidable p] {writes last : List (Write α)}
    {x y : α} (hlast : (last.flatMap (cells blank)).getLast? = some x)
    (hwrites : (writes.flatMap (cells blank)).getLast? = some y) :
    ((writes ++ if p then last else []).flatMap (cells blank)).getLast? =
      some (if p then x else y) := by
  split_ifs with hp
  · rw [List.flatMap_append, List.getLast?_append, hlast, Option.some_or]
  · rw [List.append_nil, hwrites]

/-- Writes that store nothing beyond the cursor are put one after the other. -/
theorem writeAll_within (writes : List (Write α)) (before : List α)
    (hwithin : Within writes) :
    writeAll blank writes ⟨before, []⟩ =
      ⟨before ++ writes.flatMap (cells blank), []⟩ := by
  induction writes generalizing before with
  | nil => simp [writeAll]
  | cons w writes ih =>
      have hw := hwithin w List.mem_cons_self
      have hwrite : Image.write blank ⟨before, []⟩ w =
          ⟨before ++ cells blank w, []⟩ := by
        simp [write, cells, List.drop_eq_nil_of_le hw]
      rw [writeAll, List.foldl_cons, hwrite, ← writeAll, ih _ fun other hother =>
        hwithin other (List.mem_cons_of_mem w hother), List.flatMap_cons,
        List.append_assoc]

end Image

section Trimming

variable [DecidableEq α] {blank : α}

/-- The cells up to the last one that is not blank. -/
def usedLength (blank : α) (buffer : List α) : Nat :=
  buffer.zipIdx.foldl (fun used cell =>
    if cell.1 ≠ blank then cell.2 + 1 else used) 0

theorem usedLength_concat (buffer : List α) (x : α) :
    usedLength blank (buffer ++ [x]) =
      if x ≠ blank then buffer.length + 1 else usedLength blank buffer := by
  simp [usedLength, List.zipIdx_append]

theorem usedLength_le (buffer : List α) :
    usedLength blank buffer ≤ buffer.length := by
  induction buffer using List.reverseRecOn with
  | nil => exact le_refl _
  | append_singleton buffer x ih =>
      rw [usedLength_concat, List.length_append, List.length_singleton]
      split_ifs <;> omega

theorem take_usedLength (buffer : List α) :
    buffer.take (usedLength blank buffer) = buffer.rdropWhile (· = blank) := by
  induction buffer using List.reverseRecOn with
  | nil => rfl
  | append_singleton buffer x ih =>
      rw [usedLength_concat, List.rdropWhile_concat]
      by_cases hx : x = blank
      · rw [if_neg (by simpa using hx), if_pos (by simpa using hx),
          List.take_append_of_le_length (usedLength_le buffer), ih]
      · rw [if_pos hx, if_neg (by simpa using hx)]
        exact List.take_of_length_le (by simp)

/-- The cells in use are a first part of the buffer exactly when nothing but
blanks follows it and it does not end in one. -/
theorem take_usedLength_append_iff (first rest : List α) :
    (first ++ rest).take (usedLength blank (first ++ rest)) = first ↔
      (∀ x ∈ rest, x = blank) ∧ first.getLast? ≠ some blank := by
  rw [take_usedLength]
  constructor
  · intro heq
    constructor
    · intro x hx
      have hsplit := @List.rdropWhile_append_rtakeWhile α (· = blank) (first ++ rest)
      rw [heq] at hsplit
      have hrest := List.append_cancel_left hsplit
      rw [← hrest] at hx
      simpa using List.mem_rtakeWhile_imp hx
    · intro hlast
      have hself := List.rdropWhile_idempotent (· = blank) (first ++ rest)
      rw [heq, List.rdropWhile_eq_self_iff] at hself
      obtain ⟨init, rfl⟩ := List.getLast?_eq_some_iff.mp hlast
      exact hself (by simp) (by simp)
  · rintro ⟨hblank, hlast⟩
    induction rest using List.reverseRecOn with
    | nil =>
        rw [List.append_nil, List.rdropWhile_eq_self_iff]
        intro hne hx
        rw [List.getLast?_eq_some_getLast hne] at hlast
        simp only [decide_eq_true_eq] at hx
        exact hlast (congrArg some hx)
    | append_singleton rest x ih =>
        have hx := hblank x (by simp)
        rw [← List.append_assoc, List.rdropWhile_concat_pos _ _ _ (by simpa using hx)]
        exact ih fun y hy => hblank y (by simp [hy])

/-- The cells in use are a first part of what lies before the blanks. -/
theorem take_usedLength_replicate (first : List α) (n : Nat) :
    (first ++ List.replicate n blank).take
      (usedLength blank (first ++ List.replicate n blank)) =
        first.rdropWhile (· = blank) := by
  rw [take_usedLength]
  induction n with
  | zero => rw [List.replicate_zero, List.append_nil]
  | succ n ih =>
      rw [List.replicate_succ', ← List.append_assoc,
        List.rdropWhile_concat_pos _ _ _ (by simp)]
      exact ih

/-- What is cut out of a buffer is what was written when nothing is stored
beyond it and it does not end in a blank. -/
theorem Image.take_usedLength_render_iff (img : Image α) (size : Nat) :
    (img.render blank size).buffer.take
        (usedLength blank (img.render blank size).buffer) = img.done ↔
      (∀ x ∈ img.ahead, x = blank) ∧ img.done.getLast? ≠ some blank := by
  apply (take_usedLength_append_iff _ _).trans
  apply and_congr_left'
  constructor
  · intro hblank x hx
    exact hblank x (List.mem_append_left _ hx)
  · intro hblank x hx
    rcases List.mem_append.mp hx with hx | hx
    · exact hblank x hx
    · exact List.eq_of_mem_replicate hx

end Trimming

section Pokes

/-- Values for the cells from a place on. -/
structure Poke (α : Type u) where
  place : Nat
  values : List α

/-- The values lie in a buffer of this size. -/
def Poke.Inside (size : Nat) (p : Poke α) : Prop :=
  p.values = [] ∨ p.place + p.values.length ≤ size

/-- Pokes one after the other. -/
def pokeAll (pokes : List (Poke α)) (buffer : List α) : Option (List α) :=
  pokes.foldlM (fun buffer p => store p.place p.values buffer) buffer

theorem store_of_room {values buffer : List α} {pos : Nat}
    (hroom : pos + values.length ≤ buffer.length) :
    ∃ stored, store pos values buffer = some stored := by
  induction values generalizing pos buffer with
  | nil => exact ⟨buffer, rfl⟩
  | cons value values ih =>
      rw [List.length_cons] at hroom
      rw [store, if_pos (by omega)]
      exact ih (by rw [List.length_set]; omega)

theorem store_some_iff {p : Poke α} {buffer : List α} :
    (∃ stored, store p.place p.values buffer = some stored) ↔ p.Inside buffer.length := by
  constructor
  · rintro ⟨stored, hstored⟩
    by_cases hempty : p.values = []
    · exact Or.inl hempty
    · exact Or.inr (store_room hstored hempty)
  · rintro (hempty | hroom)
    · exact ⟨buffer, by rw [hempty, store]⟩
    · exact store_of_room hroom

/-- Pokes succeed on a buffer that all of them lie in. -/
theorem pokeAll_some_iff {pokes : List (Poke α)} {buffer : List α} :
    (∃ stored, pokeAll pokes buffer = some stored) ↔
      ∀ p ∈ pokes, p.Inside buffer.length := by
  induction pokes generalizing buffer with
  | nil => simp [pokeAll]
  | cons p pokes ih =>
      rw [List.forall_mem_cons, ← store_some_iff]
      unfold pokeAll at ih ⊢
      rw [List.foldlM_cons]
      constructor
      · rintro ⟨last, hlast⟩
        obtain ⟨stored, hstored, hrest⟩ := Option.bind_eq_some_iff.mp hlast
        have hinside := ih.mp ⟨last, hrest⟩
        rw [store_length hstored] at hinside
        exact ⟨⟨stored, hstored⟩, hinside⟩
      · rintro ⟨⟨stored, hstored⟩, hinside⟩
        rw [← store_length hstored] at hinside
        obtain ⟨last, hlast⟩ := ih.mpr hinside
        exact ⟨last, Option.bind_eq_some_iff.mpr ⟨stored, hstored, hlast⟩⟩

theorem pokeAll_length {pokes : List (Poke α)} {buffer stored : List α}
    (hstored : pokeAll pokes buffer = some stored) : stored.length = buffer.length := by
  induction pokes generalizing buffer with
  | nil =>
      cases hstored
      rfl
  | cons p pokes ih =>
      unfold pokeAll at hstored
      rw [List.foldlM_cons] at hstored
      obtain ⟨next, hnext, hrest⟩ := Option.bind_eq_some_iff.mp hstored
      exact (ih hrest).trans (store_length hnext)

end Pokes

end CursorBuffer
