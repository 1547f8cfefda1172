/-
What boxes share: a player whose calls of `Modify` have no callbacks at all, and
what asking for an item, taking and throwing it away then do.
-/
import NopyServer.Payments

namespace NopyServer

open Inventory SlotPack Ledger

/-- A player without infinite mode, automatic conversion and automatic sale of
fish. -/
structure Idle (pl : Player) : Prop extends Calm pl where
  fish : pl.autosellfish = false

namespace Idle

variable {env : Env} {pl next : Player} {s : Session} {i c : Int}

theorem of_given (hidle : Idle pl) (hgiven : Given pl i c next) :
    Idle next where
  toCalm := hidle.toCalm.of_given hgiven
  fish := (Player.core_congr hgiven.core Player.autosellfish
    fun _ => rfl).trans hidle.fish

/-- The members that make a player idle. -/
theorem congr (hidle : Idle pl) (hinv : next.inv = pl.inv)
    (hconvert : next.autoConvert = pl.autoConvert)
    (hfinite : next.infiniteMode = pl.infiniteMode)
    (hfish : next.autosellfish = pl.autosellfish) : Idle next :=
  ⟨⟨hinv ▸ hidle.slots, hconvert.trans hidle.convert,
    hfinite.trans hidle.finite⟩, hfish.trans hidle.fish⟩

theorem quiet (hidle : Idle pl) : Quiet env pl i c :=
  ⟨Or.inl hidle.convert, Or.inr (Or.inl hidle.fish), hidle.finite⟩

/-- Any call of `Modify` moves the amount or does nothing. -/
theorem modify_moves (hidle : Idle s.pl) (i c : Int) :
    (∃ next left, modify env s i c false =
        ⟨0, left, { s with pl := next }⟩ ∧ Given s.pl i c next) ∨
      (∃ left, modify env s i c false = ⟨-1, left, s⟩) :=
  NopyServer.modify_moves false hidle.slots hidle.quiet

theorem modify_ask (hidle : Idle s.pl) (i : Int) :
    ∃ n, modify env s i 0 false = ⟨-1, n, s⟩ ∧
      (n ≠ 0 → Accepts env i ∧ n = contains s.pl.inv i) :=
  modify_asks hidle.slots i

/-- As many as the answer can be taken. -/
theorem modify_take (hidle : Idle s.pl) {n count : Int}
    (hn : n ≠ 0 → Accepts env i ∧ n = contains s.pl.inv i)
    (hpos : 0 < count) (hle : count ≤ n) :
    ∃ next left, modify env s i (-count) false =
        ⟨0, left, { s with pl := next }⟩ ∧ Given s.pl i (-count) next := by
  obtain ⟨haccepts, hcount⟩ := hn (by omega)
  exact modify_takes false hidle.slots hidle.quiet haccepts (by omega)
    (by omega)

end Idle

/-- A player to whom nothing was given. -/
theorem Given.refl {pl : Player} (i : Int) (hslots : SlotInv pl.inv) :
    Given pl i 0 pl where
  slots := hslots
  core := rfl
  amount id := by simp

/-- The number of an item in backpacks and in some storage of the worlds. -/
def itemBook (stored : Int → World → Int) (id : Int) : Book where
  player pl := total id pl.inv
  world := stored id

theorem itemBook_given {stored : Int → World → Int} {s : Session} {i c : Int}
    {next : Player} (hgiven : Given s.pl i c next) (id : Int) :
    (itemBook stored id).held { s with pl := next } =
      (itemBook stored id).held s + if i = id then c else 0 := by
  have hamount := hgiven.amount id
  simp only [Book.held, itemBook, hamount]
  omega

theorem itemBook_mapBlock {value : Int → WorldBlock → Int} {s : Session}
    {w b : Nat} {block : WorldBlock} (hblock : s.block? w b = some block)
    (f : WorldBlock → WorldBlock) (id : Int) :
    (itemBook (fun id => blocksOf (value id)) id).held (s.mapBlock w b f) =
      (itemBook (fun id => blocksOf (value id)) id).held s +
        (value id (f block) - value id block) := by
  obtain ⟨world, hworld, hget⟩ := Session.block?_eq_some hblock
  have hblocks := blocksOf_modify (value id) hget f
  rw [Session.mapBlock, Book.held_mapWorld _ hworld]
  simp only [itemBook, hblocks]
  omega

end NopyServer
