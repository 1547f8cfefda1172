/-
Books over a session: a quantity with a part held by the player and a part held
by the worlds.  The lemmas say how such a quantity follows each elementary
operation of a handler, and that serving a message that keeps it in the session
keeps it in the whole server.
-/
import NopyServer.Locks

namespace NopyServer

open Inventory SlotPack Ledger

/-- A quantity that players and worlds hold. -/
structure Book where
  player : Player → Int
  world : World → Int

namespace Book

variable (book : Book)

/-- What the player and the worlds of a session hold. -/
def held (s : Session) : Int := book.player s.pl + worth book.world s.worlds

/-- What all players and worlds hold. -/
def total (server : Server) : Int :=
  worth book.player server.players + worth book.world server.worlds

/-- Serving a message changes the total by what it changes in the session. -/
theorem total_serve (server : Server) (peer : Nat) (now : Int)
    (handler : Session → Session)
    (hkeep : ∀ pl, server.players[peer]? = some pl →
      book.held (handler (server.session pl now)) =
        book.held (server.session pl now)) :
    book.total (server.serve peer now handler) = book.total server := by
  unfold Server.serve
  cases hpeer : server.players[peer]? with
  | none => rfl
  | some pl =>
      have hsame := hkeep pl hpeer
      simp only [held, Server.session] at hsame
      simp only [total, worth_set book.player hpeer, Server.session]
      omega

theorem held_mapWorld {s : Session} {w : Nat} {world : World}
    (hworld : s.worlds[w]? = some world) (f : World → World) :
    book.held (s.mapWorld w f) =
      book.held s + (book.world (f world) - book.world world) := by
  simp only [held, Session.mapWorld, worth_modify book.world f hworld]
  omega

end Book

/-- A block quantity summed over a world. -/
def blocksOf (value : WorldBlock → Int) (world : World) : Int :=
  worth value world.blocks

theorem blocksOf_modify (value : WorldBlock → Int) {world : World} {b : Nat}
    {block : WorldBlock} (hblock : world.blocks[b]? = some block)
    (f : WorldBlock → WorldBlock) :
    blocksOf value { world with blocks := world.blocks.modify b f } =
      blocksOf value world + (value (f block) - value block) :=
  worth_modify value f hblock

theorem Session.block?_eq_some {s : Session} {w b : Nat} {block : WorldBlock}
    (hblock : s.block? w b = some block) :
    ∃ world, s.worlds[w]? = some world ∧ world.blocks[b]? = some block :=
  Option.bind_eq_some_iff.mp hblock

theorem Session.block?_mapBlock {s : Session} {w b : Nat} {block : WorldBlock}
    (hblock : s.block? w b = some block) (f : WorldBlock → WorldBlock) :
    (s.mapBlock w b f).block? w b = some (f block) := by
  obtain ⟨world, hworld, hget⟩ := Session.block?_eq_some hblock
  simp [Session.mapBlock, Session.mapWorld, Session.block?, hworld, hget]

/-- What holds of all blocks, and of a changed one, holds of all blocks after
the change. -/
theorem forall_blocks_mapBlock {P : WorldBlock → Prop} {s : Session} {w b : Nat}
    {block : WorldBlock} {f : WorldBlock → WorldBlock}
    (hall : ∀ world ∈ s.worlds, ∀ block ∈ world.blocks, P block)
    (hblock : s.block? w b = some block) (hf : P (f block)) :
    ∀ world ∈ (s.mapBlock w b f).worlds, ∀ block ∈ world.blocks, P block := by
  obtain ⟨world, hworld, hget⟩ := Session.block?_eq_some hblock
  refine forall_mem_modify hall fun other hother => ?_
  rw [hworld] at hother
  obtain rfl := Option.some.inj hother
  refine forall_mem_modify
    (fun old hold => hall world (List.mem_of_getElem? hworld) old hold)
    fun old hold => ?_
  rw [hget] at hold
  obtain rfl := Option.some.inj hold
  exact hf

/-- A player whose calls of `Modify` have no callbacks, other than the sale of
fish. -/
structure Calm (pl : Player) : Prop where
  slots : SlotInv pl.inv
  convert : pl.autoConvert = false
  finite : pl.infiniteMode = false

theorem Calm.of_given {pl next : Player} {i c : Int} (hcalm : Calm pl)
    (hgiven : Given pl i c next) : Calm next where
  slots := hgiven.slots
  convert := (Player.core_congr hgiven.core Player.autoConvert
    fun _ => rfl).trans hcalm.convert
  finite := (Player.core_congr hgiven.core Player.infiniteMode
    fun _ => rfl).trans hcalm.finite

/-- Serving a message keeps every player calm when its handler does. -/
theorem serve_calm {server : Server} (peer : Nat) (now : Int) {handler : Session → Session}
    (hcalm : ∀ pl ∈ server.players, Calm pl)
    (hhandler : ∀ pl, server.players[peer]? = some pl →
      Calm (handler (server.session pl now)).pl) :
    ∀ pl ∈ (server.serve peer now handler).players, Calm pl :=
  Server.serve_players hcalm hhandler

theorem Calm.quiet {env : Env} {pl : Player} {i : Int} (hcalm : Calm pl)
    (hfish : env.items.isFish i = false) (c : Int) : Quiet env pl i c :=
  ⟨Or.inl hcalm.convert, Or.inr (Or.inr (Or.inr hfish)), hcalm.finite⟩

theorem Calm.quiet_take {env : Env} {pl : Player} {i c : Int}
    (hcalm : Calm pl) (hc : c ≤ 0) : Quiet env pl i c :=
  ⟨Or.inl hcalm.convert, Or.inl hc, hcalm.finite⟩

theorem money_not_fish {env : Env} (hlocks : env.items.LocksListed) {id : Int}
    (hid : id ∈ moneyIds) : env.items.isFish id = false := by
  refine hlocks.notFish id ?_
  simp only [moneyIds, List.mem_cons, List.not_mem_nil, or_false] at hid
  rcases hid with rfl | rfl | rfl <;> decide

theorem money_accepts {env : Env} (hlocks : env.items.LocksListed) {id : Int}
    (hid : id ∈ moneyIds) : Accepts env id := by
  have hsize := hlocks.listed
  simp only [moneyIds, List.mem_cons, List.not_mem_nil, or_false] at hid
  unfold Accepts
  omega

end NopyServer
