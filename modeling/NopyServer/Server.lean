/-
The server as its message handlers see it: connected players, loaded worlds, a
clock and `rand()`.  A handler runs in the session of one player; serving a
message puts that player and the worlds back.  Pointers of the source into the
list of worlds and into the blocks of a world are indices here, so that a
handler sees the changes its callees make behind such a pointer.
-/
import NopyServer.Inventory
import NopyServer.Lib.Ledger
import NopyServer.Text

namespace NopyServer

namespace Session

/-- `find_if` over the loaded worlds by name. -/
def findWorld (s : Session) (name : String) : Option Nat :=
  s.worlds.findIdx? fun world => world.name == name

/-- A change behind a pointer to a world. -/
def mapWorld (w : Nat) (f : World → World) (s : Session) : Session :=
  { s with worlds := s.worlds.modify w f }

/-- The block behind a pointer. -/
def block? (s : Session) (w b : Nat) : Option WorldBlock :=
  s.worlds[w]?.bind fun world => world.blocks[b]?

/-- A change behind a pointer to a block. -/
def mapBlock (w b : Nat) (f : WorldBlock → WorldBlock) (s : Session) :
    Session :=
  s.mapWorld w fun world => { world with blocks := world.blocks.modify b f }

/-- `world_->fresh_world = true`. -/
def freshen (w : Nat) (s : Session) : Session :=
  s.mapWorld w fun world => { world with freshWorld := true }

/-- A change of the player. -/
def mapPlayer (f : Player → Player) (s : Session) : Session :=
  { s with pl := f s.pl }

/-- Worlds are found by their names alone. -/
theorem findWorld_eq_names (s : Session) (name : String) :
    s.findWorld name = (s.worlds.map World.name).findIdx? (· == name) := by
  rw [List.findIdx?_map]
  rfl

theorem findWorld_mapWorld (s : Session) (w : Nat) {f : World → World}
    (hf : ∀ world, (f world).name = world.name) (name : String) :
    (s.mapWorld w f).findWorld name = s.findWorld name := by
  rw [findWorld_eq_names, findWorld_eq_names]
  exact congrArg _ (Ledger.map_modify_kept fun world _ => hf world)

end Session

/-- `blocks[x + (y * row)]` as an index; the source reads outside the vector
where there is none. -/
def tileIndex (row x y : Int) : Option Nat :=
  if 0 ≤ x + y * row then some (x + y * row).toNat else none

/-- The distance test of the dialog handlers. -/
def tooFar (pl : Player) (x y : Int) : Prop :=
  15 < |x * 32 - pl.x| ∨ 15 < |y * 32 - pl.y|

instance (pl : Player) (x y : Int) : Decidable (tooFar pl x y) :=
  inferInstanceAs (Decidable (_ ∨ _))

/-- The state all handlers share. -/
structure Server where
  players : List Player := []
  worlds : List World := []
  rands : Nat → Nat := fun _ => 0

namespace Server

/-- The session of a player at a time. -/
def session (server : Server) (pl : Player) (now : Int) : Session :=
  ⟨pl, server.worlds, now, server.rands⟩

/-- Serving one message of a player. -/
def serve (server : Server) (peer : Nat) (now : Int)
    (handler : Session → Session) : Server :=
  match server.players[peer]? with
  | none => server
  | some pl =>
      let s := handler (server.session pl now)
      ⟨server.players.set peer s.pl, s.worlds, s.rands⟩

/-- A change of one connected player. -/
def mapPlayer (p : Nat) (f : Player → Player) (server : Server) : Server :=
  { server with players := server.players.modify p f }

/-- What a change of a player leaves of the player it leaves of all of them. -/
theorem mapPlayer_view {α : Type} {view : Player → α} {server : Server}
    {p : Nat} {f : Player → Player}
    (hf : ∀ pl, server.players[p]? = some pl → view (f pl) = view pl) :
    (server.mapPlayer p f).players.map view = server.players.map view :=
  Ledger.map_modify_kept hf

/-- What a handler leaves of its player, serving leaves of all players. -/
theorem serve_view {α : Type} {view : Player → α} {server : Server}
    {peer : Nat} {now : Int} {handler : Session → Session}
    (hhandler : ∀ s, view (handler s).pl = view s.pl) :
    (server.serve peer now handler).players.map view =
      server.players.map view := by
  unfold serve
  cases hpl : server.players[peer]? with
  | none => rfl
  | some pl =>
      apply List.ext_getElem?
      intro k
      simp only [List.getElem?_map, List.getElem?_set]
      split_ifs with hk hlt
      · subst hk
        rw [hpl]
        simp only [Option.map_some]
        rw [hhandler]
        rfl
      · subst hk
        rw [List.getElem?_eq_none (by omega)]
      · rfl

/-- What holds of the worlds before a message and after its handler holds
after serving it. -/
theorem serve_worlds {server : Server} {peer : Nat} {now : Int}
    {handler : Session → Session} {P : List World → Prop}
    (hsame : P server.worlds)
    (hhandler : ∀ pl, server.players[peer]? = some pl →
      P (handler (server.session pl now)).worlds) :
    P (server.serve peer now handler).worlds := by
  unfold serve
  cases hpeer : server.players[peer]? with
  | none => exact hsame
  | some pl => exact hhandler pl hpeer

/-- What holds of all players before a message and of its sender after the
handler holds of all players after serving it. -/
theorem serve_players {server : Server} {peer : Nat} {now : Int}
    {handler : Session → Session} {P : Player → Prop}
    (hall : ∀ pl ∈ server.players, P pl)
    (hhandler : ∀ pl, server.players[peer]? = some pl →
      P (handler (server.session pl now)).pl) :
    ∀ pl ∈ (server.serve peer now handler).players, P pl := by
  unfold serve
  cases hpeer : server.players[peer]? with
  | none => exact hall
  | some pl =>
      intro other hother
      rcases List.mem_or_eq_of_mem_set hother with hold | hnew
      · exact hall other hold
      · rw [hnew]
        exact hhandler pl hpeer

end Server

end NopyServer
