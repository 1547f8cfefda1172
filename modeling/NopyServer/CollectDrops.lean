/-
Collecting what lies in a world: `PACKET_ITEM_ACTIVATE_OBJECT_REQUEST`.  The packet
names a drop by its uid; the loop runs through the drops of the world by index,
erases what it takes behind its own index, and ends at the first item that is
neither gems nor a winter seal.

What one player drops another one may collect.  In a world where nobody is in
infinite mode or has items changed behind their back, the players standing there
and the ground together keep what there is of every kind of item.
-/
import NopyServer.DropItem

namespace NopyServer

namespace CollectDrops

open BoundedLoop BuxGems Inventory SlotPack

section Code

/-- What the packet says, and whether its player is a ghost or invisible. -/
structure Pickup where
  plantingTree : Int
  x : Int
  y : Int
  hidden : Bool := false

/-- `(Too Far Away)`: the tiles of the player and of the drop, where the player's
place is known. -/
def tooFarAway (pl : Player) (entry : DropEntry) : Bool :=
  0 < pl.x && 0 < pl.y &&
    (8 < |(pl.x + 10).tdiv 32 - entry.x.tdiv 32| ||
      8 < |(pl.y + 15).tdiv 32 - entry.y.tdiv 32|)

variable (env : Env) (guilds : List Guild)

/-- A second fish of a kind is not taken. -/
def hasFish (pl : Player) (entry : DropEntry) : Bool :=
  env.items.isFish entry.id && pl.inv.any fun slot => slot.1 == entry.id

/-- The tests before a drop is taken.  They end the loop, or leave `displaybox`;
a drop outside the tiles of the world has no tile to be read. -/
def allowed (pl : Player) (world : World) (entry : DropEntry) (displaybox : Bool) :
    Option (Option Bool) :=
  if tooFarAway pl entry = true ∨ hasFish env pl entry = true then some none
  else
    match DropItem.blockAt world (entry.x.tdiv 32 + entry.y.tdiv 32 * 100) with
    | none => none
    | some block =>
        let access := Displays.onlyAccess env guilds pl world block {}
        -- only who has access may collect here
        let closed :=
          if flagSet world.worldSettings 4 = true then access.map (!·) else some false
        match closed with
        | none => none
        | some true => some none
        | some false =>
            if block.fg = 1422 ∨ block.fg = 2488 then access.map some
            else some (some displaybox)

/-- There is no room for the item. -/
def full (pl : Player) (id : Int) : Bool :=
  200 ≤ contains pl.inv id ||
    getSlots pl.inv == 0 && contains pl.inv id == 0 && id != 112 && id != 4490 && id != 9186

/-- `drop_new.erase(drop_new.begin() + i_)`. -/
def eraseDrop (w i : Nat) (server : Server) : Server :=
  { server with
    worlds := server.worlds.modify w fun world =>
      { world with dropNew := world.dropNew.eraseIdx i } }

variable (peer : Nat) (now : Int)

/-- What is done with a drop that may be taken: gems and seals are added to numbers
of their own and the loop goes on, an item goes into the backpack and ends it. -/
def take (w i : Nat) (pl : Player) (entry : DropEntry) (server : Server) : Next Server :=
  if full pl entry.id = true then .stop server
  else if entry.id = 112 ∨ entry.id = 4490 then
    if 2100000000 ≤ pl.gems then .stop server
    else
      let server :=
        if entry.id = 4490 then onBuxGems env peer now (1000 * entry.count) server
        else server.mapPlayer peer fun pl => { pl with gems := pl.gems + entry.count }
      .again (eraseDrop w i server)
  else if entry.id = 9186 then .again (eraseDrop w i server)
  else
    .stop ((eraseDrop w i server).serve peer now
      (saveDropItemMoreTimes env entry.id entry.count))

/-- The loop at an index. -/
structure Search where
  server : Server
  i : Nat := 0
  displaybox : Bool := true

/-- The body of the loop; `none` for a read outside. -/
def body (w : Nat) (uid : Int) : Option Search → Next (Option Search)
  | none => .stop none
  | some at_ =>
      match at_.server.players[peer]?, at_.server.worlds[w]? with
      | some pl, some world =>
          match world.dropNew[at_.i]? with
          | none => .stop (some at_)
          | some entry =>
              if entry.uid ≠ uid then .again (some { at_ with i := at_.i + 1 })
              else
                match allowed env guilds pl world entry at_.displaybox with
                | none => .stop none
                | some none => .stop (some at_)
                | some (some false) => .again (some ⟨at_.server, at_.i + 1, false⟩)
                | some (some true) =>
                    match take env peer now w at_.i pl entry at_.server with
                    | .stop server => .stop (some { at_ with server := server })
                    | .again server => .again (some ⟨server, at_.i + 1, true⟩)
      | _, _ => .stop (some at_)

/-- `PACKET_ITEM_ACTIVATE_OBJECT_REQUEST`, with so many turns of its loop. -/
def collect (turns : Nat) (p : Pickup) (server : Server) : Option Server :=
  match server.players[peer]? with
  | none => some server
  | some pl =>
      if p.hidden = true then some server
      else
        match (server.session pl now).findWorld pl.world with
        | none => some server
        | some w =>
            match server.worlds[w]? with
            | none => some server
            | some world =>
                if world.maxY ≤ p.y.tdiv 32 ∨ world.maxX ≤ p.x.tdiv 32 then some server
                else
                  let server := { server with
                    worlds := server.worlds.modify w fun world =>
                      { world with freshWorld := true } }
                  match runs (body env guilds peer now w p.plantingTree) turns
                    (some ⟨server, 0, true⟩) with
                  | some (some last) => some last.server
                  | _ => none

end Code

section Ground

variable {env : Env} {now : Int} {world : World} {entries : List DropEntry}

/-- A drop as players leave it: gems, or a stack of an item under its own id. -/
def Sound (env : Env) (entry : DropEntry) : Prop :=
  entry.id = 112 ∨ Accepts env entry.id ∧ normalizeDropId entry.id = entry.id ∧
    1 ≤ entry.count ∧ entry.count ≤ 200

/-- The drops of a world: sound, and each under a uid of its own that was given out. -/
structure WorldFair (env : Env) (world : World) : Prop where
  sound : ∀ entry ∈ world.dropNew, Sound env entry
  nodup : (world.dropNew.map DropEntry.uid).Nodup
  issued : ∀ entry ∈ world.dropNew, entry.uid ≤ world.totalDropUid

theorem WorldFair.ready (hfair : WorldFair env world) (hfit : DropsFit now world.dropNew 1) :
    DropsReady now world.dropNew world.totalDropUid where
  length := Nat.le_of_succ_le_succ hfit.length
  noneExpired := hfit.noneExpired
  nodup := hfair.nodup
  issued := hfair.issued

theorem WorldFair.erase (hfair : WorldFair env world) (i : Nat) :
    WorldFair env { world with dropNew := world.dropNew.eraseIdx i } where
  sound entry hentry := hfair.sound entry (List.mem_of_mem_eraseIdx hentry)
  nodup := hfair.nodup.sublist ((List.eraseIdx_sublist _ _).map _)
  issued entry hentry := hfair.issued entry (List.mem_of_mem_eraseIdx hentry)

theorem normalizeDropId_idem (id : Int) :
    normalizeDropId (normalizeDropId id) = normalizeDropId id := by
  unfold normalizeDropId
  split_ifs <;> first | rfl | omega | simp_all

/-- An item under the id it lies under is accepted as well. -/
theorem accepts_normalized {id : Int} (haccepts : Accepts env id) :
    Accepts env (normalizeDropId id) := by
  obtain ⟨hpos, hsize, hgem⟩ := haccepts
  refine ⟨?_, ?_, fun h => hgem (normalizeDropId_eq_gem h)⟩
  · unfold normalizeDropId
    split_ifs <;> omega
  · unfold normalizeDropId
    split_ifs with hmask hsuit
    · simp at hmask
      omega
    · simp at hsuit
      omega
    · exact hsize

/-- Merging leaves sound drops, and no more of the drop than there was. -/
theorem mergeDrop_sound {drop : WorldDrop} (hsound : ∀ entry ∈ entries, Sound env entry)
    (hpos : 0 ≤ drop.count) (hcount : drop.count ≤ 200) :
    (∀ entry ∈ (mergeDrop drop entries).1, Sound env entry) ∧
      0 ≤ (mergeDrop drop entries).2 ∧ (mergeDrop drop entries).2 ≤ drop.count := by
  induction entries with
  | nil => exact ⟨List.forall_mem_nil _, hpos, le_refl _⟩
  | cons entry rest ih =>
      obtain ⟨hentry, hrest⟩ := List.forall_mem_cons.mp hsound
      obtain ⟨hmerged, hleft⟩ := ih hrest
      have hmore : ∀ count, entry.count ≤ count → count ≤ 200 →
          Sound env { entry with count := count } := by
        intro count hle hcap
        rcases hentry with hgem | ⟨haccepts, hname, hone, -⟩
        · exact Or.inl hgem
        · exact Or.inr ⟨haccepts, hname, le_trans hone hle, hcap⟩
      rw [mergeDrop]
      by_cases htake : entry.id ≠ 0 ∧ entry.near drop 16 ∧ entry.id = drop.id ∧
          entry.count < 200 ∧
          (drop.count > 200 - entry.count ∨ stackSum entry.count drop.count ≤ 200)
      swap
      · rw [if_neg htake]
        exact ⟨List.forall_mem_cons.mpr ⟨hentry, hmerged⟩, hleft⟩
      have hsum : stackSum entry.count drop.count = entry.count + drop.count :=
        if_pos (by omega)
      rw [if_pos htake, hsum]
      split_ifs with hall
      · exact ⟨List.forall_mem_cons.mpr ⟨hmore _ (by omega) hall, hrest⟩, le_refl _, hpos⟩
      · refine ⟨List.forall_mem_cons.mpr ⟨hmore _ (by omega) (le_refl _), hrest⟩, ?_, ?_⟩
        · dsimp only
          omega
        · dsimp only
          omega

/-- A stack that is laid down becomes a sound drop under a new uid. -/
theorem pushDrop_fair {drop : WorldDrop} {uid : Int} (hfair : ∀ entry ∈ entries, Sound env entry)
    (hissued : ∀ entry ∈ entries, entry.uid ≤ uid)
    (hdrop : drop.count ≠ 0 → Sound env ⟨drop.id, drop.count, uid + 1, drop.x, drop.y, some now⟩) :
    (∀ entry ∈ (pushDrop now drop entries uid).1, Sound env entry) ∧
      ∀ entry ∈ (pushDrop now drop entries uid).1,
        entry.uid ≤ (pushDrop now drop entries uid).2 := by
  unfold pushDrop
  split_ifs with hzero
  · exact ⟨hfair, hissued⟩
  · have hnew := hdrop hzero
    dsimp only
    generalize hentry : (⟨drop.id, drop.count, uid + 1, drop.x, drop.y, some now⟩ :
      DropEntry) = new at hnew ⊢
    have huid : new.uid = uid + 1 := by rw [← hentry]
    have hsub := (autoClearOldWorldDrops_sublist now (entries ++ [new])).subset
    have hold : ∀ entry ∈ autoClearOldWorldDrops now (entries ++ [new]),
        entry ∈ entries ∨ entry = new := by
      intro entry hentry
      simpa using hsub hentry
    refine ⟨fun entry hentry => ?_, fun entry hentry => ?_⟩
    · rcases hold entry hentry with hmem | rfl
      · exact hfair entry hmem
      · exact hnew
    · rcases hold entry hentry with hmem | rfl
      · have hle := hissued entry hmem
        omega
      · exact le_of_eq huid

variable {drop : WorldDrop}

/-- What a player drops keeps the drops in order and is added to them. -/
theorem visualDrop_fair (hfair : WorldFair env world) (hfit : DropsFit now world.dropNew 1)
    (haccepts : Accepts env drop.id) (hpos : 1 ≤ drop.count) (hcap : drop.count ≤ 200) :
    WorldFair env (visualDrop env.items now world drop) := by
  have hgem : normalizeDropId drop.id ≠ 112 :=
    fun h => haccepts.2.2 (normalizeDropId_eq_gem h)
  have hlaid : visualDrop env.items now world drop = { world with
      freshWorld := true
      dropNew := (layDrop env.items now { drop with id := normalizeDropId drop.id }
        world.dropNew world.totalDropUid).1
      totalDropUid := (layDrop env.items now { drop with id := normalizeDropId drop.id }
        world.dropNew world.totalDropUid).2 } := by
    simp [visualDrop, hgem]
  have hsound : ∀ count : Int, 0 ≤ count → count ≤ drop.count → count ≠ 0 → Sound env
      ⟨normalizeDropId drop.id, count, world.totalDropUid + 1, drop.x, drop.y, some now⟩ :=
    fun count hnonneg hle hne => Or.inr ⟨accepts_normalized haccepts, normalizeDropId_idem _,
      by dsimp only; omega, by dsimp only; omega⟩
  have hboth : (∀ entry ∈ (layDrop env.items now { drop with id := normalizeDropId drop.id }
        world.dropNew world.totalDropUid).1, Sound env entry) ∧
      ∀ entry ∈ (layDrop env.items now { drop with id := normalizeDropId drop.id }
        world.dropNew world.totalDropUid).1, entry.uid ≤
          (layDrop env.items now { drop with id := normalizeDropId drop.id }
            world.dropNew world.totalDropUid).2 := by
    unfold layDrop
    split_ifs
    · obtain ⟨hmerged, hnonneg, hle⟩ := @mergeDrop_sound env world.dropNew
        { drop with id := normalizeDropId drop.id } hfair.sound (by dsimp only; omega)
        (by dsimp only; omega)
      refine pushDrop_fair hmerged ?_ fun hne => hsound _ hnonneg hle hne
      intro entry hentry
      obtain ⟨twin, htwin, huid, -⟩ := marks_twin (mergeDrop_marks _ world.dropNew) entry hentry
      rw [← huid]
      exact hfair.issued twin htwin
    · exact pushDrop_fair hfair.sound hfair.issued
        fun hne => hsound drop.count (by omega) (le_refl _) hne
  rw [hlaid]
  exact ⟨hboth.1, layDrop_nodup env.items _ (hfair.ready hfit), hboth.2⟩

end Ground

section Amounts

/-- What a player carries of an item; gems are a number of their own. -/
def amount (id : Int) (pl : Player) : Int := if id = 112 then pl.gems else contains pl.inv id

/-- The ids of one kind: those that lie on the ground under the same id. -/
def kinds (k : Int) : List Int :=
  if k = 743 then [743, 745, 747, 749]
  else if k = 627 then [627, 629, 631, 633, 635, 637, 639, 641, 643, 645, 647, 649]
  else [k]

theorem mem_kinds {i k : Int} (hk : normalizeDropId k = k) :
    i ∈ kinds k ↔ normalizeDropId i = k := by
  have hother : ∀ j : Int, normalizeDropId j = 743 ∨ normalizeDropId j = 627 ∨
      normalizeDropId j = j := by
    intro j
    unfold normalizeDropId
    split_ifs <;> simp
  unfold kinds
  split_ifs with hmask hsuit
  · subst hmask
    unfold normalizeDropId
    simp only [List.mem_cons, List.not_mem_nil, or_false]
    split_ifs <;> omega
  · subst hsuit
    unfold normalizeDropId
    simp only [List.mem_cons, List.not_mem_nil, or_false]
    split_ifs <;> omega
  · rw [List.mem_singleton]
    constructor
    · rintro rfl
      exact hk
    · intro hi
      rcases hother i with h | h | h
      · exact absurd (hi.symm.trans h) hmask
      · exact absurd (hi.symm.trans h) hsuit
      · exact h.symm.trans hi

theorem kinds_nodup (k : Int) : (kinds k).Nodup := by
  unfold kinds
  split_ifs
  · decide
  · decide
  · exact List.nodup_singleton k

/-- What a player carries of a kind. -/
def carried (k : Int) (pl : Player) : Int := ((kinds k).map fun id => amount id pl).sum

/-- One summand more or less. -/
theorem sum_map_add_ite {f : Int → Int} {i d : Int} {ids : List Int} (hnodup : ids.Nodup) :
    (ids.map fun id => f id + if i = id then d else 0).sum =
      (ids.map f).sum + if i ∈ ids then d else 0 := by
  induction ids with
  | nil => rfl
  | cons id ids ih =>
      obtain ⟨hnot, hrest⟩ := List.nodup_cons.mp hnodup
      rw [List.map_cons, List.sum_cons, List.map_cons, List.sum_cons, ih hrest]
      by_cases hid : i = id
      · subst hid
        simp only [hnot, List.mem_cons_self, if_true, if_false]
        omega
      · simp only [hid, List.mem_cons, false_or, if_false]
        omega

theorem carried_of_change {pl next : Player} {i d k : Int} (hk : normalizeDropId k = k)
    (hchange : ∀ id ∈ kinds k, amount id next = amount id pl + if i = id then d else 0) :
    carried k next = carried k pl + if normalizeDropId i = k then d else 0 := by
  have hsum := @sum_map_add_ite (fun id => amount id pl) i d (kinds k) (kinds_nodup k)
  unfold carried
  rw [List.map_congr_left hchange, hsum]
  simp only [mem_kinds hk]

end Amounts

section Scene

variable {env : Env} {w : Nat}

/-- The drops of a world. -/
def dropsAt (w : Nat) (worlds : List World) : List DropEntry :=
  ((worlds[w]?).map World.dropNew).getD []

/-- The members that make `Modify` do more than it is asked for. -/
def rules (pl : Player) : String × Bool × Bool × Bool :=
  (pl.world, pl.infiniteMode, pl.autoConvert, pl.autosellfish)

/-- A player in a world, with nothing switched on. -/
structure Scene (w : Nat) (pl : Player) (worlds : List World) : Prop where
  here : worlds.findIdx? (fun world => world.name == pl.world) = some w
  slots : SlotInv pl.inv
  finite : pl.infiniteMode = false
  unconverted : pl.autoConvert = false
  unsold : pl.autosellfish = false

/-- A number of some item has gone from the ground to the player, or back. -/
structure Exchange (env : Env) (w : Nat) (i d : Int) (s t : Session) : Prop where
  carried : ∀ id, id ≠ 9186 → amount id t.pl = amount id s.pl + if i = id then d else 0
  lying : ∀ id, id ≠ 9186 → dropTotal id (dropsAt w t.worlds) =
    dropTotal id (dropsAt w s.worlds) - if normalizeDropId i = id then d else 0
  slots : SlotInv t.pl.inv
  rules : rules t.pl = rules s.pl
  names : t.worlds.map World.name = s.worlds.map World.name
  fair : ∀ world, t.worlds[w]? = some world → WorldFair env world

/-- All players of a server stand in one world, with sound drops. -/
structure Fair (env : Env) (w : Nat) (server : Server) : Prop where
  scene : ∀ pl ∈ server.players, Scene w pl server.worlds
  ground : ∀ world, server.worlds[w]? = some world → WorldFair env world

/-- What there is of a kind: with the players, and on the ground. -/
def present (w : Nat) (k : Int) (server : Server) : Int :=
  Ledger.worth (carried k) server.players + dropTotal k (dropsAt w server.worlds)

/-- Everything is still there; seals are counted elsewhere. -/
structure Keeps (env : Env) (w : Nat) (server t : Server) : Prop where
  fair : Fair env w t
  present : ∀ k, normalizeDropId k = k → k ≠ 9186 → present w k t = present w k server

theorem Keeps.refl {server : Server} (hfair : Fair env w server) : Keeps env w server server :=
  ⟨hfair, fun _ _ _ => rfl⟩

theorem Keeps.trans {server t u : Server} (hfirst : Keeps env w server t)
    (hsecond : Keeps env w t u) : Keeps env w server u :=
  ⟨hsecond.fair, fun k hk hseal =>
    (hsecond.present k hk hseal).trans (hfirst.present k hk hseal)⟩

theorem Scene.congr {pl next : Player} {worlds others : List World} (hscene : Scene w pl worlds)
    (hslots : SlotInv next.inv) (hrules : rules next = rules pl)
    (hnames : others.map World.name = worlds.map World.name) : Scene w next others := by
  obtain ⟨hworld, hinfinite, hconvert, hsell⟩ : next.world = pl.world ∧
      next.infiniteMode = pl.infiniteMode ∧ next.autoConvert = pl.autoConvert ∧
        next.autosellfish = pl.autosellfish := by
    simpa [rules] using hrules
  refine ⟨?_, hslots, hinfinite.trans hscene.finite, hconvert.trans hscene.unconverted,
    hsell.trans hscene.unsold⟩
  have hindex : ∀ list : List World, list.findIdx? (fun world => world.name == pl.world) =
      (list.map World.name).findIdx? (· == pl.world) := by
    intro list
    rw [List.findIdx?_map]
    rfl
  rw [hworld, hindex, hnames, ← hindex]
  exact hscene.here

/-- What one player exchanges with the ground stays in the world. -/
theorem keeps_of_exchange {server : Server} {peer : Nat} {pl : Player} {now i d : Int}
    {t : Session} {rands : Nat → Nat} (hfair : Fair env w server)
    (hpl : server.players[peer]? = some pl)
    (hex : Exchange env w i d (server.session pl now) t) :
    Keeps env w server ⟨server.players.set peer t.pl, t.worlds, rands⟩ := by
  have hself := hfair.scene pl (List.mem_of_getElem? hpl)
  constructor
  · constructor
    · intro other hother
      rcases List.mem_or_eq_of_mem_set hother with hold | rfl
      · exact (hfair.scene other hold).congr (hfair.scene other hold).slots rfl hex.names
      · exact hself.congr hex.slots hex.rules hex.names
    · exact hex.fair
  · intro k hk hseal
    have hcarried : carried k t.pl = carried k pl + if normalizeDropId i = k then d else 0 := by
      apply carried_of_change hk
      intro id hid
      refine hex.carried id fun h => hseal ?_
      have hkind := (mem_kinds hk).mp hid
      rw [h] at hkind
      rw [← hkind]
      decide
    have hlying := hex.lying k hseal
    have hworlds : (server.session pl now).worlds = server.worlds := rfl
    rw [hworlds] at hlying
    unfold CollectDrops.present
    rw [Ledger.worth_set _ hpl, hcarried, hlying]
    omega

/-- The world behind the pointer. -/
theorem Scene.world {pl : Player} {worlds : List World} (hscene : Scene w pl worlds) :
    ∃ world, worlds[w]? = some world ∧ world.name = pl.world := by
  obtain ⟨hlt, hname, -⟩ := List.findIdx?_eq_some_iff_getElem.mp hscene.here
  exact ⟨worlds[w], List.getElem?_eq_getElem hlt, by simpa using hname⟩

theorem dropsAt_of {worlds : List World} {world : World} (hworld : worlds[w]? = some world) :
    dropsAt w worlds = world.dropNew := by
  rw [dropsAt, hworld, Option.map_some, Option.getD_some]

theorem getElem?_modify_self {worlds : List World} {world : World} {f : World → World}
    (hworld : worlds[w]? = some world) : (worlds.modify w f)[w]? = some (f world) := by
  rw [List.getElem?_modify_eq, hworld]
  rfl

/-- A change of the world that a player is in, with one drop more or less and what
the player has for it. -/
theorem exchange_of_world {s : Session} {pl : Player} {world : World} {f : World → World}
    {rands : Nat → Nat} {i d : Int} (hworld : s.worlds[w]? = some world)
    (hname : ∀ world, (f world).name = world.name) (hfair : WorldFair env (f world))
    (hcarried : ∀ id, id ≠ 9186 → amount id pl = amount id s.pl + if i = id then d else 0)
    (hlying : ∀ id, id ≠ 9186 → dropTotal id (f world).dropNew =
      dropTotal id world.dropNew - if normalizeDropId i = id then d else 0)
    (hslots : SlotInv pl.inv) (hrules : rules pl = rules s.pl) :
    Exchange env w i d s ⟨pl, s.worlds.modify w f, s.now, rands⟩ where
  carried := hcarried
  lying id hid := by
    rw [dropsAt_of hworld, dropsAt_of (getElem?_modify_self hworld)]
    exact hlying id hid
  slots := hslots
  rules := hrules
  names := Ledger.map_modify_kept fun world _ => hname world
  fair other hother := by
    rw [getElem?_modify_self hworld] at hother
    exact Option.some.inj hother ▸ hfair

end Scene

section Giving

variable {env : Env} {w : Nat} {s : Session} {i c : Int}

theorem changed_counts {pl next : Player} (hs : SlotInv pl.inv) (hchanged : Changed pl i c next)
    (id : Int) : contains next.inv id = contains pl.inv id + if i = id then c else 0 := by
  have hamount := Pack.change_amount hchanged.view
  rw [Pack.update_add] at hamount
  rw [contains_eq_total hs, contains_eq_total hchanged.slots]
  exact congrFun hamount id

theorem changed_rules {pl next : Player} (hchanged : Changed pl i c next) :
    rules next = rules pl ∧ next.gems = pl.gems :=
  ⟨Player.core_congr hchanged.core rules fun _ => rfl,
    Player.core_congr hchanged.core Player.gems fun _ => rfl⟩

/-- What a player has after some of an item was put into the backpack. -/
structure Given (i c : Int) (pl next : Player) : Prop where
  slots : SlotInv next.inv
  rules : rules next = rules pl
  gems : next.gems = pl.gems
  counts : ∀ id, contains next.inv id = contains pl.inv id + if i = id then c else 0

/-- The stack of an item is raised. -/
theorem given_stack (hs : SlotInv s.pl.inv) (hi : 0 < i) (hpresent : 0 < contains s.pl.inv i)
    {n : Int} (hmore : contains s.pl.inv i ≤ n) (hcap : n ≤ 200) :
    ∃ idx, hasItemsInInv s.pl.inv i 1 = some idx ∧
      Given i (n - contains s.pl.inv i) s.pl { s.pl with inv := s.pl.inv.set idx (i, n) } := by
  obtain ⟨pre, post, hinv, hidx⟩ := hasItemsInInv_split hs (Int.ne_of_gt hi) hpresent
  have hset : s.pl.inv.set pre.length (i, n) = pre ++ (i, n) :: post := by
    rw [hinv, set_length_append]
  have hslots : SlotInv (s.pl.inv.set pre.length (i, n)) := by
    rw [hset]
    rw [hinv] at hs
    apply hs.replace (Or.inr ⟨hi, by dsimp only; omega, hcap⟩)
    intro _
    exact hs.wellFormed.not_mem_of_stack (Int.ne_of_gt hi)
  refine ⟨pre.length, hidx, hslots, rfl, rfl, fun id => ?_⟩
  have hbefore := congrArg (total id) hinv
  rw [total_append, total_cons] at hbefore
  dsimp only
  rw [contains_eq_total hslots, contains_eq_total hs, hset, total_append, total_cons, hbefore]
  split_ifs <;> omega

/-- `SaveDropItemMoreTimes` puts into the backpack what fits there and lays down the
rest. -/
theorem saveDrop_spec (hscene : Scene w s.pl s.worlds) (haccepts : Accepts env i) (hpos : 1 ≤ c)
    (hcap : c ≤ 200) (hroom : contains s.pl.inv i = 0 → 0 < getSlots s.pl.inv) :
    ∃ next kept, kept ≤ c ∧ c - kept ≤ 200 ∧ Given i kept s.pl next ∧
      saveDropItemMoreTimes env i c s =
        if kept = c then { s with pl := next }
        else dropRest env i (c - kept) { s with pl := next } := by
  have hs := hscene.slots
  have hnonneg := contains_nonneg hs (Int.ne_of_gt haccepts.1)
  unfold saveDropItemMoreTimes
  dsimp only
  by_cases habsent : contains s.pl.inv i = 0
  · have hfits : GiftFits s.pl.inv i c := ⟨by omega, Or.inr (hroom habsent)⟩
    have hquiet : Quiet env s.pl i c :=
      ⟨Or.inl hscene.unconverted, Or.inr (Or.inl hscene.unsold), hscene.finite⟩
    rcases modify_quiet true hs haccepts hquiet with ⟨next, left, hgiven, hchanged⟩ |
      ⟨left, -, hnone⟩
    · obtain ⟨hrules, hgems⟩ := changed_rules hchanged
      refine ⟨next, c, le_refl c, by omega,
        ⟨hchanged.slots, hrules, hgems, changed_counts hs hchanged⟩, ?_⟩
      rw [if_pos habsent, if_pos rfl, hgiven]
    · exact absurd hnone ((giftFits_iff hs (Int.ne_of_gt haccepts.1) (by omega)).mp hfits)
  · have hpresent : 0 < contains s.pl.inv i := by omega
    have hbound := (hs.wellFormed.total_bounds (by decide) (Int.ne_of_gt haccepts.1)).2
    rw [← contains_eq_total hs] at hbound
    rw [if_neg habsent, int32_of_range (by omega) (by omega)]
    by_cases hover : 200 < contains s.pl.inv i + c
    · obtain ⟨idx, hidx, hgiven⟩ := given_stack hs haccepts.1 hpresent hbound (le_refl 200)
      refine ⟨_, 200 - contains s.pl.inv i, by omega, by omega, hgiven, ?_⟩
      have hrest : contains s.pl.inv i + c - 200 = c - (200 - contains s.pl.inv i) := by omega
      rw [hidx, if_neg (by omega), ← hrest]
      dsimp only
      rw [if_pos hover]
      rfl
    · obtain ⟨idx, hidx, hgiven⟩ := @given_stack s i hs haccepts.1 hpresent
        (contains s.pl.inv i + c) (by omega) (by omega)
      have hkept : contains s.pl.inv i + c - contains s.pl.inv i = c := by omega
      rw [hkept] at hgiven
      refine ⟨_, c, le_refl c, by omega, hgiven, ?_⟩
      rw [hidx, if_pos rfl]
      dsimp only
      rw [if_neg hover]
      rfl

end Giving

/-- `world_->fresh_world = true`. -/
def marked (world : World) : World := { world with freshWorld := true }

/-- What is laid down beside the player is laid down in the player's world. -/
theorem dropRest_eq {env : Env} {w : Nat} {s : Session} {i c : Int}
    (hhere : s.findWorld s.pl.world = some w) :
    ∃ x y rands, dropRest env i c s =
      ⟨s.pl, s.worlds.modify w fun world =>
        visualDrop env.items s.now (marked world) ⟨i, c, x, y⟩, s.now, rands⟩ := by
  have hfound : s.rand.2.rand.2.findWorld s.rand.2.rand.2.pl.world = some w := hhere
  refine ⟨s.pl.x + (s.rands 0 % 17 : Nat), s.pl.y + (s.rands 1 % 17 : Nat),
    s.rand.2.rand.2.rands, ?_⟩
  unfold dropRest
  dsimp only
  rw [hfound]
  unfold Session.freshen Session.mapWorld
  dsimp only
  rw [List.modify_modify_eq]
  rfl

section Taking

variable {env : Env} {w i : Nat} {s : Session} {world : World} {entry : DropEntry}

/-- The drops without one of them. -/
def without (i : Nat) (world : World) : World :=
  { world with dropNew := world.dropNew.eraseIdx i }

theorem dropTotal_without (hentry : world.dropNew[i]? = some entry) (id : Int) :
    dropTotal id (without i world).dropNew =
      dropTotal id world.dropNew - if entry.id = id then entry.count else 0 := by
  have hworth := Ledger.worth_eraseIdx
    (fun entry : DropEntry => if entry.id = id then entry.count else 0) hentry
  have hsum : ∀ entries : List DropEntry, dropTotal id entries =
      Ledger.worth (fun entry : DropEntry => if entry.id = id then entry.count else 0) entries := by
    intro entries
    induction entries with
    | nil => rfl
    | cons entry entries ih => rw [dropTotal_cons, Ledger.worth_cons, ih]
  rw [hsum, hsum]
  exact hworth

theorem amount_given {i c id : Int} {pl next : Player} (hgiven : Given i c pl next)
    (hi : i ≠ 112) : amount id next = amount id pl + if i = id then c else 0 := by
  unfold amount
  split_ifs with hgem hid
  · exact absurd (hid.trans hgem) hi
  · rw [hgiven.gems, add_zero]
  · rw [hgiven.counts, if_pos ‹_›]
  · rw [hgiven.counts, if_neg ‹_›]

/-- An item that is taken off the ground is with the player, or lies there again. -/
theorem item_taken (hscene : Scene w s.pl s.worlds) (hworld : s.worlds[w]? = some world)
    (hfair : WorldFair env world) (hfit : DropsFit s.now world.dropNew 0)
    (hentry : world.dropNew[i]? = some entry) (hitem : entry.id ≠ 112)
    (hroom : contains s.pl.inv entry.id = 0 → 0 < getSlots s.pl.inv) :
    ∃ d, Exchange env w entry.id d s (saveDropItemMoreTimes env entry.id entry.count
      (s.mapWorld w (without i))) := by
  obtain ⟨haccepts, hname, hone, hmost⟩ :=
    (hfair.sound entry (List.mem_of_getElem? hentry)).resolve_left hitem
  have hscene' : Scene w (s.mapWorld w (without i)).pl (s.mapWorld w (without i)).worlds :=
    hscene.congr hscene.slots rfl (Ledger.map_modify_kept fun _ _ => rfl)
  obtain ⟨next, kept, hle, hrest, hgiven, hsave⟩ :=
    saveDrop_spec hscene' haccepts hone hmost hroom
  refine ⟨kept, ?_⟩
  rw [hsave]
  have hlost := dropTotal_without hentry
  have hless := hfair.erase i
  split_ifs with hall
  · refine exchange_of_world hworld (fun _ => rfl) hless (fun id _ => amount_given hgiven hitem)
      (fun id _ => ?_) hgiven.slots hgiven.rules
    rw [hlost, hname, hall]
  · have hhere : (Session.mk next (s.mapWorld w (without i)).worlds s.now s.rands).findWorld
        next.world = some w :=
      (hscene'.congr hgiven.slots hgiven.rules rfl).here
    obtain ⟨x, y, rands, hlaid⟩ := @dropRest_eq env w _ entry.id (entry.count - kept) hhere
    have hroomy : DropsFit s.now (without i world).dropNew 1 := by
      refine ⟨?_, fun other hother =>
        hfit.noneExpired other (List.mem_of_mem_eraseIdx hother)⟩
      have hlt := (List.getElem?_eq_some_iff.mp hentry).1
      have hlength := hfit.length
      change (world.dropNew.eraseIdx i).length + 1 ≤ 500
      rw [List.length_eraseIdx_of_lt hlt]
      omega
    have hmarked : WorldFair env (marked (without i world)) :=
      ⟨hless.sound, hless.nodup, hless.issued⟩
    have hgem : normalizeDropId entry.id ≠ 112 := by
      rw [hname]
      exact hitem
    have hdropped := fun id => (@dropTotal_visualDrop env.items s.now
      (marked (without i world)) ⟨entry.id, entry.count - kept, x, y⟩ 0
      hroomy (by dsimp only; omega) hgem id).1
    change Exchange env w entry.id kept s (dropRest env entry.id (entry.count - kept)
      (Session.mk next (s.mapWorld w (without i)).worlds s.now s.rands))
    rw [hlaid]
    have hworlds : (s.mapWorld w (without i)).worlds = s.worlds.modify w (without i) := rfl
    dsimp only
    rw [hworlds, List.modify_modify_eq]
    refine exchange_of_world hworld (fun _ => rfl)
      (visualDrop_fair hmarked hroomy haccepts (by dsimp only; omega) (by dsimp only; omega))
      (fun id _ => amount_given hgiven hitem) (fun id _ => ?_) hgiven.slots hgiven.rules
    refine (hdropped id).trans ?_
    rw [hname]
    change dropTotal id (without i world).dropNew + _ = _
    rw [hlost]
    dsimp only
    split_ifs <;> omega

/-- Gems that are taken off the ground are with the player. -/
theorem gems_taken (hscene : Scene w s.pl s.worlds) (hworld : s.worlds[w]? = some world)
    (hfair : WorldFair env world) (hentry : world.dropNew[i]? = some entry)
    (hgem : entry.id = 112) (rands : Nat → Nat) :
    Exchange env w 112 entry.count s ⟨{ s.pl with gems := s.pl.gems + entry.count },
      s.worlds.modify w (without i), s.now, rands⟩ := by
  have hlost := dropTotal_without hentry
  refine exchange_of_world hworld (fun _ => rfl) (hfair.erase i) (fun id _ => ?_)
    (fun id _ => ?_) hscene.slots rfl
  · unfold amount
    by_cases hid : id = 112
    · rw [if_pos hid, if_pos hid, if_pos hid.symm]
    · rw [if_neg hid, if_neg hid, if_neg (Ne.symm hid), add_zero]
  · rw [hlost, hgem, show normalizeDropId 112 = 112 by decide]

/-- A seal that is taken off the ground is counted elsewhere. -/
theorem seal_taken (hscene : Scene w s.pl s.worlds) (hworld : s.worlds[w]? = some world)
    (hfair : WorldFair env world) (hentry : world.dropNew[i]? = some entry)
    (hseal : entry.id = 9186) (rands : Nat → Nat) :
    Exchange env w 9186 0 s ⟨s.pl, s.worlds.modify w (without i), s.now, rands⟩ := by
  have hlost := dropTotal_without hentry
  refine exchange_of_world hworld (fun _ => rfl) (hfair.erase i) (fun id _ => ?_)
    (fun id hid => ?_) hscene.slots rfl
  · rw [ite_self, add_zero]
  · rw [hlost, hseal, if_neg (Ne.symm hid), ite_self]

end Taking

section Collecting

variable {env : Env} {guilds : List Guild} {w peer : Nat} {now uid : Int} {server t : Server}

/-- Where the loop is after some turns: everything is still there, nothing is
expired, and no drop that is looked for is gems of a thousand. -/
structure Looking (env : Env) (w : Nat) (now uid : Int) (server : Server) (at_ : Search) :
    Prop where
  keeps : Keeps env w server at_.server
  fit : DropsFit now (dropsAt w at_.server.worlds) 0
  small : ∀ entry ∈ dropsAt w at_.server.worlds, entry.uid = uid → entry.id ≠ 4490

theorem modify_eq_set {pl : Player} (f : Player → Player)
    (hpl : server.players[peer]? = some pl) :
    server.players.modify peer f = server.players.set peer (f pl) := by
  apply List.ext_getElem?
  intro k
  rw [List.getElem?_modify, List.getElem?_set]
  by_cases hk : peer = k
  · subst hk
    obtain ⟨hlt, hget⟩ := List.getElem?_eq_some_iff.mp hpl
    simp [hlt, hget]
  · simp [hk]

/-- A change of the world alone. -/
theorem keeps_of_ground {pl : Player} {worlds : List World} {rands : Nat → Nat} {i d : Int}
    (hfair : Fair env w server) (hpl : server.players[peer]? = some pl)
    (hex : Exchange env w i d (server.session pl now) ⟨pl, worlds, now, rands⟩) :
    Keeps env w server ⟨server.players, worlds, rands⟩ := by
  have hkeeps := @keeps_of_exchange env w server peer pl now i d _ rands hfair hpl hex
  have hsame : server.players.set peer pl = server.players := by
    rw [← modify_eq_set (fun pl => pl) hpl]
    exact List.modify_id _ _
  change Keeps env w server ⟨server.players.set peer pl, worlds, rands⟩ at hkeeps
  rw [hsame] at hkeeps
  exact hkeeps

/-- A drop that is erased behind the loop. -/
theorem Looking.erased {at_ : Search} {i : Nat} {world : World}
    (hlooking : Looking env w now uid server at_)
    (hworld : at_.server.worlds[w]? = some world) (hkeeps : Keeps env w at_.server t)
    (hworlds : t.worlds = at_.server.worlds.modify w (without i)) (j : Nat) (displaybox : Bool) :
    Looking env w now uid server ⟨t, j, displaybox⟩ := by
  have hdrops : dropsAt w t.worlds = (dropsAt w at_.server.worlds).eraseIdx i := by
    rw [hworlds, dropsAt_of hworld, dropsAt_of (getElem?_modify_self hworld)]
    rfl
  have hsub := List.eraseIdx_sublist (dropsAt w at_.server.worlds) i
  refine ⟨hlooking.keeps.trans hkeeps, ⟨?_, fun entry hentry => ?_⟩, fun entry hentry => ?_⟩
  · rw [hdrops]
    exact le_trans hsub.length_le hlooking.fit.length
  · rw [hdrops] at hentry
    exact hlooking.fit.noneExpired entry (hsub.subset hentry)
  · rw [hdrops] at hentry
    exact hlooking.small entry (hsub.subset hentry)

/-- What one drop leaves, whether or not the loop goes on. -/
theorem take_keeps {at_ : Search} {pl : Player} {world : World} {entry : DropEntry}
    (hlooking : Looking env w now uid server at_) (hpl : at_.server.players[peer]? = some pl)
    (hworld : at_.server.worlds[w]? = some world) (hentry : world.dropNew[at_.i]? = some entry)
    (huid : entry.uid = uid) :
    match take env peer now w at_.i pl entry at_.server with
    | .stop t => Keeps env w at_.server t
    | .again t => Looking env w now uid server ⟨t, at_.i + 1, true⟩ := by
  have hfair := hlooking.keeps.fair
  have hscene := hfair.scene pl (List.mem_of_getElem? hpl)
  have hground := hfair.ground world hworld
  have hmem := List.mem_of_getElem? hentry
  have hfit := hlooking.fit
  rw [dropsAt_of hworld] at hfit
  have hsmall : entry.id ≠ 4490 := by
    apply hlooking.small entry _ huid
    rw [dropsAt_of hworld]
    exact hmem
  unfold take
  by_cases hfull : full pl entry.id = true
  · rw [if_pos hfull]
    exact Keeps.refl hfair
  · rw [if_neg hfull]
    by_cases hgem : entry.id = 112
    · rw [if_pos (Or.inl hgem)]
      by_cases hrich : 2100000000 ≤ pl.gems
      · rw [if_pos hrich]
        exact Keeps.refl hfair
      · rw [if_neg hrich, if_neg hsmall]
        have htaken := @gems_taken env w at_.i (at_.server.session pl now) world entry hscene
          hworld hground hentry hgem at_.server.rands
        have hkeeps := @keeps_of_exchange env w at_.server peer pl now 112 entry.count _
          at_.server.rands hfair hpl htaken
        refine hlooking.erased hworld ?_ rfl _ _
        unfold eraseDrop Server.mapPlayer
        dsimp only
        rw [modify_eq_set _ hpl]
        exact hkeeps
    · rw [if_neg (not_or_intro hgem hsmall)]
      by_cases hseal : entry.id = 9186
      · rw [if_pos hseal]
        have htaken := @seal_taken env w at_.i (at_.server.session pl now) world entry hscene
          hworld hground hentry hseal at_.server.rands
        exact hlooking.erased hworld (keeps_of_ground hfair hpl htaken) rfl _ _
      · rw [if_neg hseal]
        have hroom : contains pl.inv entry.id = 0 → 0 < getSlots pl.inv := by
          intro hnone
          by_contra hslots
          apply hfull
          have hzero : getSlots pl.inv = 0 := Nat.eq_zero_of_not_pos hslots
          simp [full, hnone, hzero, hgem, hsmall, hseal]
        obtain ⟨d, htaken⟩ := @item_taken env w at_.i (at_.server.session pl now) world entry
          hscene hworld hground hfit hentry hgem hroom
        have hserved : (eraseDrop w at_.i at_.server).players[peer]? = some pl := hpl
        change Keeps env w at_.server ((eraseDrop w at_.i at_.server).serve peer now _)
        unfold Server.serve
        rw [hserved]
        exact keeps_of_exchange hfair hpl htaken

/-- What one turn of the loop leaves. -/
theorem body_keeps {at_ : Search} (hlooking : Looking env w now uid server at_) :
    match body env guilds peer now w uid (some at_) with
    | .stop (some last) => Keeps env w server last.server
    | .again (some next) => Looking env w now uid server next
    | _ => True := by
  have hon : ∀ (j : Nat) (displaybox : Bool),
      Looking env w now uid server ⟨at_.server, j, displaybox⟩ :=
    fun _ _ => ⟨hlooking.keeps, hlooking.fit, hlooking.small⟩
  unfold body
  dsimp only
  cases hpl : at_.server.players[peer]? with
  | none => exact hlooking.keeps
  | some pl =>
      cases hworld : at_.server.worlds[w]? with
      | none => exact hlooking.keeps
      | some world =>
          dsimp only
          cases hentry : world.dropNew[at_.i]? with
          | none => exact hlooking.keeps
          | some entry =>
              dsimp only
              by_cases huid : entry.uid ≠ uid
              · rw [if_pos huid]
                exact hon _ _
              · rw [if_neg huid]
                cases allowed env guilds pl world entry at_.displaybox with
                | none => trivial
                | some answer =>
                    cases answer with
                    | none => exact hlooking.keeps
                    | some displaybox =>
                        cases displaybox with
                        | false => exact hon _ _
                        | true =>
                            have htake := take_keeps hlooking hpl hworld hentry (not_not.mp huid)
                            dsimp only
                            cases htaken : take env peer now w at_.i pl entry at_.server with
                            | stop t =>
                                rw [htaken] at htake
                                exact hlooking.keeps.trans htake
                            | again t =>
                                rw [htaken] at htake
                                exact htake

/-- What the whole loop leaves, when it ends. -/
theorem loop_keeps {turns : Nat} {at_ : Search} (hlooking : Looking env w now uid server at_)
    (hloop : (match runs (body env guilds peer now w uid) turns (some at_) with
      | some (some last) => some last.server
      | _ => none) = some t) : Keeps env w server t := by
  cases hruns : runs (body env guilds peer now w uid) turns (some at_) with
  | none =>
      rw [hruns] at hloop
      cases hloop
  | some result =>
      rw [hruns] at hloop
      cases result with
      | none => cases hloop
      | some last =>
          obtain rfl := Option.some.inj hloop
          obtain ⟨before, hbefore, hstop⟩ := runs_invariant
            (fun state => ∀ at_, state = some at_ → Looking env w now uid server at_)
            (fun state next hstate hagain at_ hnext => by
              subst hnext
              cases state with
              | none => cases hagain
              | some state =>
                  have hturn := @body_keeps env guilds w peer now uid server state
                    (hstate state rfl)
                  rw [hagain] at hturn
                  exact hturn) hruns
            (fun at_ hat => Option.some.inj hat ▸ hlooking)
          cases before with
          | none => cases hstop
          | some before =>
              have hturn := @body_keeps env guilds w peer now uid server before
                (hbefore before rfl)
              rw [hstop] at hturn
              exact hturn

/-- Collecting keeps everything, whichever player it is. -/
theorem collect_keeps {turns : Nat} {p : Pickup} (hfair : Fair env w server)
    (hfit : DropsFit now (dropsAt w server.worlds) 0)
    (hsmall : ∀ entry ∈ dropsAt w server.worlds, entry.uid = p.plantingTree → entry.id ≠ 4490)
    (hcollect : collect env guilds peer now turns p server = some t) : Keeps env w server t := by
  unfold collect at hcollect
  cases hpl : server.players[peer]? with
  | none =>
      rw [hpl] at hcollect
      obtain rfl := Option.some.inj hcollect
      exact Keeps.refl hfair
  | some pl =>
      rw [hpl] at hcollect
      have hscene := hfair.scene pl (List.mem_of_getElem? hpl)
      obtain ⟨world, hworld, -⟩ := hscene.world
      have hhere : (server.session pl now).findWorld pl.world = some w := hscene.here
      dsimp only at hcollect
      split_ifs at hcollect with hhidden
      · obtain rfl := Option.some.inj hcollect
        exact Keeps.refl hfair
      · rw [hhere] at hcollect
        dsimp only at hcollect
        rw [hworld] at hcollect
        dsimp only at hcollect
        split_ifs at hcollect with hrange
        · obtain rfl := Option.some.inj hcollect
          exact Keeps.refl hfair
        · have hground := hfair.ground world hworld
          have hmark : Exchange env w 0 0 (server.session pl now)
              ⟨pl, server.worlds.modify w marked, now, server.rands⟩ := by
            refine exchange_of_world hworld (fun _ => rfl)
              ⟨hground.sound, hground.nodup, hground.issued⟩ (fun id _ => ?_) (fun id _ => ?_)
              hscene.slots rfl
            · rw [ite_self, add_zero]
              rfl
            · rw [ite_self, sub_zero]
              rfl
          have hdrops : dropsAt w (server.worlds.modify w marked) = dropsAt w server.worlds := by
            rw [dropsAt_of hworld, dropsAt_of (getElem?_modify_self hworld)]
            rfl
          have hstart : Looking env w now p.plantingTree server
              ⟨⟨server.players, server.worlds.modify w marked, server.rands⟩, 0, true⟩ := by
            refine ⟨keeps_of_ground hfair hpl hmark, ?_, ?_⟩
            · rw [hdrops]
              exact hfit
            · rw [hdrops]
              exact hsmall
          exact loop_keeps hstart hcollect

end Collecting

section Dropping

variable {env : Env} {guilds : List Guild} {halloween : Bool} {sacrifice : Session → Session}
  {w peer : Nat} {now : Int} {words : DropItem.DropWords} {server t : Server} {s u : Session}
  {world : World}

/-- The branch `drop_item` for a player of the server. -/
def dropBy (env : Env) (guilds : List Guild) (halloween : Bool) (sacrifice : Session → Session)
    (peer : Nat) (now : Int) (words : DropItem.DropWords) (server : Server) : Option Server :=
  match server.players[peer]? with
  | none => some server
  | some pl =>
      (DropItem.dropItem env guilds halloween sacrifice words (server.session pl now)).map
        fun s => ⟨server.players.set peer s.pl, s.worlds, s.rands⟩

/-- Nothing is exchanged when the drops stay as they are. -/
theorem exchange_none (hscene : Scene w s.pl s.worlds) (hworld : s.worlds[w]? = some world)
    (hfair : WorldFair env world) (rands : Nat → Nat) :
    Exchange env w 0 0 s ⟨s.pl, s.worlds, s.now, rands⟩ ∧
      Exchange env w 0 0 s ⟨s.pl, s.worlds.modify w marked, s.now, rands⟩ := by
  have hsame : s.worlds.modify w (fun world => world) = s.worlds := List.modify_id _ _
  constructor
  · rw [← hsame]
    refine exchange_of_world hworld (fun _ => rfl) hfair (fun id _ => ?_) (fun id _ => ?_)
      hscene.slots rfl
    · rw [ite_self, add_zero]
    · rw [ite_self, sub_zero]
  · refine exchange_of_world hworld (fun _ => rfl)
      ⟨hfair.sound, hfair.nodup, hfair.issued⟩ (fun id _ => ?_) (fun id _ => ?_)
      hscene.slots rfl
    · rw [ite_self, add_zero]
    · rw [ite_self, sub_zero]
      rfl

/-- What is taken out of the backpack is laid down. -/
theorem handOver_exchange (hscene : Scene w s.pl s.worlds) (hworld : s.worlds[w]? = some world)
    (hfair : WorldFair env world) (hfit : DropsFit s.now world.dropNew 1)
    {request : DropItem.Request} (hfits : DropItem.Fits env words s request)
    (hegg : request.id ≠ 611)
    (hplace : ∀ x y, DropItem.sacrificial halloween world x y = false) {block : WorldBlock}
    (hhand : DropItem.handOver env guilds halloween sacrifice w world block request s = some u) :
    Exchange env w request.id (-request.taken) s u := by
  have hgem : normalizeDropId request.id ≠ 112 :=
    fun h => hfits.accepts.2.2 (normalizeDropId_eq_gem h)
  obtain ⟨next, left, htaken, hchanged⟩ := @modify_take env
    ((DropItem.drawn s).freshen w) request.id request.taken false hscene.slots hfits.accepts
    hscene.unconverted hscene.finite hfits.pos hfits.enough
  obtain ⟨hrules, hgems⟩ := changed_rules hchanged
  have hgiven : Given request.id (-request.taken) s.pl next :=
    ⟨hchanged.slots, hrules, hgems, changed_counts hscene.slots hchanged⟩
  have hlaid : u = ⟨next, s.worlds.modify w fun world =>
      visualDrop env.items s.now (marked world) (DropItem.spot s request), s.now,
      (DropItem.drawn s).rands⟩ := by
    have hnoegg : ¬ ((DropItem.spot s request).id = 611 ∧ block.fg = 610) :=
      fun h => hegg h.1
    unfold DropItem.handOver DropItem.lay at hhand
    rw [htaken] at hhand
    simp only [ne_eq, not_true_eq_false, if_false, hplace, if_neg hnoegg, Option.map_some,
      Bool.false_eq_true, Option.some.injEq] at hhand
    rw [← hhand]
    unfold Session.freshen Session.mapWorld
    dsimp only
    rw [List.modify_modify_eq]
    rfl
  have hmarked : WorldFair env (marked world) := ⟨hfair.sound, hfair.nodup, hfair.issued⟩
  have hcount : (DropItem.spot s request).count = request.taken := hfits.count
  have hbounds := (hscene.slots.wellFormed.total_bounds (by decide)
    (Int.ne_of_gt hfits.accepts.1)).2
  have henough := hfits.enough
  have hdropped := fun id => (@dropTotal_visualDrop env.items s.now (marked world)
    (DropItem.spot s request) 0 hfit (by omega) hgem id).1
  have hpos := hfits.pos
  rw [hlaid]
  refine exchange_of_world hworld (fun _ => rfl)
    (visualDrop_fair hmarked hfit hfits.accepts (by omega) (by omega))
    (fun id _ => amount_given hgiven hfits.accepts.2.2) (fun id _ => ?_) hgiven.slots hgiven.rules
  refine (hdropped id).trans ?_
  rw [hcount]
  change dropTotal id world.dropNew + (if normalizeDropId request.id = id then _ else _) = _
  split_ifs <;> omega

/-- The branch `drop_item` gives something away or changes nothing. -/
theorem dropItem_exchange (hscene : Scene w s.pl s.worlds) (hworld : s.worlds[w]? = some world)
    (hfair : WorldFair env world) (hfit : DropsFit s.now world.dropNew 1)
    (hhere : DropItem.here s = some (w, world)) (hegg : atoi words.item ≠ 611)
    (hplace : ∀ x y, DropItem.sacrificial halloween world x y = false)
    (hitem : DropItem.dropItem env guilds halloween sacrifice words s = some u) :
    ∃ i d, Exchange env w i d s u := by
  obtain ⟨hsame, hasks⟩ := @DropItem.readRequest_spec env halloween words s hscene.slots
  have hstill := fun rands => (exchange_none hscene hworld hfair rands).1
  have hmarked := fun rands => (exchange_none hscene hworld hfair rands).2
  cases hrequest : (DropItem.readRequest env halloween words s).2 with
  | none =>
      have hread : DropItem.readRequest env halloween words s = (s, none) :=
        Prod.ext hsame hrequest
      unfold DropItem.dropItem at hitem
      rw [hread] at hitem
      obtain rfl := Option.some.inj hitem
      exact ⟨0, 0, hstill s.rands⟩
  | some request =>
      have hread : DropItem.readRequest env halloween words s = (s, some request) :=
        Prod.ext hsame hrequest
      have hfits := hasks request hrequest
      rw [DropItem.dropItem_of_request hread hhere] at hitem
      by_cases hforbidden : DropItem.forbidden env.items s.pl world request.id = true
      · rw [if_pos hforbidden] at hitem
        obtain rfl := Option.some.inj hitem
        exact ⟨0, 0, hstill s.rands⟩
      rw [if_neg hforbidden] at hitem
      by_cases houtside : DropItem.outside world (DropItem.spot s request) = true
      · rw [if_pos houtside] at hitem
        obtain rfl := Option.some.inj hitem
        exact ⟨0, 0, hstill _⟩
      rw [if_neg houtside] at hitem
      split at hitem
      · cases hitem
      · next block hblock =>
          split at hitem
          · cases hitem
          · obtain rfl := Option.some.inj hitem
            exact ⟨0, 0, hstill _⟩
          · by_cases hcrowded : DropItem.crowded world (DropItem.spot s request) = true
            · rw [if_pos hcrowded] at hitem
              obtain rfl := Option.some.inj hitem
              exact ⟨0, 0, hmarked _⟩
            · rw [if_neg hcrowded] at hitem
              have hid : request.id ≠ 611 := by
                rw [hfits.id]
                exact hegg
              exact ⟨_, _, handOver_exchange hscene hworld hfair hfit hfits hid hplace hitem⟩

/-- Dropping something that is neither magic eggs nor a sacrifice keeps everything. -/
theorem dropBy_keeps (hfair : Fair env w server)
    (hfit : DropsFit now (dropsAt w server.worlds) 1) (hegg : atoi words.item ≠ 611)
    (hplace : ∀ world, server.worlds[w]? = some world →
      halloween = false ∨ world.name ≠ "GROWGANOTH")
    (hdrop : dropBy env guilds halloween sacrifice peer now words server = some t) :
    Keeps env w server t := by
  unfold dropBy at hdrop
  cases hpl : server.players[peer]? with
  | none =>
      rw [hpl] at hdrop
      obtain rfl := Option.some.inj hdrop
      exact Keeps.refl hfair
  | some pl =>
      rw [hpl] at hdrop
      obtain ⟨u, hitem, rfl⟩ := Option.map_eq_some_iff.mp hdrop
      have hscene := hfair.scene pl (List.mem_of_getElem? hpl)
      obtain ⟨world, hworld, -⟩ := hscene.world
      have hground := hfair.ground world hworld
      rw [dropsAt_of hworld] at hfit
      have hhere : DropItem.here (server.session pl now) = some (w, world) := by
        have hfound : (server.session pl now).findWorld pl.world = some w := hscene.here
        have hsame : (server.session pl now).worlds[w]? = some world := hworld
        unfold DropItem.here
        change (match (server.session pl now).findWorld pl.world with
          | none => none
          | some w => ((server.session pl now).worlds[w]?).map (w, ·)) = _
        rw [hfound]
        dsimp only
        rw [hsame]
        rfl
      have hclosed : ∀ x y, DropItem.sacrificial halloween world x y = false := by
        intro x y
        unfold DropItem.sacrificial
        rcases hplace world hworld with hday | hname
        · simp [hday]
        · simp [hname]
      obtain ⟨i, d, hex⟩ := @dropItem_exchange env guilds halloween sacrifice w words
        (server.session pl now) u world hscene hworld hground hfit hhere hegg hclosed hitem
      exact keeps_of_exchange hfair hpl hex

end Dropping

section Runs

variable (env : Env) (guilds : List Guild) (halloween : Bool) (sacrifice : Session → Session)

inductive Act where
  | drop (words : DropItem.DropWords)
  | collect (turns : Nat) (p : Pickup)

/-- A message of one of the players. -/
structure Message where
  peer : Nat
  now : Int
  act : Act

def serve (server : Server) (m : Message) : Option Server :=
  match m.act with
  | .drop words => dropBy env guilds halloween sacrifice m.peer m.now words server
  | .collect turns p => collect env guilds m.peer m.now turns p server

/-- No drop is cleaned up when the message is served, and the items that become
something else stay where they are: magic eggs, sacrifices, gems of a thousand. -/
def Plain (w : Nat) (server : Server) (m : Message) : Prop :=
  match m.act with
  | .drop words =>
      DropsFit m.now (dropsAt w server.worlds) 1 ∧ atoi words.item ≠ 611 ∧
        ∀ world, server.worlds[w]? = some world → halloween = false ∨ world.name ≠ "GROWGANOTH"
  | .collect _ p =>
      DropsFit m.now (dropsAt w server.worlds) 0 ∧
        ∀ entry ∈ dropsAt w server.worlds, entry.uid = p.plantingTree → entry.id ≠ 4490

/-- Messages of any players, one after the other. -/
inductive Run (w : Nat) : Server → List Message → Server → Prop
  | nil (server : Server) : Run w server [] server
  | cons {server next last : Server} {m : Message} {messages : List Message}
      (hplain : Plain halloween w server m)
      (hserve : serve env guilds halloween sacrifice server m = some next)
      (hrest : Run w next messages last) : Run w server (m :: messages) last

variable {env guilds halloween sacrifice} {w : Nat} {server last : Server}

theorem serve_keeps {m : Message} (hfair : Fair env w server) (hplain : Plain halloween w server m)
    (hserve : serve env guilds halloween sacrifice server m = some last) :
    Keeps env w server last := by
  obtain ⟨peer, now, act⟩ := m
  cases act with
  | drop words => exact dropBy_keeps hfair hplain.1 hplain.2.1 hplain.2.2 hserve
  | collect turns p => exact collect_keeps hfair hplain.1 hplain.2 hserve

/-- Whatever the players of a world drop and collect there, and in whatever order,
of every kind of item there is as much as before, and no two drops share a uid. -/
theorem drops_conserved {messages : List Message} (hfair : Fair env w server)
    (hrun : Run env guilds halloween sacrifice w server messages last) :
    (∀ k, normalizeDropId k = k → k ≠ 9186 → present w k last = present w k server) ∧
      ((dropsAt w last.worlds).map DropEntry.uid).Nodup := by
  have hkeeps : Keeps env w server last := by
    induction hrun with
    | nil server => exact Keeps.refl hfair
    | cons hplain hserve _ ih =>
        have hstep := serve_keeps hfair hplain hserve
        exact hstep.trans (ih hstep.fair)
  refine ⟨hkeeps.present, ?_⟩
  unfold dropsAt
  cases hworld : last.worlds[w]? with
  | none => exact List.nodup_nil
  | some world => exact (hkeeps.fair.ground world hworld).nodup

/-- Two players in the middle of a row, one of them with ten of an item. -/
def twoPlayers : Server where
  players := [(DropItem.thrower 1600).pl,
    { (DropItem.thrower 1600).pl with inv := [(0, 0)] }]
  worlds := [DropItem.row]

/-- One drops five, the other collects them. -/
def handedOver : List Message :=
  [⟨0, 0, .drop ⟨"2", "5"⟩⟩, ⟨1, 0, .collect 2 ⟨1, 1600, 0, false⟩⟩]

theorem twoPlayers_fair : Fair DropItem.plainEnv 0 twoPlayers where
  scene pl hpl := by
    have hslots : ∀ pl ∈ twoPlayers.players, SlotInv pl.inv := by decide
    have hscene : ∀ pl ∈ twoPlayers.players, pl.world = "HOME" ∧ pl.infiniteMode = false ∧
        pl.autoConvert = false ∧ pl.autosellfish = false := by decide
    obtain ⟨hworld, hfinite, hunconverted, hunsold⟩ := hscene pl hpl
    refine ⟨?_, hslots pl hpl, hfinite, hunconverted, hunsold⟩
    rw [hworld]
    rfl
  ground world hworld := by
    obtain rfl := Option.some.inj hworld
    exact ⟨List.forall_mem_nil _, List.nodup_nil, List.forall_mem_nil _⟩

theorem drops_conserved_handedOver : ∃ last,
    Run DropItem.plainEnv [] false (fun s => s) 0 twoPlayers handedOver last ∧
      last.players.map (fun pl => contains pl.inv 2) = [5, 5] ∧
      present 0 2 last = present 0 2 twoPlayers := by
  have hdropped : Plain false 0 twoPlayers ⟨0, 0, .drop ⟨"2", "5"⟩⟩ :=
    ⟨⟨by decide, List.forall_mem_nil _⟩, by decide, fun _ _ => Or.inl rfl⟩
  obtain ⟨mid, hdrop, hmid⟩ : ∃ mid, serve DropItem.plainEnv [] false (fun s => s) twoPlayers
      ⟨0, 0, .drop ⟨"2", "5"⟩⟩ = some mid ∧
        dropsAt 0 mid.worlds = [⟨2, 5, 1, 1620, 0, some 0⟩] ∧
        ∃ last, serve DropItem.plainEnv [] false (fun s => s) mid
          ⟨1, 0, .collect 2 ⟨1, 1600, 0, false⟩⟩ = some last ∧
            last.players.map (fun pl => contains pl.inv 2) = [5, 5] :=
    ⟨_, rfl, rfl, _, rfl, rfl⟩
  obtain ⟨hlying, last, hcollect, hcounts⟩ := hmid
  have hcollected : Plain false 0 mid ⟨1, 0, .collect 2 ⟨1, 1600, 0, false⟩⟩ := by
    unfold Plain
    dsimp only
    rw [hlying]
    exact ⟨⟨by decide, List.forall_mem_singleton.mpr rfl⟩, by decide⟩
  have hrun := Run.cons hdropped hdrop (Run.cons hcollected hcollect (Run.nil last))
  exact ⟨last, hrun, hcounts, (drops_conserved twoPlayers_fair hrun).1 2 (by decide) (by decide)⟩

end Runs

end CollectDrops

end NopyServer
