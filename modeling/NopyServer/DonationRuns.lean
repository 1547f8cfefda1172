/-
What runs of `donation_box_edit` messages keep: the number of every item in
backpacks and boxes, and the agreement between the list of gifts of a box and
the flag of its block.
-/
import NopyServer.BoxLedger
import NopyServer.DonationBox

namespace NopyServer

namespace DonationBox

open Inventory SlotPack Ledger BoundedLoop

/-- How many of an item some gifts are. -/
def giftTotal (id : Int) (donates : List Donate) : Int :=
  worth (fun donate => if donate.item = id then donate.count else 0) donates

/-- How many of an item a box holds. -/
def boxGifts (env : Env) (id : Int) (block : WorldBlock) : Int :=
  if isDonation env block then giftTotal id block.donates else 0

/-- The number of an item in backpacks and donation boxes. -/
def giftBook (env : Env) (id : Int) : Book :=
  itemBook (fun id => blocksOf (boxGifts env id)) id

/-- A box looks full exactly when it holds a gift. -/
def Labelled (env : Env) (block : WorldBlock) : Prop :=
  isDonation env block = true →
    (flagSet block.flags fullFlag = true ↔ block.donates ≠ [])

/-- What a message keeps. -/
structure Keeps (env : Env) (s t : Session) : Prop where
  idle : Idle t.pl
  items : ∀ id, (giftBook env id).held t = (giftBook env id).held s
  labelled : (∀ world ∈ s.worlds, ∀ block ∈ world.blocks, Labelled env block) →
    ∀ world ∈ t.worlds, ∀ block ∈ world.blocks, Labelled env block

section Messages

variable {env : Env} {guilds : List Guild} {s t u : Session} {w b : Nat}
  {block : WorldBlock} {rest : List Donate}

theorem Keeps.refl (hidle : Idle s.pl) : Keeps env s s :=
  ⟨hidle, fun _ => rfl, fun hall => hall⟩

theorem Keeps.trans (hst : Keeps env s t) (htu : Keeps env t u) :
    Keeps env s u :=
  ⟨htu.idle, fun id => (htu.items id).trans (hst.items id),
    fun hall => htu.labelled (hst.labelled hall)⟩

theorem Keeps.freshen (hidle : Idle s.pl) (w : Nat) :
    Keeps env s (s.freshen w) where
  idle := hidle
  items id := by
    have hworth := worth_modify_of_eq (giftBook env id).world
      (fun world => { world with freshWorld := true }) s.worlds w fun _ => rfl
    simp only [Book.held, Session.freshen, Session.mapWorld, hworth]
  labelled hall := forall_mem_modify hall fun world hworld =>
    hall world (List.mem_of_getElem? hworld)

theorem giftBook_mapBlock (hblock : s.block? w b = some block)
    (f : WorldBlock → WorldBlock) (id : Int) :
    (giftBook env id).held (s.mapBlock w b f) = (giftBook env id).held s +
      (boxGifts env id (f block) - boxGifts env id block) :=
  itemBook_mapBlock hblock f id

theorem giftTotal_append (id : Int) (donates : List Donate) (donate : Donate) :
    giftTotal id (donates ++ [donate]) = giftTotal id donates +
      if donate.item = id then donate.count else 0 := by
  simp [giftTotal, worth_append]

theorem flagSet_putGift (donate : Donate) (block : WorldBlock) :
    flagSet (putGift donate block).flags fullFlag = true := by
  simp only [putGift, flagSet, fullFlag, beq_iff_eq]
  split <;> omega

theorem chooseItem_keeps (hidle : Idle s.pl) (item : Int) :
    Keeps env s (chooseItem env item s) := by
  unfold chooseItem
  split_ifs
  · exact Keeps.refl hidle
  · exact Keeps.refl hidle
  · exact Keeps.refl hidle
  · exact ⟨hidle.congr rfl rfl rfl rfl, fun _ => rfl, fun hall => hall⟩

/-- Recording a gift and taking it from the backpack. -/
theorem putGift_keeps (hidle : Idle s.pl) (hblock : s.block? w b = some block)
    (hbox : isDonation env block = true) {item count n : Int}
    (hn : n ≠ 0 → Accepts env item ∧ n = contains s.pl.inv item)
    (hpos : 0 < count) (hle : count ≤ n) (name text : String) :
    Keeps env s
      (modify env (s.mapBlock w b (putGift ⟨item, count, name, text⟩)) item
        (count * -1) false).session := by
  generalize hgift : Donate.mk item count name text = donate
  obtain ⟨next, left, htake, hgiven⟩ := @Idle.modify_take env
    (s.mapBlock w b (putGift donate)) item hidle n count hn hpos hle
  rw [Int.mul_neg_one, htake]
  refine ⟨hidle.of_given hgiven, fun id => ?_, fun hall => ?_⟩
  · have hput := @giftBook_mapBlock env s w b block hblock (putGift donate) id
    have htaken := @itemBook_given (fun id => blocksOf (boxGifts env id)) _ _ _
      _ hgiven id
    have hgifts : giftTotal id (putGift donate block).donates =
        giftTotal id block.donates + if item = id then count else 0 := by
      rw [← hgift]
      exact giftTotal_append id block.donates _
    have hstays : isDonation env (putGift donate block) = true := hbox
    simp only [boxGifts, hbox, hstays, ↓reduceIte] at hput
    simp only [giftBook] at hput ⊢
    rw [htaken, hput, hgifts]
    split <;> omega
  · refine forall_blocks_mapBlock hall hblock fun _ => ?_
    rw [flagSet_putGift]
    simp [putGift]

theorem give_keeps (hidle : Idle s.pl) (cch : String) :
    Keeps env s (give env cch s) := by
  obtain ⟨n, hask, hn⟩ := @Idle.modify_ask env s hidle s.pl.lastchoosenitem
  unfold give
  dsimp only
  rw [hask]
  dsimp only
  generalize atoi (TextScanner.get cch "count") = count
  generalize replaceStr _ "<CR>" "" = text
  split_ifs with hnumber hguard hrefused
  · exact Keeps.refl hidle
  · exact Keeps.refl hidle
  · exact Keeps.refl hidle
  · split
    · next w b _ _ =>
        have hfresh := @Keeps.freshen env s hidle w
        split
        · next block hblock =>
            split
            · next hbox =>
                exact hfresh.trans (putGift_keeps hfresh.idle hblock hbox hn
                  (by omega) (by omega) _ text)
            · exact hfresh
        · exact hfresh
    · exact Keeps.refl hidle

/-- What the loops leave of a session: some gifts of one box have gone to the
player. -/
structure Took (env : Env) (w b : Nat) (block : WorldBlock) (s t : Session)
    (rest : List Donate) : Prop where
  idle : Idle t.pl
  items : ∀ id, (giftBook env id).held t = (giftBook env id).held s
  worlds : t.worlds =
    (s.mapBlock w b fun block => { block with donates := rest }).worlds
  fewer : block.donates = [] → rest = []

theorem Took.getBlock (htook : Took env w b block s t rest)
    (hblock : s.block? w b = some block) :
    t.block? w b = some { block with donates := rest } := by
  unfold Session.block?
  rw [htook.worlds]
  exact Session.block?_mapBlock hblock _

theorem mapBlock_worlds {f g : WorldBlock → WorldBlock}
    (hworlds : t.worlds = (s.mapBlock w b f).worlds) :
    (t.mapBlock w b g).worlds =
      (s.mapBlock w b fun block => g (f block)).worlds := by
  simp only [Session.mapBlock, Session.mapWorld] at hworlds ⊢
  rw [hworlds, List.modify_modify_eq]
  congr 1
  funext world
  simp only [Function.comp_apply, List.modify_modify_eq]
  rfl

/-- One gift goes to the player. -/
theorem Took.erase (htook : Took env w b block s t rest)
    (hblock : s.block? w b = some block) (hbox : isDonation env block = true)
    {i : Nat} {donate : Donate} (hget : rest[i]? = some donate)
    {next : Player} (hgiven : Given t.pl donate.item donate.count next) :
    Took env w b block s
      (Session.mapBlock w b
        (fun block => { block with donates := block.donates.eraseIdx i })
        { t with pl := next })
      (rest.eraseIdx i) where
  idle := htook.idle.of_given hgiven
  items id := by
    have hthere : Session.block? { t with pl := next } w b =
      some { block with donates := rest } := htook.getBlock hblock
    have hstays : isDonation env { block with donates := rest } = true := hbox
    have hstays' : isDonation env
      { block with donates := rest.eraseIdx i } = true := hbox
    have hgifts : giftTotal id (rest.eraseIdx i) = giftTotal id rest -
      if donate.item = id then donate.count else 0 := worth_eraseIdx _ hget
    have htaken := @itemBook_given (fun id => blocksOf (boxGifts env id)) _ _ _
      _ hgiven id
    rw [giftBook_mapBlock hthere, ← htook.items id]
    simp only [boxGifts, hstays, hstays', ↓reduceIte, hgifts]
    simp only [giftBook, htaken]
    split <;> omega
  worlds := mapBlock_worlds (t := { t with pl := next }) htook.worlds
  fewer hempty := by rw [htook.fewer hempty, List.eraseIdx_nil]

theorem takeBody_took (chosen : Nat → Option Bool)
    (hblock : s.block? w b = some block) (hbox : isDonation env block = true)
    (st : Taking)
    (hst : ∃ rest, Took env w b block s st.session rest ∧
      (st.thrown = true → rest ≠ [])) :
    ∃ rest, Took env w b block s (takeBody env w b chosen st).state.session
        rest ∧
      ((takeBody env w b chosen st).state.thrown = true → rest ≠ []) := by
  obtain ⟨rest, htook, hthrown⟩ := hst
  have hthere := htook.getBlock hblock
  unfold takeBody
  rw [hthere]
  dsimp only [Option.bind_some]
  cases hget : rest[st.i]? with
  | none => exact ⟨rest, htook, hthrown⟩
  | some donate =>
      have hnonempty : rest ≠ [] := by
        rintro rfl
        simp at hget
      dsimp only
      cases chosen st.remove with
      | none => exact ⟨rest, htook, fun _ => hnonempty⟩
      | some take =>
          cases take with
          | false => exact ⟨rest, htook, fun _ => hnonempty⟩
          | true =>
              dsimp only
              rcases @Idle.modify_moves env st.session htook.idle donate.item
                donate.count with
                ⟨next, left, hmodify, hgiven⟩ | ⟨left, hmodify⟩
              · rw [hmodify]
                exact ⟨rest.eraseIdx st.i, htook.erase hblock hbox hget hgiven,
                  fun hthrown => absurd hthrown Bool.false_ne_true⟩
              · rw [hmodify]
                exact ⟨rest, htook, fun _ => hnonempty⟩

theorem takeLoop_took (chosen : Nat → Option Bool) (hidle : Idle s.pl)
    (hblock : s.block? w b = some block) (hbox : isDonation env block = true) :
    ∃ rest, Took env w b block s (takeLoop env w b chosen block s).session
        rest ∧
      ((takeLoop env w b chosen block s).thrown = true → rest ≠ []) := by
  refine run_invariant (fun st => ∃ rest, Took env w b block s st.session rest ∧
    (st.thrown = true → rest ≠ []))
    (fun st hst => takeBody_took chosen hblock hbox st hst) _ ?_
  refine ⟨block.donates, ⟨hidle, fun _ => rfl, ?_, fun hempty => hempty⟩,
    fun hthrown => absurd hthrown Bool.false_ne_true⟩
  obtain ⟨world, hworld, hget⟩ := Session.block?_eq_some hblock
  refine (modify_fixed hworld ?_).symm
  rw [modify_fixed hget rfl]

theorem labelled_of_block
    (hall : ∀ world ∈ s.worlds, ∀ block ∈ world.blocks, Labelled env block)
    (hblock : s.block? w b = some block) : Labelled env block := by
  obtain ⟨world, hworld, hget⟩ := Session.block?_eq_some hblock
  exact hall world (List.mem_of_getElem? hworld) block
    (List.mem_of_getElem? hget)

/-- A box with gifts left still looks full. -/
theorem Labelled.keep (hlabelled : Labelled env block)
    (hfewer : block.donates = [] → rest = []) (hrest : rest ≠ []) :
    Labelled env { block with donates := rest } := by
  intro hbox
  have hfull := (hlabelled hbox).mpr fun hempty => hrest (hfewer hempty)
  simp [hfull, hrest]

theorem Labelled.clearFull (hlabelled : Labelled env block)
    (hfewer : block.donates = [] → rest = []) :
    Labelled env (clearFull { block with donates := rest }) := by
  unfold DonationBox.clearFull
  by_cases hrest : rest = []
  · by_cases hflag : flagSet block.flags fullFlag = true
    · rw [if_pos ⟨hrest, hflag⟩]
      have hclear : flagSet (block.flags - fullFlag) fullFlag = false := by
        simp only [flagSet, fullFlag, beq_iff_eq, beq_eq_false_iff_ne,
          ne_eq] at hflag ⊢
        omega
      intro _
      simp [hrest, hclear]
    · rw [if_neg fun hboth => hflag hboth.2]
      intro _
      simp [hrest, hflag]
  · rw [if_neg fun hboth => hrest hboth.1]
    exact hlabelled.keep hfewer hrest

theorem boxGifts_clearFull (id : Int) (block : WorldBlock) :
    boxGifts env id (clearFull block) = boxGifts env id block := by
  unfold clearFull
  split <;> rfl

/-- Whatever the loop took, the box looks full exactly when something is left;
an exception leaves the loop only in front of a gift. -/
theorem takeGifts_keeps (hidle : Idle s.pl) (chosen : Nat → Option Bool) :
    Keeps env s (takeGifts env guilds chosen s) := by
  unfold takeGifts
  split
  · next w b _ _ =>
      have hfresh := @Keeps.freshen env s hidle w
      dsimp only
      split
      · next world block _ hblock =>
          split
          · exact hfresh
          · next hopen =>
              have hbox : isDonation env block = true := by
                cases hcase : isDonation env block with
                | true => rfl
                | false => exact absurd (Or.inr hcase) hopen
              obtain ⟨rest, htook, hthrown⟩ := takeLoop_took chosen hfresh.idle
                hblock hbox
              refine hfresh.trans ?_
              split
              · next hleft =>
                  refine ⟨htook.idle, htook.items, fun hall => ?_⟩
                  rw [htook.worlds]
                  exact forall_blocks_mapBlock hall hblock
                    ((labelled_of_block hall hblock).keep htook.fewer
                      (hthrown hleft))
              · refine ⟨htook.idle, fun id => ?_, fun hall => ?_⟩
                · rw [giftBook_mapBlock (htook.getBlock hblock), htook.items,
                    boxGifts_clearFull, Int.sub_self, Int.add_zero]
                · rw [mapBlock_worlds htook.worlds]
                  exact forall_blocks_mapBlock hall hblock
                    ((labelled_of_block hall hblock).clearFull htook.fewer)
      · exact hfresh
  · exact Keeps.refl hidle

/-- One message. -/
theorem donationBoxEdit_keeps (hidle : Idle s.pl) (cch : String) :
    Keeps env s (donationBoxEdit env guilds cch s) := by
  unfold donationBoxEdit
  cases TextScanner.tryGet cch "itemid" with
  | some value =>
      cases hvalue : stoi value with
      | some item => simpa [hvalue] using chooseItem_keeps hidle item
      | none => simpa [hvalue] using Keeps.refl hidle
  | none =>
      cases TextScanner.tryGet cch "buttonClicked" with
      | none => exact Keeps.refl hidle
      | some button =>
          dsimp only
          split_ifs
          · exact give_keeps hidle cch
          · unfold clearSelected
            split
            · exact Keeps.refl hidle
            · exact takeGifts_keeps hidle _
          · exact takeGifts_keeps hidle _
          · exact Keeps.refl hidle

end Messages

section Runs

variable (env : Env) (guilds : List Guild)

/-- A `donation_box_edit` message of some player, or a player wrenches some
block. -/
inductive Step : Server → Server → Prop where
  | message (server : Server) (peer : Nat) (now : Int) (cch : String) :
      Step server (server.serve peer now (donationBoxEdit env guilds cch))
  | wrench (server : Server) (peer : Nat) (now x y b : Int) :
      Step server (server.serve peer now fun s => s.mapPlayer fun pl =>
        { pl with lastwrenchx := x, lastwrenchy := y, lastwrenchb := b })

variable {env guilds} {start server : Server}

/-- What holds in every state of a run. -/
structure Sound (env : Env) (start server : Server) : Prop where
  idle : ∀ pl ∈ server.players, Idle pl
  items : ∀ id, (giftBook env id).total server = (giftBook env id).total start
  labelled : ∀ world ∈ server.worlds, ∀ block ∈ world.blocks,
    Labelled env block

theorem Sound.serve (hsound : Sound env start server) {peer : Nat} {now : Int}
    {handler : Session → Session}
    (hkeeps : ∀ s, Idle s.pl → Keeps env s (handler s)) :
    Sound env start (server.serve peer now handler) := by
  have hone : ∀ pl, server.players[peer]? = some pl → Keeps env _ _ :=
    fun pl hpeer => hkeeps (server.session pl now)
      (hsound.idle pl (List.mem_of_getElem? hpeer))
  refine ⟨?_, fun id => ?_, ?_⟩
  · exact Server.serve_players hsound.idle fun pl hpeer => (hone pl hpeer).idle
  · rw [(giftBook env id).total_serve _ peer now _ fun pl hpeer =>
      (hone pl hpeer).items id]
    exact hsound.items id
  · exact Server.serve_worlds (P := fun worlds =>
      ∀ world ∈ worlds, ∀ block ∈ world.blocks, Labelled env block)
      hsound.labelled fun pl hpeer => (hone pl hpeer).labelled hsound.labelled

/-- Over every run, by players without infinite mode, automatic conversion and
automatic sale of fish, every item is conserved and every box looks full exactly
when it holds a gift. -/
theorem donation_runs_conserve (hidle : ∀ pl ∈ start.players, Idle pl)
    (hlabelled : ∀ world ∈ start.worlds, ∀ block ∈ world.blocks,
      Labelled env block)
    (hrun : Relation.ReflTransGen (Step env guilds) start server) :
    (∀ id, (giftBook env id).total server = (giftBook env id).total start) ∧
      ∀ world ∈ server.worlds, ∀ block ∈ world.blocks,
        isDonation env block = true →
          (flagSet block.flags 0x00400000 = true ↔ block.donates ≠ []) := by
  suffices hsound : Sound env start server from
    ⟨hsound.items, hsound.labelled⟩
  induction hrun with
  | refl => exact ⟨hidle, fun _ => rfl, hlabelled⟩
  | tail _ hlast ih =>
      cases hlast with
      | message peer now cch =>
          exact ih.serve fun s hs => donationBoxEdit_keeps hs cch
      | wrench peer now x y b =>
          exact ih.serve fun s hs => ⟨hs.congr rfl rfl rfl rfl, fun _ => rfl,
            fun hall => hall⟩

/-- A table with one kind of donation box. -/
def boxEnv : Env where
  items := ⟨10000, fun id => if id = 1452 then { blockType := .donation } else {}⟩

/-- A player at an empty donation box, with five dirt blocks. -/
def giver (infinite : Bool) : Server where
  players := [{ tankIDName := "giver", inv := [(2, 5), (0, 0)]
                world := "START", lastwrenchb := 1452, lastchoosenitem := 2
                infiniteMode := infinite }]
  worlds := [{ name := "START", blocks := [{ fg := 1452 }] }]

theorem giver_labelled (infinite : Bool) :
    ∀ world ∈ (giver infinite).worlds, ∀ block ∈ world.blocks,
      Labelled boxEnv block := by
  intro world hworld
  rw [List.mem_singleton.mp hworld]
  intro block hblock
  rw [List.mem_singleton.mp hblock]
  intro _
  decide

def giveMessage : String := "buttonClicked|give\ncount|2\nsign_text|for you"

/-- A gift made in infinite mode is recorded and not taken. -/
theorem infinite_gift_not_conserved :
    ¬ ∀ (env : Env) (guilds : List Guild) (start server : Server),
      (∀ pl ∈ start.players, SlotInv pl.inv) →
      (∀ world ∈ start.worlds, ∀ block ∈ world.blocks, Labelled env block) →
      Relation.ReflTransGen (Step env guilds) start server →
      ∀ id, (giftBook env id).total server = (giftBook env id).total start := by
  intro hall
  have hslots : ∀ pl ∈ (giver true).players, SlotInv pl.inv := by
    intro pl hpl
    rw [List.mem_singleton.mp hpl]
    decide
  have hgift := hall boxEnv [] (giver true) _ hslots (giver_labelled true)
    (.single (.message _ 0 0 giveMessage)) 2
  exact absurd hgift (by decide +kernel)

/-- A gift is given and taken back. -/
theorem give_and_takeall :
    let given := (giver false).serve 0 0 (donationBoxEdit boxEnv [] giveMessage)
    let taken := given.serve 0 0
      (donationBoxEdit boxEnv [] "buttonClicked|takeall")
    given.players.map Player.inv = [[(2, 3), (0, 0)]] ∧
      (giftBook boxEnv 2).total given = (giftBook boxEnv 2).total (giver false) ∧
      taken.players.map Player.inv = [[(2, 5), (0, 0)]] ∧
      (giftBook boxEnv 2).total taken = (giftBook boxEnv 2).total (giver false) := by
  have hidle : ∀ pl ∈ (giver false).players, Idle pl := by
    intro pl hpl
    rw [List.mem_singleton.mp hpl]
    exact ⟨⟨by decide, rfl, rfl⟩, rfl⟩
  have hruns := fun server => @donation_runs_conserve boxEnv [] (giver false)
    server hidle (giver_labelled false)
  have hgive := Relation.ReflTransGen.single
    (@Step.message boxEnv [] (giver false) 0 0 giveMessage)
  refine ⟨by decide +kernel, (hruns _ hgive).1 2, by decide +kernel, ?_⟩
  exact (hruns _ (hgive.tail (.message _ 0 0 "buttonClicked|takeall"))).1 2

end Runs

end DonationBox

end NopyServer
