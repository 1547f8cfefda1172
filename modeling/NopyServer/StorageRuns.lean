/-
What runs of `storageboxxtreme` messages keep.  Showing a box throws keys away;
every other item is conserved between backpacks and boxes, and no stack is ever
empty.  The index a player remembers after picking a stack stays right as long
as nobody empties a stack at or before it.
-/
import NopyServer.BoxLedger
import NopyServer.StorageBox

namespace NopyServer

namespace StorageBox

open Inventory SlotPack Ledger

/-- How many of an item some stacks hold. -/
def stackTotal (id : Int) (sbox1 : List WorldSBOX1) : Int :=
  worth (fun entry => if entry.id = id then entry.count else 0) sbox1

/-- No stack is empty. -/
def Stocked (sbox1 : List WorldSBOX1) : Prop := ∀ entry ∈ sbox1, 1 ≤ entry.count

section Stacks

variable {x y item count id : Int} {sbox1 : List WorldSBOX1} {n m : Nat}
  {entry other : WorldSBOX1}

theorem isStack_id (hstack : isStack x y item entry = true) :
    entry.id = item := by
  simp only [isStack, Bool.and_eq_true, beq_iff_eq] at hstack
  exact hstack.2

theorem stackTotal_store :
    stackTotal id (store x y item count sbox1) =
      stackTotal id sbox1 + if item = id then count else 0 := by
  induction sbox1 with
  | nil => simp [store, stackTotal]
  | cons entry rest ih =>
      simp only [stackTotal] at ih ⊢
      unfold store
      split
      · next hfit =>
          have hid := isStack_id hfit.1
          simp only [worth_cons, hid]
          split <;> omega
      · simp only [worth_cons, ih]
        omega

theorem stocked_store (hstocked : Stocked sbox1) (hpos : 0 < count) :
    Stocked (store x y item count sbox1) := by
  induction sbox1 with
  | nil =>
      intro entry hentry
      rw [store, List.mem_singleton] at hentry
      rw [hentry]
      exact hpos
  | cons first rest ih =>
      have hfirst := hstocked first (List.mem_cons_self ..)
      have hrest : Stocked rest := fun entry hentry =>
        hstocked entry (List.mem_cons_of_mem _ hentry)
      unfold store
      split
      · intro entry hentry
        rcases List.mem_cons.mp hentry with rfl | hentry
        · change 1 ≤ first.count + count
          omega
        · exact hrest entry hentry
      · intro entry hentry
        rcases List.mem_cons.mp hentry with rfl | hentry
        · exact hfirst
        · exact ih hrest entry hentry

/-- Storing leaves every stack where it is. -/
theorem store_getElem? (hget : sbox1[n]? = some entry) :
    ∃ next, (store x y item count sbox1)[n]? = some next ∧
      next.id = entry.id := by
  induction sbox1 generalizing n with
  | nil => simp at hget
  | cons first rest ih =>
      unfold store
      cases n with
      | zero =>
          simp only [List.getElem?_cons_zero, Option.some.injEq] at hget
          subst hget
          split
          · exact ⟨_, rfl, rfl⟩
          · exact ⟨_, rfl, rfl⟩
      | succ n =>
          simp only [List.getElem?_cons_succ] at hget
          split
          · exact ⟨entry, by simpa using hget, rfl⟩
          · exact ih hget

theorem stackTotal_withdraw (hget : sbox1[n]? = some entry)
    (hle : count ≤ entry.count) :
    stackTotal id (withdraw n count sbox1) =
      stackTotal id sbox1 - if entry.id = id then count else 0 := by
  unfold withdraw stackTotal
  rw [hget]
  dsimp only
  split
  · next hempty =>
      rw [worth_eraseIdx _ hget]
      have hall : entry.count = count := by omega
      rw [hall]
  · rw [worth_set _ hget]
    dsimp only
    split <;> omega

theorem stocked_withdraw (hstocked : Stocked sbox1) :
    Stocked (withdraw n count sbox1) := by
  unfold withdraw
  split
  · exact hstocked
  · split
    · exact fun entry hentry => hstocked entry (List.mem_of_mem_eraseIdx hentry)
    · next entry hget hleft =>
        intro other hother
        rcases List.mem_or_eq_of_mem_set hother with hold | rfl
        · exact hstocked other hold
        · change 1 ≤ entry.count - count
          omega

/-- Taking from a stack leaves every other stack where it is, unless a stack
before it goes. -/
theorem withdraw_getElem? (hget : sbox1[n]? = some entry)
    (hother : sbox1[m]? = some other) (hle : count ≤ entry.count)
    (hkeep : count = entry.count → m < n) :
    ∃ next, (withdraw n count sbox1)[m]? = some next ∧
      next.id = other.id := by
  unfold withdraw
  rw [hget]
  dsimp only
  split
  · next hempty =>
      have hbefore := hkeep (by omega)
      exact ⟨other, by rw [List.getElem?_eraseIdx_of_lt hbefore, hother], rfl⟩
  · by_cases hsame : n = m
    · subst hsame
      rw [hget] at hother
      obtain rfl := Option.some.inj hother
      have hlt := (List.getElem?_eq_some_iff.mp hget).1
      exact ⟨_, List.getElem?_set_self hlt, rfl⟩
    · exact ⟨other, by rw [List.getElem?_set_ne hsame, hother], rfl⟩

/-- The loop after a list button ends at the last stack of the item, or leaves
the index alone when there is none. -/
theorem pickStack_spec (x y id : Int) (sbox1 : List WorldSBOX1) (i : Nat)
    (lastchoosennr : Int) :
    (sbox1.any (isStack x y id) = false ∧
      pickStack x y id sbox1 i lastchoosennr = lastchoosennr) ∨
    (sbox1.any (isStack x y id) = true ∧ ∃ k entry,
      sbox1[k]? = some entry ∧ entry.id = id ∧
        pickStack x y id sbox1 i lastchoosennr = ((i + k : Nat) : Int)) := by
  induction sbox1 generalizing i lastchoosennr with
  | nil => exact Or.inl ⟨rfl, rfl⟩
  | cons first rest ih =>
      unfold pickStack
      rcases ih (i + 1) (if isStack x y id first then i else lastchoosennr) with
        ⟨hnone, hsame⟩ | ⟨hsome, k, entry, hget, hid, hpick⟩
      · rw [hsame]
        by_cases hfirst : isStack x y id first = true
        · refine Or.inr ⟨by simp [hfirst], 0, first, rfl, isStack_id hfirst, ?_⟩
          rw [if_pos hfirst, Nat.add_zero]
        · refine Or.inl ⟨by simp [hfirst, hnone], ?_⟩
          rw [if_neg hfirst]
      · refine Or.inr ⟨by simp [hsome], k + 1, entry, by simpa using hget, hid, ?_⟩
        rw [hpick]
        push_cast
        omega

end Stacks

/-- The stacks of every world. -/
def boxes (worlds : List World) : List (List WorldSBOX1) :=
  worlds.map World.sbox1

theorem boxes_mapWorld {s : Session} {w : Nat} {f : World → World}
    {next : List WorldSBOX1 → List WorldSBOX1}
    (hf : ∀ world, (f world).sbox1 = next world.sbox1) :
    boxes (s.mapWorld w f).worlds = (boxes s.worlds).modify w next :=
  map_modify f World.sbox1 next hf s.worlds w

/-- What no message changes. -/
structure Frame (s t : Session) : Prop where
  idle : Idle t.pl
  world : t.pl.world = s.pl.world
  names : t.worlds.map World.name = s.worlds.map World.name

theorem Frame.trans {s t u : Session} (hst : Frame s t) (htu : Frame t u) :
    Frame s u :=
  ⟨htu.idle, htu.world.trans hst.world, htu.names.trans hst.names⟩

theorem Frame.mapWorld {s : Session} (hidle : Idle s.pl) (w : Nat)
    {f : World → World} (hname : ∀ world, (f world).name = world.name) :
    Frame s (s.mapWorld w f) :=
  ⟨hidle, rfl, Ledger.map_modify_kept fun world _ => hname world⟩

theorem Frame.freshen {s : Session} (hidle : Idle s.pl) (w : Nat) :
    Frame s (s.freshen w) :=
  Frame.mapWorld hidle w fun _ => rfl

theorem Frame.given {s : Session} {i c : Int} {next : Player}
    (hidle : Idle s.pl) (hgiven : Given s.pl i c next) :
    Frame s { s with pl := next } :=
  ⟨hidle.of_given hgiven,
    Player.core_congr hgiven.core Player.world fun _ => rfl, rfl⟩

/-- The number that a message of a `do_take` asks for. -/
def takes (cch : String) : Option Int :=
  if TextScanner.tryGet cch "itemid" = none ∧
      TextScanner.tryGet cch "buttonClicked" = some "do_take" then
    takeCount cch
  else none

/-- The item whose stack a message picks from the list. -/
def selects (env : Env) (guilds : List Guild) (cch : String) (s : Session) :
    Option Int :=
  match TextScanner.tryGet cch "itemid",
      TextScanner.tryGet cch "buttonClicked", s.findWorld s.pl.world with
  | none, some button, some w =>
      let s := s.freshen w
      match boxAt env w s with
      | some (world, block) =>
          if textFind button "searchableItemListButton" then
            (shown env guilds world block button s.pl).filter fun id =>
              world.sbox1.any (isStack s.pl.lastwrenchx s.pl.lastwrenchy id)
          else none
      | none => none
  | _, _, _ => none

/-- What a message can do to a player and to the stacks: nothing that matters
here, pick a stack, store some items, or take some. -/
inductive Effect (selected asked : Option Int) (found : Option Nat)
    (pl next : Player) (old new : List (List WorldSBOX1)) : Prop where
  | kept (hselected : selected = none) (hboxes : new = old)
      (hnr : next.lastchoosennr = pl.lastchoosennr)
      (hamount : ∀ id, id ∉ keyIds → total id next.inv = total id pl.inv)
      (hinv : asked ≠ none → next.inv = pl.inv)
  | picked (w nr : Nat) (sbox1 : List WorldSBOX1) (entry : WorldSBOX1)
      (hselected : selected = some entry.id) (hfound : found = some w)
      (hbox : old[w]? = some sbox1) (hentry : sbox1[nr]? = some entry)
      (hboxes : new = old) (hnr : next.lastchoosennr = nr)
      (hinv : next.inv = pl.inv)
  | stored (w : Nat) (sbox1 : List WorldSBOX1) (x y item count : Int)
      (hselected : selected = none) (hasked : asked = none) (hpos : 0 < count)
      (hbox : old[w]? = some sbox1)
      (hboxes : new = old.modify w (store x y item count))
      (hnr : next.lastchoosennr = pl.lastchoosennr)
      (hamount : ∀ id, id ∉ keyIds →
        total id next.inv = total id pl.inv - if item = id then count else 0)
  | taken (w nr : Nat) (sbox1 : List WorldSBOX1) (entry : WorldSBOX1)
      (count : Int) (hselected : selected = none) (hasked : asked = some count)
      (hfound : found = some w) (hbox : old[w]? = some sbox1)
      (hentry : sbox1[nr]? = some entry) (hold : pl.lastchoosennr = nr)
      (hle : count ≤ entry.count) (hboxes : new = old.modify w (withdraw nr count))
      (hnr : next.lastchoosennr = pl.lastchoosennr)
      (hgiven : Given pl entry.id count next)

section Effects

variable {selected asked : Option Int} {found : Option Nat} {pl next : Player}
  {old new : List (List WorldSBOX1)}

theorem Effect.conserves {id : Int} (hid : id ∉ keyIds)
    (heffect : Effect selected asked found pl next old new) :
    total id next.inv + worth (stackTotal id) new =
      total id pl.inv + worth (stackTotal id) old := by
  cases heffect with
  | kept _ hboxes _ hamount _ => rw [hboxes, hamount id hid]
  | picked _ _ _ _ _ _ _ _ hboxes _ hinv => rw [hboxes, hinv]
  | stored w sbox1 x y item count _ _ _ hbox hboxes _ hamount =>
      rw [hboxes, hamount id hid, worth_modify _ _ hbox, stackTotal_store]
      omega
  | taken w nr sbox1 entry count _ _ _ hbox hentry _ hle hboxes _ hgiven =>
      rw [hboxes, hgiven.amount, worth_modify _ _ hbox,
        stackTotal_withdraw hentry hle]
      omega

theorem Effect.stocked (hold : ∀ sbox1 ∈ old, Stocked sbox1)
    (heffect : Effect selected asked found pl next old new) :
    ∀ sbox1 ∈ new, Stocked sbox1 := by
  cases heffect with
  | kept _ hboxes => exact hboxes ▸ hold
  | picked _ _ _ _ _ _ _ _ hboxes => exact hboxes ▸ hold
  | stored w _ x y item count _ _ hpos _ hboxes =>
      rw [hboxes]
      exact forall_mem_modify hold fun sbox1 hget =>
        stocked_store (hold sbox1 (List.mem_of_getElem? hget)) hpos
  | taken w nr _ _ count _ _ _ _ _ _ _ hboxes =>
      rw [hboxes]
      exact forall_mem_modify hold fun sbox1 hget =>
        stocked_withdraw (hold sbox1 (List.mem_of_getElem? hget))

/-- The item at an index of the stacks of a world. -/
def ItemAt (all : List (List WorldSBOX1)) (w n : Nat) (id : Int) : Prop :=
  ∃ sbox1 entry, all[w]? = some sbox1 ∧ sbox1[n]? = some entry ∧ entry.id = id

/-- A change of the stacks of one world that leaves the item at an index. -/
theorem ItemAt.modify {all : List (List WorldSBOX1)} {w v n : Nat} {id : Int}
    {f : List WorldSBOX1 → List WorldSBOX1} (hitem : ItemAt all w n id)
    (hf : ∀ sbox1 entry, v = w → all[v]? = some sbox1 →
      sbox1[n]? = some entry →
      ∃ next, (f sbox1)[n]? = some next ∧ next.id = entry.id) :
    ItemAt (all.modify v f) w n id := by
  obtain ⟨sbox1, entry, hbox, hentry, hid⟩ := hitem
  by_cases hsame : v = w
  · obtain ⟨next, hnext, hnextid⟩ := hf sbox1 entry hsame (hsame ▸ hbox) hentry
    subst hsame
    refine ⟨f sbox1, next, ?_, hnext, hnextid.trans hid⟩
    rw [List.getElem?_modify_eq, hbox]
    rfl
  · refine ⟨sbox1, entry, ?_, hentry, hid⟩
    rw [List.getElem?_modify_ne f all hsame, hbox]

/-- The item at an index stays there unless a `do_take` asks for the whole of a
stack at or before it. -/
theorem Effect.itemAt {w n : Nat} {id : Int} (hitem : ItemAt old w n id)
    (hspares : ∀ nr sbox1 entry, asked = some entry.count → found = some w →
      pl.lastchoosennr = (nr : Nat) → old[w]? = some sbox1 →
      sbox1[nr]? = some entry → n < nr)
    (heffect : Effect selected asked found pl next old new) :
    ItemAt new w n id := by
  cases heffect with
  | kept _ hboxes => exact hboxes ▸ hitem
  | picked _ _ _ _ _ _ _ _ hboxes => exact hboxes ▸ hitem
  | stored v sbox1 x y item count _ _ _ _ hboxes =>
      rw [hboxes]
      exact hitem.modify fun _ _ _ _ hentry => store_getElem? hentry
  | taken v nr sbox1 entry count _ hasked hfound hbox hentry hold hle hboxes =>
      rw [hboxes]
      refine hitem.modify fun sbox1' other hsame hbox' hother => ?_
      obtain rfl := Option.some.inj (hbox.symm.trans hbox')
      refine withdraw_getElem? hentry hother hle fun hall => ?_
      exact hspares nr sbox1 entry (hall ▸ hasked) (hsame ▸ hfound) hold
        (hsame ▸ hbox) hentry

end Effects

section Handlers

variable {env : Env} {guilds : List Guild} {s : Session}

theorem boxes_freshen (w : Nat) :
    boxes (s.freshen w).worlds = boxes s.worlds := by
  have hboxes := @boxes_mapWorld s w
    (fun world => { world with freshWorld := true }) id fun _ => rfl
  rwa [List.modify_id] at hboxes

theorem discard_given (hidle : Idle s.pl) (id : Int) :
    ∃ n next, discard env id s = { s with pl := next } ∧
      Given s.pl id n next := by
  obtain ⟨n, hask, -⟩ := @Idle.modify_ask env s hidle id
  unfold discard
  rw [hask]
  dsimp only
  rcases @Idle.modify_moves env s hidle id (n * -1) with
    ⟨next, left, hmodify, hgiven⟩ | ⟨left, hmodify⟩
  · exact ⟨n * -1, next, by rw [hmodify], hgiven⟩
  · exact ⟨0, s.pl, by rw [hmodify], Given.refl id hidle.slots⟩

theorem showBox_effect (hidle : Idle s.pl) (w : Nat) :
    Frame s (showBox env w s) ∧
      boxes (showBox env w s).worlds = boxes s.worlds ∧
      (showBox env w s).pl.lastchoosennr = s.pl.lastchoosennr ∧
      ∀ id, id ∉ keyIds → total id (showBox env w s).pl.inv =
        total id s.pl.inv := by
  have hfresh := Frame.freshen hidle w
  have hpl : (s.freshen w).pl = s.pl := rfl
  have hboxes := @boxes_freshen s w
  unfold showBox
  generalize s.freshen w = mid at hfresh hpl hboxes ⊢
  obtain ⟨n, first, hfirst, hgiven⟩ := @discard_given env mid hfresh.idle 1424
  have hframe := hfresh.trans (Frame.given hfresh.idle hgiven)
  obtain ⟨m, second, hsecond, hgiven'⟩ :=
    @discard_given env { mid with pl := first } hframe.idle 5816
  rw [hfirst, hsecond]
  refine ⟨hframe.trans (Frame.given hframe.idle hgiven'), hboxes, ?_, ?_⟩
  · have hone := Player.core_congr hgiven.core Player.lastchoosennr fun _ => rfl
    have htwo := Player.core_congr hgiven'.core Player.lastchoosennr fun _ => rfl
    exact (htwo.trans hone).trans (congrArg Player.lastchoosennr hpl)
  · intro id hid
    simp only [keyIds, List.mem_cons, List.not_mem_nil, or_false,
      not_or] at hid
    have hone := hgiven.amount id
    have htwo := hgiven'.amount id
    rw [if_neg (Ne.symm hid.1), hpl] at hone
    rw [if_neg (Ne.symm hid.2)] at htwo
    dsimp only at htwo ⊢
    omega

/-- A handler acts on a session by one of the effects. -/
structure Acts (selected asked : Option Int) (s t : Session) : Prop where
  frame : Frame s t
  effect : Effect selected asked (s.findWorld s.pl.world) s.pl t.pl
    (boxes s.worlds) (boxes t.worlds)

theorem Acts.refl (asked : Option Int) (hidle : Idle s.pl) :
    Acts none asked s s :=
  ⟨⟨hidle, rfl, rfl⟩, .kept rfl rfl rfl (fun _ _ => rfl) fun _ => rfl⟩

theorem Acts.showBox (hidle : Idle s.pl) (w : Nat) :
    Acts none none s (showBox env w s) := by
  obtain ⟨hframe, hboxes, hnr, hamount⟩ := @showBox_effect env s hidle w
  exact ⟨hframe, .kept rfl hboxes hnr hamount fun hne => absurd rfl hne⟩

theorem chooseItem_acts (asked : Option Int) (hidle : Idle s.pl) (item : Int) :
    Acts none asked s (chooseItem env item s) := by
  unfold chooseItem
  split_ifs
  · exact Acts.refl asked hidle
  · exact Acts.refl asked hidle
  · exact Acts.refl asked hidle
  · exact Acts.refl asked hidle
  · exact ⟨⟨hidle.congr rfl rfl rfl rfl, rfl, rfl⟩,
      .kept rfl rfl rfl (fun _ _ => rfl) fun _ => rfl⟩

theorem pick_acts (asked : Option Int) (hidle : Idle s.pl) {w : Nat}
    (hfound : s.findWorld s.pl.world = some w) {world : World}
    (hworld : s.worlds[w]? = some world) (block : WorldBlock)
    (button : String) :
    Acts ((shown env guilds world block button s.pl).filter fun id =>
        world.sbox1.any (isStack s.pl.lastwrenchx s.pl.lastwrenchy id))
      asked s (pick env guilds world block button s) := by
  unfold pick
  cases hshown : shown env guilds world block button s.pl with
  | none => exact Acts.refl asked hidle
  | some id =>
      refine ⟨⟨hidle.congr rfl rfl rfl rfl, rfl, rfl⟩, ?_⟩
      have hbox : (boxes s.worlds)[w]? = some world.sbox1 := by
        simp [boxes, hworld]
      rcases pickStack_spec s.pl.lastwrenchx s.pl.lastwrenchy id world.sbox1 0
        s.pl.lastchoosennr with
        ⟨hnone, hsame⟩ | ⟨hsome, k, entry, hget, hid, hpick⟩
      · exact .kept (by simp [Option.filter, hnone]) rfl hsame (fun _ _ => rfl)
          fun _ => rfl
      · refine .picked w k world.sbox1 entry (by simp [Option.filter, hsome, hid])
          hfound hbox hget rfl ?_ rfl
        rw [Nat.zero_add] at hpick
        exact hpick

theorem doTake_acts (hidle : Idle s.pl) {w : Nat}
    (hfound : s.findWorld s.pl.world = some w) {world : World}
    (hworld : s.worlds[w]? = some world) (block : WorldBlock) (cch : String) :
    Acts none (takeCount cch) s (doTake env guilds w world block cch s) := by
  unfold doTake
  split
  · next count _ hcount =>
      split
      · exact Acts.refl _ hidle
      · next hguard =>
          split
          · exact Acts.refl _ hidle
          · next entry hentry =>
              split
              · next haccess =>
                  dsimp only
                  rcases @Idle.modify_moves env s hidle entry.id count with
                    ⟨next, left, hmodify, hgiven⟩ | ⟨left, hmodify⟩
                  · rw [hmodify]
                    have hframe := Frame.given hidle hgiven
                    have hbox : (boxes s.worlds)[w]? = some world.sbox1 := by
                      simp [boxes, hworld]
                    refine ⟨hframe.trans (Frame.mapWorld hframe.idle w
                      fun _ => rfl), ?_⟩
                    exact .taken w s.pl.lastchoosennr.toNat world.sbox1 entry
                      count rfl hcount hfound hbox hentry (by omega)
                      haccess.2.2.2.2 (boxes_mapWorld fun _ => rfl)
                      (Player.core_congr hgiven.core Player.lastchoosennr
                        fun _ => rfl) hgiven
                  · rw [hmodify]
                    exact Acts.refl _ hidle
              · exact Acts.refl _ hidle
  · exact Acts.refl _ hidle

theorem doAdd_acts (hidle : Idle s.pl) {w : Nat}
    {world : World} (hworld : s.worlds[w]? = some world) (block : WorldBlock)
    (cch : String) : Acts none none s (doAdd env w world block cch s) := by
  obtain ⟨n, hask, hn⟩ := @Idle.modify_ask env s hidle s.pl.lastchoosenitem
  unfold doAdd
  dsimp only
  rw [hask]
  dsimp only
  split_ifs with hnumber hitem hrefused hcount hfull
  · exact Acts.refl _ hidle
  · exact Acts.refl _ hidle
  · exact Acts.refl _ hidle
  · exact Acts.refl _ hidle
  · exact Acts.refl _ hidle
  · obtain ⟨next, left, htake, hgiven⟩ := hidle.modify_take hn
      (by omega : 0 < atoi (TextScanner.get cch "itemcount")) (by omega)
    rw [Int.mul_neg_one, htake]
    have hframe := Frame.given hidle hgiven
    have hbox : (boxes s.worlds)[w]? = some world.sbox1 := by
      simp [boxes, hworld]
    generalize hstore : Session.mapWorld w _ { s with pl := next } = mid
    have hmid : Frame s mid := by
      rw [← hstore]
      exact hframe.trans (Frame.mapWorld hframe.idle w fun _ => rfl)
    obtain ⟨hshow, hboxes, hnr, hamount⟩ := @showBox_effect env mid hmid.idle w
    refine ⟨hmid.trans hshow, .stored w world.sbox1 next.lastwrenchx
      next.lastwrenchy s.pl.lastchoosenitem
      (atoi (TextScanner.get cch "itemcount")) rfl rfl (by omega) hbox ?_ ?_ ?_⟩
    · rw [hboxes, ← hstore]
      exact boxes_mapWorld fun _ => rfl
    · rw [hnr, ← hstore]
      exact Player.core_congr hgiven.core Player.lastchoosennr fun _ => rfl
    · intro id hid
      have hleft := hgiven.amount id
      rw [hamount id hid, ← hstore]
      change total id next.inv = _
      rw [hleft]
      split <;> omega

theorem Frame.findWorld {t : Session} (hframe : Frame s t) (name : String) :
    t.findWorld name = s.findWorld name := by
  rw [Session.findWorld_eq_names, Session.findWorld_eq_names, hframe.names]

/-- Marking the world as used comes before every button. -/
theorem Acts.of_freshen {selected asked : Option Int} {t : Session}
    (hidle : Idle s.pl) {w : Nat} (hacts : Acts selected asked (s.freshen w) t) :
    Acts selected asked s t := by
  have hfresh := Frame.freshen hidle w
  have heffect := hacts.effect
  rw [boxes_freshen, hfresh.findWorld] at heffect
  exact ⟨hfresh.trans hacts.frame, heffect⟩

theorem boxAt_world {w : Nat} {world : World} {block : WorldBlock}
    (hbox : boxAt env w s = some (world, block)) :
    s.worlds[w]? = some world := by
  unfold boxAt at hbox
  split at hbox
  · next hworld _ =>
      split at hbox
      · cases hbox
        exact hworld
      · cases hbox
  · cases hbox

theorem buttonClicked_acts (hidle : Idle s.pl) {w : Nat}
    (hfound : s.findWorld s.pl.world = some w) {world : World}
    (hworld : s.worlds[w]? = some world) (block : WorldBlock)
    (cch button : String) :
    Acts (if textFind button "searchableItemListButton" then
        (shown env guilds world block button s.pl).filter fun id =>
          world.sbox1.any (isStack s.pl.lastwrenchx s.pl.lastwrenchy id)
      else none)
      (if button = "do_take" then takeCount cch else none) s
      (buttonClicked env guilds w world block cch button s) := by
  unfold buttonClicked
  by_cases hcancel : button = "cancel"
  · subst hcancel
    rw [if_pos rfl, if_neg (by decide), if_neg (by decide)]
    split
    · exact Acts.showBox hidle w
    · exact Acts.refl _ hidle
  rw [if_neg hcancel]
  by_cases htake : button = "do_take"
  · subst htake
    rw [if_pos rfl, if_neg (by decide), if_pos rfl]
    exact doTake_acts hidle hfound hworld block cch
  rw [if_neg htake, if_neg htake]
  split
  · exact pick_acts _ hidle hfound hworld block button
  · split
    · exact doAdd_acts hidle hworld block cch
    · exact Acts.refl _ hidle

/-- One message. -/
theorem storageboxxtreme_acts (hidle : Idle s.pl) (cch : String) :
    Acts (selects env guilds cch s) (takes cch) s
      (storageboxxtreme env guilds cch s) := by
  unfold storageboxxtreme selects takes
  cases TextScanner.tryGet cch "itemid" with
  | some value =>
      cases hvalue : stoi value with
      | some item => simpa [hvalue] using chooseItem_acts none hidle item
      | none => simpa [hvalue] using Acts.refl none hidle
  | none =>
      cases TextScanner.tryGet cch "buttonClicked" with
      | none => exact Acts.refl _ hidle
      | some button =>
          cases hfound : s.findWorld s.pl.world with
          | none => exact Acts.refl _ hidle
          | some w =>
              apply Acts.of_freshen hidle
              simp only [Option.some.injEq, true_and]
              have hfresh := Frame.freshen hidle w
              rw [← hfresh.findWorld] at hfound
              rw [← hfresh.world] at hfound
              generalize s.freshen w = fresh at hfresh hfound ⊢
              cases hbox : boxAt env w fresh with
              | none => exact Acts.refl _ hfresh.idle
              | some box =>
                  obtain ⟨world, block⟩ := box
                  exact buttonClicked_acts hfresh.idle hfound
                    (boxAt_world hbox) block cch button

end Handlers

/-- The number of an item in backpacks and boxes. -/
def boxBook (id : Int) : Book :=
  itemBook (fun id world => stackTotal id world.sbox1) id

theorem boxBook_held (id : Int) (s : Session) :
    (boxBook id).held s =
      total id s.pl.inv + worth (stackTotal id) (boxes s.worlds) := by
  simp only [Book.held, boxBook, itemBook, boxes, worth, List.map_map]
  rfl

/-- Wrenching a block: the server remembers the tile and the block. -/
def wrench (x y b : Int) (s : Session) : Session :=
  s.mapPlayer fun pl =>
    { pl with lastwrenchx := x, lastwrenchy := y, lastwrenchb := b }

section Runs

variable (env : Env) (guilds : List Guild)

/-- A `storageboxxtreme` message of some player, or a player wrenches some
block. -/
inductive Step : Server → Server → Prop where
  | message (server : Server) (peer : Nat) (now : Int) (cch : String) :
      Step server (server.serve peer now (storageboxxtreme env guilds cch))
  | wrench (server : Server) (peer : Nat) (now x y b : Int) :
      Step server (server.serve peer now (wrench x y b))

/-- A message does not ask for the whole of a stack at or before an index of a
world. -/
def Spares (cch : String) (s : Session) (w n : Nat) : Prop :=
  ∀ (nr : Nat) (sbox1 : List WorldSBOX1) (entry : WorldSBOX1),
    takes cch = some entry.count → s.findWorld s.pl.world = some w →
    s.pl.lastchoosennr = nr → (boxes s.worlds)[w]? = some sbox1 →
    sbox1[nr]? = some entry → n < nr

/-- A run in which the stack that a player picked last is one of an item, and
in which since then nobody has asked for the whole of a stack at or before
it. -/
inductive Selected (start : Server) (peer : Nat) (id : Int) :
    Server → Prop where
  | pick (server : Server) (now : Int) (cch : String) (pl : Player)
      (hrun : Relation.ReflTransGen (Step env guilds) start server)
      (hpeer : server.players[peer]? = some pl)
      (hselects : selects env guilds cch (server.session pl now) = some id) :
      Selected start peer id
        (server.serve peer now (storageboxxtreme env guilds cch))
  | later (server : Server) (other : Nat) (now : Int) (cch : String)
      (hbefore : Selected start peer id server)
      (hnone : ∀ pl, server.players[other]? = some pl → other = peer →
        selects env guilds cch (server.session pl now) = none)
      (hspares : ∀ pl mine w, server.players[other]? = some pl →
        server.players[peer]? = some mine →
        (server.session mine now).findWorld mine.world = some w →
        Spares cch (server.session pl now) w mine.lastchoosennr.toNat) :
      Selected start peer id
        (server.serve other now (storageboxxtreme env guilds cch))
  | wrench (server : Server) (other : Nat) (now x y b : Int)
      (hbefore : Selected start peer id server) :
      Selected start peer id (server.serve other now (wrench x y b))

variable {env guilds} {start server : Server}

theorem Selected.run {peer : Nat} {id : Int}
    (hselected : Selected env guilds start peer id server) :
    Relation.ReflTransGen (Step env guilds) start server := by
  induction hselected with
  | pick server now cch pl hrun => exact hrun.tail (.message server peer now cch)
  | later server other now cch _ _ _ ih =>
      exact ih.tail (.message server other now cch)
  | wrench server other now x y b _ ih =>
      exact ih.tail (.wrench server other now x y b)

theorem wrench_acts {s : Session} (hidle : Idle s.pl) (x y b : Int) :
    Acts none none s (wrench x y b s) :=
  ⟨⟨hidle.congr rfl rfl rfl rfl, rfl, rfl⟩, .kept rfl rfl rfl (fun _ _ => rfl) fun _ => rfl⟩

/-- What holds in every state of a run. -/
structure Sound (start server : Server) : Prop where
  idle : ∀ pl ∈ server.players, Idle pl
  items : ∀ id, id ∉ keyIds →
    (boxBook id).total server = (boxBook id).total start
  stocked : ∀ world ∈ server.worlds, Stocked world.sbox1

theorem Sound.serve (hsound : Sound start server) {peer : Nat} {now : Int}
    {handler : Session → Session} {selected asked : Session → Option Int}
    (hacts : ∀ s, Idle s.pl → Acts (selected s) (asked s) s (handler s)) :
    Sound start (server.serve peer now handler) := by
  have hone : ∀ pl, server.players[peer]? = some pl → Acts _ _ _ _ :=
    fun pl hpeer => hacts (server.session pl now)
      (hsound.idle pl (List.mem_of_getElem? hpeer))
  refine ⟨?_, fun id hid => ?_, ?_⟩
  · exact Server.serve_players hsound.idle fun pl hpeer =>
      (hone pl hpeer).frame.idle
  · rw [(boxBook id).total_serve _ peer now _ fun pl hpeer => ?_]
    · exact hsound.items id hid
    · rw [boxBook_held, boxBook_held]
      exact (hone pl hpeer).effect.conserves hid
  · refine Server.serve_worlds (P := fun worlds =>
      ∀ world ∈ worlds, Stocked world.sbox1) hsound.stocked ?_
    intro pl hpeer world hworld
    refine (hone pl hpeer).effect.stocked (fun sbox1 hsbox1 => ?_) world.sbox1
      (List.mem_map_of_mem hworld)
    obtain ⟨old, hold, rfl⟩ := List.mem_map.mp hsbox1
    exact hsound.stocked old hold

theorem run_sound (hidle : ∀ pl ∈ start.players, Idle pl)
    (hstocked : ∀ world ∈ start.worlds, Stocked world.sbox1)
    (hrun : Relation.ReflTransGen (Step env guilds) start server) :
    Sound start server := by
  induction hrun with
  | refl => exact ⟨hidle, fun _ _ => rfl, hstocked⟩
  | tail _ hlast ih =>
      cases hlast with
      | message peer now cch =>
          exact ih.serve fun s hs => storageboxxtreme_acts hs cch
      | wrench peer now x y b =>
          exact ih.serve fun s hs => wrench_acts hs x y b

/-- The item at the index that a player remembers. -/
def Remembers (server : Server) (peer : Nat) (id : Int) : Prop :=
  ∃ mine w nr, server.players[peer]? = some mine ∧
    (server.session mine 0).findWorld mine.world = some w ∧
    mine.lastchoosennr = (nr : Nat) ∧ ItemAt (boxes server.worlds) w nr id

theorem Effect.nr {asked : Option Int} {found : Option Nat} {pl next : Player}
    {old new : List (List WorldSBOX1)}
    (heffect : Effect none asked found pl next old new) :
    next.lastchoosennr = pl.lastchoosennr := by
  cases heffect with
  | kept _ _ hnr => exact hnr
  | picked _ _ _ _ hselected => cases hselected
  | stored _ _ _ _ _ _ _ _ _ _ _ hnr => exact hnr
  | taken _ _ _ _ _ _ _ _ _ _ _ _ _ hnr => exact hnr

/-- A message that spares the stacks up to the one remembered, and that is not
the player's own new choice. -/
theorem Remembers.serve {peer other : Nat} {id now : Int}
    {handler : Session → Session} {selected asked : Option Int} {pl : Player}
    (hremembers : Remembers server peer id)
    (hpl : server.players[other]? = some pl)
    (hacts : Acts selected asked (server.session pl now)
      (handler (server.session pl now)))
    (hnone : other = peer → selected = none)
    (hspares : ∀ mine w, server.players[peer]? = some mine →
      (server.session mine 0).findWorld mine.world = some w →
      ∀ (nr : Nat) sbox1 (entry : WorldSBOX1), asked = some entry.count →
        (server.session pl now).findWorld pl.world = some w →
        pl.lastchoosennr = nr → (boxes server.worlds)[w]? = some sbox1 →
        sbox1[nr]? = some entry → mine.lastchoosennr.toNat < nr) :
    Remembers (server.serve other now handler) peer id := by
  obtain ⟨mine, w, nr, hmine, hfound, hnr, hitem⟩ := hremembers
  have hspared := hspares mine w hmine hfound
  rw [hnr, Int.toNat_natCast] at hspared
  have hnext := hacts.effect.itemAt hitem hspared
  have hnames := hacts.frame.names
  unfold Server.serve
  rw [hpl]
  dsimp only
  generalize handler (server.session pl now) = t at hacts hnext hnames
  by_cases hsame : other = peer
  · subst hsame
    obtain rfl := Option.some.inj (hpl.symm.trans hmine)
    have hkept := hnone rfl ▸ hacts.effect
    refine ⟨t.pl, w, nr, ?_, ?_, hkept.nr.trans hnr, hnext⟩
    · exact List.getElem?_set_self (List.getElem?_eq_some_iff.mp hpl).1
    · rw [Session.findWorld_eq_names] at hfound ⊢
      rw [hacts.frame.world]
      exact hnames ▸ hfound
  · refine ⟨mine, w, nr, ?_, ?_, hnr, hnext⟩
    · rw [List.getElem?_set_ne hsame, hmine]
    · rw [Session.findWorld_eq_names] at hfound ⊢
      exact hnames ▸ hfound

theorem Selected.remembers {peer : Nat} {id : Int}
    (hidle : ∀ pl ∈ start.players, Idle pl)
    (hstocked : ∀ world ∈ start.worlds, Stocked world.sbox1)
    (hselected : Selected env guilds start peer id server) :
    Remembers server peer id := by
  induction hselected with
  | pick server now cch pl hrun hpeer hselects =>
      have hacts := @storageboxxtreme_acts env guilds (server.session pl now)
        ((run_sound hidle hstocked hrun).idle pl
          (List.mem_of_getElem? hpeer)) cch
      have hframe := hacts.frame
      have heffect := hacts.effect
      rw [hselects] at heffect
      unfold Server.serve
      rw [hpeer]
      dsimp only
      generalize storageboxxtreme env guilds cch (server.session pl now) = t
        at hframe heffect
      cases heffect with
      | picked w nr sbox1 entry hid hfound hbox hentry hboxes hnr =>
          refine ⟨t.pl, w, nr, ?_, ?_, hnr, sbox1, entry, ?_, hentry, ?_⟩
          · exact List.getElem?_set_self (List.getElem?_eq_some_iff.mp hpeer).1
          · rw [hframe.world, ← hfound]
            exact hframe.findWorld _
          · exact hboxes ▸ hbox
          · exact (Option.some.inj hid).symm
      | kept hnone => cases hnone
      | stored _ _ _ _ _ _ hnone => cases hnone
      | taken _ _ _ _ _ hnone => cases hnone
  | later server other now cch hbefore hnone hspares ih =>
      cases hpl : server.players[other]? with
      | none => simpa [Server.serve, hpl] using ih
      | some pl =>
          refine ih.serve hpl (storageboxxtreme_acts
            ((run_sound hidle hstocked hbefore.run).idle pl
              (List.mem_of_getElem? hpl)) cch) (hnone pl hpl) ?_
          intro mine w hmine hfound
          exact hspares pl mine w hpl hmine hfound
  | wrench server other now x y b hbefore ih =>
      cases hpl : server.players[other]? with
      | none => simpa [Server.serve, hpl] using ih
      | some pl =>
          refine ih.serve hpl (wrench_acts
            ((run_sound hidle hstocked hbefore.run).idle pl
              (List.mem_of_getElem? hpl)) x y b) (fun _ => rfl) ?_
          intro _ _ _ _ _ _ _ hasked
          cases hasked

/-- A `do_take` gives items of the remembered stack, or nothing. -/
theorem Remembers.take {peer : Nat} {id now count : Int} {pl : Player}
    {cch : String} (hremembers : Remembers server peer id)
    (hpl : server.players[peer]? = some pl) (hidle : Idle pl)
    (htakes : takes cch = some count) :
    let next := (storageboxxtreme env guilds cch (server.session pl now)).pl
    next.inv = pl.inv ∨ ∀ other, total other next.inv =
      total other pl.inv + if id = other then count else 0 := by
  obtain ⟨mine, w, nr, hmine, hfound, hnr, sbox1, entry, hbox, hentry, hid⟩ :=
    hremembers
  obtain rfl := Option.some.inj (hpl.symm.trans hmine)
  have hacts := @storageboxxtreme_acts env guilds (server.session pl now) hidle
    cch
  cases hacts.effect with
  | kept _ _ _ _ hinv => exact Or.inl (hinv (by simp [htakes]))
  | picked _ _ _ _ _ _ _ _ _ _ hinv => exact Or.inl hinv
  | stored _ _ _ _ _ _ _ hasked =>
      rw [htakes] at hasked
      cases hasked
  | taken v m other other' given _ hasked hat hstacks hget hold _ _ _ hgiven =>
      obtain rfl := Option.some.inj (hat.symm.trans hfound)
      obtain rfl : m = nr := Int.ofNat.inj (hold.symm.trans hnr)
      obtain rfl := Option.some.inj (hstacks.symm.trans hbox)
      obtain rfl := Option.some.inj (hget.symm.trans hentry)
      obtain rfl := Option.some.inj (hasked.symm.trans htakes)
      exact Or.inr (hid ▸ hgiven.amount)

/-- Over every run, by players without infinite mode, automatic conversion and
automatic sale of fish, every item other than the two keys is conserved and no
stack is empty; and a `do_take` gives items of the stack picked last, as long as
nobody has asked for the whole of a stack at or before it since. -/
theorem storage_runs_conserve (hidle : ∀ pl ∈ start.players, Idle pl)
    (hstocked : ∀ world ∈ start.worlds, Stocked world.sbox1) :
    (∀ server, Relation.ReflTransGen (Step env guilds) start server →
      (∀ id, id ∉ keyIds →
        (boxBook id).total server = (boxBook id).total start) ∧
      ∀ world ∈ server.worlds, ∀ entry ∈ world.sbox1, 1 ≤ entry.count) ∧
    ∀ server peer id, Selected env guilds start peer id server →
      ∀ pl now cch count, server.players[peer]? = some pl →
        takes cch = some count →
        let next := (storageboxxtreme env guilds cch (server.session pl now)).pl
        next.inv = pl.inv ∨ ∀ other, total other next.inv =
          total other pl.inv + if id = other then count else 0 := by
  constructor
  · intro server hrun
    have hsound := run_sound hidle hstocked hrun
    exact ⟨hsound.items, hsound.stocked⟩
  · intro server peer id hselected pl now cch count hpl htakes
    have hsound := run_sound hidle hstocked hselected.run
    exact (hselected.remembers hidle hstocked).take hpl
      (hsound.idle pl (List.mem_of_getElem? hpl)) htakes

/-- A table with one kind of storage box. -/
def boxEnv : Env where
  items := ⟨10000, fun id =>
    if id = 6286 then { blockType := .storage, boxSize := 20 } else {}⟩

/-- A player at a storage box that holds three blocks. -/
def playerAtBox : Server where
  players := [{ inv := [(2, 5), (1424, 1), (0, 0)], world := "START"
                lastwrenchb := 6286, lastchoosenitem := 2 }]
  worlds := [{ name := "START", blocks := [{ fg := 6286 }]
               sbox1 := [{ id := 4, count := 3 }] }]

theorem playerAtBox_idle : ∀ pl ∈ playerAtBox.players, Idle pl := by
  intro pl hpl
  rw [List.mem_singleton.mp hpl]
  exact ⟨⟨by decide, rfl, rfl⟩, rfl⟩

theorem playerAtBox_stocked :
    ∀ world ∈ playerAtBox.worlds, Stocked world.sbox1 := by
  intro world hworld
  rw [List.mem_singleton.mp hworld]
  intro entry hentry
  rw [List.mem_singleton.mp hentry]
  decide

/-- Storing a dirt block costs the player the world key. -/
theorem do_add_loses_key :
    ¬ ∀ (env : Env) (guilds : List Guild) (start server : Server),
      (∀ pl ∈ start.players, Idle pl) →
      (∀ world ∈ start.worlds, Stocked world.sbox1) →
      Relation.ReflTransGen (Step env guilds) start server →
      ∀ id, (boxBook id).total server = (boxBook id).total start := by
  intro hall
  have hkey := hall boxEnv [] playerAtBox _ playerAtBox_idle playerAtBox_stocked
    (.single (.message playerAtBox 0 0 "buttonClicked|do_add\nitemcount|1")) 1424
  exact absurd hkey (by decide +kernel)

/-- The message of a click on the stack in the list, and of taking one. -/
def pickMessage : String :=
  "action|dialog_return\ndialog_name|storageboxxtreme\n" ++
    "buttonClicked|searchableItemListButton_4_3_0\n"

def takeMessage : String :=
  "action|dialog_return\ndialog_name|storageboxxtreme\n" ++
    "buttonClicked|do_take\n\nitemcount|1\n"

/-- The player picks the stack and takes one block of it. -/
theorem pick_and_take :
    let picked := playerAtBox.serve 0 0 (storageboxxtreme boxEnv [] pickMessage)
    let taken := picked.serve 0 0 (storageboxxtreme boxEnv [] takeMessage)
    taken.players.map Player.inv = [[(2, 5), (1424, 1), (4, 1)]] ∧
      (boxBook 4).total taken = (boxBook 4).total playerAtBox ∧
      ∀ pl, picked.players[0]? = some pl →
        let next := (storageboxxtreme boxEnv [] takeMessage
          (picked.session pl 0)).pl
        next.inv = pl.inv ∨ ∀ other, total other next.inv =
          total other pl.inv + if 4 = other then 1 else 0 := by
  have hruns := @storage_runs_conserve boxEnv [] playerAtBox playerAtBox_idle
    playerAtBox_stocked
  have hpick : Selected boxEnv [] playerAtBox 0 4
      (playerAtBox.serve 0 0 (storageboxxtreme boxEnv [] pickMessage)) :=
    .pick playerAtBox 0 pickMessage _ .refl rfl (by decide +kernel)
  refine ⟨by decide +kernel, ?_, fun pl hpl => ?_⟩
  · exact (hruns.1 _ (hpick.run.tail (.message _ 0 0 takeMessage))).1 4
      (by decide)
  · exact hruns.2 _ 0 4 hpick pl 0 takeMessage 1 hpl (by decide +kernel)

end Runs

end StorageBox

end NopyServer
