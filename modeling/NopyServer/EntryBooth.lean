/-
The entry booth: a door whose price is kept in the block as world locks.  The button
`withdraw_a` pays them out in three kinds of locks, up to two hundred of each, into the
backpack or else into the bank.

A call of `Modify` that fails leaves the amount in its argument, so that the bank gets
what the backpack did not.  The balances of the bank are `int`s and wrap.
-/
import NopyServer.Payments
import NopyServer.Guilds

namespace NopyServer

namespace EntryBooth

open Inventory SlotPack

section Definitions

variable (env : Env) (guilds : List Guild)

/-- The local variables of the withdrawal. -/
structure Withdrawal where
  session : Session
  totalWl : Int
  collected : String := ""
  collect : Bool := false
  returned : Bool := false

/-- One kind of lock out of the booth. -/
def withdrawLock (id unit : Int) (name : String) (bank : Int → Player → Player) (w b : Nat)
    (st : Withdrawal) : Withdrawal :=
  if unit ≤ st.totalWl then
    let c := if 200 * unit < st.totalWl then 200 else st.totalWl / unit
    let totalWl := st.totalWl - c * unit
    let s := st.session.mapBlock w b fun block => { block with wl := block.wl - c * unit }
    let given := modify env s id c false
    if given.ret = 0 then
      { st with
        session := given.session, totalWl, collect := true
        collected := st.collected ++ (if st.collected = "" then "" else " and ") ++
          toString c ++ name }
    else
      { st with session := given.session.mapPlayer (bank given.c_), totalWl, returned := true }
  else st

def withdrawLocks (w b : Nat) (st : Withdrawal) : Withdrawal :=
  withdrawLock env 242 1 " World Locks" bankWl w b
    (withdrawLock env 1796 100 " Diamond Locks" bankDl w b
      (withdrawLock env 7188 10000 " Platinum Gem Locks" bankBgl w b st))

/-- What the player is told. -/
def Withdrawal.notices (st : Withdrawal) : List String :=
  let told :=
    if st.collect then "You collected " ++ st.collected
    else "You don't have room in your backpack!"
  (if st.returned then
    ["Some of the World Locks could not fit in your inventory!",
      "We have placed them in your Personal Backpack."]
  else []) ++ [told, told]

/-- The block that was wrenched, in the world of the player. -/
def boothPlace (s : Session) : Option (Nat × Nat) :=
  match s.findWorld s.pl.world, tileIndex 100 s.pl.lastwrenchx s.pl.lastwrenchy with
  | some w, some b => some (w, b)
  | _, _ => none

/-- What `door_edit` asks of the block and the player before it looks at the button. -/
def opensBooth (pl : Player) (world : World) (block : WorldBlock) : Bool :=
  let kind := (env.items.item (if block.fg ≠ 0 then block.fg else block.bg).toNat).blockType
  (kind == .door || kind == .portal) &&
    (blockAccess env guilds pl world block {} || guildAccess guilds pl world.guildId) &&
      block.fg == 10358

/-- The button `withdraw_a` of `door_edit`. -/
def withdrawA (s : Session) : Session × List String :=
  match boothPlace s with
  | none => (s, [])
  | some (w, b) =>
      match s.worlds[w]?, s.block? w b with
      | some world, some block =>
          if opensBooth env guilds s.pl world block = true ∧ block.wl ≠ 0 then
            let st := withdrawLocks env w b { session := s, totalWl := block.wl }
            (st.session, st.notices)
          else (s, [])
      | _, _ => (s, [])

/-- The world locks in the block behind a pointer. -/
def storedLocks (place : Option (Nat × Nat)) (s : Session) : Int :=
  (place.bind fun p => s.block? p.1 p.2).elim 0 WorldBlock.wl

end Definitions

section Exactness

variable {env : Env}

/-- A player to whom `Modify` gives without a callback. -/
structure Ready (pl : Player) : Prop where
  slots : SlotInv pl.inv
  convert : pl.autoConvert = false

/-- Giving locks: they are in the backpack, or the amount is still in the argument. -/
theorem modify_gives (hlocks : env.items.LocksListed) {s : Session} {id c : Int}
    (hready : Ready s.pl) (hmoney : id ∈ moneyIds) (hc : 0 < c) :
    (∃ next left, modify env s id c false = ⟨0, left, { s with pl := next }⟩ ∧
        Given s.pl id c next) ∨
      modify env s id c false = ⟨-1, c, s⟩ := by
  have hsell : c ≤ 0 ∨ s.pl.autosellfish = false ∨ s.pl.autosellfishProcessing = true ∨
      env.items.isFish id = false :=
    Or.inr (Or.inr (Or.inr (money_not_fish hlocks hmoney)))
  rcases modify_plain false hready.slots (money_accepts hlocks hmoney)
      (Or.inl hready.convert) hsell (by omega) with
    ⟨next, left, hgive, hchanged⟩ | ⟨left, hgive, -⟩
  · exact Or.inl ⟨next, left, hgive, hchanged.given⟩
  · have hleft := @modify_left env s id c (by omega) (by rw [hgive]; simp)
    rw [hgive] at hleft ⊢
    obtain rfl : left = c := hleft
    exact Or.inr rfl

theorem Ready.of_given {pl next : Player} {id c : Int} (hready : Ready pl)
    (hgiven : Given pl id c next) : Ready next where
  slots := hgiven.slots
  convert :=
    (Player.core_congr hgiven.core Player.autoConvert fun _ => rfl).trans hready.convert

/-- Nothing is lost between the booth and the player, whose bank has room for the kinds
of locks still to come. -/
structure Settled (w b : Nat) (ids : List Int) (s t : Session) : Prop where
  ready : Ready t.pl
  rooms : ∀ id ∈ ids, BankRoom id t.pl
  found : ∃ block, t.block? w b = some block
  exact : storedLocks (some (w, b)) t + playerLocks t.pl =
    storedLocks (some (w, b)) s + playerLocks s.pl

theorem storedLocks_mapBlock {s : Session} {w b : Nat} {block : WorldBlock}
    (hblock : s.block? w b = some block) (amount : Int) :
    storedLocks (some (w, b))
        (s.mapBlock w b fun block => { block with wl := block.wl - amount }) =
      storedLocks (some (w, b)) s - amount := by
  have hchanged := Session.block?_mapBlock hblock fun block : WorldBlock =>
    { block with wl := block.wl - amount }
  simp [storedLocks, hblock, hchanged]

theorem withdrawLock_settled (hlocks : env.items.LocksListed) {id unit : Int}
    (hmoney : id ∈ moneyIds) (hworth : lockWorth id = unit) (hunit : 0 < unit)
    {bank : Int → Player → Player} (hbank : Books bank id unit)
    (hconvert : ∀ c pl, (bank c pl).autoConvert = pl.autoConvert) (name : String)
    {w b : Nat} {s : Session} {ids : List Int} (hnew : id ∉ ids) {st : Withdrawal}
    (hst : Settled w b (id :: ids) s st.session) :
    Settled w b ids s (withdrawLock env id unit name bank w b st).session := by
  have hlater : ∀ other ∈ ids, BankRoom other st.session.pl := fun other hmem =>
    hst.rooms other (List.mem_cons_of_mem id hmem)
  unfold withdrawLock
  by_cases henough : unit ≤ st.totalWl
  · rw [if_pos henough]
    have hc : 0 < (if 200 * unit < st.totalWl then 200 else st.totalWl / unit) ∧
        (if 200 * unit < st.totalWl then 200 else st.totalWl / unit) ≤ 200 := by
      split
      · decide
      · next hfew =>
          have hone : 1 ≤ st.totalWl / unit :=
            (Int.le_ediv_iff_mul_le hunit).mpr (by omega)
          have hmost : st.totalWl / unit < 201 :=
            (Int.ediv_lt_iff_lt_mul hunit).mpr (by omega)
          omega
    generalize (if 200 * unit < st.totalWl then 200 else st.totalWl / unit) = c at hc
    obtain ⟨block, hblock⟩ := hst.found
    have hstored := storedLocks_mapBlock hblock (c * unit)
    have hfound := Session.block?_mapBlock hblock fun block : WorldBlock =>
      { block with wl := block.wl - c * unit }
    have hexact := hst.exact
    dsimp only
    generalize htaken : (st.session.mapBlock w b fun block =>
      { block with wl := block.wl - c * unit }) = taken at hstored hfound
    have hpl : taken.pl = st.session.pl := by
      rw [← htaken]
      rfl
    have hready : Ready taken.pl := hpl ▸ hst.ready
    rcases modify_gives hlocks hready hmoney hc.1 with ⟨next, left, hgive, hgiven⟩ | hgive
    · rw [hgive]
      refine ⟨hready.of_given hgiven, fun other hmem =>
        hgiven.bankRoom (hpl ▸ hlater other hmem), ⟨_, hfound⟩, ?_⟩
      have hpaid := hgiven.playerLocks
      rw [hworth, hpl] at hpaid
      change storedLocks (some (w, b)) taken + playerLocks next = _
      omega
    · rw [hgive]
      refine ⟨⟨?_, ?_⟩, fun other hmem => ?_, ⟨_, hfound⟩, ?_⟩
      · change SlotInv (bank c taken.pl).inv
        rw [hbank.inv]
        exact hready.slots
      · exact (hconvert c taken.pl).trans hready.convert
      · exact hbank.bankRoom c (fun heq => hnew (heq ▸ hmem)) (hpl ▸ hlater other hmem)
      · have hvalue := hbank.value_stack (hpl ▸ hst.rooms id List.mem_cons_self)
          (Int.le_of_lt hc.1) hc.2
        have hinv := hbank.inv c taken.pl
        change storedLocks (some (w, b)) taken + playerLocks (bank c taken.pl) = _
        unfold playerLocks at hexact ⊢
        rw [hinv, hvalue, hpl]
        omega
  · rw [if_neg henough]
    exact ⟨hst.ready, hlater, hst.found, hst.exact⟩

theorem withdrawLocks_settled (hlocks : env.items.LocksListed) {w b : Nat} {s : Session}
    {st : Withdrawal} (hst : Settled w b [7188, 1796, 242] s st.session) :
    Settled w b [] s (withdrawLocks env w b st).session := by
  have hbgl := @withdrawLock_settled env hlocks 7188 10000 (by decide) rfl (by decide) _
    books_bgl (fun _ _ => rfl) " Platinum Gem Locks" w b s _ (by decide) st hst
  have hdl := @withdrawLock_settled env hlocks 1796 100 (by decide) rfl (by decide) _
    books_dl (fun _ _ => rfl) " Diamond Locks" w b s _ (by decide) _ hbgl
  exact @withdrawLock_settled env hlocks 242 1 (by decide) rfl (by decide) _
    books_wl (fun _ _ => rfl) " World Locks" w b s _ (by decide) _ hdl

/-- What leaves the booth is what the player gets, in the backpack and in the bank, as
long as the bank has room for a stack of each lock. -/
theorem withdrawA_exact (hlocks : env.items.LocksListed) (guilds : List Guild) (s : Session)
    (hslots : SlotInv s.pl.inv) (hconvert : s.pl.autoConvert = false)
    (hrooms : ∀ id ∈ moneyIds, BankRoom id s.pl) :
    storedLocks (boothPlace s) s - storedLocks (boothPlace s) (withdrawA env guilds s).1 =
      playerLocks (withdrawA env guilds s).1.pl - playerLocks s.pl := by
  unfold withdrawA
  cases hplace : boothPlace s with
  | none => simp
  | some place =>
      obtain ⟨w, b⟩ := place
      dsimp only
      split
      · next world block hworld hblock =>
          have hstart : Settled w b [7188, 1796, 242] s s :=
            ⟨⟨hslots, hconvert⟩, by simpa [moneyIds, and_comm, and_assoc] using hrooms,
              ⟨block, hblock⟩, rfl⟩
          split
          · have hend := (@withdrawLocks_settled env hlocks w b s
              { session := s, totalWl := block.wl } hstart).exact
            dsimp only
            omega
          · simp
      · simp

/-- An owner whose backpack is full at a booth. -/
def boothOwner : Player :=
  { tankIDName := "ann", world := "SHOP", inv := [(1796, 200), (242, 1)] }

def booth : World :=
  { name := "SHOP", ownerName := "ann", blocks := [{ fg := 10358, wl := 250 }] }

def boothItems : Items :=
  ⟨20298, fun id => if id = 10358 then { blockType := .door } else {}⟩

theorem boothItems_listed : boothItems.LocksListed :=
  ⟨le_refl _, by decide⟩

-- the two diamond locks have no room, the world locks have
example :
    let t := (withdrawA { items := boothItems } [] { pl := boothOwner, worlds := [booth] }).1
    (t.pl.inv, t.pl.dlBankAmount, t.block? 0 0) =
      ([(1796, 200), (242, 51)], 2, some { fg := 10358, wl := 0 }) := by
  decide +kernel

theorem withdrawA_exact_booth :
    let s : Session := { pl := boothOwner, worlds := [booth] }
    let t := (withdrawA { items := boothItems } [] s).1
    storedLocks (boothPlace s) s - storedLocks (boothPlace s) t =
      playerLocks t.pl - playerLocks s.pl :=
  withdrawA_exact boothItems_listed [] _ (by decide) rfl (by decide)

/-- Two diamond locks more than the bank can count. -/
theorem withdrawA_overflows :
    ¬ ∀ (env : Env) (guilds : List Guild) (s : Session), env.items.LocksListed →
      SlotInv s.pl.inv → s.pl.autoConvert = false →
      storedLocks (boothPlace s) s -
          storedLocks (boothPlace s) (withdrawA env guilds s).1 =
        playerLocks (withdrawA env guilds s).1.pl - playerLocks s.pl := by
  intro hall
  have hexact := hall { items := boothItems } []
    { pl := { boothOwner with dlBankAmount := 2 ^ 31 - 1 }, worlds := [booth] }
    boothItems_listed (by decide) rfl
  exact absurd hexact (by decide +kernel)

end Exactness

end EntryBooth

end NopyServer
