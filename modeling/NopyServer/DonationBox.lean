/-
Donation boxes: the dialog handler `donation_box_edit`.  A box keeps the list of
its gifts in `donates`, and its block carries the flag `0x00400000` to look full.
-/
import NopyServer.Guilds

namespace NopyServer

open Inventory BoundedLoop

namespace DonationBox

/-- The flag of a block that looks full. -/
def fullFlag : Int := 0x00400000

section Handlers

variable (env : Env) (guilds : List Guild)

def isDonation (block : WorldBlock) : Bool :=
  (env.items.item block.fg.toNat).blockType == .donation

/-- Items that no box takes. -/
def refused (item : Int) : Bool :=
  (env.items.item item).untradeable || item == 1424 || item == 5816 ||
    env.items.isFish item

/-- The choice of an item of the backpack, to be given. -/
def chooseItem (item : Int) (s : Session) : Session :=
  if item < 0 ∨ (env.items.size : Int) < item ∨
      contains s.pl.inv item = 0 then s
  else if refused env item then s
  else if (env.items.item item).rarity = 1 then s
  else s.mapPlayer fun pl => { pl with lastchoosenitem := item }

/-- A gift is put into a box. -/
def putGift (donate : Donate) (block : WorldBlock) : WorldBlock :=
  { block with
    donates := block.donates ++ [donate]
    flags :=
      if flagSet block.flags fullFlag then block.flags
      else block.flags + fullFlag }

/-- The button `give`.  The gift is recorded before it is taken from the
backpack. -/
def give (cch : String) (s : Session) : Session :=
  let count := TextScanner.get cch "count"
  let text := replaceStr (replaceStr (TextScanner.get cch "sign_text") "\n" "")
    "<CR>" ""
  let item := s.pl.lastchoosenitem
  if env.isNumber count = false ∨ item ≤ 0 ∨ (env.items.size : Int) < item then s
  else
    let count := atoi count
    let asked := modify env s item 0 false
    let s := asked.session
    if 128 < text.length ∨ asked.c_ ≤ 0 ∨ count ≤ 0 ∨
        (env.items.size : Int) < count then s
    else if asked.c_ < count ∨ refused env item then s
    else
      match s.findWorld s.pl.world, tileIndex 100 s.pl.lastwrenchx
          s.pl.lastwrenchy with
      | some w, some b =>
          let s := s.freshen w
          match s.block? w b with
          | some block =>
              if isDonation env block then
                let s := s.mapBlock w b
                  (putGift ⟨item, count, s.pl.tankIDName, text⟩)
                (modify env s item (count * -1) false).session
              else s
          | none => s
      | _, _ => s

/-- The state of the loops that take gifts out: the index `i_`, the number
`remove_` of the checkbox, and whether the loop was left by an exception. -/
structure Taking where
  session : Session
  i : Nat := 0
  remove : Nat := 0
  thrown : Bool := false

/-- One iteration.  `chosen` says whether the gift with a number is to be taken,
and nothing where reading its checkbox throws. -/
def takeBody (w b : Nat) (chosen : Nat → Option Bool) (st : Taking) :
    Next Taking :=
  match (st.session.block? w b).bind fun block => block.donates[st.i]? with
  | none => .stop st
  | some donate =>
      match chosen st.remove with
      | none => .stop { st with thrown := true }
      | some false => .again ⟨st.session, st.i + 1, st.remove + 1, false⟩
      | some true =>
          let given := modify env st.session donate.item donate.count false
          if given.ret = 0 then
            .again ⟨given.session.mapBlock w b fun block =>
                { block with donates := block.donates.eraseIdx st.i },
              st.i, st.remove + 1, false⟩
          else .again ⟨given.session, st.i + 1, st.remove + 1, false⟩

/-- The loops of `clear_selected` and `takeall`; every iteration deals with one
of the gifts. -/
def takeLoop (w b : Nat) (chosen : Nat → Option Bool) (block : WorldBlock)
    (s : Session) : Taking :=
  run (takeBody env w b chosen) (block.donates.length + 1) { session := s }

/-- A box that is empty stops looking full. -/
def clearFull (block : WorldBlock) : WorldBlock :=
  if block.donates = [] ∧ flagSet block.flags fullFlag = true then
    { block with flags := block.flags - fullFlag }
  else block

/-- The buttons that take gifts out, in a box the player may open. -/
def takeGifts (chosen : Nat → Option Bool) (s : Session) : Session :=
  match s.findWorld s.pl.world, tileIndex 100 s.pl.lastwrenchx
      s.pl.lastwrenchy with
  | some w, some b =>
      let s := s.freshen w
      match s.worlds[w]?, s.block? w b with
      | some world, some block =>
          if blockAccess env guilds s.pl world block {} = false ∨
              isDonation env block = false then s
          else
            let taken := takeLoop env w b chosen block s
            if taken.thrown then taken.session
            else taken.session.mapBlock w b clearFull
      | _, _ => s
  | _, _ => s

/-- The checkbox of the gift with a number in the words of a message; reading
beyond the words throws. -/
def checkbox (words : List String) (remove : Nat) : Option Bool :=
  words[4 + remove]?.map fun word =>
    atoi ((explode "\n" word).getD 0 "") != 0

/-- The button `clear_selected`. -/
def clearSelected (cch : String) (s : Session) : Session :=
  if (explode "|" cch).length < 4 then s
  else takeGifts env guilds (checkbox (explode "|" cch)) s

/-- The button `takeall`. -/
def takeall (s : Session) : Session :=
  takeGifts env guilds (fun _ => some true) s

/-- `donation_box_edit`. -/
def donationBoxEdit (cch : String) (s : Session) : Session :=
  match TextScanner.tryGet cch "itemid" with
  | some value =>
      match stoi value with
      | some item => chooseItem env item s
      | none => s
  | none =>
      match TextScanner.tryGet cch "buttonClicked" with
      | some button =>
          if button = "give" then give env cch s
          else if button = "clear_selected" then clearSelected env guilds cch s
          else if button = "takeall" then takeall env guilds s
          else s
      | none => s

end Handlers

end DonationBox

end NopyServer
